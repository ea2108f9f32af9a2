/-
This file holds a whole run: modules are found, their headers are read, the documents of those that
changed are written, then the indices, and last the report. A run is a function of the file tree,
the settings and the clock; it gives the tree afterwards and the report, or the cause for which
there is none.
-/

import EngineDocs.Discovery.Modules
import EngineDocs.Document.Output
import EngineDocs.Generation.Fingerprints
import EngineDocs.Generation.Report
import EngineDocs.Settings

namespace EngineDocs.Generation

/-- What a run is told of time: when it takes place, and how long its parts take. -/
structure Clock where
  moment : Moment
  extracting : Duration := {}
  rendering : Duration := {}
  total : Duration := {}

/-! ### Finding modules -/

/-- The scanner for the settings. -/
def scanner (settings : Settings) : Except ConfigError Scanner :=
  Scanner.create settings.sourceDir settings.moduleCategories settings.excludeDirs

/-- The modules of the engine in the order of their categories, then those of plugins. -/
def scanModules (settings : Settings) (tree : FileTree) : Except Failure (List ModuleInfo) := do
  if !tree.isDirectory settings.sourceDir then throw (.sourceNotFound settings.sourceDir)
  match scanner settings with
  | .error error => throw (.config error)
  | .ok scanner =>
    let plugins := (settings.pluginsDir.map (scanner.scanPlugins tree)).getD []
    let modules := scanner.scan tree ++ plugins
    if modules.isEmpty then throw (.noModules settings.sourceDir)
    return modules

/-! ### Reading modules -/

/-- The warnings about the headers of a module. -/
def skippedWarnings (processed : ProcessedModule) : List String :=
  processed.skipped.map fun (path, failure) => "Skipped " ++ path ++ ": " ++ failure.message

/-- The sum of counts. -/
def total (counts : List Nat) : Nat := counts.foldr (· + ·) 0

/-- The report once all modules are read. -/
def reportExtraction (settings : Settings) (clock : Clock) (processed : List ProcessedModule) :
    Report :=
  let progress := processed.foldl
    (fun (progress : Progress) processed => progress.record (.done processed.data.declarationCount))
    (Progress.record {} (.start "Extracting"))
  { engineVersion := settings.engineVersion
    outputDir := settings.outputDir
    modulesFound := processed.length
    modulesProcessed := processed.length
    filesParsed := total (processed.map (·.filesParsed))
    declarations := total (processed.map (·.data.declarationCount))
    stages := [progress.finish clock.extracting]
    warnings := processed.flatMap skippedWarnings }

/-! ### Writing modules -/

/-- What the documents of a run depend on apart from the modules: documents are made anew when this
changes. -/
def renderContext (settings : Settings) : String :=
  settings.engineVersion ++ "|" ++
    String.intercalate "," (settings.formats.map OutputFormat.label) ++ "|" ++
    String.intercalate "," settings.moduleCategories

/-- Whether the documents of a module are there, going by one of each wanted format. -/
def outputsPresent (settings : Settings) (tree : FileTree) (name : String) : Bool :=
  (!settings.wants .markdown ||
    tree.isFile (Path.join (Output.moduleDirectory settings.outputDir name) "overview.md")) &&
  (!settings.wants .json || tree.isFile (Output.moduleFile settings.outputDir name))

/-- A module and its fingerprint. -/
abbrev Fingerprinted := ModuleData × String

/-- Whether a module may be left as it is. -/
def isCurrent (settings : Settings) (tree : FileTree) (store : FingerprintStore)
    (candidate : Fingerprinted) : Bool :=
  settings.incremental && store.isUnchanged candidate.1.name candidate.2 &&
    outputsPresent settings tree candidate.1.name

/-- The edition of the documents of a run. -/
def edition (settings : Settings) (clock : Clock) : Edition :=
  ⟨settings.engineVersion, clock.moment⟩

/-- Writes the wanted documents of a module. -/
def moduleChanges (settings : Settings) (edition : Edition) (data : ModuleData) : List Change :=
  (if settings.wants .markdown then Output.modulePages settings.outputDir edition data else []) ++
  (if settings.wants .json then Output.moduleData settings.outputDir edition data else [])

/-- Modules whose documents were written or not, each with the fault that prevented it. -/
abbrev Rendered := List (Fingerprinted × Option Fault)

/-- Writes the documents of modules one after another. -/
def renderAll (settings : Settings) (edition : Edition) :
    FileTree → List Fingerprinted → FileTree × Rendered
  | tree, [] => (tree, [])
  | tree, candidate :: pending =>
    let (tree, fault) := Change.performAll tree (moduleChanges settings edition candidate.1)
    let (tree, rendered) := renderAll settings edition tree pending
    (tree, (candidate, fault) :: rendered)

/-- The warning about a module whose documents could not be written. -/
def renderWarning (name : String) (fault : Fault) : String :=
  "Failed to render module " ++ name ++ ": Render error for " ++ name ++ ": " ++
    (Failure.io fault).message

/-- The call that counts a module. -/
def renderEvent : Fingerprinted × Option Fault → Progress.Event
  | (candidate, none) => .done candidate.1.declarationCount
  | (_, some _) => .failed

/-- Notes the fingerprints of modules that are up to date. -/
def recordAll (store : FingerprintStore) (modules : List Fingerprinted) : FingerprintStore :=
  modules.foldl (fun store candidate => store.record candidate.1.name candidate.2) store

/-- Saves the fingerprints when the run is an incremental one, and gives a warning when that
fails. -/
def saveFingerprints (settings : Settings) (store : FingerprintStore) (tree : FileTree) :
    FileTree × List String :=
  if settings.incremental then
    match Change.performAll tree store.changes with
    | (tree, none) => (tree, [])
    | (tree, some fault) =>
      (tree, ["Failed to save fingerprints: " ++ (Failure.io fault).message])
  else (tree, [])

/-- Writes the documents of all modules that are not up to date. -/
def renderModules (settings : Settings) (clock : Clock) (modules : List ModuleData)
    (report : Report) (tree : FileTree) : FileTree × Report :=
  let store := FingerprintStore.load tree (Output.dataDirectory settings.outputDir)
    (renderContext settings)
  let candidates := modules.map fun data => (data, data.fingerprint)
  let unchanged := candidates.filter (isCurrent settings tree store)
  let pending := candidates.filter fun candidate => !isCurrent settings tree store candidate
  let (tree, rendered) := renderAll settings (edition settings clock) tree pending
  let progress := (rendered.map renderEvent).foldl Progress.record
    (Progress.record {} (.start "Rendering"))
  let written := (rendered.filter (·.2.isNone)).map Prod.fst
  let (tree, saveWarnings) :=
    saveFingerprints settings (recordAll store (unchanged ++ written)) tree
  let renderWarnings := rendered.filterMap fun (candidate, fault) =>
    fault.map (renderWarning candidate.1.name)
  (tree, { report with
    modulesUnchanged := unchanged.length
    modulesRendered := written.length
    stages := report.stages ++ [progress.finish clock.rendering]
    warnings := report.warnings ++ renderWarnings ++ saveWarnings })

/-! ### Writing indices -/

/-- Carries out changes when they are wanted, and gives an error when that fails. -/
def attempt (wanted : Bool) (complaint : String) (changes : List Change) (tree : FileTree) :
    FileTree × List String :=
  if wanted then
    match Change.performAll tree changes with
    | (tree, none) => (tree, [])
    | (tree, some fault) => (tree, [complaint ++ (Failure.io fault).message])
  else (tree, [])

/-- Writes the indices of all modules in the wanted formats. -/
def renderIndices (settings : Settings) (clock : Clock) (modules : List ModuleData)
    (report : Report) (tree : FileTree) : FileTree × Report :=
  let output := settings.outputDir
  let edition := edition settings clock
  let (tree, markdownErrors) :=
    attempt (settings.wants .markdown) "Failed to generate markdown index: "
      (Output.index output edition settings.moduleCategories modules ++
        Output.readme output edition) tree
  let (tree, jsonErrors) :=
    attempt (settings.wants .json) "Failed to generate JSON index: "
      (Output.modulesIndex output edition modules ++ Output.apiIndex output edition modules) tree
  (tree, { report with errors := report.errors ++ markdownErrors ++ jsonErrors })

/-! ### The run -/

/-- Carries out a run. -/
def run (settings : Settings) (clock : Clock) (tree : FileTree) :
    FileTree × Except Failure Report :=
  match scanModules settings tree with
  | .error failure => (tree, .error failure)
  | .ok modules =>
    let processed := modules.map (ModuleInfo.process tree)
    let all := processed.map (·.data)
    let report := reportExtraction settings clock processed
    let (tree, report) := renderModules settings clock all report tree
    let (tree, report) := renderIndices settings clock all report tree
    let report := { report with elapsed := clock.total }
    match Change.performAll tree (report.changes clock.moment) with
    | (tree, none) => (tree, .ok report)
    | (tree, some fault) => (tree, .error (.io fault))

end EngineDocs.Generation
