/-
This file carries out commands. A command reads and changes a file tree, and ends with a status and
what it printed.
-/

import EngineDocs.Command.Invocation
import EngineDocs.Generation.Run
import EngineDocs.Settings.File

namespace EngineDocs

/-- How a command ended: its status, what it printed, and the line about its failure. -/
structure Outcome where
  status : Nat
  output : String
  error : Option String
  deriving DecidableEq

namespace Outcome

/-- The end of a command that did what it was asked to. -/
def success (output : String) : Outcome := ⟨0, output, none⟩

/-- The first line of a message. -/
def firstLine (message : String) : String :=
  let line := message.toList.takeWhile (· != '\n')
  String.ofList (if line.getLast? == some '\r' then line.dropLast else line)

/-- The end of a command that failed after it printed something. -/
def failure (output message : String) : Outcome :=
  ⟨1, output, some ("Error: " ++ firstLine message)⟩

/-- The end of a command whose arguments make no sense. -/
def usage : Outcome := ⟨2, "", none⟩

/-- The end of a command that gives its output or fails. -/
def ofExcept : Except Failure String → Outcome
  | .ok output => success output
  | .error cause => failure "" cause.message

end Outcome

namespace Command

/-- Lines of output. -/
def lines (texts : List String) : String := String.join (texts.map (· ++ "\n"))

/-- A JSON value as output. -/
def jsonOutput (value : Json) : String := String.ofList value.pretty ++ "\n"

/-! ### Settings -/

/-- The settings in a configuration file, or the defaults when there is none. -/
def loadSettings (tree : FileTree) : Option String → Except Failure Settings
  | none => .ok {}
  | some path =>
    match tree.readText path with
    | .error fault => .error (.io fault)
    | .ok content =>
      match Settings.ofText? content with
      | some settings => .ok settings
      | none => .error .yaml

/-- The layer of settings that a command makes. -/
def layer : Command → Overrides
  | generate layer => layer
  | scan layer _ => layer
  | _ => {}

/-- The settings of a command. -/
def resolveSettings (command : Command) (tree : FileTree) (configFile : Option String) :
    Except Failure Settings := do
  let settings := (← loadSettings tree configFile).override command.layer
  match settings.validate with
  | .ok () => return settings
  | .error error => throw (.config error)

/-! ### Generating documents -/

/-- The name of the log file. -/
def logName : String := "generation.log"

/-- Opens a file for lines to be added at its end. -/
def openLog (tree : FileTree) (path : String) : FileTree × Option Fault :=
  match tree.lookup path with
  | .ok (_, .file _) => (tree, none)
  | _ => Change.perform tree (.file path "")

/-- Makes the output directory with the log file in it. -/
def prepareLog (tree : FileTree) (outputDir : String) : FileTree × Option Fault :=
  match Change.perform tree (.directory outputDir) with
  | (tree, none) => openLog tree (Path.join outputDir logName)
  | failed => failed

/-- What is printed before documents are generated. -/
def generateHeading (settings : Settings) : String :=
  lines (["Source directory: " ++ settings.sourceDir] ++
    (match settings.pluginsDir with
      | some pluginsDir => ["Plugins directory: " ++ pluginsDir]
      | none => []) ++
    ["Output directory: " ++ settings.outputDir,
      "Engine version: " ++ settings.engineVersion,
      "Categories: " ++ String.intercalate ", " settings.moduleCategories, ""])

/-- Writes the documents of all modules. -/
def runGenerate (settings : Settings) (clock : Generation.Clock) (tree : FileTree) :
    FileTree × Outcome :=
  match prepareLog tree settings.outputDir with
  | (tree, some fault) => (tree, .failure "" fault.message)
  | (tree, none) =>
    let heading := generateHeading settings
    match Generation.run settings clock tree with
    | (tree, .error cause) => (tree, .failure heading cause.message)
    | (tree, .ok report) =>
      let output := heading ++ report.summary ++ "\n"
      if report.hasErrors then
        (tree, .failure output
          ("generation finished with " ++ Text.number report.errors.length ++ " error(s)"))
      else (tree, .success output)

/-! ### Listing modules -/

/-- How many modules each category has, with the plugins last when there are any. -/
def reportedCounts (scanner : Scanner) (modules : List ModuleInfo) : List (String × Nat) :=
  let plugins := (modules.filter (·.category == pluginsCategory)).length
  scanner.categoryCounts modules ++ if 0 < plugins then [(pluginsCategory, plugins)] else []

/-- The modules and counts as JSON. -/
def scanJson (counts : List (String × Nat)) (modules : List ModuleInfo) : Json :=
  .obj [("module_count", .nat modules.length),
    ("categories", .arr (counts.map fun (category, count) =>
      .obj [("category", .str category), ("count", .nat count)])),
    ("modules", .arr (modules.map ModuleInfo.toJson))]

/-- The line of a module. -/
def moduleLine (info : ModuleInfo) : String :=
  info.name ++ " [" ++ info.category ++ "] " ++ info.path ++
    if info.publicDir.isSome then "" else " (no Public/)"

/-- Lists the modules. -/
def runScan (settings : Settings) (tree : FileTree) (format : String) : Except Failure String := do
  let modules ← Generation.scanModules settings tree
  let scanner ← (Generation.scanner settings).mapError .config
  let counts := reportedCounts scanner modules
  if format == "json" then return jsonOutput (scanJson counts modules)
  return lines (["Found " ++ Text.number modules.length ++ " modules:"] ++
    counts.map (fun (category, count) => "  " ++ category ++ ": " ++ Text.number count) ++
    [""] ++ modules.map moduleLine)

/-! ### Showing declarations -/

/-- The lines of one kind of declarations; none when there are none. -/
def declarationLines {α : Type} (heading : String) (line : α → String) (records : List α) :
    List String :=
  if records.isEmpty then []
  else (heading ++ " (" ++ Text.number records.length ++ "):") :: records.map fun record =>
    "  " ++ line record

/-- The line of a class, with its base classes when it has any. -/
def classLine (record : ClassRecord) : String :=
  if record.baseClasses.isEmpty then record.name
  else record.name ++ " : " ++ String.intercalate ", " record.baseClasses

/-- The line of a function, with the types and names of its parameters. -/
def functionLine (record : FunctionRecord) : String :=
  let parameters := record.parameters.map fun parameter =>
    String.ofList (Text.trim (parameter.type ++ " " ++ parameter.name).toList)
  record.returnType ++ " " ++ record.name ++ "(" ++ String.intercalate ", " parameters ++ ")"

/-- The line of an enumeration, with the names of its values. -/
def enumLine (record : EnumRecord) : String :=
  record.name ++ " \x7b " ++ String.intercalate ", " (record.values.map (·.name)) ++ " \x7d"

/-- The lines of a set of declarations. -/
def setLines (set : DeclarationSet) : List String :=
  if set.isEmpty then ["No declarations found"]
  else declarationLines "Classes" classLine set.classes ++
    declarationLines "Functions" functionLine set.functions ++
    declarationLines "Enums" enumLine set.enums ++
    declarationLines "Structs" StructRecord.name set.structs

/-- Shows the declarations of a header or of a directory of headers. -/
def runParse (tree : FileTree) (path format : String) : Except Failure String := do
  let set ←
    if tree.isDirectory path then pure (Headers.parse tree path).declarations
    else Headers.parseFile tree path
  if format == "json" then return jsonOutput set.toJson
  return lines (setLines set)

/-! ### Showing dependencies -/

/-- The lines of the dependencies of a kind. -/
def kindLines (dependencies : Dependencies) (kind : DependencyKind) : List String :=
  declarationLines kind.rulesField id (dependencies.get kind)

/-- Shows the dependencies in a rules file. -/
def runDeps (tree : FileTree) (path format : String) : Except Failure String :=
  match tree.readText path with
  | .error fault => .error (.io fault)
  | .ok content =>
    let dependencies := Rules.parse content
    if format == "json" then .ok (jsonOutput dependencies.toJson)
    else
      let moduleLines :=
        match Rules.moduleName? content with
        | some name => ["Module: " ++ name]
        | none => []
      .ok (lines (moduleLines ++
        if dependencies.isEmpty then ["No dependencies found"]
        else DependencyKind.all.flatMap (kindLines dependencies)))

/-! ### The program -/

/-- Carries out an invocation. -/
def runInvocation (invocation : Invocation) (clock : Generation.Clock) (tree : FileTree) :
    FileTree × Outcome :=
  match invocation.command.resolveSettings tree invocation.configFile with
  | .error cause => (tree, .failure "" cause.message)
  | .ok settings =>
    match invocation.command with
    | generate _ => runGenerate settings clock tree
    | scan _ format => (tree, .ofExcept (runScan settings tree format))
    | parse path format => (tree, .ofExcept (runParse tree path format))
    | deps path format => (tree, .ofExcept (runDeps tree path format))

/-- The name and the version of the program. -/
def versionText : String := "ue-api-docs " ++ Index.toolVersion ++ "\n"

/-- Runs the program with its arguments. -/
def run (arguments : List String) (clock : Generation.Clock) (tree : FileTree) :
    FileTree × Outcome :=
  match Invocation.read arguments with
  | .ok invocation => runInvocation invocation clock tree
  | .error .usage => (tree, .usage)
  | .error .help => (tree, .success "")
  | .error .version => (tree, .success versionText)

end Command

end EngineDocs
