/-
This file finds modules. A module is a directory with a rules file of its own name and with a
public or a private part. The modules of the engine lie in the directories of their categories;
those of plugins lie anywhere below the plugins directory.
-/

import EngineDocs.Discovery.DisplayPath
import EngineDocs.Discovery.Exclude
import EngineDocs.Discovery.Headers
import EngineDocs.Module
import EngineDocs.Rules

namespace EngineDocs

/-- Where modules are looked for. -/
structure Scanner where
  sourceDir : String
  categories : List String
  exclude : ExcludeList

namespace Scanner

/-- The ending of the name of a rules file. -/
def rulesSuffix : Text := ".Build.cs".toList

/-- A scanner; the first exclude entry that is not a pattern is reported. -/
def create (sourceDir : String) (categories exclude : List String) :
    Except ConfigError Scanner := do
  return ⟨sourceDir, categories, ← ExcludeList.read exclude⟩

/-- The module in a directory, when it has a public or a private part. -/
def moduleInfo? (scanner : Scanner) (tree : FileTree)
    (directory name category rulesPath : String) : Option ModuleInfo :=
  let publicDir := Path.join directory "Public"
  let privateDir := Path.join directory "Private"
  if tree.isDirectory publicDir || tree.isDirectory privateDir then
    some {
      name, category
      path := DisplayPath.ofModule directory scanner.sourceDir
      buildCsPath := rulesPath
      publicDir := if tree.isDirectory publicDir then some publicDir else none
      privateDir := if tree.isDirectory privateDir then some privateDir else none }
  else none

/-! ### Engine modules -/

/-- The module in an entry of the directory of a category. -/
def entryModule? (scanner : Scanner) (tree : FileTree) (category categoryPath : String)
    (entry : String × Item) : Option ModuleInfo :=
  let (name, item) := entry
  let directory := Path.join categoryPath name
  let rulesPath := Path.join directory (name ++ String.ofList rulesSuffix)
  if item.isDirectory && !scanner.exclude.excludes name && tree.isFile rulesPath then
    scanner.moduleInfo? tree directory name category rulesPath
  else none

/-- The modules of a category, in the order of their names. -/
def scanCategory (scanner : Scanner) (tree : FileTree) (category : String) : List ModuleInfo :=
  let categoryPath := Path.join scanner.sourceDir category
  match tree.lookup categoryPath with
  | .ok (location, .directory) =>
    (tree.entries location).filterMap (scanner.entryModule? tree category categoryPath)
  | _ => []

/-- The modules of all categories, in the order of the categories. -/
def scan (scanner : Scanner) (tree : FileTree) : List ModuleInfo :=
  scanner.categories.flatMap (scanner.scanCategory tree)

/-! ### Plugin modules -/

/-- The name that a rules file gives to its module. -/
def rulesName? (fileName : String) : Option String :=
  (Text.after? rulesSuffix.reverse fileName.toList.reverse).map fun name =>
    String.ofList name.reverse

/-- The module whose rules file lies at the end of `names` below the plugins directory, unless a
directory on the way there is left out. -/
def pluginModule? (scanner : Scanner) (tree : FileTree) (pluginsDir : String)
    (names : List String) (item : Item) : Option ModuleInfo := do
  let rulesPath := Headers.descend pluginsDir names
  let name ← rulesName? (names.getLast?.getD "")
  let directory ← Path.parent? rulesPath
  if item.isFile && !names.dropLast.any scanner.exclude.excludes &&
      Path.lastName? directory == some name.toList then
    scanner.moduleInfo? tree directory name pluginsCategory rulesPath
  else none

/-- The modules below the plugins directory, in the order of their rules files. -/
def scanPlugins (scanner : Scanner) (tree : FileTree) (pluginsDir : String) : List ModuleInfo :=
  match tree.lookup pluginsDir with
  | .ok (location, .directory) =>
    (tree.shown location).filterMap fun (names, item) =>
      scanner.pluginModule? tree pluginsDir names item
  | _ => []

/-! ### Counts -/

/-- How many of the modules belong to each configured category, in the order of the categories. -/
def categoryCounts (scanner : Scanner) (modules : List ModuleInfo) : List (String × Nat) :=
  scanner.categories.map fun category =>
    (category, (modules.filter (·.category == category)).length)

end Scanner

/-! ### Reading a module -/

/-- The data of a module and what became of its headers. -/
structure ProcessedModule where
  data : ModuleData
  filesParsed : Nat
  skipped : List (String × Failure)

/-- The dependencies in a rules file. One that cannot be read has none. -/
def readDependencies (tree : FileTree) (rulesPath : String) : Dependencies :=
  match tree.readText rulesPath with
  | .ok content => Rules.parse content
  | .error _ => {}

/-- Reads the rules file and the public headers of a module. -/
def ModuleInfo.process (tree : FileTree) (info : ModuleInfo) : ProcessedModule :=
  let parsed : Headers.Parsed :=
    match info.publicDir with
    | some publicDir => Headers.parse tree publicDir
    | none => {}
  { data := ModuleData.ofInfo info (readDependencies tree info.buildCsPath) parsed.declarations
    filesParsed := parsed.filesParsed
    skipped := parsed.skipped }

end EngineDocs
