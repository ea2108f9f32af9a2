/-
This file holds the settings of a run. They come in layers: defaults, then a configuration file,
then the options of the command line, each replacing what it sets.
-/

import EngineDocs.Failure
import EngineDocs.Json.Value

namespace EngineDocs

/-- A kind of document. -/
inductive OutputFormat where
  | markdown
  | json
  deriving DecidableEq

namespace OutputFormat

/-- The name of a format. -/
def label : OutputFormat → String
  | markdown => "markdown"
  | json => "json"

/-- The format with a name. -/
def ofLabel? : String → Option OutputFormat
  | "markdown" => some markdown
  | "json" => some json
  | _ => none

/-- A format is written as its name. -/
def toJson (format : OutputFormat) : Json := .str format.label

/-- Reads a format from its name. -/
def ofJson? (value : Json) : Option OutputFormat := value.asName?.bind ofLabel?

end OutputFormat

/-- The settings of a run, with their defaults. -/
structure Settings where
  /-- The directory that holds the directories of the categories. -/
  sourceDir : String := "Engine/Source"
  /-- The directory below which plugins are looked for. -/
  pluginsDir : Option String := none
  outputDir : String := "docs/ue5-api"
  engineVersion : String := "5.1"
  /-- The categories in the order in which they are documented. -/
  moduleCategories : List String := ["Runtime", "Editor", "Developer", "Programs"]
  /-- Patterns for the names of directories that are no modules. -/
  excludeDirs : List String := ["ThirdParty"]
  formats : List OutputFormat := [.markdown, .json]
  /-- Whether modules whose data did not change are left as they are. -/
  incremental : Bool := true
  parallelThreads : Nat := 4
  deriving DecidableEq

/-- The settings that an upper layer replaces. -/
structure Overrides where
  sourceDir : Option String := none
  pluginsDir : Option String := none
  outputDir : Option String := none
  engineVersion : Option String := none
  moduleCategories : Option (List String) := none
  excludeDirs : Option (List String) := none
  formats : Option (List OutputFormat) := none
  incremental : Option Bool := none
  parallelThreads : Option Nat := none
  deriving DecidableEq

namespace Settings

/-- The settings with an upper layer on them. -/
def override (settings : Settings) (layer : Overrides) : Settings where
  sourceDir := layer.sourceDir.getD settings.sourceDir
  pluginsDir := layer.pluginsDir.or settings.pluginsDir
  outputDir := layer.outputDir.getD settings.outputDir
  engineVersion := layer.engineVersion.getD settings.engineVersion
  moduleCategories := layer.moduleCategories.getD settings.moduleCategories
  excludeDirs := layer.excludeDirs.getD settings.excludeDirs
  formats := layer.formats.getD settings.formats
  incremental := layer.incremental.getD settings.incremental
  parallelThreads := layer.parallelThreads.getD settings.parallelThreads

/-- Checks that there is something to do and someone to do it. -/
def validate (settings : Settings) : Except ConfigError Unit :=
  if settings.moduleCategories.isEmpty then .error .noCategories
  else if settings.formats.isEmpty then .error .noFormats
  else if settings.parallelThreads == 0 then .error .noThreads
  else .ok ()

/-- Whether documents of a format are wanted. -/
def wants (settings : Settings) (format : OutputFormat) : Bool := settings.formats.contains format

/-! ### JSON form -/

/-- The names of the fields in order. -/
def fieldNames : List String :=
  ["source_dir", "plugins_dir", "output_dir", "engine_version", "module_categories",
   "exclude_dirs", "formats", "incremental", "parallel_threads"]

/-- Settings as JSON, with all fields. -/
def toJson (settings : Settings) : Json :=
  .obj [("source_dir", .str settings.sourceDir),
    ("plugins_dir", (settings.pluginsDir.map Json.str).getD .null),
    ("output_dir", .str settings.outputDir),
    ("engine_version", .str settings.engineVersion),
    ("module_categories", Json.strings settings.moduleCategories),
    ("exclude_dirs", Json.strings settings.excludeDirs),
    ("formats", .arr (settings.formats.map OutputFormat.toJson)),
    ("incremental", .bool settings.incremental),
    ("parallel_threads", .nat settings.parallelThreads)]

/-- Reads settings; a field that is missing has its default. -/
def ofJson? (value : Json) : Option Settings :=
  let default : Settings := {}
  match value.record? fieldNames with
  | some [sourceDir, pluginsDir, outputDir, engineVersion, moduleCategories, excludeDirs, formats,
      incremental, parallelThreads] => do
    return {
      sourceDir := ← Json.defaulted? Json.asString? default.sourceDir sourceDir
      pluginsDir := ← Json.optional? Json.asString? pluginsDir
      outputDir := ← Json.defaulted? Json.asString? default.outputDir outputDir
      engineVersion := ← Json.defaulted? Json.asString? default.engineVersion engineVersion
      moduleCategories :=
        ← Json.defaulted? Json.asStrings? default.moduleCategories moduleCategories
      excludeDirs := ← Json.defaulted? Json.asStrings? default.excludeDirs excludeDirs
      formats := ← Json.defaulted? (Json.asListOf? OutputFormat.ofJson?) default.formats formats
      incremental := ← Json.defaulted? Json.asBool? default.incremental incremental
      parallelThreads := ← Json.defaulted? Json.asNat? default.parallelThreads parallelThreads }
  | _ => none

end Settings

end EngineDocs
