/-
This file holds modules: what discovery finds of one, and what documents are written from. The data
of a module has a JSON form, and the digest of that form is the fingerprint by which an unchanged
module is known again.
-/

import EngineDocs.Declaration.Json
import EngineDocs.Digest
import EngineDocs.Json.Write

namespace EngineDocs

/-- The category of every module that is found among the plugins. -/
def pluginsCategory : String := "Plugins"

/-- A module as discovered on disk. The path is the one for display; the others lead to its rules
file and its directories. -/
structure ModuleInfo where
  name : String
  path : String
  category : String
  buildCsPath : String
  publicDir : Option String
  privateDir : Option String
  deriving DecidableEq

namespace ModuleInfo

/-- Directories that the module does not have are left out. -/
def toJson (info : ModuleInfo) : Json :=
  .obj ([("name", .str info.name), ("path", .str info.path), ("category", .str info.category),
      ("buildCsPath", .str info.buildCsPath)] ++
    Json.optionalField "publicDir" (info.publicDir.map Json.str) ++
    Json.optionalField "privateDir" (info.privateDir.map Json.str))

/-- Reads what is known of a module. -/
def ofJson? (value : Json) : Option ModuleInfo :=
  match value.record? ["name", "path", "category", "buildCsPath", "publicDir", "privateDir"] with
  | some [name, path, category, buildCsPath, publicDir, privateDir] => do
    return {
      name := ← name.bind Json.asString?
      path := ← path.bind Json.asString?
      category := ← category.bind Json.asString?
      buildCsPath := ← buildCsPath.bind Json.asString?
      publicDir := ← Json.optional? Json.asString? publicDir
      privateDir := ← Json.optional? Json.asString? privateDir }
  | _ => none

end ModuleInfo

/-- All that is known of a module once its headers and its rules file are read. -/
structure ModuleData where
  name : String
  path : String
  category : String
  dependencies : Dependencies
  classes : List ClassRecord
  functions : List FunctionRecord
  enums : List EnumRecord
  structs : List StructRecord
  description : Option String
  deriving DecidableEq

namespace ModuleData

/-- The data of a discovered module. -/
def ofInfo (info : ModuleInfo) (dependencies : Dependencies) (declarations : DeclarationSet) :
    ModuleData where
  name := info.name
  path := info.path
  category := info.category
  dependencies := dependencies
  classes := declarations.classes
  functions := declarations.functions
  enums := declarations.enums
  structs := declarations.structs
  description := none

/-- The number of declarations of all kinds. -/
def declarationCount (data : ModuleData) : Nat :=
  data.classes.length + data.functions.length + data.enums.length + data.structs.length

/-- The fields that every document about the module has. -/
def payloadFields (data : ModuleData) : List (String × Json) :=
  [("name", .str data.name), ("path", .str data.path), ("category", .str data.category),
    ("dependencies", data.dependencies.toJson),
    ("classes", .arr (data.classes.map ClassRecord.toJson)),
    ("functions", .arr (data.functions.map FunctionRecord.toJson)),
    ("enums", .arr (data.enums.map EnumRecord.toJson)),
    ("structs", .arr (data.structs.map StructRecord.toJson))]

/-- The JSON form; a missing description is left out. -/
def toJson (data : ModuleData) : Json :=
  .obj (data.payloadFields ++ Json.optionalField "description" (data.description.map Json.str))

/-- Reads the data of a module. -/
def ofJson? (value : Json) : Option ModuleData :=
  match value.record? ["name", "path", "category", "dependencies", "classes", "functions",
    "enums", "structs", "description"] with
  | some [name, path, category, dependencies, classes, functions, enums, structs, description] => do
    return {
      name := ← name.bind Json.asString?
      path := ← path.bind Json.asString?
      category := ← category.bind Json.asString?
      dependencies := ← dependencies.bind Dependencies.ofJson?
      classes := ← classes.bind (Json.asListOf? ClassRecord.ofJson?)
      functions := ← functions.bind (Json.asListOf? FunctionRecord.ofJson?)
      enums := ← enums.bind (Json.asListOf? EnumRecord.ofJson?)
      structs := ← structs.bind (Json.asListOf? StructRecord.ofJson?)
      description := ← Json.optional? Json.asString? description }
  | _ => none

/-- The text that stands for all of the data. -/
def canonicalText (data : ModuleData) : String := String.ofList data.toJson.compact

/-- The fingerprint of the data: the digest of its canonical text. -/
def fingerprint (data : ModuleData) : String := Digest.ofString data.canonicalText

end ModuleData

end EngineDocs
