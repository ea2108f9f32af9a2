/-
This file holds the JSON documents: one file with the data of each module, the list of all modules
with their counts, and the flat index of all declarations.
-/

import EngineDocs.Document.Page

namespace EngineDocs.DataFile

/-- A document: the version and the moment of its edition, and then its own fields. -/
def document (edition : Edition) (fields : List (String × Json)) : Json :=
  .obj ([("version", .str edition.version),
    ("generated_at", .str edition.moment.isoText)] ++ fields)

/-! ### One module -/

/-- The document with the data of a module, its description left out. -/
def ofModule (edition : Edition) (data : ModuleData) : Json :=
  document edition [("module", .obj data.payloadFields)]

/-! ### All modules -/

/-- The counts of a module. -/
def summary (data : ModuleData) : Json :=
  .obj [("name", .str data.name), ("path", .str data.path), ("category", .str data.category),
    ("dependencies", data.dependencies.toJson),
    ("class_count", .nat data.classes.length),
    ("function_count", .nat data.functions.length),
    ("enum_count", .nat data.enums.length),
    ("struct_count", .nat data.structs.length)]

/-- The list of all modules. -/
def modulesIndex (edition : Edition) (modules : List ModuleData) : Json :=
  document edition [("module_count", .nat modules.length),
    ("modules", .arr (modules.map summary))]

/-! ### All declarations -/

/-- The entry of a class in the index. -/
def classEntry (moduleName : String) (record : ClassRecord) : Json :=
  .obj [("name", .str record.name), ("module", .str moduleName),
    ("base_classes", Json.strings record.baseClasses), ("file_path", .str record.filePath)]

/-- The entry of a function in the index. -/
def functionEntry (moduleName : String) (record : FunctionRecord) : Json :=
  .obj [("name", .str record.name), ("module", .str moduleName),
    ("return_type", .str record.returnType), ("file_path", .str record.filePath)]

/-- The entry of a declaration of which the index has only the name. -/
def namedEntry (moduleName name filePath : String) : Json :=
  .obj [("name", .str name), ("module", .str moduleName), ("file_path", .str filePath)]

/-- The flat index of all declarations, in the order of the modules and then of the records. -/
def apiIndex (edition : Edition) (modules : List ModuleData) : Json :=
  document edition [
    ("classes", .arr (modules.flatMap fun data => data.classes.map (classEntry data.name))),
    ("functions", .arr (modules.flatMap fun data => data.functions.map (functionEntry data.name))),
    ("enums", .arr (modules.flatMap fun data =>
      data.enums.map fun record => namedEntry data.name record.name record.filePath)),
    ("structs", .arr (modules.flatMap fun data =>
      data.structs.map fun record => namedEntry data.name record.name record.filePath))]

end EngineDocs.DataFile
