/-
This file says where documents go below the output directory, as the changes that writing them
makes to a file tree.
-/

import EngineDocs.Document.DataFile
import EngineDocs.Document.Index
import EngineDocs.FileTree.Write

namespace EngineDocs.Output

/-- The directory of the pages of all modules. -/
def modulesDirectory (output : String) : String := Path.join output "modules"

/-- The directory of the pages of one module. -/
def moduleDirectory (output moduleName : String) : String :=
  Path.join (modulesDirectory output) moduleName

/-- The directory of the data files. -/
def dataDirectory (output : String) : String := Path.join output "data"

/-- The data file of a module. -/
def moduleFile (output moduleName : String) : String :=
  Path.join (dataDirectory output) (moduleName ++ ".json")

/-- Writes the pages of a module. -/
def modulePages (output : String) (edition : Edition) (data : ModuleData) : List Change :=
  let directory := moduleDirectory output data.name
  .directory directory ::
    (Page.all edition data).map fun (name, content) => .file (Path.join directory name) content

/-- Writes a data file. -/
def dataFile (output path : String) (document : Json) : List Change :=
  [.directory (dataDirectory output), .file path (String.ofList document.pretty)]

/-- Writes the data file of a module. -/
def moduleData (output : String) (edition : Edition) (data : ModuleData) : List Change :=
  dataFile output (moduleFile output data.name) (DataFile.ofModule edition data)

/-- Writes the list of all modules. -/
def modulesIndex (output : String) (edition : Edition) (modules : List ModuleData) : List Change :=
  dataFile output (Path.join (dataDirectory output) "modules.json")
    (DataFile.modulesIndex edition modules)

/-- Writes the flat index of all declarations. -/
def apiIndex (output : String) (edition : Edition) (modules : List ModuleData) : List Change :=
  dataFile output (Path.join (dataDirectory output) "api-index.json")
    (DataFile.apiIndex edition modules)

/-- Writes the index of all modules for readers. -/
def index (output : String) (edition : Edition) (categories : List String)
    (modules : List ModuleData) : List Change :=
  [.directory output, .file (Path.join output "index.md") (Index.text edition categories modules)]

/-- Writes the introduction. -/
def readme (output : String) (edition : Edition) : List Change :=
  [.directory output, .file (Path.join output "README.md") (Index.readme edition)]

end EngineDocs.Output
