/-
This file writes the two Markdown documents about all modules: the index, in which every category
has a section, and the introduction to the generated files.
-/

import EngineDocs.Document.Page
import EngineDocs.Text.Case

namespace EngineDocs

namespace Index

/-! ### The index -/

/-- Modules are listed by their names in lower case, and names that agree in this by the names
themselves. -/
def listedBefore (a b : ModuleData) : Bool :=
  match Text.compare (Text.lower a.name.toList) (Text.lower b.name.toList) with
  | .lt => true
  | .gt => false
  | .eq => Text.compare a.name.toList b.name.toList != .gt

/-- The modules of a category in the order in which they are listed. -/
def listed (category : String) (modules : List ModuleData) : List ModuleData :=
  (modules.filter (·.category == category)).mergeSort listedBefore

/-- The entry of a module. -/
def entry (data : ModuleData) : String :=
  "- [" ++ data.name ++ "](modules/" ++ data.name ++ "/overview.md)\n"

/-- The section of a category. -/
def sectionText (modules : List ModuleData) (category : String) : String :=
  "\n### " ++ category ++ " Modules\n\n" ++ String.join ((listed category modules).map entry)

/-- The categories that have a section: the configured ones, and that of the plugins when it has a
module. -/
def sectionCategories (categories : List String) (modules : List ModuleData) : List String :=
  categories ++ if modules.any (·.category == pluginsCategory) then [pluginsCategory] else []

/-- The index of all modules. -/
def text (edition : Edition) (categories : List String) (modules : List ModuleData) : String :=
  "# UE" ++ edition.version ++ " Engine API Index\n\n" ++
  "## Overview\n\n" ++
  "Top-level index of the generated engine API documentation. Every module " ++
  "has an API reference, class listing, best practices and usage examples.\n\n" ++
  "- **Engine Version**: " ++ edition.version ++ "\n" ++
  "- **Generated**: " ++ edition.moment.displayText ++ "\n" ++
  "- **Modules**: " ++ Text.number modules.length ++ "\n\n" ++
  "## Modules\n" ++
  String.join ((sectionCategories categories modules).map (sectionText modules)) ++
  "\n## How to Use\n\n" ++
  "1. Browse the module list to find the module you need\n" ++
  "2. Read the module overview for its purpose and dependencies\n" ++
  "3. Check the API reference for concrete interfaces\n" ++
  "4. Check the class page for inheritance information\n" ++
  "5. Use the best practices and examples pages as a starting point\n\n" ++
  "## Layout\n\n" ++
  "Each module directory contains:\n\n" ++
  "- **overview.md**: overview, dependencies and statistics\n" ++
  "- **api.md**: public functions, enums and structs\n" ++
  "- **classes.md**: classes and their base classes\n" ++
  "- **best-practices.md**: heuristic recommendations\n" ++
  "- **examples.md**: generated usage snippets\n\n" ++
  "## Notes\n\n" ++
  "- Generated from engine headers by pattern matching; some entries may be inaccurate\n" ++
  "- Use alongside the official documentation\n" ++
  "- All paths are relative and do not depend on the local engine location\n"

/-! ### The introduction -/

/-- The version of this program. -/
def toolVersion : String := "0.1.0"

/-- The introduction to the generated files. -/
def readme (edition : Edition) : String :=
  "# UE" ++ edition.version ++ " Engine API Documentation\n\n" ++
  "## Overview\n\n" ++
  "API documentation generated from the engine source headers.\n\n" ++
  "## Layout\n\n" ++
  "```\n" ++
  "modules/          # per-module pages\n" ++
  "│   ├── Core/\n" ++
  "│   │   ├── overview.md\n" ++
  "│   │   ├── api.md\n" ++
  "│   │   ├── classes.md\n" ++
  "│   │   ├── best-practices.md\n" ++
  "│   │   └── examples.md\n" ++
  "│   └── ...\n" ++
  "data/             # structured JSON\n" ++
  "│   ├── modules.json\n" ++
  "│   ├── api-index.json\n" ++
  "│   └── <Module>.json\n" ++
  "index.md          # module index\n" ++
  "README.md         # this file\n" ++
  "```\n\n" ++
  "## Usage\n\n" ++
  "### Browsing\n\n" ++
  "1. Open `index.md` for the module list\n" ++
  "2. Pick a module and read its pages\n\n" ++
  "### Querying\n\n" ++
  "`data/modules.json` lists every module with its dependencies and counts; " ++
  "`data/api-index.json` is a flat lookup of every class, function, enum and struct.\n\n" ++
  "## Paths\n\n" ++
  "Paths are recorded relative to the engine root, for example:\n" ++
  "- `Engine/Source/Runtime/Core`\n" ++
  "- `Engine/Source/Editor/LevelEditor`\n\n" ++
  "## Version\n\n" ++
  "- **Engine Version**: " ++ edition.version ++ "\n" ++
  "- **Generator**: ue-api-docs " ++ toolVersion ++ "\n" ++
  "- **Generated**: " ++ edition.moment.displayText ++ "\n\n" ++
  "## Updating\n\n" ++
  "Re-run `ue-api-docs generate`. With incremental mode on, only modules whose " ++
  "extracted data changed are re-rendered.\n"

end Index

end EngineDocs
