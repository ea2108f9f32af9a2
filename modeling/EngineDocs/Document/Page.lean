/-
This file writes the five Markdown pages of a module: overview, reference of functions, enums and
structs, classes, recommendations and examples. Names and types are written as they were read.
-/

import EngineDocs.Calendar
import EngineDocs.Document.Example
import EngineDocs.Document.Practice

namespace EngineDocs

/-- What a set of documents has in common: the version of the engine they describe and the moment
they were made. -/
structure Edition where
  version : String
  moment : Moment

namespace Page

/-! ### Declarations -/

/-- The export macros that are not shown. -/
def hiddenMacros : List Text := ["CORE_API".toList, "ENGINE_API".toList]

/-- A return type as shown: with single spaces, and without its first word when it starts with an
export macro that is not shown. Nothing left is shown as `void`. -/
def displayReturnType (raw : Text) : Text :=
  let collapsed := Text.joinWith [' '] (Text.words raw)
  if hiddenMacros.any fun hidden => Text.startsWith hidden collapsed then
    match collapsed.dropWhile (· != ' ') with
    | _ :: rest => rest
    | [] => "void".toList
  else collapsed

/-- The parameters of a function as shown. -/
def displayParameters (parameters : List Parameter) : String :=
  String.intercalate ", " (parameters.map fun parameter => parameter.type ++ " " ++ parameter.name)

/-- The text, or another one in its place when it is empty. -/
def orElse (text placeholder : String) : String := if text.isEmpty then placeholder else text

/-- The entry of a function. -/
def formatFunction (record : FunctionRecord) : String :=
  let parameters := displayParameters record.parameters
  let returnType := String.ofList (displayReturnType record.returnType.toList)
  "### " ++ (if record.isStatic then "static " else "") ++
    (if record.isVirtual then "virtual " else "") ++ record.name ++ "\n\n" ++
  "```cpp\n" ++ returnType ++ " " ++ record.name ++ "(" ++ parameters ++ ");\n```\n\n" ++
  "- **Returns**: `" ++ returnType ++ "`\n" ++
  "- **Parameters**: " ++ orElse parameters "None" ++ "\n" ++
  "- **File**: `" ++ record.filePath ++ "`\n\n"

/-- The line of an enumerator. -/
def formatEnumerator (enumerator : Enumerator) : String :=
  if enumerator.hasValue then "    " ++ enumerator.name ++ " = " ++ enumerator.value ++ ",\n"
  else "    " ++ enumerator.name ++ ",\n"

/-- The entry of an enumeration. -/
def formatEnum (record : EnumRecord) : String :=
  "### " ++ record.name ++ "\n\n```cpp\nenum " ++ record.name ++ " \x7b\n" ++
  String.join (record.values.map formatEnumerator) ++
  "\x7d;\n```\n\n- **File**: `" ++ record.filePath ++ "`\n\n"

/-- The entry of a struct. -/
def formatStruct (record : StructRecord) : String :=
  "### " ++ record.name ++ "\n\n- **File**: `" ++ record.filePath ++ "`\n\n"

/-- At most this many member functions of a class are listed. -/
def maxListedMembers : Nat := 5

/-- The member functions of a class. -/
def formatMembers (members : List Member) : String :=
  if members.isEmpty then ""
  else "\n### Key Member Functions\n\n" ++
    String.join (((members.filter (·.type == "function")).take maxListedMembers).map fun member =>
      "- `" ++ member.name ++ "()`\n")

/-- The entry of a class. -/
def formatClass (record : ClassRecord) : String :=
  let bases := String.intercalate ", " record.baseClasses
  "## " ++ record.name ++ "\n\n```cpp\nclass " ++ record.name ++
    (if bases.isEmpty then "" else " : public " ++ bases) ++ " \x7b\n    // ...\n\x7d;\n```\n\n" ++
  "- **Base Classes**: " ++ orElse bases "None" ++ "\n" ++
  "- **File**: `" ++ record.filePath ++ "`\n\n" ++
  formatMembers record.members ++ "\n"

/-! ### Pages -/

/-- A list with one item on a line. -/
def plainList (items : List String) : String :=
  if items.isEmpty then "- None\n" else String.join (items.map fun item => "- " ++ item ++ "\n")

/-- A list of modules with links to their pages. -/
def linkList (names : List String) : String :=
  if names.isEmpty then "- None\n"
  else String.join (names.map fun name => "- [" ++ name ++ "](../" ++ name ++ "/overview.md)\n")

/-- What the module is, what it depends on, and how many declarations it has. -/
def overview (edition : Edition) (data : ModuleData) : String :=
  "# " ++ data.name ++ " Module Overview\n\n" ++
  "## Basic Information\n\n" ++
  "- **Module**: " ++ data.name ++ "\n" ++
  "- **Path**: " ++ data.path ++ "\n" ++
  "- **Category**: " ++ data.category ++ "\n" ++
  "- **Engine Version**: " ++ edition.version ++ "\n" ++
  "- **Generated**: " ++ edition.moment.displayText ++ "\n\n" ++
  "## Description\n\n" ++
  data.description.getD "No description available." ++ "\n\n" ++
  "## Dependencies\n\n" ++
  "### Public Dependencies\n" ++ linkList data.dependencies.public ++
  "\n### Private Dependencies\n" ++ plainList data.dependencies.private ++
  "\n### Dynamically Loaded Dependencies\n" ++ plainList data.dependencies.dynamic ++
  "\n## Statistics\n\n" ++
  "- **Classes**: " ++ Text.number data.classes.length ++ "\n" ++
  "- **Functions**: " ++ Text.number data.functions.length ++ "\n" ++
  "- **Enums**: " ++ Text.number data.enums.length ++ "\n" ++
  "- **Structs**: " ++ Text.number data.structs.length ++ "\n\n" ++
  "## Related Pages\n\n" ++
  "- [API Reference](api.md)\n" ++
  "- [Classes](classes.md)\n" ++
  "- [Best Practices](best-practices.md)\n" ++
  "- [Examples](examples.md)\n"

/-- At most this many functions are shown on a page. -/
def maxFunctions : Nat := 500

/-- The functions of a module, with a note when there are too many to show. -/
def functionList (functions : List FunctionRecord) : String :=
  if functions.isEmpty then "No functions found.\n"
  else
    (if maxFunctions < functions.length then
      "> **Tip**: this module has " ++ Text.number functions.length ++
        " functions; only the first " ++ Text.number maxFunctions ++
        " are shown. See the JSON data file for the complete list.\n\n"
    else "") ++
    String.join ((functions.take maxFunctions).map formatFunction)

/-- The functions, enumerations and structs of a module. -/
def reference (data : ModuleData) : String :=
  "# " ++ data.name ++ " API Reference\n\n" ++
  "## Overview\n\n" ++
  "This page lists the public API of the " ++ data.name ++ " module.\n\n" ++
  "> **Note**: only public API functions are listed; macros and internal " ++
  "implementation details are filtered out.\n\n" ++
  "## Functions\n\n" ++ functionList data.functions ++
  "\n## Enums\n\n" ++
  (if data.enums.isEmpty then "No enums found.\n" else String.join (data.enums.map formatEnum)) ++
  "\n## Structs\n\n" ++
  (if data.structs.isEmpty then "No structs found.\n"
    else String.join (data.structs.map formatStruct))

/-- The classes of a module. -/
def classList (data : ModuleData) : String :=
  "# " ++ data.name ++ " Classes\n\n" ++
  "## Overview\n\n" ++
  "This page describes every class found in the " ++ data.name ++ " module.\n\n" ++
  (if data.classes.isEmpty then "No classes found.\n"
    else String.join (data.classes.map formatClass))

/-- The recommendations for a module. -/
def bestPractices (data : ModuleData) : String :=
  "# " ++ data.name ++ " Best Practices\n\n" ++
  "## Overview\n\n" ++
  "Recommendations for working with the " ++ data.name ++ " module.\n\n" ++
  Practice.listMarkdown (Practice.ofModule data) ++ "\n"

/-- The examples of a module. -/
def usageExamples (data : ModuleData) : String :=
  "# " ++ data.name ++ " Examples\n\n" ++
  "## Overview\n\n" ++
  "Common usage examples for the " ++ data.name ++ " module.\n\n" ++
  Example.listMarkdown (Example.ofModule data) ++ "\n\n" ++
  "## More Examples\n\n" ++
  "For more detailed examples see:\n" ++
  "- the official engine documentation\n" ++
  "- the engine sample projects\n" ++
  "- comments and tests in the module source\n\n"

/-- The pages of a module with the names of their files. -/
def all (edition : Edition) (data : ModuleData) : List (String × String) :=
  [("overview.md", overview edition data), ("api.md", reference data),
   ("classes.md", classList data), ("best-practices.md", bestPractices data),
   ("examples.md", usageExamples data)]

end Page

end EngineDocs
