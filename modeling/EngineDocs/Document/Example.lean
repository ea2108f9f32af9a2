/-
This file makes up usage examples for a module: how to create an object of one of its first
classes, and how to call one of its first functions.
-/

import EngineDocs.Module

namespace EngineDocs

/-- A usage example. -/
structure Example where
  title : String
  code : String
  description : String
  deriving DecidableEq

namespace Example

/-- At most this many classes are shown. -/
def maxClasses : Nat := 5

/-- At most this many functions are shown. -/
def maxFunctions : Nat := 5

/-- Creating an object of a class. -/
def ofClass (record : ClassRecord) : Example :=
  let name := record.name
  { title := "Using " ++ name
    code := "// Using " ++ name ++ "\n" ++ name ++ "* Instance = NewObject<" ++ name ++
      ">();\n// Use the instance...\n"
    description := "Basic example of creating and using " ++ name }

/-- The arguments of a call. A parameter without a name is called by its position. -/
def arguments (parameters : List Parameter) : String :=
  String.intercalate ", " (parameters.zipIdx.map fun (parameter, position) =>
    if parameter.isNamed then parameter.name else "param" ++ Text.number position)

/-- Calling a function. -/
def ofFunction (record : FunctionRecord) : Example :=
  let name := record.name
  let call := name ++ "(" ++ arguments record.parameters ++ ");\n"
  { title := "Calling " ++ name
    code :=
      if record.returnType == "void" then "// Calling " ++ name ++ "\n" ++ call
      else "// Calling " ++ name ++ "\n" ++ record.returnType ++ " Result = " ++ call ++
        "// Use the result...\n"
    description := "Basic example of calling " ++ name }

/-- Whether a function is worth an example: it has a name that does not begin with an
underscore. -/
def isShown (record : FunctionRecord) : Bool :=
  !record.name.isEmpty && record.name.toList.head? != some '_'

/-- The examples of a module: its first classes, then its first functions. A function that is not
shown still counts as one of the first. -/
def ofModule (data : ModuleData) : List Example :=
  ((data.classes.take maxClasses).filter (!·.name.isEmpty)).map ofClass ++
    ((data.functions.take maxFunctions).filter isShown).map ofFunction

/-- The text of one example, which is numbered when it has no title. -/
def markdown (position : Nat) (shown : Example) : String :=
  (if shown.title.isEmpty then "### Example " ++ Text.number (position + 1) ++ "\n\n"
    else "### " ++ shown.title ++ "\n\n") ++
  (if shown.description.isEmpty then "" else shown.description ++ "\n\n") ++
  "```cpp\n" ++ shown.code ++ "```\n\n"

/-- The text of a list of examples. -/
def listMarkdown (examples : List Example) : String :=
  if examples.isEmpty then "No usage examples available.\n"
  else "## Usage Examples\n\n" ++
    String.join (examples.zipIdx.map fun (shown, position) => shown.markdown position)

end Example

end EngineDocs
