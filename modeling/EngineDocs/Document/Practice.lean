/-
This file derives recommendations for a module from its category and the names of its classes, and
writes a list of recommendations grouped by category.
-/

import EngineDocs.Module

namespace EngineDocs

/-- A recommendation. -/
structure Practice where
  title : String
  description : String
  category : String
  deriving DecidableEq

namespace Practice

/-! ### Recommendations for a module -/

/-- What holds for a runtime module of this name. -/
def ofRuntime (moduleName : String) : List Practice :=
  if moduleName == "Core" then
    [{ title := "Manage memory with smart pointers"
       description := "Prefer TSharedPtr, TUniquePtr and friends over manual memory management"
       category := "Memory Management" },
     { title := "Use engine containers"
       description := "Use TArray, TMap and the other engine containers instead of STL containers"
       category := "Containers" }]
  else []

/-- What holds for every editor module. -/
def ofEditor : List Practice :=
  [{ title := "Editor tool development"
     description := "Build editor tools on EditorSubsystem and EditorUtilityWidget"
     category := "Editor Development" }]

/-- Whether a class has one instance, going by its name. -/
def isSingleton (record : ClassRecord) : Bool :=
  Text.occursIn "Singleton".toList record.name.toList ||
    Text.occursIn "Manager".toList record.name.toList

/-- What holds for a class with one instance. -/
def ofSingleton (record : ClassRecord) : Practice where
  title := "Use the " ++ record.name ++ " singleton"
  description := record.name ++ " follows the singleton pattern; obtain the instance with Get()"
  category := "Design Patterns"

/-- The recommendations for a module. -/
def ofModule (data : ModuleData) : List Practice :=
  (match data.category with
    | "Runtime" => ofRuntime data.name
    | "Editor" => ofEditor
    | _ => []) ++
  (data.classes.filter isSingleton).map ofSingleton

/-! ### Writing recommendations -/

/-- The heading under which a recommendation is written. -/
def heading (practice : Practice) : String :=
  if practice.category.isEmpty then "Other" else practice.category

/-- Puts a recommendation at the end of the group with its heading, or into a new group at the
end. -/
def addToGroups (practice : Practice) :
    List (String × List Practice) → List (String × List Practice)
  | [] => [(practice.heading, [practice])]
  | (heading, group) :: groups =>
    if heading == practice.heading then (heading, group ++ [practice]) :: groups
    else (heading, group) :: addToGroups practice groups

/-- The recommendations in groups of one heading, the headings in the order in which they first
appear. -/
def groups (practices : List Practice) : List (String × List Practice) :=
  practices.foldl (fun sofar practice => practice.addToGroups sofar) []

/-- The text of one recommendation. -/
def markdown (practice : Practice) : String :=
  "#### " ++ practice.title ++ "\n\n" ++ practice.description ++ "\n\n"

/-- The text of a group. -/
def groupMarkdown (heading : String) (group : List Practice) : String :=
  "### " ++ heading ++ "\n\n" ++ String.join (group.map markdown)

/-- What is written when there is no recommendation. -/
def generalAdvice : String :=
  "## Best Practices\n\n" ++
  "No module-specific practices were detected.\n\n" ++
  "### General Advice\n\n" ++
  "1. Consult the official documentation and sample projects\n" ++
  "2. Follow the engine coding standard\n" ++
  "3. Keep module dependencies in mind\n" ++
  "4. Use the reflection and macro systems\n\n"

/-- The text of a list of recommendations. -/
def listMarkdown (practices : List Practice) : String :=
  if practices.isEmpty then generalAdvice
  else "## Best Practices\n\n" ++
    String.join ((groups practices).map fun (heading, group) => groupMarkdown heading group)

end Practice

end EngineDocs
