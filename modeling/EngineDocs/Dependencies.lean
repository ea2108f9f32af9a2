/-
This file holds the dependencies of a module: three lists of module names, each without
repetitions and in the order in which the names were first seen.
-/

namespace EngineDocs

/-- How a module depends on another. -/
inductive DependencyKind where
  | «public»
  | «private»
  | dynamic
  deriving DecidableEq

namespace DependencyKind

/-- The kinds in the order in which they are read and shown. -/
def all : List DependencyKind := [«public», «private», dynamic]

/-- The name of a kind. -/
def label : DependencyKind → String
  | «public» => "public"
  | «private» => "private"
  | dynamic => "dynamic"

/-- The kind with a name. -/
def ofLabel? : String → Option DependencyKind
  | "public" => some «public»
  | "private" => some «private»
  | "dynamic" => some dynamic
  | _ => none

/-- The list of a rules file that holds the dependencies of a kind. -/
def rulesField : DependencyKind → String
  | «public» => "PublicDependencyModuleNames"
  | «private» => "PrivateDependencyModuleNames"
  | dynamic => "DynamicallyLoadedModuleNames"

end DependencyKind

/-- The dependencies of one module. -/
structure Dependencies where
  «public» : List String := []
  «private» : List String := []
  dynamic : List String := []
  deriving DecidableEq

namespace Dependencies

/-- The names of a kind. -/
def get (dependencies : Dependencies) : DependencyKind → List String
  | .public => dependencies.public
  | .private => dependencies.private
  | .dynamic => dependencies.dynamic

/-- The dependencies with the names of a kind replaced. -/
def set (dependencies : Dependencies) (names : List String) : DependencyKind → Dependencies
  | .public => { dependencies with «public» := names }
  | .private => { dependencies with «private» := names }
  | .dynamic => { dependencies with dynamic := names }

/-- Adds a name at the end of a list that does not have it yet. -/
def push (dependencies : Dependencies) (kind : DependencyKind) (name : String) : Dependencies :=
  let names := dependencies.get kind
  if names.contains name then dependencies else dependencies.set (names ++ [name]) kind

/-- The number of names of all kinds. -/
def total (dependencies : Dependencies) : Nat :=
  dependencies.public.length + dependencies.private.length + dependencies.dynamic.length

/-- Whether there is no name. -/
def isEmpty (dependencies : Dependencies) : Bool := dependencies.total == 0

end Dependencies

end EngineDocs
