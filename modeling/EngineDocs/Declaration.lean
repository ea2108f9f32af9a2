/-
This file holds the records that describe the declarations of a header. A record is a plain value
made of the text it was read from: names of base classes and types stay text, because nothing here
resolves them.
-/

namespace EngineDocs

/-- The access level written into a record. Specifiers inside bodies are never read, so every
record made from a header is `public`. -/
inductive Access where
  | «public»
  | «protected»
  | «private»
  deriving DecidableEq

namespace Access

/-- The keyword of an access level. -/
def keyword : Access → String
  | «public» => "public"
  | «protected» => "protected"
  | «private» => "private"

/-- The access level that a keyword stands for. -/
def ofKeyword? : String → Option Access
  | "public" => some «public»
  | "protected" => some «protected»
  | "private" => some «private»
  | _ => none

end Access

/-- A member of a class or a struct. Headers never give one; documents read from elsewhere may. -/
structure Member where
  name : String
  type : String
  access : Option Access
  deriving DecidableEq

/-- A class, with its base classes in the order written and with repetitions. -/
structure ClassRecord where
  name : String
  baseClasses : List String
  access : Access
  members : List Member
  filePath : String
  deriving DecidableEq

/-- A parameter of a function; its name is empty when only a type was recognized. -/
structure Parameter where
  name : String
  type : String
  deriving DecidableEq

namespace Parameter

/-- Whether the parameter has a name. -/
def isNamed (parameter : Parameter) : Bool := !parameter.name.isEmpty

end Parameter

/-- A function declaration that ends with a semicolon. -/
structure FunctionRecord where
  name : String
  returnType : String
  parameters : List Parameter
  access : Access
  isStatic : Bool
  isVirtual : Bool
  filePath : String
  deriving DecidableEq

/-- An enumerator and the text of its value, which is empty when none is written. -/
structure Enumerator where
  name : String
  value : String
  deriving DecidableEq

namespace Enumerator

/-- Whether a value is written. -/
def hasValue (enumerator : Enumerator) : Bool := !enumerator.value.isEmpty

end Enumerator

/-- An enumeration with its enumerators in the order written. -/
structure EnumRecord where
  name : String
  values : List Enumerator
  filePath : String
  deriving DecidableEq

/-- A struct that has a body. -/
structure StructRecord where
  name : String
  members : List Member
  filePath : String
  deriving DecidableEq

/-- The declarations of one header, or of many headers one after another. -/
structure DeclarationSet where
  classes : List ClassRecord := []
  functions : List FunctionRecord := []
  enums : List EnumRecord := []
  structs : List StructRecord := []
  deriving DecidableEq

namespace DeclarationSet

/-- The number of records of all four kinds. -/
def size (set : DeclarationSet) : Nat :=
  set.classes.length + set.functions.length + set.enums.length + set.structs.length

/-- Whether there is no record. -/
def isEmpty (set : DeclarationSet) : Bool := set.size == 0

/-- The records of `set` followed, kind by kind, by those of `next`. -/
def append (set next : DeclarationSet) : DeclarationSet where
  classes := set.classes ++ next.classes
  functions := set.functions ++ next.functions
  enums := set.enums ++ next.enums
  structs := set.structs ++ next.structs

/-- Sets are written one after the other with `++`. -/
instance : Append DeclarationSet := ⟨append⟩

/-- All sets one after another. -/
def concat (sets : List DeclarationSet) : DeclarationSet := sets.foldl append {}

end DeclarationSet

end EngineDocs
