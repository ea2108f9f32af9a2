/-
This file holds the values of JSON and the views by which records are read out of them. An object
keeps its fields in the order written, so that a value determines its text.
-/

namespace EngineDocs

/-- A JSON value. A number is an integer of at most 64 bits, or any other number, of which the
literal is kept. -/
inductive Json where
  | null
  | bool (value : Bool)
  | int (value : Int)
  | real (literal : String)
  | str (value : String)
  | arr (items : List Json)
  | obj (fields : List (String × Json))

namespace Json

/-! ### Building values -/

/-- A natural number as a value. -/
def nat (n : Nat) : Json := int n

/-- A list of texts as a value. -/
def strings (texts : List String) : Json := arr (texts.map str)

/-- A field that is left out when there is nothing to write into it. -/
def optionalField (name : String) (value : Option Json) : List (String × Json) :=
  match value with
  | some value => [(name, value)]
  | none => []

/-! ### Reading values -/

/-- The value of a field; the last one counts when a name is repeated. -/
def get? (name : String) : Json → Option Json
  | obj fields => (fields.reverse.find? fun field => field.1 == name).map Prod.snd
  | _ => none

/-- The text, when the value is one. -/
def asString? : Json → Option String
  | str value => some value
  | _ => none

/-- The truth value, when the value is one. -/
def asBool? : Json → Option Bool
  | bool value => some value
  | _ => none

/-- The items, when the value is a list. -/
def asList? : Json → Option (List Json)
  | arr items => some items
  | _ => none

/-- The number, when the value is an unsigned integer of 64 bits. -/
def asNat? : Json → Option Nat
  | int value => if 0 ≤ value && value.toNat < UInt64.size then some value.toNat else none
  | _ => none

/-- The number, when the value is a signed integer of 64 bits. -/
def asInt? : Json → Option Int
  | int value =>
    if -9223372036854775808 ≤ value && value ≤ 9223372036854775807 then some value else none
  | _ => none

/-- The texts, when the value is a list of texts. -/
def asStrings? (value : Json) : Option (List String) :=
  value.asList?.bind fun items => items.mapM asString?

/-- A list read item by item. -/
def asListOf? {α : Type} (read? : Json → Option α) (value : Json) : Option (List α) :=
  value.asList?.bind fun items => items.mapM read?

/-- The values of the named fields of a record. An object gives them by name, a list by position;
fields that are missing are `none`. -/
def record? (names : List String) : Json → Option (List (Option Json))
  | obj fields => some (names.map fun name => (obj fields).get? name)
  | arr items =>
    if items.length ≤ names.length then
      some (items.map some ++ List.replicate (names.length - items.length) none)
    else none
  | _ => none

/-- A field that may be missing or `null`. -/
def optional? {α : Type} (read? : Json → Option α) : Option Json → Option (Option α)
  | none | some null => some none
  | some value => (read? value).map some

/-- A field that takes a default when it is missing. -/
def defaulted? {α : Type} (read? : Json → Option α) (default : α) : Option Json → Option α
  | none => some default
  | some value => read? value

/-- Whether the value is `null`. -/
def isNull : Json → Bool
  | null => true
  | _ => false

/-- One of several names: a text, or an object whose only field, which may be repeated, has the name
and the value `null`. -/
def asName? : Json → Option String
  | str name => some name
  | obj ((name, first) :: fields) =>
    let value := ((fields.getLast?).map Prod.snd).getD first
    if value.isNull && fields.all fun (field : String × Json) => field.1 == name then some name
    else none
  | _ => none

end Json

end EngineDocs
