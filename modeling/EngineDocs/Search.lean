/-
This file holds the one way in which a text is searched for declarations: from left to right,
taking the first place where something is recognized, and going on behind it. The finds are
disjoint and come in the order of the text, because the search never goes back.
-/

import EngineDocs.Text.Basic

namespace EngineDocs

/-- Something that can be looked for in a text. -/
structure Recognizer (α : Type) where
  /-- Reads one item at the very start of a text. -/
  read? : Text → Option α
  /-- The characters that an item was read from. -/
  text : α → Text
  /-- How many characters to pass over when nothing is read at the start of a text. A number
  above one is right only where no item can begin in the characters passed over. -/
  stride : Text → Nat := fun _ => 1

/-- An item and the number of characters of the text before it. -/
structure Find (α : Type) where
  start : Nat
  value : α
  deriving DecidableEq

namespace Recognizer

variable {α : Type}

/-- The finds in a text whose first character has index `position`, of which the first `pending`
characters belong to an earlier find or were passed over. -/
def searchFrom (recognizer : Recognizer α) (position pending : Nat) : Text → List (Find α)
  | [] => []
  | c :: text =>
    match pending with
    | pending + 1 => searchFrom recognizer (position + 1) pending text
    | 0 =>
      match recognizer.read? (c :: text) with
      | some value =>
        ⟨position, value⟩ ::
          searchFrom recognizer (position + 1) ((recognizer.text value).length - 1) text
      | none =>
        searchFrom recognizer (position + 1) (recognizer.stride (c :: text) - 1) text

/-- All finds in a text, from left to right. -/
def search (recognizer : Recognizer α) (text : Text) : List (Find α) :=
  searchFrom recognizer 0 0 text

/-- The items found in a text, from left to right. -/
def items (recognizer : Recognizer α) (text : Text) : List α :=
  (recognizer.search text).map Find.value

end Recognizer

end EngineDocs
