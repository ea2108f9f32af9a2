/-
This file writes JSON values as text, on one line without blanks or with one item on a line. The
two forms differ only in the blanks that a layout puts between tokens.
-/

import EngineDocs.Json.Value
import EngineDocs.Text.Digits

namespace EngineDocs.Json

/-- The blanks that go between tokens: before an item or a closing bracket at some depth, and
behind the colon of a field. -/
structure Layout where
  beforeItem : (depth : Nat) → Text
  behindColon : Text

namespace Layout

/-- No blanks at all. -/
def compact : Layout := ⟨fun _ => [], []⟩

/-- One item on a line, two spaces further in at each depth. -/
def pretty : Layout := ⟨fun depth => '\n' :: List.replicate (2 * depth) ' ', [' ']⟩

end Layout

/-- The written form of a character inside a string. Only the quote, the backslash and the control
characters are escaped. -/
def escape (c : Char) : Text :=
  match c with
  | '"' => ['\\', '"']
  | '\\' => ['\\', '\\']
  | '\x08' => ['\\', 'b']
  | '\x0c' => ['\\', 'f']
  | '\n' => ['\\', 'n']
  | '\r' => ['\\', 'r']
  | '\t' => ['\\', 't']
  | c => if c.toNat < 0x20 then '\\' :: 'u' :: Text.hex 4 c.toNat else [c]

/-- The written form of a string. -/
def writeString (value : String) : Text := '"' :: value.toList.flatMap escape ++ ['"']

/-- The written form of an integer. -/
def writeInt (value : Int) : Text :=
  if value < 0 then '-' :: Text.decimal value.natAbs else Text.decimal value.natAbs

mutual

/-- The text of a value that stands at a depth. -/
def write (layout : Layout) (depth : Nat) : Json → Text
  | .null => "null".toList
  | .bool true => "true".toList
  | .bool false => "false".toList
  | .int value => writeInt value
  | .real literal => literal.toList
  | .str value => writeString value
  | .arr [] => "[]".toList
  | .arr (item :: items) =>
    '[' :: layout.beforeItem (depth + 1) ++ write layout (depth + 1) item ++
      writeItems layout (depth + 1) items ++ layout.beforeItem depth ++ [']']
  | .obj [] => ['{', '}']
  | .obj ((name, value) :: fields) =>
    '{' :: layout.beforeItem (depth + 1) ++ writeString name ++ ':' :: layout.behindColon ++
      write layout (depth + 1) value ++ writeFields layout (depth + 1) fields ++
      layout.beforeItem depth ++ ['}']

/-- The text of the items behind the first one, at their depth. -/
def writeItems (layout : Layout) (depth : Nat) : List Json → Text
  | [] => []
  | item :: items =>
    ',' :: layout.beforeItem depth ++ write layout depth item ++ writeItems layout depth items

/-- The text of the fields behind the first one, at their depth. -/
def writeFields (layout : Layout) (depth : Nat) : List (String × Json) → Text
  | [] => []
  | (name, value) :: fields =>
    ',' :: layout.beforeItem depth ++ writeString name ++ ':' :: layout.behindColon ++
      write layout depth value ++ writeFields layout depth fields

end

/-- The text of a value on one line. -/
def compact (value : Json) : Text := write .compact 0 value

/-- The text of a value with one item on a line. -/
def pretty (value : Json) : Text := write .pretty 0 value

end EngineDocs.Json
