/-
This file holds the letter case of texts: whether a text is its own upper-case form, and the
lower-case form by which names are compared regardless of case. A capital sigma becomes the final
form at the end of a word and the ordinary one elsewhere.
-/

import EngineDocs.Text.Basic
import EngineDocs.Text.CaseTable

namespace EngineDocs.Text

/-- Whether some range of the table has the character. -/
def inTable (table : List CodeRange) (c : Char) : Bool :=
  table.any (·.contains c.toNat)

/-- Whether the character is its own upper-case form. -/
def isUpperForm (c : Char) : Bool :=
  if c.toNat < 128 then !(97 ≤ c.toNat && c.toNat ≤ 122) else !inTable upperChangingTable c

/-- Whether the text is its own upper-case form. -/
def isUpper (text : Text) : Bool := text.all isUpperForm

/-- The lower-case form of a character away from the end of a word. -/
def lowerChar (c : Char) : Text :=
  if c.toNat < 128 then
    if 65 ≤ c.toNat && c.toNat ≤ 90 then [Char.ofNat (c.toNat + 32)] else [c]
  else if c.toNat == 0x130 then ['i', Char.ofNat 0x307]
  else
    match lowerTable.find? (·.1.contains c.toNat) with
    | some (_, offset) => [Char.ofNat (Int.toNat (c.toNat + offset))]
    | none => [c]

/-- Whether the first character that is not ignored for case is a cased one. -/
def meetsCased (text : Text) : Bool :=
  match text.dropWhile (inTable caseIgnorableTable) with
  | c :: _ => inTable casedTable c
  | [] => false

/-- The lower-case form of a text behind the characters of `before`, the nearest one first. -/
def lowerFrom (before : Text) : Text → Text
  | [] => []
  | c :: text =>
    let form :=
      if c.toNat == 0x3A3 then
        if meetsCased before && !meetsCased text then [Char.ofNat 0x3C2] else [Char.ofNat 0x3C3]
      else lowerChar c
    form ++ lowerFrom (c :: before) text

/-- The lower-case form of a text. -/
def lower (text : Text) : Text := lowerFrom [] text

end EngineDocs.Text
