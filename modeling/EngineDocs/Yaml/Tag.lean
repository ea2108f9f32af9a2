/-
This file holds tags, which say what kind of value a node is. A tag is written in ASCII with escapes
for other bytes, so it is a sequence of bytes that need not be text; a zero byte ends it.
-/

import EngineDocs.Text.Digits

namespace EngineDocs.Yaml

/-- A tag is its sequence of bytes. -/
abbrev Tag := List UInt8

namespace Tag

/-- The tag of a text in ASCII. -/
def ofText (text : Text) : Tag := text.map fun c => c.toNat.toUInt8

/-- The tag of a kind of value. -/
def ofKind (kind : String) : Tag := ofText ("tag:yaml.org,2002:".toList ++ kind.toList)

/-- The part of a tag that counts, up to the first zero byte. -/
def untilZero (tag : Tag) : Tag := tag.takeWhile fun byte => byte.toNat != 0

/-- How many escapes belong to one character, by the byte of the first. -/
def escapeCount? (lead : Nat) : Option Nat :=
  if lead < 0x80 then some 1
  else if 0xC0 ≤ lead && lead < 0xE0 then some 2
  else if 0xE0 ≤ lead && lead < 0xF0 then some 3
  else if 0xF0 ≤ lead && lead < 0xF8 then some 4
  else none

/-- The bytes of a tag with its escapes resolved. Each is two hexadecimal digits behind a percent
sign; `pending` more of them belong to the character that has begun. -/
def unescapeFrom (pending : Nat) : Text → Option Tag
  | '%' :: a :: b :: rest => do
    let byte ← Text.readDigits? 16 [a, b]
    match pending with
    | 0 => return byte.toUInt8 :: (← unescapeFrom ((← escapeCount? byte) - 1) rest)
    | pending + 1 =>
      if byte < 0x80 || 0xC0 ≤ byte then none
      else return byte.toUInt8 :: (← unescapeFrom pending rest)
  | c :: rest =>
    if pending == 0 && c != '%' then (unescapeFrom 0 rest).map (c.toNat.toUInt8 :: ·) else none
  | [] => if pending == 0 then some [] else none

/-- The bytes of a tag with its escapes resolved. -/
def unescape? (text : Text) : Option Tag := unescapeFrom 0 text

/-- The name that a tag of this document alone gives: what is behind its exclamation mark, or the
mark when it stands alone. It has to be text. -/
def localName? : Tag → Option String
  | mark :: name =>
    if mark.toNat == 0x21 then
      String.fromUTF8? ⟨(if name.isEmpty then [mark] else name).toArray⟩
    else none
  | [] => none

end Tag

end EngineDocs.Yaml
