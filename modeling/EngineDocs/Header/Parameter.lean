/-
This file reads parameter lists. A list is cut at the commas outside angle brackets, and each piece
is divided into a type and a name once its default value is dropped.
-/

import EngineDocs.Declaration
import EngineDocs.Text.Basic

namespace EngineDocs.Header

/-! ### Cutting a list -/

/-- The pieces of a text between its top-level commas, when `depth` more angle brackets were opened
than closed before it. A comma is top-level when the depth is zero; the depth may be negative. It
stays within the length of the text, so up to 2³¹ characters an integer of 32 bits would do as
well. -/
def piecesFrom (depth : Int) : Text → List Text
  | [] => [[]]
  | c :: text =>
    if c == ',' && depth == 0 then [] :: piecesFrom depth text
    else
      let next := if c == '<' then depth + 1 else if c == '>' then depth - 1 else depth
      match piecesFrom next text with
      | [] => [[c]]
      | piece :: rest => (c :: piece) :: rest

/-- The parameters of a list as they are written, trimmed, without the empty ones. -/
def splitParameters (raw : Text) : List Text :=
  ((piecesFrom 0 raw).map Text.trim).filter (!·.isEmpty)

/-! ### Reading one parameter -/

/-- Whether the text behind an equality sign is a default value: it has no line feed behind its
leading blanks. -/
def isDefaultValue (text : Text) : Bool := !(Text.skipBlanks text).contains '\n'

/-- The text before the first equality sign that a default value follows; the whole text when there
is none. -/
def beforeDefault : Text → Text
  | [] => []
  | c :: text => if c == '=' && isDefaultValue text then [] else c :: beforeDefault text

/-- Divides a trimmed text into a type and a name, when it ends in an identifier with blanks before
it and what stands before these blanks is on one line. -/
def typeAndName? (text : Text) : Option (Text × Text) :=
  let backwards := text.reverse
  let name := (Text.leadingWord backwards).reverse
  let behindName := Text.skipWord backwards
  let type := (Text.skipBlanks behindName).reverse
  if name.isEmpty || (Text.leadingBlanks behindName).isEmpty || type.isEmpty ||
      type.contains '\n' then none
  else some (type, name)

/-- Reads one parameter; there is none when nothing is left before its default value. -/
def parseParameter (raw : Text) : Option Parameter :=
  let declared := Text.trim (beforeDefault raw)
  match typeAndName? declared with
  | some (type, name) =>
    some ⟨String.ofList name, String.ofList (Text.collapseBlanks (Text.trim type))⟩
  | none => if declared.isEmpty then none else some ⟨"", String.ofList declared⟩

/-- Reads a whole parameter list. -/
def parseParameters (raw : Text) : List Parameter :=
  (splitParameters raw).filterMap parseParameter

end EngineDocs.Header
