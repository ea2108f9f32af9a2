/-
This file holds positions in YAML text and the classes of its characters. Lines are counted because
the meaning of a text depends on the columns at which its parts stand.
-/

import EngineDocs.Text.Digits

namespace EngineDocs.Yaml

/-! ### Characters -/

/-- The characters that a text may have at all. -/
def isPrintable (c : Char) : Bool :=
  let code := c.toNat
  code == 0x9 || code == 0xA || code == 0xD || (0x20 ≤ code && code ≤ 0x7E) || code == 0x85 ||
    (0xA0 ≤ code && code ≤ 0xFFFD) || 0x10000 ≤ code

/-- A space or a tab. -/
def isGap (c : Char) : Bool := c == ' ' || c == '\t'

/-- A character that ends a line. -/
def isBreak (c : Char) : Bool :=
  c == '\n' || c == '\r' || c.toNat == 0x85 || c.toNat == 0x2028 || c.toNat == 0x2029

/-- The characters of anchors and of the names of directives. -/
def isNameChar (c : Char) : Bool := Text.isWord c || c == '-'

/-- Whether the text ends, or goes on with a gap or a line break. -/
def endsWord (text : Text) : Bool :=
  match text with
  | [] => true
  | c :: _ => isGap c || isBreak c

/-- Whether the line ends. -/
def endsLine (text : Text) : Bool :=
  match text with
  | [] => true
  | c :: _ => isBreak c

/-- The line break at the start of a text: what it stands for, and how many characters it has. The
usual breaks all stand for a line feed. -/
def lineBreak? (text : Text) : Option (Text × Nat) :=
  match text with
  | '\r' :: '\n' :: _ => some (['\n'], 2)
  | c :: _ =>
    if c == '\n' || c == '\r' || c.toNat == 0x85 then some (['\n'], 1)
    else if isBreak c then some ([c], 1)
    else none
  | [] => none

/-- Whether a mark of the start or the end of a document begins the text. -/
def isDocumentMark (text : Text) : Bool :=
  match text with
  | '-' :: '-' :: '-' :: rest => endsWord rest
  | '.' :: '.' :: '.' :: rest => endsWord rest
  | _ => false

/-! ### Positions -/

/-- A position: the number of bytes before it, of lines before it, and of characters before it in
its line. -/
structure Mark where
  index : Nat := 0
  line : Nat := 0
  column : Nat := 0
  deriving DecidableEq

namespace Mark

/-- The position behind characters of the same line. -/
def past (mark : Mark) (text : Text) : Mark :=
  { mark with index := mark.index + text.utf8Length, column := mark.column + text.length }

/-- The position behind characters the last of which end the line. -/
def nextLine (mark : Mark) (text : Text) : Mark :=
  ⟨mark.index + text.utf8Length, mark.line + 1, 0⟩

end Mark

/-- A position and the text from there on. -/
structure Cursor where
  rest : Text
  mark : Mark := {}

namespace Cursor

/-- Passes over characters of the same line. -/
def forward (cursor : Cursor) (count : Nat) : Cursor :=
  ⟨cursor.rest.drop count, cursor.mark.past (cursor.rest.take count)⟩

/-- Passes over the characters of the line that satisfy the test. -/
def skipWhile (cursor : Cursor) (test : Char → Bool) : Cursor :=
  cursor.forward (cursor.rest.takeWhile fun c => test c && !isBreak c).length

/-- Passes over spaces and tabs. -/
def skipGaps (cursor : Cursor) : Cursor := cursor.skipWhile isGap

/-- Passes over a comment, when there is one. -/
def skipComment (cursor : Cursor) : Cursor :=
  if cursor.rest.head? == some '#' then cursor.skipWhile fun _ => true else cursor

/-- Passes over a line break, and gives what it stands for. -/
def passBreak (cursor : Cursor) : Text × Cursor :=
  match lineBreak? cursor.rest with
  | some (lineBreak, count) =>
    (lineBreak, ⟨cursor.rest.drop count, cursor.mark.nextLine (cursor.rest.take count)⟩)
  | none => ([], cursor)

/-- Passes over the rest of a line that has nothing more on it than a comment. -/
def finishLine? (cursor : Cursor) : Option Cursor :=
  let cursor := cursor.skipGaps.skipComment
  if endsLine cursor.rest then some cursor.passBreak.2 else none

end Cursor

end EngineDocs.Yaml
