/-
This file holds the reading of text that every other part relies on: which characters are blank,
which belong to an identifier, and how a text is trimmed, cut into words, searched and joined.
A text is a plain list of characters, so that each of these is a short recursion on it.
-/

namespace EngineDocs

/-- A text is its sequence of characters. -/
abbrev Text := List Char

namespace Text

/-! ### Character classes -/

/-- A character is blank when it has the Unicode property `White_Space`. -/
def isBlank (c : Char) : Bool :=
  let code := c.toNat
  (9 ≤ code && code ≤ 13) || code == 0x20 || code == 0x85 || code == 0xA0 || code == 0x1680 ||
    (0x2000 ≤ code && code ≤ 0x200A) || code == 0x2028 || code == 0x2029 || code == 0x202F ||
    code == 0x205F || code == 0x3000

/-- A decimal digit of ASCII. -/
def isDigit (c : Char) : Bool :=
  let code := c.toNat
  48 ≤ code && code ≤ 57

/-- Identifiers are written in ASCII: letters, digits and the underscore. -/
def isWord (c : Char) : Bool :=
  let code := c.toNat
  (48 ≤ code && code ≤ 57) || (65 ≤ code && code ≤ 90) || code == 95 || (97 ≤ code && code ≤ 122)

/-! ### Leading runs -/

/-- The blanks at the start of a text. -/
def leadingBlanks (text : Text) : Text := text.takeWhile isBlank

/-- The text after its leading blanks. -/
def skipBlanks (text : Text) : Text := text.dropWhile isBlank

/-- The identifier at the start of a text; empty when there is none. -/
def leadingWord (text : Text) : Text := text.takeWhile isWord

/-- The text after the identifier at its start. -/
def skipWord (text : Text) : Text := text.dropWhile isWord

/-- The text after `literal`, when the text starts with it. -/
def after? : (literal : Text) → (text : Text) → Option Text
  | [], text => some text
  | _ :: _, [] => none
  | expected :: literal, c :: text => if expected = c then after? literal text else none

/-- Whether the text starts with `literal`. -/
def startsWith (literal text : Text) : Bool := (after? literal text).isSome

/-- Whether the text ends with `literal`. -/
def endsWith (literal text : Text) : Bool := startsWith literal.reverse text.reverse

/-- Whether `literal` stands somewhere in the text. -/
def occursIn (literal : Text) : Text → Bool
  | [] => literal.isEmpty
  | c :: text => startsWith literal (c :: text) || occursIn literal text

/-! ### Blanks -/

/-- The text without the blanks at its end. -/
def trimEnd (text : Text) : Text := (skipBlanks text.reverse).reverse

/-- The text without the blanks at its two ends. -/
def trim (text : Text) : Text := trimEnd (skipBlanks text)

/-- Writes each run of blanks as one space; `inRun` says that the run has been written already. -/
def collapseFrom (inRun : Bool) : Text → Text
  | [] => []
  | c :: text =>
    if isBlank c then
      if inRun then collapseFrom true text else ' ' :: collapseFrom true text
    else c :: collapseFrom false text

/-- The text with each run of blanks written as one space. -/
def collapseBlanks (text : Text) : Text := collapseFrom false text

/-- The maximal runs of characters that are not blank, in order. -/
def words : Text → List Text
  | [] => []
  | c :: text =>
    if isBlank c then words text
    else match text, words text with
      | next :: _, word :: rest => if isBlank next then [c] :: word :: rest else (c :: word) :: rest
      | _, rest => [c] :: rest

/-! ### Cutting and joining -/

/-- The pieces between the characters that satisfy `cut`; there is always at least one piece. -/
def pieces (cut : Char → Bool) : Text → List Text
  | [] => [[]]
  | c :: text =>
    if cut c then [] :: pieces cut text
    else match pieces cut text with
      | [] => [[c]]
      | piece :: rest => (c :: piece) :: rest

/-- The parts one after another with `separator` between neighbours. -/
def joinWith (separator : Text) : List Text → Text
  | [] => []
  | [part] => part
  | part :: rest => part ++ separator ++ joinWith separator rest

/-! ### Order and measure -/

/-- Texts are ordered by their code points, the first difference deciding. This is also the order
of their UTF-8 bytes. -/
def compare : Text → Text → Ordering
  | [], [] => .eq
  | [], _ :: _ => .lt
  | _ :: _, [] => .gt
  | a :: left, b :: right =>
    if a.toNat < b.toNat then .lt else if b.toNat < a.toNat then .gt else compare left right

/-- The number of bytes that the text takes in UTF-8. -/
def utf8Length (text : Text) : Nat := text.foldl (fun total c => total + c.utf8Size) 0

/-- The number of UTF-16 code units that the text takes. -/
def utf16Length (text : Text) : Nat :=
  text.foldl (fun total c => total + if 0x10000 ≤ c.toNat then 2 else 1) 0

end Text

end EngineDocs
