/-
This file holds the tokens of JSON text and the cutting of a text into them. Blanks between tokens
carry no meaning, so two texts that differ only in layout have the same tokens.
-/

import EngineDocs.Text.Digits

namespace EngineDocs.Json

/-- A token of JSON text. -/
inductive Token where
  | openObject
  | closeObject
  | openArray
  | closeArray
  | comma
  | colon
  | null
  | bool (value : Bool)
  | int (value : Int)
  | real (literal : Text)
  | str (value : Text)
  /-- A string that is not text, or a number that is too large, though it is written as one. -/
  | unreadable
  deriving DecidableEq

/-- The characters that may stand between tokens. -/
def isSpace (c : Char) : Bool := c == ' ' || c == '\n' || c == '\t' || c == '\r'

/-! ### Strings -/

/-- The code that four hexadecimal digits give. -/
def hexCode? (a b c d : Char) : Option Nat := Text.readDigits? 16 [a, b, c, d]

/-- The character of a one-letter escape. -/
def shortEscape? : Char → Option Char
  | '"' => some '"'
  | '\\' => some '\\'
  | '/' => some '/'
  | 'b' => some '\x08'
  | 'f' => some '\x0c'
  | 'n' => some '\n'
  | 'r' => some '\r'
  | 't' => some '\t'
  | _ => none

/-- What is read of a string: its text, when it is one, and the number of characters of text that it
takes, closing quote included. -/
abbrev StringRead := Option Text × Nat

/-- Puts a character, or nothing that is one, in front of what was read; it is written in `length`
characters. -/
def consRead (c : Option Char) (length : Nat) : Option StringRead → Option StringRead :=
  Option.map fun (text, rest) => (c.bind fun c => text.map (c :: ·), rest + length)

/-- Whether a code is the first half of a pair. -/
def isHighSurrogate (code : Nat) : Bool := 0xD800 ≤ code && code < 0xDC00

/-- Whether a code is the second half of a pair. -/
def isLowSurrogate (code : Nat) : Bool := 0xDC00 ≤ code && code < 0xE000

/-- The character that two halves give. -/
def pairedChar (high low : Nat) : Char :=
  Char.ofNat (0x10000 + (high - 0xD800) * 0x400 + (low - 0xDC00))

/-- Reads the characters of a string up to its closing quote. Control characters have to be escaped.
The first half of a pair that was read just before is `high`; halves that stand alone leave no
text. -/
def readStringFrom (high : Option Nat) : Text → Option StringRead
  | [] => none
  | '"' :: _ => some (if high.isSome then none else some [], 1)
  | '\\' :: 'u' :: a :: b :: c :: d :: rest =>
    match hexCode? a b c d with
    | none => none
    | some code =>
      if isHighSurrogate code then
        (readStringFrom (some code) rest).map fun (text, length) =>
          (if high.isSome then none else text, length + 6)
      else if isLowSurrogate code then
        consRead (high.map fun high => pairedChar high code) 6 (readStringFrom none rest)
      else
        consRead (if high.isSome then none else Char.ofNat code) 6 (readStringFrom none rest)
  | '\\' :: escape :: rest =>
    match shortEscape? escape with
    | some c => consRead (if high.isSome then none else c) 2 (readStringFrom none rest)
    | none => none
  | c :: rest =>
    if c.toNat < 0x20 then none
    else consRead (if high.isSome then none else c) 1 (readStringFrom none rest)

/-- Reads a string behind its opening quote. -/
def readString? (text : Text) : Option StringRead := readStringFrom none text

/-! ### Numbers -/

/-- The integer part of a number: a zero, or digits that do not begin with one. -/
def integerPart (text : Text) : Text :=
  match text with
  | '0' :: _ => ['0']
  | _ => text.takeWhile Text.isDigit

/-- The fraction at the start of a text; none when its point has no digit behind it. -/
def fraction? (text : Text) : Option Text :=
  match text with
  | '.' :: rest =>
    match rest.takeWhile Text.isDigit with
    | [] => none
    | digits => some ('.' :: digits)
  | _ => some []

/-- The exponent at the start of a text; none when its mark has no digit behind it. -/
def exponent? (text : Text) : Option Text :=
  match text with
  | mark :: rest =>
    if mark == 'e' || mark == 'E' then
      let sign := rest.take (if rest.head? == some '+' || rest.head? == some '-' then 1 else 0)
      match (rest.drop sign.length).takeWhile Text.isDigit with
      | [] => none
      | digits => some (mark :: sign ++ digits)
    else some []
  | [] => some []

/-- The leading digits of a number that fit into 64 bits, as a number, and the power of ten that it
has to be multiplied by. `full` says that no more digits fit. -/
structure Magnitude where
  significand : Nat := 0
  exponent : Int := 0
  full : Bool := false

namespace Magnitude

/-- Takes one more digit, which is in front of the point or behind it. -/
def push (isFraction : Bool) (magnitude : Magnitude) (c : Char) : Magnitude :=
  let next := magnitude.significand * 10 + (c.toNat - 48)
  if magnitude.full || UInt64.size ≤ next then
    { magnitude with
      full := true
      exponent := if isFraction then magnitude.exponent else magnitude.exponent + 1 }
  else
    { magnitude with
      significand := next
      exponent := if isFraction then magnitude.exponent - 1 else magnitude.exponent }

/-- The magnitude of a number by the digits in front of its point and behind it and by its
exponent. -/
def ofDigits (digits fraction : Text) (exponent : Int) : Magnitude :=
  let whole := digits.foldl (push false) {}
  let all := fraction.foldl (push true) { whole with full := false }
  { all with exponent := all.exponent + exponent }

/-- The largest power of ten that a floating-point number of 64 bits can be. -/
def maxPower : Nat := 308

/-- Whether there is a floating-point number of 64 bits for it, rather than infinity. -/
def isFinite (magnitude : Magnitude) : Bool :=
  magnitude.significand == 0 || magnitude.exponent < 0 ||
    (magnitude.exponent.toNat ≤ maxPower &&
      !(magnitude.significand.toUInt64.toFloat *
        Float.ofScientific 1 false magnitude.exponent.toNat).isInf)

end Magnitude

/-- The number that an exponent stands for, mark and sign included. -/
def exponentValue (text : Text) : Int :=
  match text.drop 1 with
  | '-' :: digits => -((Text.readDigits? 10 digits).getD 0 : Nat)
  | '+' :: digits => (Text.readDigits? 10 digits).getD 0
  | digits => (Text.readDigits? 10 digits).getD 0

/-- A number that is not an integer of 64 bits. -/
def realToken (magnitude : Magnitude) (literal : Text) : Token :=
  if magnitude.isFinite then .real literal else .unreadable

/-- The number that digits stand for, an integer when it fits into 64 bits. The negative zero is
not an integer. -/
def integerToken (negative : Bool) (digits : Text) : Token :=
  let value := (Text.readDigits? 10 digits).getD 0
  if negative then
    if 0 < value && value ≤ UInt64.size / 2 then .int (-value)
    else realToken (.ofDigits digits [] 0) ('-' :: digits)
  else if value < UInt64.size then .int value
  else realToken (.ofDigits digits [] 0) digits

/-- Reads a number and the length of its text. -/
def readNumber? (text : Text) : Option (Token × Nat) :=
  let sign := text.take (if text.head? == some '-' then 1 else 0)
  let unsigned := text.drop sign.length
  match integerPart unsigned with
  | [] => none
  | digits => do
    let rest := unsigned.drop digits.length
    let fraction ← fraction? rest
    let exponent ← exponent? (rest.drop fraction.length)
    let literal := sign ++ digits ++ fraction ++ exponent
    if fraction.isEmpty && exponent.isEmpty then
      return (integerToken (!sign.isEmpty) digits, literal.length)
    else
      let magnitude := .ofDigits digits (fraction.drop 1) (exponentValue exponent)
      return (realToken magnitude literal, literal.length)

/-! ### Tokens -/

/-- Reads a token that is a word. -/
def readWord? (text : Text) : Option (Token × Nat) :=
  if Text.startsWith "null".toList text then some (.null, 4)
  else if Text.startsWith "true".toList text then some (.bool true, 4)
  else if Text.startsWith "false".toList text then some (.bool false, 5)
  else none

/-- Reads the token at the start of a text, and the length of its text. -/
def readToken? (text : Text) : Option (Token × Nat) :=
  match text with
  | [] => none
  | '{' :: _ => some (.openObject, 1)
  | '}' :: _ => some (.closeObject, 1)
  | '[' :: _ => some (.openArray, 1)
  | ']' :: _ => some (.closeArray, 1)
  | ',' :: _ => some (.comma, 1)
  | ':' :: _ => some (.colon, 1)
  | '"' :: rest => (readString? rest).map fun (value, length) =>
    (match value with
      | some value => .str value
      | none => .unreadable, length + 1)
  | c :: _ => if c == '-' || Text.isDigit c then readNumber? text else readWord? text

/-- The tokens of a text of which the first `pending` characters belong to an earlier token. -/
def tokensFrom (pending : Nat) : Text → Option (List Token)
  | [] => some []
  | c :: text =>
    match pending with
    | pending + 1 => tokensFrom pending text
    | 0 =>
      if isSpace c then tokensFrom 0 text
      else match readToken? (c :: text) with
        | some (token, length) => (tokensFrom (length - 1) text).map (token :: ·)
        | none => none

/-- The tokens of a text; none when some part of it is not a token. -/
def tokens? (text : Text) : Option (List Token) := tokensFrom 0 text

end EngineDocs.Json
