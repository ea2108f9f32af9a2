/-
This file holds the written forms of natural numbers: decimal, decimal with a least number of
digits, and hexadecimal of a fixed width, together with the reading of digits in a given base.
-/

import EngineDocs.Text.Basic

namespace EngineDocs.Text

/-- The decimal digits of a number without leading zeros. -/
def decimal (n : Nat) : Text := Nat.toDigits 10 n

/-- The decimal form of a number. -/
def number (n : Nat) : String := String.ofList (decimal n)

/-- The decimal digits of a number with leading zeros up to `width` digits. -/
def paddedDecimal (width n : Nat) : Text :=
  let digits := decimal n
  List.replicate (width - digits.length) '0' ++ digits

/-- The lower-case hexadecimal digit of a number below sixteen. -/
def hexDigit (n : Nat) : Char :=
  if n < 10 then Char.ofNat (48 + n) else Char.ofNat (87 + n)

/-- The last `width` hexadecimal digits of a number, leading zeros included. -/
def hex : (width n : Nat) → Text
  | 0, _ => []
  | width + 1, n => hex width (n / 16) ++ [hexDigit (n % 16)]

/-- The value of a digit in bases up to sixteen, in either letter case. -/
def digitValue? (c : Char) : Option Nat :=
  let code := c.toNat
  if 48 ≤ code && code ≤ 57 then some (code - 48)
  else if 97 ≤ code && code ≤ 102 then some (code - 87)
  else if 65 ≤ code && code ≤ 70 then some (code - 55)
  else none

/-- The number that a run of digits stands for behind digits worth `value`. Every character has to
be a digit below the base. -/
def readDigitsFrom (base value : Nat) : Text → Option Nat
  | [] => some value
  | c :: text =>
    match digitValue? c with
    | some digit =>
      if digit < base then readDigitsFrom base (value * base + digit) text else none
    | none => none

/-- The number that a text of at least one digit stands for. -/
def readDigits? (base : Nat) (text : Text) : Option Nat :=
  if text.isEmpty then none else readDigitsFrom base 0 text

end EngineDocs.Text
