/-
This file turns bytes into text where they may not be text at all. Bytes that are well-formed UTF-8
are taken as they are; otherwise each maximal beginning of a character that is cut short, and each
byte that cannot begin one, becomes one replacement character.
-/

import EngineDocs.Text.Basic

namespace EngineDocs.Text

/-- The character that stands for bytes that are not text. -/
def replacement : Char := Char.ofNat 0xFFFD

/-- For a byte that begins a character of several bytes: how many more bytes there are, and the
range in which the next one lies. -/
def continuation? (lead : Nat) : Option (Nat × Nat × Nat) :=
  if 0xC2 ≤ lead && lead ≤ 0xDF then some (1, 0x80, 0xBF)
  else if lead == 0xE0 then some (2, 0xA0, 0xBF)
  else if lead == 0xED then some (2, 0x80, 0x9F)
  else if 0xE1 ≤ lead && lead ≤ 0xEF then some (2, 0x80, 0xBF)
  else if lead == 0xF0 then some (3, 0x90, 0xBF)
  else if 0xF1 ≤ lead && lead ≤ 0xF3 then some (3, 0x80, 0xBF)
  else if lead == 0xF4 then some (3, 0x80, 0x8F)
  else none

/-- The bits that the first byte of a character adds to its code point. -/
def leadBits (count lead : Nat) : Nat := lead % Nat.pow 2 (6 - count)

/-- Reads `count` more bytes of a character of which `code` has been read, the next byte lying in
the given range: how many of them there are, and the character when all are there. -/
def readContinuation (code : Nat) : (count low high : Nat) → List UInt8 → Nat × Option Char
  | 0, _, _, _ => (0, some (Char.ofNat code))
  | _ + 1, _, _, [] => (0, none)
  | count + 1, low, high, byte :: bytes =>
    if low ≤ byte.toNat && byte.toNat ≤ high then
      let (read, c) := readContinuation (code * 64 + byte.toNat % 64) count 0x80 0xBF bytes
      (read + 1, c)
    else (0, none)

/-- The text of bytes of which the first `pending` belong to an earlier character. -/
def decodeFrom (pending : Nat) : List UInt8 → Text
  | [] => []
  | byte :: bytes =>
    match pending with
    | pending + 1 => decodeFrom pending bytes
    | 0 =>
      if byte.toNat < 0x80 then Char.ofNat byte.toNat :: decodeFrom 0 bytes
      else match continuation? byte.toNat with
        | none => replacement :: decodeFrom 0 bytes
        | some (count, low, high) =>
          match readContinuation (leadBits count byte.toNat) count low high bytes with
          | (read, some c) => c :: decodeFrom read bytes
          | (read, none) => replacement :: decodeFrom read bytes

/-- The text of any bytes. -/
def decodeLossy (bytes : ByteArray) : String :=
  match String.fromUTF8? bytes with
  | some text => text
  | none => String.ofList (decodeFrom 0 bytes.data.toList)

end EngineDocs.Text
