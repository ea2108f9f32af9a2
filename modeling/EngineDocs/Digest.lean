/-
This file computes the 64-bit XXH3 digest of a sequence of bytes, with the standard secret and no
seed, and its form as sixteen hexadecimal digits. All arithmetic is modulo 2 ^ 64. Inputs of
different lengths go through different rounds: up to 16 bytes, up to 128, up to 240, and more.
-/

import EngineDocs.Text.Digits

namespace EngineDocs.Digest

/-! ### Constants -/

/-- The secret from which the keys of all rounds are read. -/
def secret : ByteArray := ⟨#[
  0xb8, 0xfe, 0x6c, 0x39, 0x23, 0xa4, 0x4b, 0xbe, 0x7c, 0x01, 0x81, 0x2c, 0xf7, 0x21, 0xad, 0x1c,
  0xde, 0xd4, 0x6d, 0xe9, 0x83, 0x90, 0x97, 0xdb, 0x72, 0x40, 0xa4, 0xa4, 0xb7, 0xb3, 0x67, 0x1f,
  0xcb, 0x79, 0xe6, 0x4e, 0xcc, 0xc0, 0xe5, 0x78, 0x82, 0x5a, 0xd0, 0x7d, 0xcc, 0xff, 0x72, 0x21,
  0xb8, 0x08, 0x46, 0x74, 0xf7, 0x43, 0x24, 0x8e, 0xe0, 0x35, 0x90, 0xe6, 0x81, 0x3a, 0x26, 0x4c,
  0x3c, 0x28, 0x52, 0xbb, 0x91, 0xc3, 0x00, 0xcb, 0x88, 0xd0, 0x65, 0x8b, 0x1b, 0x53, 0x2e, 0xa3,
  0x71, 0x64, 0x48, 0x97, 0xa2, 0x0d, 0xf9, 0x4e, 0x38, 0x19, 0xef, 0x46, 0xa9, 0xde, 0xac, 0xd8,
  0xa8, 0xfa, 0x76, 0x3f, 0xe3, 0x9c, 0x34, 0x3f, 0xf9, 0xdc, 0xbb, 0xc7, 0xc7, 0x0b, 0x4f, 0x1d,
  0x8a, 0x51, 0xe0, 0x4b, 0xcd, 0xb4, 0x59, 0x31, 0xc8, 0x9f, 0x7e, 0xc9, 0xd9, 0x78, 0x73, 0x64,
  0xea, 0xc5, 0xac, 0x83, 0x34, 0xd3, 0xeb, 0xc3, 0xc5, 0x81, 0xa0, 0xff, 0xfa, 0x13, 0x63, 0xeb,
  0x17, 0x0d, 0xdd, 0x51, 0xb7, 0xf0, 0xda, 0x49, 0xd3, 0x16, 0x55, 0x26, 0x29, 0xd4, 0x68, 0x9e,
  0x2b, 0x16, 0xbe, 0x58, 0x7d, 0x47, 0xa1, 0xfc, 0x8f, 0xf8, 0xb8, 0xd1, 0x7a, 0xd0, 0x31, 0xce,
  0x45, 0xcb, 0x3a, 0x8f, 0x95, 0x16, 0x04, 0x28, 0xaf, 0xd7, 0xfb, 0xca, 0xbb, 0x4b, 0x40, 0x7e]⟩

/-- The first prime of 32 bits. -/
def prime32A : UInt64 := 0x9E3779B1

/-- The second prime of 32 bits. -/
def prime32B : UInt64 := 0x85EBCA77

/-- The third prime of 32 bits. -/
def prime32C : UInt64 := 0xC2B2AE3D

/-- The first prime of 64 bits. -/
def prime64A : UInt64 := 0x9E3779B185EBCA87

/-- The second prime of 64 bits. -/
def prime64B : UInt64 := 0xC2B2AE3D27D4EB4F

/-- The third prime of 64 bits. -/
def prime64C : UInt64 := 0x165667B19E3779F9

/-- The fourth prime of 64 bits. -/
def prime64D : UInt64 := 0x85EBCA77C2B2AE63

/-- The fifth prime of 64 bits. -/
def prime64E : UInt64 := 0x27D4EB2F165667C5

/-- The multiplier of the last step for long inputs. -/
def mixPrimeA : UInt64 := 0x165667919E3779F9

/-- The multiplier of the last step for inputs of four to eight bytes. -/
def mixPrimeB : UInt64 := 0x9FB21C651E98DF25

/-! ### Reading bytes -/

/-- The byte at an offset, zero past the end. -/
def byteAt (data : ByteArray) (offset : Nat) : UInt64 :=
  (data[offset]?.getD 0).toUInt64

/-- The four bytes from an offset on, the least significant one first. -/
def word32 (data : ByteArray) (offset : Nat) : UInt64 :=
  byteAt data offset ||| byteAt data (offset + 1) <<< 8 ||| byteAt data (offset + 2) <<< 16 |||
    byteAt data (offset + 3) <<< 24

/-- The eight bytes from an offset on, the least significant one first. -/
def word64 (data : ByteArray) (offset : Nat) : UInt64 :=
  word32 data offset ||| word32 data (offset + 4) <<< 32

/-- The same bytes in the other order. -/
def swapBytes (x : UInt64) : UInt64 :=
  (List.range 8).foldl
    (fun (swapped : UInt64) i => swapped <<< 8 ||| ((x >>> (8 * i.toUInt64)) &&& 0xFF)) 0

/-! ### Mixing -/

/-- The 128-bit product of two words with its halves combined. -/
def foldedProduct (a b : UInt64) : UInt64 :=
  let product := a.toNat * b.toNat
  (product % UInt64.size).toUInt64 ^^^ (product / UInt64.size).toUInt64

/-- The word rotated to the left. -/
def rotateLeft (x : UInt64) (count : UInt64) : UInt64 := x <<< count ||| x >>> (64 - count)

/-- The last step for most lengths. -/
def avalanche (x : UInt64) : UInt64 :=
  let x := (x ^^^ x >>> 37) * mixPrimeA
  x ^^^ x >>> 32

/-- The last step for the shortest lengths. -/
def shortAvalanche (x : UInt64) : UInt64 :=
  let x := (x ^^^ x >>> 33) * prime64B
  let x := (x ^^^ x >>> 29) * prime64C
  x ^^^ x >>> 32

/-- Sixteen bytes of data combined with sixteen bytes of the secret. -/
def mixSixteen (data : ByteArray) (offset secretOffset : Nat) : UInt64 :=
  foldedProduct (word64 data offset ^^^ word64 secret secretOffset)
    (word64 data (offset + 8) ^^^ word64 secret (secretOffset + 8))

/-! ### Short inputs -/

/-- The digest of at most three bytes. -/
def upToThree (data : ByteArray) : UInt64 :=
  let length := data.size
  if length == 0 then shortAvalanche (word64 secret 56 ^^^ word64 secret 64)
  else
    let combined := byteAt data 0 <<< 16 ||| byteAt data (length / 2) <<< 24 |||
      byteAt data (length - 1) ||| length.toUInt64 <<< 8
    shortAvalanche (combined ^^^ (word32 secret 0 ^^^ word32 secret 4))

/-- The digest of four to eight bytes. -/
def upToEight (data : ByteArray) : UInt64 :=
  let length := data.size
  let combined := word32 data (length - 4) + word32 data 0 <<< 32
  let x := combined ^^^ (word64 secret 8 ^^^ word64 secret 16)
  let x := (x ^^^ rotateLeft x 49 ^^^ rotateLeft x 24) * mixPrimeB
  let x := (x ^^^ (x >>> 35 + length.toUInt64)) * mixPrimeB
  x ^^^ x >>> 28

/-- The digest of nine to sixteen bytes. -/
def upToSixteen (data : ByteArray) : UInt64 :=
  let length := data.size
  let low := word64 data 0 ^^^ (word64 secret 24 ^^^ word64 secret 32)
  let high := word64 data (length - 8) ^^^ (word64 secret 40 ^^^ word64 secret 48)
  avalanche (length.toUInt64 + swapBytes low + high + foldedProduct low high)

/-- The digest of 17 to 128 bytes: pairs of pieces from the two ends towards the middle. -/
def upTo128 (data : ByteArray) : UInt64 :=
  let length := data.size
  let pairs := (length - 1) / 32 + 1
  avalanche ((List.range pairs).foldl
    (fun sum i => sum + mixSixteen data (16 * i) (32 * i) +
      mixSixteen data (length - 16 * (i + 1)) (32 * i + 16))
    (length.toUInt64 * prime64A))

/-- The digest of 129 to 240 bytes. -/
def upTo240 (data : ByteArray) : UInt64 :=
  let length := data.size
  let first := (List.range 8).foldl
    (fun sum i => sum + mixSixteen data (16 * i) (16 * i)) (length.toUInt64 * prime64A)
  let middle := (List.range (length / 16 - 8)).foldl
    (fun sum i => sum + mixSixteen data (16 * (i + 8)) (16 * i + 3)) (avalanche first)
  avalanche (middle + mixSixteen data (length - 16) 119)

/-! ### Long inputs -/

/-- The lanes before the first stripe. -/
def initialLanes : List UInt64 :=
  [prime32C, prime64A, prime64B, prime64C, prime64D, prime32B, prime64E, prime32A]

/-- Adds one stripe of 64 bytes to the lanes. The data of a lane goes to its neighbour in the pair,
and the product of the halves of the keyed data to the lane itself. -/
def addStripe (data : ByteArray) (offset secretOffset : Nat) (lanes : List UInt64) : List UInt64 :=
  lanes.zipIdx.map fun (lane, i) =>
    let neighbour := if i % 2 == 0 then i + 1 else i - 1
    let keyed := word64 data (offset + 8 * i) ^^^ word64 secret (secretOffset + 8 * i)
    lane + word64 data (offset + 8 * neighbour) + (keyed &&& (0xFFFFFFFF : UInt64)) * (keyed >>> 32)

/-- Adds stripes one after another, each with the secret eight bytes further on. -/
def addStripes (data : ByteArray) (offset count : Nat) (lanes : List UInt64) : List UInt64 :=
  (List.range count).foldl (fun lanes i => addStripe data (offset + 64 * i) (8 * i) lanes) lanes

/-- Mixes every lane at the end of a block. -/
def scramble (lanes : List UInt64) : List UInt64 :=
  lanes.zipIdx.map fun (lane, i) =>
    (lane ^^^ lane >>> 47 ^^^ word64 secret (128 + 8 * i)) * prime32A

/-- The lanes after all bytes: whole blocks of sixteen stripes, the remaining stripes, and the last
64 bytes once more. -/
def allLanes (data : ByteArray) : List UInt64 :=
  let length := data.size
  let blocks := (length - 1) / 1024
  let lanes := (List.range blocks).foldl
    (fun lanes block => scramble (addStripes data (1024 * block) 16 lanes)) initialLanes
  let lanes := addStripes data (1024 * blocks) ((length - 1 - 1024 * blocks) / 64) lanes
  addStripe data (length - 64) 121 lanes

/-- Combines neighbouring lanes, with the secret from an offset on. -/
def mergeLanes : (secretOffset : Nat) → List UInt64 → UInt64
  | offset, a :: b :: lanes =>
    foldedProduct (a ^^^ word64 secret offset) (b ^^^ word64 secret (offset + 8)) +
      mergeLanes (offset + 16) lanes
  | _, _ => 0

/-- The digest of more than 240 bytes. -/
def beyond240 (data : ByteArray) : UInt64 :=
  avalanche (data.size.toUInt64 * prime64A + mergeLanes 11 (allLanes data))

/-! ### The digest -/

/-- The digest of a sequence of bytes. -/
def digest (data : ByteArray) : UInt64 :=
  if data.size ≤ 3 then upToThree data
  else if data.size ≤ 8 then upToEight data
  else if data.size ≤ 16 then upToSixteen data
  else if data.size ≤ 128 then upTo128 data
  else if data.size ≤ 240 then upTo240 data
  else beyond240 data

/-- The digest of the UTF-8 form of a text, as sixteen hexadecimal digits. -/
def ofString (text : String) : String :=
  String.ofList (Text.hex 16 (digest text.toUTF8).toNat)

end EngineDocs.Digest
