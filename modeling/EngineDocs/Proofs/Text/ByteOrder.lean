/-
This file shows that names and locations are in the order of their bytes. Characters with larger
codes have larger bytes in UTF-8, with the first difference at a byte of both, so that whatever
follows a character does not count; and locations are compared name by name.
-/

import EngineDocs.Proofs.Text.Order
import Mathlib.Data.List.Lex

namespace EngineDocs

/-! ### Bytes of characters -/

namespace Text

/-- Numbers that fit into bytes are compared as numbers. -/
theorem ofNat_cons_lt_iff {first second : Nat} (small : first < 256) (smallToo : second < 256)
    (rest others : List UInt8) :
    UInt8.ofNat first :: rest < UInt8.ofNat second :: others ↔
      first < second ∨ first = second ∧ rest < others := by
  rw [List.cons_lt_cons_iff, UInt8.ofNat_lt_iff_lt small smallToo, ← UInt8.toNat_inj,
    UInt8.toNat_ofNat_of_lt' small, UInt8.toNat_ofNat_of_lt' smallToo]

/-- The bytes of two characters differ before either of them ends, in the way of their codes. -/
theorem utf8EncodeChar_append_lt {c d : Char} (less : c.toNat < d.toNat)
    (rest others : List UInt8) :
    String.utf8EncodeChar c ++ rest < String.utf8EncodeChar d ++ others := by
  have bound : d.val.toNat < 0x110000 := by
    rcases d.valid with low | high
    · exact Nat.lt_trans low (by decide)
    · exact high.2
  replace less : c.val.toNat < d.val.toNat := less
  simp only [String.utf8EncodeChar]
  generalize c.val.toNat = code at *
  generalize d.val.toNat = other at *
  -- One case for each two lengths. The bytes are digits to the base 64 behind a mark of the length.
  repeat' split
  all_goals
    simp (disch := omega) only [List.cons_append, List.nil_append, ofNat_cons_lt_iff,
      Nat.mod_eq_of_lt]
    omega

theorem append_lt_append_iff (front rest others : List UInt8) :
    front ++ rest < front ++ others ↔ rest < others := by
  induction front with
  | nil => rfl
  | cons byte front inductionHypothesis =>
    rw [List.cons_append, List.cons_append, List.cons_lt_cons_iff, inductionHypothesis]
    simp

/-! ### Bytes of texts -/

/-- The bytes of a text in UTF-8. -/
def bytes (text : String) : List UInt8 := text.toUTF8.data.toList

theorem bytes_eq (text : String) : bytes text = text.toList.flatMap String.utf8EncodeChar := by
  have encoded : text.toUTF8 = text.toList.utf8Encode := String.utf8Encode_toList.symm
  rw [bytes, encoded, List.utf8Encode, List.data_toByteArray]

/-- The order of the codes is that of the bytes. -/
theorem compare_eq_lt_iff (left right : Text) :
    compare left right = .lt ↔
      left.flatMap String.utf8EncodeChar < right.flatMap String.utf8EncodeChar := by
  induction left generalizing right with
  | nil =>
    cases right with
    | nil => exact iff_of_false (by decide) (List.lt_irrefl _)
    | cons d right =>
      have solid : String.utf8EncodeChar d ≠ [] := String.utf8EncodeChar_ne_nil
      obtain ⟨byte, bytes, form⟩ := List.exists_cons_of_ne_nil solid
      rw [List.flatMap_cons, form]
      exact iff_of_true rfl (List.nil_lt_cons _ _)
  | cons c left inductionHypothesis =>
    cases right with
    | nil => exact iff_of_false (by simp [compare]) (List.not_lt_nil _)
    | cons d right =>
      rw [compare, List.flatMap_cons, List.flatMap_cons]
      rcases Nat.lt_trichotomy c.toNat d.toNat with less | same | greater
      · rw [if_pos less]
        exact iff_of_true rfl (utf8EncodeChar_append_lt less _ _)
      · rw [Char.toNat_inj.mp same, if_neg (Nat.lt_irrefl _), if_neg (Nat.lt_irrefl _),
          append_lt_append_iff]
        exact inductionHypothesis right
      · rw [if_neg (Nat.lt_asymm greater), if_pos greater]
        exact iff_of_false (by decide) (List.lt_asymm (utf8EncodeChar_append_lt greater _ _))

end Text

/-! ### Names and locations -/

namespace Location

/-- A name comes before another one byte by byte. -/
def NameBefore (first second : String) : Prop := Text.bytes first < Text.bytes second

/-- A location comes before another one name by name. What lies in a directory comes right behind
the directory. -/
def Before : Location → Location → Prop := List.Lex NameBefore

theorem compareNames_eq_lt_iff (first second : String) :
    compareNames first second = .lt ↔ NameBefore first second := by
  rw [compareNames, Text.compare_eq_lt_iff, NameBefore, Text.bytes_eq, Text.bytes_eq]

theorem nameBefore_irrefl (name : String) : ¬ NameBefore name name := List.lt_irrefl _

theorem compare_eq_lt_iff (first second : Location) :
    compare first second = .lt ↔ Before first second := by
  induction first generalizing second with
  | nil =>
    cases second with
    | nil => exact iff_of_false nofun nofun
    | cons b second => exact iff_of_true rfl .nil
  | cons a first inductionHypothesis =>
    cases second with
    | nil => exact iff_of_false nofun nofun
    | cons b second =>
      rw [compare]
      split
      · rename_i same
        obtain rfl := Std.LawfulEqCmp.eq_of_compare same
        rw [inductionHypothesis]
        refine ⟨.cons, fun before => ?_⟩
        cases before with
        | rel less => exact absurd less (nameBefore_irrefl a)
        | cons later => exact later
      · rename_i differ
        rw [compareNames_eq_lt_iff]
        refine ⟨.rel, fun before => ?_⟩
        cases before with
        | rel less => exact less
        | cons later => exact absurd Std.ReflCmp.compare_self differ

end Location

end EngineDocs
