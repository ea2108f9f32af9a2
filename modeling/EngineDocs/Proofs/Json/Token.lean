/-
This file shows that tokens which are written as text are read back. Strings are escaped character
by character, and each escape reads as the character it was made from; numbers are read back when
nothing that could continue a number comes behind them.
-/

import EngineDocs.Json.Token
import EngineDocs.Json.Write

namespace EngineDocs

/-! ### Digits -/

namespace Text

theorem isDigit_of_mem_decimal {n : Nat} {c : Char} (member : c ∈ decimal n) : isDigit c = true := by
  have digit := Nat.isDigit_of_mem_toDigits (by decide) (by decide) member
  simp only [Char.isDigit, Bool.and_eq_true, decide_eq_true_eq, UInt32.le_iff_toNat_le] at digit
  simp only [isDigit, Bool.and_eq_true, decide_eq_true_eq]
  exact digit

theorem decimal_ne_nil (n : Nat) : decimal n ≠ [] := Nat.toDigits_ne_nil

theorem digitValue?_of_isDigit {c : Char} (digit : isDigit c = true) :
    digitValue? c = some (c.toNat - 48) := by
  simp only [isDigit] at digit
  rw [digitValue?, if_pos digit]

theorem readDigitsFrom_of_isDigit (text : Text) (digits : ∀ c ∈ text, isDigit c = true)
    (value : Nat) : readDigitsFrom 10 value text = some (Nat.ofDigitChars 10 text value) := by
  induction text generalizing value with
  | nil => rfl
  | cons c text inductionHypothesis =>
    have digit := digits c List.mem_cons_self
    have small : c.toNat - 48 < 10 := by
      simp only [isDigit, Bool.and_eq_true, decide_eq_true_eq] at digit
      omega
    rw [readDigitsFrom, digitValue?_of_isDigit digit]
    simp only [if_pos small]
    rw [inductionHypothesis (fun c member => digits c (List.mem_cons_of_mem _ member)),
      Nat.ofDigitChars_cons, Nat.mul_comm]
    rfl

/-- The decimal form of a number stands for the number. -/
theorem readDigits?_decimal (n : Nat) : readDigits? 10 (decimal n) = some n := by
  rw [readDigits?, if_neg (by simpa using decimal_ne_nil n),
    readDigitsFrom_of_isDigit _ fun c member => isDigit_of_mem_decimal member, decimal,
    Nat.ofDigitChars_ten_toDigits]

/-- Only the number zero is written with a zero in front. -/
theorem decimal_head_ne_zero {n : Nat} (positive : 0 < n) (rest : Text) :
    decimal n ≠ '0' :: rest := by
  intro leading
  induction n using Nat.strongRecOn generalizing rest with
  | ind n inductionHypothesis =>
    by_cases small : n < 10
    · rw [decimal, Nat.toDigits_of_lt_base small] at leading
      have single : ∀ digit < 10, 0 < digit → Nat.digitChar digit ≠ '0' := by decide
      exact single n small positive (List.cons.inj leading).1
    · rw [decimal, Nat.toDigits_of_base_le (by decide) (by omega)] at leading
      cases front : Nat.toDigits 10 (n / 10) with
      | nil => exact Nat.toDigits_ne_nil front
      | cons c tail =>
        rw [front, List.cons_append, List.cons.injEq] at leading
        exact inductionHypothesis (n / 10) (by omega) (by omega) tail
          (by rw [decimal, front, leading.1])

end Text

namespace Json

/-! ### Strings -/

/-- Control characters are written with four hexadecimal digits, which give their code. -/
theorem hexCode?_hex : ∀ code < 0x20, ∃ a b c d,
    Text.hex 4 code = [a, b, c, d] ∧ hexCode? a b c d = some code := by
  intro code small
  refine ⟨_, _, _, _, rfl, ?_⟩
  revert code
  decide

theorem readStringFrom_escape (c : Char) (rest : Text) :
    readStringFrom none (escape c ++ rest) =
      consRead (some c) (escape c).length (readStringFrom none rest) := by
  unfold escape
  split
  all_goals try rfl
  split
  · rename_i control
    obtain ⟨first, second, third, fourth, digits, code⟩ := hexCode?_hex c.toNat control
    have high : isHighSurrogate c.toNat = false := by
      simp only [isHighSurrogate, Bool.and_eq_false_iff, decide_eq_false_iff_not]
      omega
    have low : isLowSurrogate c.toNat = false := by
      simp only [isLowSurrogate, Bool.and_eq_false_iff, decide_eq_false_iff_not]
      omega
    simp only [digits, List.cons_append, List.nil_append]
    rw [readStringFrom, code]
    simp only [high, low, Bool.false_eq_true, if_false, Option.isSome_none, Char.ofNat_toNat]
    rfl
  · rename_i notQuote notBackslash _ _ _ _ _ printable
    rw [List.singleton_append, readStringFrom]
    · rw [if_neg printable]
      rfl
    · exact notQuote
    · intro _ _ _ _ _ same
      exact absurd same notBackslash
    · intro _ _ same
      exact absurd same notBackslash

/-- The characters of a string are read back from their written form. -/
theorem readStringFrom_flatMap (value rest : Text) :
    readStringFrom none (value.flatMap escape ++ '"' :: rest) =
      some (some value, (value.flatMap escape).length + 1) := by
  induction value with
  | nil => rfl
  | cons c value inductionHypothesis =>
    rw [List.flatMap_cons, List.append_assoc, readStringFrom_escape, inductionHypothesis,
      List.length_append]
    simp only [consRead, Option.map_some, Option.bind_some]
    congr 2
    omega

theorem readToken?_writeString (value : String) (rest : Text) :
    readToken? (writeString value ++ rest) =
      some (.str value.toList, (writeString value).length) := by
  have body : readString? (value.toList.flatMap escape ++ ['"'] ++ rest) =
      some (some value.toList, (value.toList.flatMap escape).length + 1) := by
    rw [List.append_assoc]
    exact readStringFrom_flatMap value.toList rest
  rw [writeString, List.cons_append, List.cons_append, readToken?, body]
  simp

/-- Where a string ends is fixed by its written form. -/
theorem writeString_append_inj {first second : String} {left right : Text}
    (same : writeString first ++ left = writeString second ++ right) :
    first = second ∧ left = right := by
  have read := readToken?_writeString first left
  rw [same, readToken?_writeString, Option.some.injEq, Prod.mk.injEq, Token.str.injEq] at read
  obtain rfl := String.toList_inj.mp read.1
  exact ⟨rfl, List.append_cancel_left same⟩

/-! ### Numbers -/

/-- Whether a number ends where the text starts. -/
def EndsNumber (text : Text) : Prop :=
  ∀ c, text.head? = some c → Text.isDigit c = false ∧ c ≠ '.' ∧ c ≠ 'e' ∧ c ≠ 'E'

theorem endsNumber_cons {c : Char} (text : Text)
    (ends : Text.isDigit c = false ∧ c ≠ '.' ∧ c ≠ 'e' ∧ c ≠ 'E') : EndsNumber (c :: text) := by
  intro head same
  rw [List.head?_cons, Option.some.injEq] at same
  exact same ▸ ends

theorem integerPart_decimal (n : Nat) {rest : Text} (ends : EndsNumber rest) :
    integerPart (Text.decimal n ++ rest) = Text.decimal n := by
  have stop : rest.takeWhile Text.isDigit = [] := by
    cases rest with
    | nil => rfl
    | cons c rest => rw [List.takeWhile_cons_of_neg (by rw [(ends c rfl).1]; decide)]
  have all : (Text.decimal n ++ rest).takeWhile Text.isDigit = Text.decimal n := by
    rw [List.takeWhile_append_of_pos fun c member => Text.isDigit_of_mem_decimal member, stop,
      List.append_nil]
  rcases Nat.eq_zero_or_pos n with zero | positive
  · subst zero
    rfl
  · unfold integerPart
    split
    · rename_i tail leading
      cases written : Text.decimal n with
      | nil => exact absurd written (Text.decimal_ne_nil n)
      | cons c digits =>
        rw [written, List.cons_append, List.cons.injEq] at leading
        exact absurd (leading.1 ▸ written) (Text.decimal_head_ne_zero positive digits)
    · exact all

theorem fraction?_of_endsNumber {text : Text} (ends : EndsNumber text) :
    fraction? text = some [] := by
  cases text with
  | nil => rfl
  | cons c text =>
    unfold fraction?
    split
    · rename_i same
      exact absurd (List.cons.inj same).1 (ends c rfl).2.1
    · rfl

theorem exponent?_of_endsNumber {text : Text} (ends : EndsNumber text) :
    exponent? text = some [] := by
  cases text with
  | nil => rfl
  | cons c text =>
    have noMark : (c == 'e' || c == 'E') = false := by simp [(ends c rfl).2.2]
    rw [exponent?, noMark]
    rfl

theorem readNumber?_decimal (n : Nat) (small : n < UInt64.size) {rest : Text}
    (ends : EndsNumber rest) :
    readNumber? (Text.decimal n ++ rest) = some (.int n, (Text.decimal n).length) := by
  have unsigned : (Text.decimal n ++ rest).head? ≠ some '-' := by
    intro minus
    cases written : Text.decimal n with
    | nil => exact Text.decimal_ne_nil n written
    | cons c digits =>
      rw [written, List.cons_append, List.head?_cons, Option.some.injEq] at minus
      have digit := Text.isDigit_of_mem_decimal (written ▸ List.mem_cons_self)
      rw [minus] at digit
      exact absurd digit (by decide)
  have token : integerToken false (Text.decimal n) = .int n := by
    simp [integerToken, Text.readDigits?_decimal, small]
  unfold readNumber?
  simp only [beq_iff_eq, if_neg unsigned, List.take_zero, List.length_nil, List.drop_zero,
    integerPart_decimal n ends]
  split
  · rename_i none
    exact absurd none (Text.decimal_ne_nil n)
  · simp [fraction?_of_endsNumber ends, exponent?_of_endsNumber ends, token]

theorem readToken?_of_isDigit {c : Char} {text : Text} (digit : Text.isDigit c = true) :
    readToken? (c :: text) = readNumber? (c :: text) := by
  unfold readToken?
  split
  all_goals
    rename_i same
    try
      rw [(List.cons.inj same).1] at digit
      exact absurd digit (by decide)
  · exact absurd same (List.cons_ne_nil _ _)
  · rw [← (List.cons.inj same).1, digit, Bool.or_true, if_pos rfl]

theorem readToken?_writeInt {value : Int} (nonnegative : 0 ≤ value)
    (small : value < UInt64.size) {rest : Text} (ends : EndsNumber rest) :
    readToken? (writeInt value ++ rest) = some (.int value, (writeInt value).length) := by
  obtain ⟨n, rfl⟩ := Int.eq_ofNat_of_zero_le nonnegative
  have number := readNumber?_decimal n (by omega) ends
  rw [writeInt, if_neg (by omega), Int.natAbs_natCast]
  cases written : Text.decimal n with
  | nil => exact absurd written (Text.decimal_ne_nil n)
  | cons c digits =>
    rw [written] at number
    rw [List.cons_append, readToken?_of_isDigit, ← List.cons_append, number]
    exact Text.isDigit_of_mem_decimal (written ▸ List.mem_cons_self)

end Json

end EngineDocs
