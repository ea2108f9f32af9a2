/-
This file holds how a text is cut into runs and searched for literals. A run of characters ends
where a character of another kind stands, whatever comes behind it, and a literal is read, begins,
ends or occurs in a text exactly when it is a prefix, a suffix or an infix of it.
-/

import EngineDocs.Text.Basic
import Mathlib.Data.List.Infix
import Mathlib.Data.List.TakeWhile

namespace EngineDocs.Text

/-! ### Deciding what holds of characters -/

-- What is said about the characters of a text is decided by going through the text. Without these
-- instances one that goes through all characters there are may come first.
section Decidable

variable {P : Char → Prop} [DecidablePred P]

instance (priority := 1100) decidableForallMem (text : Text) : Decidable (∀ c ∈ text, P c) :=
  List.decidableBAll P text

instance (priority := 1100) decidableExistsMem (text : Text) : Decidable (∃ c ∈ text, P c) :=
  List.decidableBEx P text

instance (priority := 1100) decidableForallMemOption (head : Option Char) :
    Decidable (∀ c ∈ head, P c) :=
  Option.decidableForallMem head

end Decidable

/-! ### Runs -/

section Runs

variable {p : Char → Bool} {c : Char}

theorem takeWhile_append_stop (stop : p c = false) (text rest : Text) :
    (text ++ c :: rest).takeWhile p = text.takeWhile p := by
  induction text with
  | nil => exact List.takeWhile_cons_of_neg (by rw [stop]; exact Bool.false_ne_true)
  | cons head text inductionHypothesis =>
    rw [List.cons_append, List.takeWhile_cons, List.takeWhile_cons, inductionHypothesis]

theorem dropWhile_append_stop (stop : p c = false) (text rest : Text) :
    (text ++ c :: rest).dropWhile p = text.dropWhile p ++ c :: rest := by
  induction text with
  | nil => exact List.dropWhile_cons_of_neg (by rw [stop]; exact Bool.false_ne_true)
  | cons head text inductionHypothesis =>
    rw [List.cons_append, List.dropWhile_cons, List.dropWhile_cons, inductionHypothesis]
    split <;> rfl

/-- A run of the characters of `p` ends before the text: the text is empty or begins with another
character. -/
def Ends (p : Char → Bool) (text : Text) : Prop := ∀ c ∈ text.head?, p c = false

theorem ends_nil : Ends p [] := nofun

theorem ends_cons {text : Text} : Ends p (c :: text) ↔ p c = false := by
  simp only [Ends, List.head?_cons, Option.mem_some_iff, forall_eq']

theorem ends_dropWhile (p : Char → Bool) (text : Text) : Ends p (text.dropWhile p) := by
  intro c member
  have stop := List.head?_dropWhile_not p text
  rw [Option.mem_def.mp member] at stop
  exact stop

theorem Ends.append {text : Text} (ends : Ends p text) (solid : text ≠ []) (rest : Text) :
    Ends p (text ++ rest) := by
  cases text with
  | nil => exact absurd rfl solid
  | cons c text => exact ends

theorem takeWhile_of_ends {text : Text} (ends : Ends p text) : text.takeWhile p = [] := by
  cases text with
  | nil => rfl
  | cons c text =>
    exact List.takeWhile_cons_of_neg (by rw [ends_cons.mp ends]; exact Bool.false_ne_true)

theorem dropWhile_of_ends {text : Text} (ends : Ends p text) : text.dropWhile p = text := by
  cases text with
  | nil => rfl
  | cons c text =>
    exact List.dropWhile_cons_of_neg (by rw [ends_cons.mp ends]; exact Bool.false_ne_true)

theorem takeWhile_append_of_ends {run rest : Text} (inside : ∀ c ∈ run, p c = true)
    (ends : Ends p rest) : (run ++ rest).takeWhile p = run := by
  rw [List.takeWhile_append_of_pos inside, takeWhile_of_ends ends, List.append_nil]

theorem dropWhile_append_of_ends {run rest : Text} (inside : ∀ c ∈ run, p c = true)
    (ends : Ends p rest) : (run ++ rest).dropWhile p = rest := by
  rw [List.dropWhile_append_of_pos inside, dropWhile_of_ends ends]

theorem takeWhile_of_not_mem {mark : Char} {text : Text} (absent : mark ∉ text) :
    text.takeWhile (· != mark) = text :=
  List.takeWhile_eq_self_iff.mpr fun _ member => bne_iff_ne.mpr fun same => absent (same ▸ member)

theorem takeWhile_append_mark {mark : Char} {text : Text} (absent : mark ∉ text) (rest : Text) :
    (text ++ mark :: rest).takeWhile (· != mark) = text := by
  have stop := @takeWhile_append_stop (· != mark) mark (bne_self_eq_false mark)
  rw [stop, takeWhile_of_not_mem absent]

theorem not_mem_takeWhile (mark : Char) (text : Text) : mark ∉ text.takeWhile (· != mark) :=
  fun member => bne_iff_ne.mp (@List.mem_takeWhile_imp _ (· != mark) _ _ member) rfl

theorem drop_length_takeWhile (p : Char → Bool) (text : Text) :
    text.drop (text.takeWhile p).length = text.dropWhile p := by
  conv => lhs; arg 2; rw [← List.takeWhile_append_dropWhile (p := p) (l := text)]
  exact List.drop_left

end Runs

theorem isBlank_of_mem_leadingBlanks {text : Text} {c : Char} (member : c ∈ leadingBlanks text) :
    isBlank c = true :=
  List.mem_takeWhile_imp member

theorem isWord_of_mem_leadingWord {text : Text} {c : Char} (member : c ∈ leadingWord text) :
    isWord c = true :=
  List.mem_takeWhile_imp member

theorem leadingBlanks_append_skipBlanks (text : Text) :
    leadingBlanks text ++ skipBlanks text = text :=
  List.takeWhile_append_dropWhile

theorem leadingWord_append_skipWord (text : Text) : leadingWord text ++ skipWord text = text :=
  List.takeWhile_append_dropWhile

theorem leadingBlanks_eq_nil_iff {text : Text} : leadingBlanks text = [] ↔ Ends isBlank text := by
  constructor
  · intro empty
    rw [← leadingBlanks_append_skipBlanks text, empty]
    exact ends_dropWhile isBlank text
  · exact takeWhile_of_ends

theorem drop_length_leadingWord (text : Text) :
    text.drop (leadingWord text).length = skipWord text :=
  drop_length_takeWhile _ _

/-- A proper part of the leading word leaves a word. -/
theorem drop_leadingWord {text : Text} {length : Nat} (short : length < (leadingWord text).length) :
    text.drop length = (leadingWord text).drop length ++ skipWord text ∧
      (leadingWord text).drop length ≠ [] ∧
      ∀ c ∈ (leadingWord text).drop length, isWord c = true := by
  refine ⟨?_, ?_, fun c member => isWord_of_mem_leadingWord (List.mem_of_mem_drop member)⟩
  · conv => lhs; rw [← leadingWord_append_skipWord text]
    exact List.drop_append_of_le_length (Nat.le_of_lt short)
  · rw [ne_eq, List.drop_eq_nil_iff, Nat.not_le]
    exact short

/-- No character belongs to an identifier and is blank. -/
theorem isBlank_eq_false_of_isWord {c : Char} (word : isWord c = true) : isBlank c = false := by
  simp only [isWord, isBlank, Bool.or_eq_true, Bool.and_eq_true, decide_eq_true_eq, beq_iff_eq,
    Bool.or_eq_false_iff, Bool.and_eq_false_iff, decide_eq_false_iff_not, beq_eq_false_iff_ne]
    at word ⊢
  omega

theorem isWord_eq_false_of_isBlank {c : Char} (blank : isBlank c = true) : isWord c = false := by
  refine Bool.eq_false_iff.mpr fun word => ?_
  rw [isBlank_eq_false_of_isWord word] at blank
  exact nomatch blank

theorem not_mem_of_isWord {word : Text} {c : Char} (inside : ∀ c ∈ word, isWord c = true)
    (foreign : isWord c = false) : c ∉ word := by
  intro member
  rw [inside c member] at foreign
  exact nomatch foreign

theorem not_mem_of_isBlank {blanks : Text} {c : Char} (inside : ∀ c ∈ blanks, isBlank c = true)
    (foreign : isBlank c = false) : c ∉ blanks := by
  intro member
  rw [inside c member] at foreign
  exact nomatch foreign

theorem ends_isBlank_of_isWord {word rest : Text} (solid : word ≠ [])
    (inside : ∀ c ∈ word, isWord c = true) : Ends isBlank (word ++ rest) := by
  cases word with
  | nil => exact absurd rfl solid
  | cons c word => exact ends_cons.mpr (isBlank_eq_false_of_isWord (inside c List.mem_cons_self))

theorem ends_isWord_of_isBlank {blanks rest : Text} (inside : ∀ c ∈ blanks, isBlank c = true)
    (ends : Ends isWord rest) : Ends isWord (blanks ++ rest) := by
  cases blanks with
  | nil => exact ends
  | cons c blanks => exact ends_cons.mpr (isWord_eq_false_of_isBlank (inside c List.mem_cons_self))

theorem ends_isWord_append {blanks rest : Text} (solid : blanks ≠ [])
    (blank : ∀ c ∈ blanks, isBlank c = true) : Ends isWord (blanks ++ rest) := by
  cases blanks with
  | nil => exact absurd rfl solid
  | cons c blanks =>
    exact ends_cons.mpr (isWord_eq_false_of_isBlank (blank c List.mem_cons_self))

/-! ### Boundaries -/

/-- Two texts with a separator in each are the same when they are divided at the same place, or
when one of the dividing places lies further back and the text between them stands in both. -/
theorem append_cons_eq_append_cons_iff (separator : Char) {front back front' back' : Text} :
    front ++ separator :: back = front' ++ separator :: back' ↔
      (front = front' ∧ back = back') ∨
        (∃ middle, front' = front ++ separator :: middle ∧
          back = middle ++ separator :: back') ∨
        (∃ middle, front = front' ++ separator :: middle ∧
          back' = middle ++ separator :: back) := by
  constructor
  · intro same
    rcases List.append_eq_append_iff.mp same with ⟨between, rfl, rest⟩ | ⟨between, rfl, rest⟩
    · cases between with
      | nil => exact Or.inl ⟨(List.append_nil front).symm, (List.cons.inj rest).2⟩
      | cons c middle =>
        obtain ⟨rfl, behind⟩ := List.cons.inj rest
        exact Or.inr (Or.inl ⟨middle, rfl, behind⟩)
    · cases between with
      | nil => exact Or.inl ⟨List.append_nil front', (List.cons.inj rest).2.symm⟩
      | cons c middle =>
        obtain ⟨rfl, behind⟩ := List.cons.inj rest
        exact Or.inr (Or.inr ⟨middle, rfl, behind⟩)
  · rintro (⟨rfl, rfl⟩ | ⟨middle, rfl, rfl⟩ | ⟨middle, rfl, rfl⟩)
    · rfl
    · rw [List.append_assoc, List.cons_append]
    · rw [List.append_assoc, List.cons_append]

section Boundaries

variable {c : Char} {part : Text}

/-- A part without the character `c` begins a text that goes on with `c` only if it fits before. -/
theorem prefix_append_stop (foreign : c ∉ part) {text rest : Text} :
    part <+: text ++ c :: rest ↔ part <+: text := by
  constructor
  · rintro ⟨more, same⟩
    rcases List.append_eq_append_iff.mp same with ⟨middle, rfl, _⟩ | ⟨excess, rfl, reached⟩
    · exact List.prefix_append _ _
    · cases excess with
      | nil => rw [List.append_nil]
      | cons first excess =>
        obtain ⟨rfl, _⟩ := List.cons.inj reached
        exact absurd (List.mem_append_right _ List.mem_cons_self) foreign
  · exact fun isPrefix => isPrefix.trans (List.prefix_append _ _)

/-- The same for a part that ends with its first `c`: it fits before the end of that `c`. -/
theorem concat_prefix_append_stop (foreign : c ∉ part) {text rest : Text} :
    part ++ [c] <+: text ++ c :: rest ↔ part ++ [c] <+: text ++ [c] := by
  rw [List.append_cons text]
  constructor
  · intro isPrefix
    have before := (List.prefix_append _ _).trans isPrefix
    rw [← List.append_cons, prefix_append_stop foreign] at before
    refine List.prefix_of_prefix_length_le isPrefix (List.prefix_append _ _) ?_
    rw [List.length_append, List.length_append]
    exact Nat.add_le_add_right before.length_le _
  · exact fun isPrefix => isPrefix.trans (List.prefix_append _ _)

/-- A text is divided in one way only at its first `c`. -/
theorem append_stop_inj {front rest front' rest' : Text} (clear : c ∉ front) (clear' : c ∉ front')
    (same : front ++ c :: rest = front' ++ c :: rest') : front = front' ∧ rest = rest' := by
  rcases (append_cons_eq_append_cons_iff c).mp same with both | ⟨_, rfl, _⟩ | ⟨_, rfl, _⟩
  · exact both
  · exact absurd (List.mem_append_right _ List.mem_cons_self) clear'
  · exact absurd (List.mem_append_right _ List.mem_cons_self) clear

/-- A part without the character `c` stands before or behind it. -/
theorem infix_append_stop (foreign : c ∉ part) {text rest : Text} :
    part <:+: text ++ c :: rest ↔ part <:+: text ∨ part <:+: rest := by
  induction text with
  | nil =>
    rw [List.nil_append, List.infix_cons_iff, ← List.nil_append (c :: rest),
      prefix_append_stop foreign, List.prefix_nil, List.infix_nil]
  | cons head text inductionHypothesis =>
    rw [List.cons_append, List.infix_cons_iff, ← List.cons_append, prefix_append_stop foreign,
      inductionHypothesis, List.infix_cons_iff, or_assoc]

/-- A part without the character `c` at the end of a text stands behind it. -/
theorem suffix_append_stop (foreign : c ∉ part) {text rest : Text} :
    part <:+ text ++ c :: rest ↔ part <:+ rest := by
  rw [← List.reverse_prefix, List.reverse_append, List.reverse_cons, List.append_assoc,
    List.singleton_append, prefix_append_stop (mt List.mem_reverse.mp foreign), List.reverse_prefix]

/-- Where a text has one `c` only, a part that ends with `c` ends there. -/
theorem suffix_of_concat_infix {text rest : Text} (before : c ∉ text) (behind : c ∉ rest)
    (isInfix : part ++ [c] <:+: text ++ c :: rest) : part <:+ text := by
  obtain ⟨front, back, same⟩ := isInfix
  rw [← List.append_assoc, List.append_assoc, List.singleton_append] at same
  rcases (append_cons_eq_append_cons_iff c).mp same with ⟨divided, _⟩ | ⟨_, divided, _⟩ | ⟨_, _, left⟩
  · exact ⟨front, divided⟩
  · exact absurd (divided ▸ List.mem_append_right _ List.mem_cons_self) before
  · exact absurd (left ▸ List.mem_append_right _ List.mem_cons_self) behind

end Boundaries

/-! ### Literals -/

theorem after?_eq_some_iff {literal text rest : Text} :
    after? literal text = some rest ↔ text = literal ++ rest := by
  induction literal generalizing text with
  | nil => simp only [after?, Option.some_inj, List.nil_append]
  | cons expected literal inductionHypothesis =>
    cases text with
    | nil => simp only [after?, reduceCtorEq, List.cons_append]
    | cons c text =>
      rw [after?, List.cons_append, List.cons.injEq]
      by_cases same : expected = c
      · rw [if_pos same, inductionHypothesis, eq_comm (a := c), iff_true_intro same, true_and]
      · rw [if_neg same, eq_comm (a := c), iff_false_intro same, false_and]
        exact iff_of_false nofun id

/-- A character that a literal does not have ends the part of the text that decides about it. -/
theorem after?_append_stop {literal : Text} {c : Char} (foreign : c ∉ literal)
    (text rest : Text) :
    after? literal (text ++ c :: rest) = (after? literal text).map (· ++ c :: rest) := by
  induction literal generalizing text with
  | nil => rfl
  | cons expected literal inductionHypothesis =>
    obtain ⟨other, foreign⟩ := not_or.mp (mt List.mem_cons.mpr foreign)
    cases text with
    | nil => exact if_neg (Ne.symm other)
    | cons head text =>
      rw [List.cons_append, after?, after?, inductionHypothesis foreign]
      split <;> rfl

theorem startsWith_iff {literal text : Text} :
    startsWith literal text = true ↔ literal <+: text := by
  rw [startsWith, Option.isSome_iff_exists]
  simp only [after?_eq_some_iff]
  exact exists_congr fun rest => eq_comm

theorem endsWith_iff {literal text : Text} : endsWith literal text = true ↔ literal <:+ text := by
  rw [endsWith, startsWith_iff, List.reverse_prefix]

theorem occursIn_iff {literal text : Text} : occursIn literal text = true ↔ literal <:+: text := by
  induction text with
  | nil => rw [occursIn, List.isEmpty_iff, List.infix_nil]
  | cons c text inductionHypothesis =>
    rw [occursIn, Bool.or_eq_true, startsWith_iff, inductionHypothesis, List.infix_cons_iff]

end EngineDocs.Text
