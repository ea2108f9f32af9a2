/-
This file says what the words of a text are: the runs of characters that are not blank, with
nothing but blanks between them. A text is divided into words in one way only, and this division is
what going through the text finds.
-/

import EngineDocs.Proofs.Text.Runs

namespace EngineDocs.Text

/-! ### Dividing a text -/

/-- A text is divided into words: blanks belong to none, and a word goes on up to the next blank or
the end of the text. -/
inductive IsDivided : Text → List Text → Prop where
  | nil : IsDivided [] []
  | blank {c : Char} {text : Text} {parts : List Text} (blank : isBlank c = true)
      (later : IsDivided text parts) : IsDivided (c :: text) parts
  | word {word rest : Text} {parts : List Text} (solid : ∀ c ∈ word, isBlank c = false)
      (nonempty : word ≠ []) (ends : Ends (!isBlank ·) rest) (later : IsDivided rest parts) :
      IsDivided (word ++ rest) (word :: parts)

/-! ### Finding the words -/

-- Rewriting with the definition itself splits the nested matches, which takes too long.
theorem words_cons (c : Char) (text : Text) :
    words (c :: text) =
      if isBlank c then words text
      else match text, words text with
        | next :: _, word :: rest =>
          if isBlank next then [c] :: word :: rest else (c :: word) :: rest
        | _, rest => [c] :: rest := rfl

theorem words_blank {c : Char} (blank : isBlank c = true) (text : Text) :
    words (c :: text) = words text :=
  if_pos blank

/-- A character that stands before a blank or at the end is a word by itself. -/
theorem words_cons_of_ends {c : Char} (solid : isBlank c = false) {rest : Text}
    (ends : Ends (!isBlank ·) rest) : words (c :: rest) = [c] :: words rest := by
  rw [words_cons, if_neg (by rw [solid]; exact Bool.false_ne_true)]
  cases rest with
  | nil => rfl
  | cons next rest =>
    have blank : isBlank next = true := by simpa using ends_cons.mp ends
    cases later : words (next :: rest) with
    | nil => rfl
    | cons part parts => exact if_pos blank

/-- A character that stands before a word is the start of it. -/
theorem words_cons_of_words {c next : Char} (solid : isBlank c = false)
    (nextSolid : isBlank next = false) {text part : Text} {parts : List Text}
    (later : words (next :: text) = part :: parts) :
    words (c :: next :: text) = (c :: part) :: parts := by
  rw [words_cons, if_neg (by rw [solid]; exact Bool.false_ne_true), later]
  exact if_neg (by rw [nextSolid]; exact Bool.false_ne_true)

theorem words_append_of_ends {word rest : Text} (solid : ∀ c ∈ word, isBlank c = false)
    (nonempty : word ≠ []) (ends : Ends (!isBlank ·) rest) :
    words (word ++ rest) = word :: words rest := by
  induction word with
  | nil => exact absurd rfl nonempty
  | cons c word inductionHypothesis =>
    obtain ⟨here, later⟩ := List.forall_mem_cons.mp solid
    cases word with
    | nil => exact words_cons_of_ends here ends
    | cons next word =>
      exact words_cons_of_words here (later next List.mem_cons_self)
        (inductionHypothesis later (List.cons_ne_nil _ _))

/-! ### The only division -/

theorem isDivided_words (text : Text) : IsDivided text (words text) := by
  match text with
  | [] => exact .nil
  | c :: text =>
    by_cases blank : isBlank c = true
    · rw [words_blank blank]
      exact .blank blank (isDivided_words text)
    · -- The first word ends where the characters that are not blank end.
      have here : isBlank c = false := Bool.eq_false_iff.mpr blank
      have solid : ∀ letter ∈ c :: text.takeWhile (!isBlank ·), isBlank letter = false := by
        refine List.forall_mem_cons.mpr ⟨here, fun letter member => ?_⟩
        simpa using @List.mem_takeWhile_imp _ (!isBlank ·) _ _ member
      have ends := ends_dropWhile (!isBlank ·) text
      have divided : c :: text =
          (c :: text.takeWhile (!isBlank ·)) ++ text.dropWhile (!isBlank ·) := by
        rw [List.cons_append, List.takeWhile_append_dropWhile]
      rw [divided, words_append_of_ends solid (List.cons_ne_nil _ _) ends]
      exact .word solid (List.cons_ne_nil _ _) ends (isDivided_words (text.dropWhile (!isBlank ·)))
termination_by text.length
decreasing_by
  · exact Nat.lt_succ_self _
  · exact Nat.lt_succ_of_le (List.length_dropWhile_le _ _)

theorem IsDivided.words_eq {text : Text} {parts : List Text} (divided : IsDivided text parts) :
    words text = parts := by
  induction divided with
  | nil => rfl
  | blank blank _ inductionHypothesis => rw [words_blank blank, inductionHypothesis]
  | word solid nonempty ends _ inductionHypothesis =>
    rw [words_append_of_ends solid nonempty ends, inductionHypothesis]

/-- The words of a text are the parts into which it is divided. -/
theorem words_eq_iff {text : Text} {parts : List Text} :
    words text = parts ↔ IsDivided text parts :=
  ⟨fun same => same ▸ isDivided_words text, IsDivided.words_eq⟩

theorem IsDivided.solid_of_mem {text : Text} {parts : List Text} (divided : IsDivided text parts) :
    ∀ part ∈ parts, part ≠ [] ∧ ∀ c ∈ part, isBlank c = false := by
  induction divided with
  | nil => exact fun _ member => absurd member List.not_mem_nil
  | blank _ _ inductionHypothesis => exact inductionHypothesis
  | word solid nonempty _ _ inductionHypothesis =>
    exact List.forall_mem_cons.mpr ⟨⟨nonempty, solid⟩, inductionHypothesis⟩

end EngineDocs.Text
