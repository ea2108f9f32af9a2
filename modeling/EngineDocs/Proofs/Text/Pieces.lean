/-
This file says how a text is cut into pieces at some of its characters, and how parts are joined
with a separator between neighbours. Joining the pieces of a text gives it back, and parts in which
the separator does not occur are the pieces of what they are joined to.
-/

import EngineDocs.Text.Basic
import Mathlib.Data.List.Infix

namespace EngineDocs.Text

/-! ### Cutting a text -/

theorem pieces_ne_nil (cut : Char → Bool) (text : Text) : pieces cut text ≠ [] := by
  cases text with
  | nil => exact List.cons_ne_nil _ _
  | cons c text =>
    rw [pieces]
    split
    · exact List.cons_ne_nil _ _
    · split <;> exact List.cons_ne_nil _ _

theorem pieces_of_forall_not {cut : Char → Bool} {text : Text}
    (uncut : ∀ c ∈ text, cut c = false) : pieces cut text = [text] := by
  induction text with
  | nil => rfl
  | cons c text inductionHypothesis =>
    rw [pieces, uncut c List.mem_cons_self,
      inductionHypothesis fun c member => uncut c (List.mem_cons_of_mem _ member)]
    rfl

/-- A cut divides the pieces into those before it and those behind it. -/
theorem pieces_append_cons {cut : Char → Bool} {separator : Char} (cuts : cut separator = true)
    (front back : Text) :
    pieces cut (front ++ separator :: back) = pieces cut front ++ pieces cut back := by
  induction front with
  | nil =>
    rw [List.nil_append, pieces.eq_2, if_pos cuts]
    rfl
  | cons c front inductionHypothesis =>
    rw [List.cons_append, pieces, pieces, inductionHypothesis]
    by_cases here : cut c = true
    · rw [if_pos here, if_pos here, List.cons_append]
    · rw [if_neg here, if_neg here]
      cases split : pieces cut front with
      | nil => exact absurd split (pieces_ne_nil cut front)
      | cons piece rest => rfl

theorem not_cut_of_mem_pieces {cut : Char → Bool} {text piece : Text}
    (member : piece ∈ pieces cut text) : ∀ c ∈ piece, cut c = false := by
  induction text generalizing piece with
  | nil =>
    rw [List.mem_singleton.mp member]
    exact fun c absent => absurd absent List.not_mem_nil
  | cons c text inductionHypothesis =>
    rw [pieces] at member
    by_cases here : cut c = true
    · rw [if_pos here] at member
      rcases List.mem_cons.mp member with rfl | later
      · exact fun c absent => absurd absent List.not_mem_nil
      · exact inductionHypothesis later
    · rw [if_neg here] at member
      cases split : pieces cut text with
      | nil => exact absurd split (pieces_ne_nil cut text)
      | cons first rest =>
        simp only [split] at member inductionHypothesis
        rcases List.mem_cons.mp member with rfl | later
        · intro letter inside
          rcases List.mem_cons.mp inside with rfl | tail
          · exact Bool.eq_false_iff.mpr here
          · exact inductionHypothesis List.mem_cons_self letter tail
        · exact inductionHypothesis (List.mem_cons_of_mem _ later)

/-! ### Joined parts -/

theorem joinWith_cons_cons (separator part next : Text) (parts : List Text) :
    joinWith separator (part :: next :: parts) =
      part ++ separator ++ joinWith separator (next :: parts) := rfl

theorem joinWith_append_prefix (separator : Text) (front back : List Text) :
    joinWith separator front <+: joinWith separator (front ++ back) := by
  induction front with
  | nil => exact List.nil_prefix
  | cons part front inductionHypothesis =>
    cases front with
    | nil =>
      cases back with
      | nil => exact List.prefix_refl _
      | cons next back =>
        rw [List.singleton_append, joinWith_cons_cons, List.append_assoc]
        exact List.prefix_append _ _
    | cons next front =>
      rw [List.cons_append, List.cons_append, joinWith_cons_cons, joinWith_cons_cons]
      exact (List.prefix_append_right_inj _).mpr inductionHypothesis

theorem joinWith_cons (separator part : Text) (parts : List Text) :
    joinWith separator (part :: parts) = part ++ parts.flatMap (separator ++ ·) := by
  induction parts generalizing part with
  | nil => exact (List.append_nil part).symm
  | cons next parts inductionHypothesis =>
    rw [joinWith, inductionHypothesis, List.flatMap_cons, List.append_assoc,
      List.append_assoc]
    exact List.cons_ne_nil _ _

theorem mem_joinWith {separator : Text} {parts : List Text} {c : Char}
    (member : c ∈ joinWith separator parts) : c ∈ separator ∨ ∃ part ∈ parts, c ∈ part := by
  cases parts with
  | nil => exact absurd member List.not_mem_nil
  | cons part parts =>
    rw [joinWith_cons] at member
    rcases List.mem_append.mp member with here | later
    · exact .inr ⟨part, List.mem_cons_self, here⟩
    · obtain ⟨other, listed, inside⟩ := List.mem_flatMap.mp later
      rcases List.mem_append.mp inside with between | there
      · exact .inl between
      · exact .inr ⟨other, List.mem_cons_of_mem _ listed, there⟩

/-- The texts of strings are joined as the strings are. -/
theorem toList_intercalate (separator : String) (parts : List String) :
    (separator.intercalate parts).toList =
      joinWith separator.toList (parts.map String.toList) := by
  rw [String.toList_intercalate]
  induction parts with
  | nil => rfl
  | cons part parts inductionHypothesis =>
    cases parts with
    | nil => exact List.intercalate_singleton
    | cons next parts =>
      rw [List.map_cons, List.map_cons, List.intercalate_cons_cons, joinWith_cons_cons,
        List.append_assoc, ← List.map_cons, inductionHypothesis, List.append_assoc]

/-- Joining the pieces of a text gives it back. -/
theorem joinWith_pieces (separator : Char) (text : Text) :
    joinWith [separator] (pieces (· == separator) text) = text := by
  induction text with
  | nil => rfl
  | cons c text inductionHypothesis =>
    rw [pieces]
    cases split : pieces (· == separator) text with
    | nil => exact absurd split (pieces_ne_nil _ text)
    | cons piece rest =>
      rw [split] at inductionHypothesis
      by_cases here : c = separator
      · rw [if_pos (beq_iff_eq.mpr here), joinWith_cons_cons, inductionHypothesis, here]
        rfl
      · rw [if_neg (by simpa using here)]
        cases rest <;> exact congrArg (c :: ·) inductionHypothesis

/-- Parts that are not cut anywhere are the pieces of what they are joined to. -/
theorem pieces_joinWith {separator : Char} {parts : List Text} (nonempty : parts ≠ [])
    (uncut : ∀ part ∈ parts, ∀ c ∈ part, (c == separator) = false) :
    pieces (· == separator) (joinWith [separator] parts) = parts := by
  induction parts with
  | nil => exact absurd rfl nonempty
  | cons part parts inductionHypothesis =>
    have whole : pieces (· == separator) part = [part] :=
      pieces_of_forall_not (uncut part List.mem_cons_self)
    cases parts with
    | nil => exact whole
    | cons next parts =>
      have divided := @pieces_append_cons (· == separator) separator (beq_self_eq_true separator)
        part (joinWith [separator] (next :: parts))
      have later := inductionHypothesis (List.cons_ne_nil _ _)
        fun part member => uncut part (List.mem_cons_of_mem _ member)
      rw [joinWith_cons_cons, List.append_assoc, List.singleton_append]
      rw [divided, whole, later, List.singleton_append]

end EngineDocs.Text
