/-
This file shows what trimming and collapsing leave of a text. Both keep every character that is
not blank, in order, so nothing without blanks stands in the result that did not stand in the text
before. A trimmed text has no blank at its ends, and a collapsed one no two blanks side by side.
-/

import EngineDocs.Proofs.Text.Runs

namespace EngineDocs.Text

/-! ### Trimming -/

/-- A text is trimmed when no blank stands at its two ends. -/
structure IsTrimmed (text : Text) : Prop where
  start : Ends isBlank text
  stop : Ends isBlank text.reverse

theorem Ends.of_isPrefix {p : Char → Bool} {part text : Text} (ends : Ends p text)
    (isPrefix : part <+: text) : Ends p part := by
  obtain ⟨rest, rfl⟩ := isPrefix
  cases part with
  | nil => exact ends_nil
  | cons c part => exact ends_cons.mpr (ends_cons.mp ends)

theorem isPrefix_trimEnd (text : Text) : trimEnd text <+: text := by
  rw [← List.reverse_suffix, trimEnd, List.reverse_reverse]
  exact List.dropWhile_suffix _

theorem trim_infix (text : Text) : trim text <:+: text :=
  (isPrefix_trimEnd _).isInfix.trans (List.dropWhile_suffix _).isInfix

theorem isTrimmed_trim (text : Text) : IsTrimmed (trim text) where
  start := (ends_dropWhile isBlank text).of_isPrefix (isPrefix_trimEnd _)
  stop := by
    rw [trim, trimEnd, List.reverse_reverse]
    exact ends_dropWhile isBlank _

theorem isTrimmed_of_forall {text : Text} (solid : ∀ c ∈ text, isBlank c = false) :
    IsTrimmed text where
  start c head := solid c (List.mem_of_mem_head? head)
  stop c head := solid c (List.mem_reverse.mp (List.mem_of_mem_head? head))

theorem IsTrimmed.append {first last : Text} (firstTrimmed : IsTrimmed first)
    (lastTrimmed : IsTrimmed last) (firstSolid : first ≠ []) (lastSolid : last ≠ [])
    (middle : Text) : IsTrimmed (first ++ (middle ++ last)) where
  start := firstTrimmed.start.append firstSolid _
  stop := by
    rw [List.reverse_append, List.reverse_append, List.append_assoc]
    exact lastTrimmed.stop.append (mt List.reverse_eq_nil_iff.mp lastSolid) _

theorem IsTrimmed.trim_eq {text : Text} (isTrimmed : IsTrimmed text) : trim text = text := by
  rw [trim, skipBlanks, dropWhile_of_ends isTrimmed.start, trimEnd, skipBlanks,
    dropWhile_of_ends isTrimmed.stop, List.reverse_reverse]

theorem IsTrimmed.trim_append_blanks {text blanks : Text} (isTrimmed : IsTrimmed text)
    (solid : text ≠ []) (blank : ∀ c ∈ blanks, isBlank c = true) : trim (text ++ blanks) = text := by
  have backwards : ∀ c ∈ blanks.reverse, isBlank c = true := fun c member =>
    blank c (List.mem_reverse.mp member)
  rw [trim, skipBlanks, dropWhile_of_ends (isTrimmed.start.append solid blanks), trimEnd, skipBlanks,
    List.reverse_append, dropWhile_append_of_ends backwards isTrimmed.stop, List.reverse_reverse]

theorem IsTrimmed.ne_space {text : Text} (isTrimmed : IsTrimmed text) :
    text.head? ≠ some ' ' ∧ text.getLast? ≠ some ' ' := by
  refine ⟨fun head => ?_, fun last => ?_⟩
  · exact absurd (isTrimmed.start ' ' head) (by decide)
  · rw [List.getLast?_eq_head?_reverse] at last
    exact absurd (isTrimmed.stop ' ' last) (by decide)

/-! ### Collapsing -/

theorem mem_collapseFrom {inRun : Bool} {text : Text} {c : Char}
    (member : c ∈ collapseFrom inRun text) : c = ' ' ∨ c ∈ text ∧ isBlank c = false := by
  induction text generalizing inRun with
  | nil => exact absurd member List.not_mem_nil
  | cons head text inductionHypothesis =>
    have later : ∀ {inRun}, c ∈ collapseFrom inRun text →
        c = ' ' ∨ c ∈ head :: text ∧ isBlank c = false := fun member =>
      (inductionHypothesis member).imp_right (And.imp_left (List.mem_cons_of_mem _))
    rw [collapseFrom] at member
    split at member
    · split at member
      · exact later member
      · exact (List.mem_cons.mp member).elim Or.inl later
    · rename_i solid
      refine (List.mem_cons.mp member).elim ?_ later
      rintro rfl
      exact Or.inr ⟨List.mem_cons_self, Bool.eq_false_iff.mpr solid⟩

/-- Behind a blank that is written, no further one is. -/
theorem ends_collapseFrom_true (text : Text) : Ends isBlank (collapseFrom true text) := by
  induction text with
  | nil => exact ends_nil
  | cons c text inductionHypothesis =>
    rw [collapseFrom]
    split
    · exact inductionHypothesis
    · rename_i solid
      exact ends_cons.mpr (Bool.eq_false_iff.mpr solid)

theorem ends_collapseBlanks {text : Text} (ends : Ends isBlank text) :
    Ends isBlank (collapseBlanks text) := by
  cases text with
  | nil => exact ends_nil
  | cons c text =>
    rw [collapseBlanks, collapseFrom, if_neg (by rw [ends_cons.mp ends]; exact Bool.false_ne_true)]
    exact ends_cons.mpr (ends_cons.mp ends)

/-- No two blanks stand side by side in a collapsed text. -/
theorem not_infix_collapseFrom {first second : Char} (firstBlank : isBlank first = true)
    (secondBlank : isBlank second = true) (inRun : Bool) (text : Text) :
    ¬[first, second] <:+: collapseFrom inRun text := by
  induction text generalizing inRun with
  | nil => exact fun isInfix => nomatch List.infix_nil.mp isInfix
  | cons c text inductionHypothesis =>
    rw [collapseFrom]
    split
    · split
      · exact inductionHypothesis true
      · rw [List.infix_cons_iff, List.cons_prefix_cons, not_or, not_and]
        refine ⟨fun _ isPrefix => ?_, inductionHypothesis true⟩
        have next := (ends_collapseFrom_true text).of_isPrefix isPrefix
        rw [ends_cons, secondBlank] at next
        exact nomatch next
    · rename_i solid
      rw [List.infix_cons_iff, List.cons_prefix_cons, not_or, not_and]
      refine ⟨fun same => absurd firstBlank (same ▸ solid), inductionHypothesis false⟩

theorem prefix_of_prefix_collapseBlanks {literal text : Text}
    (solid : ∀ c ∈ literal, isBlank c = false) (isPrefix : literal <+: collapseBlanks text) :
    literal <+: text := by
  induction literal generalizing text with
  | nil => exact List.nil_prefix
  | cons c literal inductionHypothesis =>
    obtain ⟨here, later⟩ := List.forall_mem_cons.mp solid
    cases text with
    | nil => exact isPrefix
    | cons head text =>
      rw [collapseBlanks, collapseFrom] at isPrefix
      split at isPrefix
      · obtain ⟨rfl, _⟩ := List.cons_prefix_cons.mp isPrefix
        exact absurd here (by decide)
      · obtain ⟨rfl, rest⟩ := List.cons_prefix_cons.mp isPrefix
        exact List.cons_prefix_cons.mpr ⟨rfl, inductionHypothesis later rest⟩

/-- What has no blanks and stands in a collapsed text stood in the text before. -/
theorem infix_of_infix_collapseFrom {literal : Text} (solid : ∀ c ∈ literal, isBlank c = false)
    {inRun : Bool} {text : Text} (isInfix : literal <:+: collapseFrom inRun text) :
    literal <:+: text := by
  induction text generalizing inRun with
  | nil => exact isInfix
  | cons head text inductionHypothesis =>
    rw [collapseFrom] at isInfix
    split at isInfix
    · split at isInfix
      · exact List.infix_cons (inductionHypothesis isInfix)
      · rcases List.infix_cons_iff.mp isInfix with here | later
        · cases literal with
          | nil => exact List.nil_infix
          | cons c literal =>
            obtain ⟨rfl, _⟩ := List.cons_prefix_cons.mp here
            exact absurd (solid ' ' List.mem_cons_self) (by decide)
        · exact List.infix_cons (inductionHypothesis later)
    · rename_i notBlank
      rcases List.infix_cons_iff.mp isInfix with here | later
      · refine (prefix_of_prefix_collapseBlanks solid ?_).isInfix
        rw [collapseBlanks, collapseFrom, if_neg notBlank]
        exact here
      · exact List.infix_cons (inductionHypothesis later)

theorem collapseFrom_concat {c : Char} (solid : isBlank c = false) (inRun : Bool) (text : Text) :
    collapseFrom inRun (text ++ [c]) = collapseFrom inRun text ++ [c] := by
  induction text generalizing inRun with
  | nil => exact if_neg (by rw [solid]; exact Bool.false_ne_true)
  | cons head text inductionHypothesis =>
    rw [List.cons_append, collapseFrom, collapseFrom, inductionHypothesis, inductionHypothesis]
    split
    · split <;> rfl
    · rfl

/-- Nothing is collapsed where every blank is a space with no other space beside it. -/
theorem collapseBlanks_of_single {text : Text} (blank : ∀ c ∈ text, isBlank c = true → c = ' ')
    (single : ¬[' ', ' '] <:+: text) : collapseBlanks text = text := by
  have unchanged : ∀ inRun, (inRun = true → Ends isBlank text) →
      collapseFrom inRun text = text := by
    induction text with
    | nil => exact fun _ _ => rfl
    | cons c text inductionHypothesis =>
      intro inRun ends
      obtain ⟨here, later⟩ := List.forall_mem_cons.mp blank
      obtain ⟨apart, further⟩ := not_or.mp (mt List.infix_cons_iff.mpr single)
      rw [collapseFrom]
      by_cases space : isBlank c = true
      · obtain rfl := here space
        have fresh : ¬inRun = true := fun behind => by
          have stop := ends_cons.mp (ends behind)
          rw [space] at stop
          exact nomatch stop
        have next : Ends isBlank text := by
          intro c head
          refine Bool.eq_false_iff.mpr fun isBlank => apart ?_
          obtain ⟨rest, rfl⟩ := List.head?_eq_some_iff.mp head
          obtain rfl := later c List.mem_cons_self isBlank
          exact ⟨rest, rfl⟩
        rw [if_pos space, if_neg fresh, inductionHypothesis later further true fun _ => next]
      · rw [if_neg space, inductionHypothesis later further false nofun]
  exact unchanged false nofun

theorem collapseBlanks_of_forall {text : Text} (solid : ∀ c ∈ text, isBlank c = false) :
    collapseBlanks text = text := by
  refine collapseBlanks_of_single (fun c member space => ?_) fun isInfix => ?_
  · rw [solid c member] at space
    exact nomatch space
  · exact absurd (solid ' ' (isInfix.subset List.mem_cons_self)) (by decide)

theorem collapseBlanks_ne_nil {text : Text} (more : text ≠ []) : collapseBlanks text ≠ [] := by
  cases text with
  | nil => exact absurd rfl more
  | cons c text =>
    rw [collapseBlanks, collapseFrom]
    split
    · exact List.cons_ne_nil _ _
    · exact List.cons_ne_nil _ _

theorem ends_reverse_collapseBlanks {text : Text} (ends : Ends isBlank text.reverse) :
    Ends isBlank (collapseBlanks text).reverse := by
  rcases List.eq_nil_or_concat text with rfl | ⟨front, c, rfl⟩
  · exact ends_nil
  · rw [List.concat_eq_append, List.reverse_append] at ends
    have solid : isBlank c = false := ends_cons.mp ends
    rw [collapseBlanks, List.concat_eq_append, collapseFrom_concat solid, List.reverse_append]
    exact ends_cons.mpr solid

/-- Collapsing a trimmed text leaves it trimmed. -/
theorem IsTrimmed.collapseBlanks {text : Text} (isTrimmed : IsTrimmed text) :
    IsTrimmed (collapseBlanks text) where
  start := ends_collapseBlanks isTrimmed.start
  stop := ends_reverse_collapseBlanks isTrimmed.stop

/-! ### Single spaces -/

/-- The only blanks are single spaces, and none of them stands at an end. -/
structure IsSpaced (text : Text) : Prop where
  blank : ∀ c ∈ text, isBlank c = true → c = ' '
  single : ¬[' ', ' '] <:+: text
  start : text.head? ≠ some ' '
  stop : text.getLast? ≠ some ' '

instance (text : Text) : Decidable (IsSpaced text) :=
  decidable_of_iff ((∀ c ∈ text, isBlank c = true → c = ' ') ∧ ¬[' ', ' '] <:+: text ∧
      text.head? ≠ some ' ' ∧ text.getLast? ≠ some ' ')
    ⟨fun ⟨blank, single, start, stop⟩ => ⟨blank, single, start, stop⟩,
      fun ⟨blank, single, start, stop⟩ => ⟨blank, single, start, stop⟩⟩

theorem IsSpaced.isTrimmed {text : Text} (isSpaced : IsSpaced text) : IsTrimmed text where
  start c head := by
    refine Bool.eq_false_iff.mpr fun space => isSpaced.start ?_
    rw [← isSpaced.blank c (List.mem_of_mem_head? head) space]
    exact head
  stop c head := by
    have last : text.getLast? = some c := List.getLast?_eq_head?_reverse.trans head
    refine Bool.eq_false_iff.mpr fun space => isSpaced.stop ?_
    rw [last, isSpaced.blank c (List.mem_of_getLast? last) space]

theorem IsSpaced.collapseBlanks_eq {text : Text} (isSpaced : IsSpaced text) :
    collapseBlanks text = text :=
  collapseBlanks_of_single isSpaced.blank isSpaced.single

end EngineDocs.Text
