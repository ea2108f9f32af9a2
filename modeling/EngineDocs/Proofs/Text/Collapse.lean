/-
This file shows how trimming and collapsing act on the parts of a text. A text is trimmed to what
stands between its outer blanks, and to nothing else. Collapsing is done part by part wherever a
text is divided beside a character that is not blank, so that each run of blanks between two such
characters becomes one space; and because a run is a part of its own, collapsing a text and then
trimming it is the same as doing it the other way round.
-/

import EngineDocs.Proofs.Text.Blanks

namespace EngineDocs.Text

/-! ### Trimming -/

theorem eq_nil_of_isBlank {text : Text} (ends : Ends isBlank text)
    (blank : ∀ c ∈ text, isBlank c = true) : text = [] := by
  cases text with
  | nil => rfl
  | cons c text =>
    have here := blank c List.mem_cons_self
    rw [ends_cons.mp ends] at here
    exact nomatch here

theorem trimEnd_append_blanks (text : Text) :
    ∃ blanks, text = trimEnd text ++ blanks ∧ ∀ c ∈ blanks, isBlank c = true := by
  refine ⟨(leadingBlanks text.reverse).reverse, ?_, fun c member =>
    isBlank_of_mem_leadingBlanks (List.mem_reverse.mp member)⟩
  rw [trimEnd, ← List.reverse_append, leadingBlanks_append_skipBlanks, List.reverse_reverse]

/-- Trimming leaves the only trimmed text that has nothing but blanks on its two sides. -/
theorem trim_eq_iff {text core : Text} :
    trim text = core ↔ ∃ lead trail, text = lead ++ (core ++ trail) ∧
      (∀ c ∈ lead, isBlank c = true) ∧ (∀ c ∈ trail, isBlank c = true) ∧ IsTrimmed core := by
  constructor
  · rintro rfl
    obtain ⟨trail, same, blank⟩ := trimEnd_append_blanks (skipBlanks text)
    refine ⟨leadingBlanks text, trail, ?_, fun c => isBlank_of_mem_leadingBlanks, blank,
      isTrimmed_trim text⟩
    rw [trim, ← same, leadingBlanks_append_skipBlanks]
  · rintro ⟨lead, trail, rfl, leadBlank, trailBlank, isTrimmed⟩
    by_cases empty : core = []
    · have blank : ∀ c ∈ lead ++ (core ++ trail), isBlank c = true := by
        rw [empty, List.nil_append]
        exact fun c member => (List.mem_append.mp member).elim (leadBlank c) (trailBlank c)
      rw [empty] at blank ⊢
      have isPart := trim_infix (lead ++ ([] ++ trail))
      exact eq_nil_of_isBlank (isTrimmed_trim _).start fun c member =>
        blank c (isPart.subset member)
    · have skipped : skipBlanks (lead ++ (core ++ trail)) = core ++ trail :=
        dropWhile_append_of_ends leadBlank (isTrimmed.start.append empty trail)
      have whole := isTrimmed.trim_append_blanks empty trailBlank
      rw [trim, skipBlanks, dropWhile_of_ends (isTrimmed.start.append empty trail)] at whole
      rw [trim, skipped, whole]

theorem mem_trim {text : Text} {c : Char} (solid : isBlank c = false) :
    c ∈ trim text ↔ c ∈ text := by
  obtain ⟨lead, trail, same, leadBlank, trailBlank, _⟩ := trim_eq_iff.mp (rfl : trim text = _)
  constructor
  · have isPart := trim_infix text
    exact fun member => isPart.subset member
  · intro member
    rw [same] at member
    rcases List.mem_append.mp member with inLead | member
    · exact absurd inLead (not_mem_of_isBlank leadBlank solid)
    · exact (List.mem_append.mp member).resolve_right (not_mem_of_isBlank trailBlank solid)

/-! ### Collapsing the parts of a text -/

theorem collapseFrom_of_ends {text : Text} (ends : Ends isBlank text) (inRun : Bool) :
    collapseFrom inRun text = collapseBlanks text := by
  cases text with
  | nil => rfl
  | cons c text =>
    have solid : ¬isBlank c = true := by
      rw [ends_cons.mp ends]
      exact Bool.false_ne_true
    rw [collapseBlanks, collapseFrom, collapseFrom, if_neg solid, if_neg solid]

/-- A text may be divided before a character that is not blank. -/
theorem collapseFrom_append_of_ends {back : Text} (ends : Ends isBlank back) (inRun : Bool)
    (front : Text) :
    collapseFrom inRun (front ++ back) = collapseFrom inRun front ++ collapseBlanks back := by
  induction front generalizing inRun with
  | nil => exact collapseFrom_of_ends ends inRun
  | cons c front inductionHypothesis =>
    rw [List.cons_append, collapseFrom, collapseFrom, inductionHypothesis, inductionHypothesis]
    split
    · split <;> rfl
    · rfl

theorem collapseBlanks_cons {c : Char} (solid : isBlank c = false) (text : Text) :
    collapseBlanks (c :: text) = c :: collapseBlanks text := by
  rw [collapseBlanks, collapseFrom, if_neg (by rw [solid]; exact Bool.false_ne_true)]
  rfl

theorem collapseFrom_append_cons {c : Char} (solid : isBlank c = false) (inRun : Bool)
    (front back : Text) :
    collapseFrom inRun (front ++ c :: back) =
      collapseFrom inRun front ++ c :: collapseBlanks back := by
  rw [collapseFrom_append_of_ends (ends_cons.mpr solid), collapseBlanks_cons solid]

/-- A text may also be divided behind a character that is not blank. -/
theorem collapseBlanks_append_of_ends {front : Text} (ends : Ends isBlank front.reverse)
    (back : Text) :
    collapseBlanks (front ++ back) = collapseBlanks front ++ collapseBlanks back := by
  rcases List.eq_nil_or_concat' front with rfl | ⟨front, c, rfl⟩
  · rfl
  · rw [List.reverse_append] at ends
    have solid : isBlank c = false := ends_cons.mp ends
    have whole : collapseBlanks (front ++ [c]) = collapseBlanks front ++ [c] :=
      collapseFrom_concat solid false front
    rw [List.append_assoc, List.singleton_append, whole, List.append_assoc, List.singleton_append]
    exact collapseFrom_append_cons solid false front back

theorem collapseFrom_of_isBlank {blanks : Text} (blank : ∀ c ∈ blanks, isBlank c = true) :
    collapseFrom true blanks = [] := by
  induction blanks with
  | nil => rfl
  | cons c blanks inductionHypothesis =>
    obtain ⟨here, later⟩ := List.forall_mem_cons.mp blank
    rw [collapseFrom, if_pos here, if_pos rfl, inductionHypothesis later]

theorem collapseBlanks_of_isBlank {blanks : Text} (solid : blanks ≠ [])
    (blank : ∀ c ∈ blanks, isBlank c = true) : collapseBlanks blanks = [' '] := by
  cases blanks with
  | nil => exact absurd rfl solid
  | cons c blanks =>
    obtain ⟨here, later⟩ := List.forall_mem_cons.mp blank
    rw [collapseBlanks, collapseFrom, if_pos here, if_neg Bool.false_ne_true,
      collapseFrom_of_isBlank later]

/-- A run of blanks between two other characters is written as one space. -/
theorem collapseBlanks_append_blanks {front blanks back : Text}
    (stop : Ends isBlank front.reverse) (solid : blanks ≠ [])
    (blank : ∀ c ∈ blanks, isBlank c = true) (start : Ends isBlank back) :
    collapseBlanks (front ++ (blanks ++ back)) =
      collapseBlanks front ++ ' ' :: collapseBlanks back := by
  have divided : collapseBlanks (blanks ++ back) = collapseBlanks blanks ++ collapseBlanks back :=
    collapseFrom_append_of_ends start false blanks
  rw [collapseBlanks_append_of_ends stop, divided, collapseBlanks_of_isBlank solid blank,
    List.singleton_append]

/-- The second text is the first one with each run of blanks written as one space. -/
inductive IsCollapse : (text collapsed : Text) → Prop
  | nil : IsCollapse [] []
  | solid {c : Char} {text collapsed : Text} : isBlank c = false → IsCollapse text collapsed →
      IsCollapse (c :: text) (c :: collapsed)
  | run {blanks text collapsed : Text} : blanks ≠ [] → (∀ c ∈ blanks, isBlank c = true) →
      Ends isBlank text → IsCollapse text collapsed → IsCollapse (blanks ++ text) (' ' :: collapsed)

theorem isCollapse_collapseBlanks (text : Text) : IsCollapse text (collapseBlanks text) := by
  -- Inside a run of blanks its space has been written already.
  have both : IsCollapse text (collapseFrom false text) ∧
      ∀ blanks, blanks ≠ [] → (∀ c ∈ blanks, isBlank c = true) →
        IsCollapse (blanks ++ text) (' ' :: collapseFrom true text) := by
    induction text with
    | nil => exact ⟨.nil, fun blanks solid blank => .run solid blank ends_nil .nil⟩
    | cons c text inductionHypothesis =>
      obtain ⟨outside, inside⟩ := inductionHypothesis
      by_cases blank : isBlank c = true
      · rw [collapseFrom, collapseFrom, if_pos blank, if_pos blank, if_pos rfl,
          if_neg Bool.false_ne_true]
        refine ⟨inside [c] (List.cons_ne_nil _ _) (List.forall_mem_singleton.mpr blank),
          fun blanks _ blanksBlank => ?_⟩
        rw [List.append_cons]
        exact inside (blanks ++ [c]) (List.append_ne_nil_of_right_ne_nil _ (List.cons_ne_nil _ _))
          (List.forall_mem_append.mpr ⟨blanksBlank, List.forall_mem_singleton.mpr blank⟩)
      · rw [collapseFrom, collapseFrom, if_neg blank, if_neg blank]
        have solid := Bool.eq_false_iff.mpr blank
        exact ⟨.solid solid outside, fun blanks some blanksBlank =>
          .run some blanksBlank (ends_cons.mpr solid) (.solid solid outside)⟩
  exact both.1

/-- Collapsing is what its name says. -/
theorem collapseBlanks_eq_iff {text collapsed : Text} :
    collapseBlanks text = collapsed ↔ IsCollapse text collapsed := by
  constructor
  · rintro rfl
    exact isCollapse_collapseBlanks text
  · intro isCollapse
    induction isCollapse with
    | nil => rfl
    | solid solid _ inductionHypothesis => rw [collapseBlanks_cons solid, inductionHypothesis]
    | run solid blank ends _ inductionHypothesis =>
      rw [← inductionHypothesis]
      exact @collapseBlanks_append_blanks [] _ _ ends_nil solid blank ends

theorem IsCollapse.eq_of_solid {text collapsed : Text} (isCollapse : IsCollapse text collapsed)
    (solid : ∀ c ∈ collapsed, isBlank c = false) : collapsed = text := by
  induction isCollapse with
  | nil => rfl
  | solid _ _ inductionHypothesis =>
    rw [inductionHypothesis fun c member => solid c (List.mem_cons_of_mem _ member)]
  | run => exact absurd (solid ' ' List.mem_cons_self) (by decide)

/-! ### What collapsing keeps -/

theorem mem_collapseFrom_iff {c : Char} (solid : isBlank c = false) {inRun : Bool} {text : Text} :
    c ∈ collapseFrom inRun text ↔ c ∈ text := by
  constructor
  · intro member
    rcases mem_collapseFrom member with rfl | ⟨inside, _⟩
    · exact absurd solid (by decide)
    · exact inside
  · intro member
    obtain ⟨front, back, rfl⟩ := List.append_of_mem member
    rw [collapseFrom_append_cons solid]
    exact List.mem_append_right _ List.mem_cons_self

theorem isBlank_of_mem_collapseFrom {blanks : Text} (blank : ∀ c ∈ blanks, isBlank c = true)
    {inRun : Bool} {c : Char} (member : c ∈ collapseFrom inRun blanks) : isBlank c = true := by
  rcases mem_collapseFrom member with rfl | ⟨inside, _⟩
  · rfl
  · exact blank c inside

/-- A character that is not blank divides a text where it divides the collapsed one. -/
theorem collapseFrom_eq_append_cons {inRun : Bool} {text front back : Text} {c : Char}
    (solid : isBlank c = false) (divided : collapseFrom inRun text = front ++ c :: back) :
    ∃ before behind, text = before ++ c :: behind ∧ collapseFrom inRun before = front ∧
      collapseBlanks behind = back := by
  induction text generalizing inRun front with
  | nil => exact absurd (List.append_eq_nil_iff.mp divided.symm).2 (List.cons_ne_nil _ _)
  | cons head text inductionHypothesis =>
    rw [collapseFrom] at divided
    split at divided
    · rename_i blank
      split at divided
      · rename_i behindBlank
        obtain ⟨before, behind, rfl, rfl, rfl⟩ := inductionHypothesis divided
        exact ⟨head :: before, behind, rfl, by rw [collapseFrom, if_pos blank, if_pos behindBlank],
          rfl⟩
      · rename_i fresh
        cases front with
        | nil =>
          obtain ⟨rfl, _⟩ := List.cons.inj divided
          exact absurd solid (by decide)
        | cons first front =>
          obtain ⟨rfl, later⟩ := List.cons.inj divided
          obtain ⟨before, behind, rfl, rfl, rfl⟩ := inductionHypothesis later
          exact ⟨head :: before, behind, rfl, by rw [collapseFrom, if_pos blank, if_neg fresh], rfl⟩
    · rename_i notBlank
      cases front with
      | nil =>
        obtain ⟨rfl, rfl⟩ := List.cons.inj divided
        exact ⟨[], text, rfl, rfl, rfl⟩
      | cons first front =>
        obtain ⟨rfl, later⟩ := List.cons.inj divided
        obtain ⟨before, behind, rfl, rfl, rfl⟩ := inductionHypothesis later
        exact ⟨head :: before, behind, rfl, by rw [collapseFrom, if_neg notBlank], rfl⟩

/-- What has no blanks and ends the collapsed text ends the text. -/
theorem collapseBlanks_eq_append {text front word : Text} (solid : ∀ c ∈ word, isBlank c = false)
    (divided : collapseBlanks text = front ++ word) :
    ∃ before, text = before ++ word ∧ collapseBlanks before = front := by
  cases word with
  | nil => exact ⟨text, (List.append_nil _).symm, divided.trans (List.append_nil _)⟩
  | cons c word =>
    obtain ⟨here, later⟩ := List.forall_mem_cons.mp solid
    obtain ⟨before, behind, rfl, collapsed, rfl⟩ := collapseFrom_eq_append_cons here divided
    exact ⟨before, by rw [(isCollapse_collapseBlanks behind).eq_of_solid later], collapsed⟩

theorem IsTrimmed.isSpaced_collapseBlanks {text : Text} (isTrimmed : IsTrimmed text) :
    IsSpaced (Text.collapseBlanks text) where
  blank c member space := by
    rcases mem_collapseFrom member with same | ⟨_, solid⟩
    · exact same
    · rw [space] at solid
      exact nomatch solid
  single := not_infix_collapseFrom rfl rfl false text
  start := isTrimmed.collapseBlanks.ne_space.1
  stop := isTrimmed.collapseBlanks.ne_space.2

/-- Collapsing commutes with trimming. -/
theorem trim_collapseBlanks (text : Text) :
    trim (collapseBlanks text) = collapseBlanks (trim text) := by
  obtain ⟨lead, trail, same, leadBlank, trailBlank, isTrimmed⟩ :=
    trim_eq_iff.mp (rfl : trim text = _)
  generalize trim text = core at same isTrimmed ⊢
  rw [trim_eq_iff]
  by_cases empty : core = []
  · -- Without a core there is only one run of blanks.
    have blank : ∀ c ∈ text, isBlank c = true := by
      rw [same, empty, List.nil_append]
      exact fun c member => (List.mem_append.mp member).elim (leadBlank c) (trailBlank c)
    rw [empty]
    exact ⟨collapseBlanks text, [], (List.append_nil _).symm,
      fun c => isBlank_of_mem_collapseFrom blank, nofun, ends_nil, ends_nil⟩
  · refine ⟨collapseBlanks lead, collapseBlanks trail, ?_,
      fun c => isBlank_of_mem_collapseFrom leadBlank,
      fun c => isBlank_of_mem_collapseFrom trailBlank, isTrimmed.collapseBlanks⟩
    rw [same, collapseBlanks, collapseFrom_append_of_ends (isTrimmed.start.append empty trail),
      collapseBlanks_append_of_ends isTrimmed.stop]
    rfl

end EngineDocs.Text
