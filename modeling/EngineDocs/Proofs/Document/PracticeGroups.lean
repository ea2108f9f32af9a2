/-
This file shows that recommendations are written in groups without losing or repeating any. A
recommendation joins the group with its heading, or opens a new group at the end; so after any
number of them the headings are those that were met, each in the place where it was met first, and
the group of a heading holds its recommendations in their order.
-/

import EngineDocs.Document.Practice
import EngineDocs.Proofs.Grouping

namespace EngineDocs.Practice

/-! ### Groups -/

/-- Adding a recommendation to the groups of different headings puts it at the end of its own, which
comes last when it is a new one. -/
theorem addToGroups_map (practice : Practice) {headings : List String}
    (members : String → List Practice) (distinct : headings.Nodup)
    (new : practice.heading ∉ headings → members practice.heading = []) :
    practice.addToGroups (headings.map fun wanted => (wanted, members wanted)) =
      (if practice.heading ∈ headings then headings else headings ++ [practice.heading]).map
        fun wanted => (wanted, members wanted ++ [practice].filter (·.heading == wanted)) := by
  have joining : [practice].filter (·.heading == practice.heading) = [practice] :=
    List.filter_eq_self.mpr (List.forall_mem_singleton.mpr (beq_self_eq_true _))
  have apart : ∀ wanted ≠ practice.heading, [practice].filter (·.heading == wanted) = [] :=
    fun wanted other => List.filter_eq_nil_iff.mpr
      (List.forall_mem_singleton.mpr fun same => other (beq_iff_eq.mp same).symm)
  induction headings with
  | nil =>
    rw [if_neg List.not_mem_nil, List.nil_append, List.map_singleton, new List.not_mem_nil, joining]
    rfl
  | cons first headings inductionHypothesis =>
    obtain ⟨firstNew, distinct⟩ := List.nodup_cons.mp distinct
    rw [List.map_cons, addToGroups]
    by_cases own : first = practice.heading
    · have others : headings.map (fun wanted => (wanted, members wanted)) =
          headings.map fun wanted =>
            (wanted, members wanted ++ [practice].filter (·.heading == wanted)) := by
        refine List.map_congr_left fun wanted listed => ?_
        rw [apart wanted fun same => firstNew (own.trans same.symm ▸ listed), List.append_nil]
      rw [if_pos (beq_iff_eq.mpr own), if_pos (own ▸ List.mem_cons_self), List.map_cons, others,
        own, joining]
    · have later := inductionHypothesis distinct fun absent =>
        new fun member => (List.mem_cons.mp member).elim (fun same => own same.symm) absent
      rw [if_neg (by simpa using own), later]
      simp only [List.mem_cons, Ne.symm own, false_or]
      split
      · rw [List.map_cons, apart first own, List.append_nil]
      · rw [List.cons_append, List.map_cons, apart first own, List.append_nil]

/-- There is a group for each heading, in the order in which they first appear, and it holds what
has this heading in its order. -/
theorem groups_eq (practices : List Practice) :
    groups practices = (practices.map heading).eraseDups.map fun wanted =>
      (wanted, practices.filter (·.heading == wanted)) := by
  induction practices using List.reverseRecOn with
  | nil => rfl
  | append_singleton practices practice inductionHypothesis =>
    have new : practice.heading ∉ (practices.map heading).eraseDups →
        practices.filter (·.heading == practice.heading) = [] := by
      intro absent
      -- A recommendation listed before would have brought its heading along.
      refine List.filter_eq_nil_iff.mpr fun other listed same => absent ?_
      rw [List.mem_eraseDups, ← beq_iff_eq.mp same]
      exact List.mem_map_of_mem listed
    have added : groups (practices ++ [practice]) = practice.addToGroups (groups practices) :=
      List.foldl_append
    rw [added, inductionHypothesis, addToGroups_map practice _ (nodup_eraseDups _) new,
      List.map_append, List.map_singleton, eraseDups_concat]
    simp only [List.mem_eraseDups, List.filter_append]

/-! ### The text of a list -/

/-- Recommendations are written under their headings, each heading once and in the order in which
they first appear, and each recommendation once and in its order under its heading. -/
theorem listMarkdown_groups (practices : List Practice) (more : practices ≠ []) :
    let headings := (practices.map heading).eraseDups
    listMarkdown practices = "## Best Practices\n\n" ++ String.join (headings.map fun wanted =>
        "### " ++ wanted ++ "\n\n" ++
          String.join ((practices.filter (·.heading == wanted)).map markdown)) ∧
      headings.Nodup ∧
      (headings.flatMap fun wanted => practices.filter (·.heading == wanted)).Perm practices := by
  refine ⟨?_, nodup_eraseDups _, ?_⟩
  · rw [listMarkdown, if_neg (by rw [List.isEmpty_iff]; exact more), groups_eq, List.map_map]
    rfl
  · exact flatMap_filter_perm_of_forall heading (nodup_eraseDups _) fun practice listed =>
      List.mem_eraseDups.mpr (List.mem_map_of_mem listed)

/-- A category comes back after another one, and a practice without a category joins those of the
category `Other`. -/
theorem listMarkdown_groups_other :
    [⟨"A", "a", "Other"⟩, ⟨"B", "b", "Memory"⟩, ⟨"C", "c", ""⟩, ⟨"D", "d", "Memory"⟩] ≠
        ([] : List Practice) ∧
      listMarkdown [⟨"A", "a", "Other"⟩, ⟨"B", "b", "Memory"⟩, ⟨"C", "c", ""⟩,
          ⟨"D", "d", "Memory"⟩] =
        "## Best Practices\n\n### Other\n\n#### A\n\na\n\n#### C\n\nc\n\n" ++
          "### Memory\n\n#### B\n\nb\n\n#### D\n\nd\n\n" := by
  have more : [⟨"A", "a", "Other"⟩, ⟨"B", "b", "Memory"⟩, ⟨"C", "c", ""⟩, ⟨"D", "d", "Memory"⟩] ≠
      ([] : List Practice) := List.cons_ne_nil _ _
  exact ⟨more, (listMarkdown_groups _ more).1.trans (by decide +kernel)⟩

end EngineDocs.Practice
