/-
This file says when a scan sees the same again although the tree has changed in the meantime. What
lies below a scanned path must look the same, and a path that led to no directory must not have
come to lead to one.
-/

import EngineDocs.Proofs.Discovery.Mirrors
import EngineDocs.Proofs.FileTree.Places

namespace EngineDocs

open Headers (descend)

namespace FileTree

/-- A path shows the same again in another tree: there is the same to see below the place that it
names, the same places on the way are closed, and it steps up out of directories where it did. -/
structure ShowsAgain (before after : FileTree) (path : String) : Prop where
  alike : before.AlikeBelow (before.place path) after (after.place path)
  opened : ∀ front step back, steps path = front ++ step :: back →
    before.mayEnter (before.placeAfter path front) = after.mayEnter (after.placeAfter path front)
  up : ∀ front back, steps path = front ++ ".." :: back →
    (before.at? (before.placeAfter path front) = some .directory ↔
      after.at? (after.placeAfter path front) = some .directory)

section Paths

variable {before after : FileTree} {path outer name : String}

theorem ShowsAgain.mayEnter_eq (again : before.ShowsAgain after path) :
    before.mayEnter (before.place path) = after.mayEnter (after.place path) := by
  have same := again.alike.mayEnter []
  rwa [List.append_nil, List.append_nil] at same

theorem place_join (tree : FileTree) (path : String) (isName : Path.IsName name) :
    tree.place (Path.join path name) = tree.place path ++ [name] := by
  rw [← Headers.descend_singleton]
  exact place_descend tree path (List.forall_mem_singleton.mpr isName)

theorem placeAfter_join (tree : FileTree) (path : String) (isName : Path.IsName name)
    (front : List String) : tree.placeAfter (Path.join path name) front =
      tree.placeAfter path front := by
  rw [← Headers.descend_singleton, placeAfter, placeAfter,
    Headers.start_descend tree path (List.forall_mem_singleton.mpr isName)]

theorem ShowsAgain.join (again : before.ShowsAgain after path) (isName : Path.IsName name) :
    before.ShowsAgain after (Path.join path name) where
  alike := by
    rw [place_join before path isName, place_join after path isName]
    exact again.alike.below [name]
  opened front step back form := by
    rw [steps_join isName.isAbsolute_eq, steps_of_isName isName] at form
    rw [placeAfter_join before path isName, placeAfter_join after path isName]
    rcases List.eq_nil_or_concat' back with rfl | ⟨back, last, rfl⟩
    · obtain rfl := (List.append_inj' form rfl).1
      exact again.mayEnter_eq
    · rw [← List.cons_append, ← List.append_assoc] at form
      exact again.opened front step back (List.append_inj' form rfl).1
  up front back form := by
    rw [steps_join isName.isAbsolute_eq, steps_of_isName isName] at form
    rw [placeAfter_join before path isName, placeAfter_join after path isName]
    rcases List.eq_nil_or_concat' back with rfl | ⟨back, last, rfl⟩
    · exact absurd (List.cons.inj (List.append_inj' form rfl).2).1 isName.notUp
    · rw [← List.cons_append, ← List.append_assoc] at form
      exact again.up front back (List.append_inj' form rfl).1

/-- The path in which a joined path lies is the one that it was joined to, up to dots. -/
theorem exists_parent?_join (path : String) (isName : Path.IsName name) :
    ∃ outer dots, Path.parent? (Path.join path name) = some outer ∧
      Path.isAbsolute outer = Path.isAbsolute path ∧ (∀ dot ∈ dots, dot = ".") ∧
      steps path = steps outer ++ dots := by
  obtain ⟨outer, parent, encloses, _⟩ :=
    Path.encloses_parent (@Path.endsInComponent_join path name isName)
  obtain ⟨dots, last, areDots, form⟩ := encloses.steps_eq
  rw [steps_join isName.isAbsolute_eq, steps_of_isName isName, ← List.append_assoc] at form
  refine ⟨outer, dots, parent, ?_, areDots, (List.append_inj' form rfl).1⟩
  rw [encloses.isAbsolute_eq, Path.isAbsolute_join isName.isAbsolute_eq]

section Dots

variable {dots : List String} (absolute : Path.isAbsolute outer = Path.isAbsolute path)
  (areDots : ∀ dot ∈ dots, dot = ".") (form : steps path = steps outer ++ dots)

include absolute

theorem placeAfter_of_isAbsolute_eq (tree : FileTree) (front : List String) :
    tree.placeAfter outer front = tree.placeAfter path front := by
  rw [placeAfter, placeAfter, start, start, absolute]

include areDots form

theorem place_of_dots (tree : FileTree) : tree.place outer = tree.place path := by
  rw [place, place, placeAfter_of_isAbsolute_eq absolute, form, placeAfter, placeAfter,
    List.foldl_append, foldl_advance_dots areDots]

/-- A path with dots at its end leads nowhere else than without them. -/
theorem Leads.of_dots {tree : FileTree} {location : Location} (leads : tree.Leads path location) :
    tree.Leads outer location := by
  rw [Leads, form, follow_append] at leads
  rw [Leads, start, absolute, ← start]
  cases led : tree.follow (tree.start path) (steps outer) with
  | error fault =>
    rw [led] at leads
    cases leads
  | ok middle =>
    rw [led] at leads
    have ends := eq_foldl_advance_of_follow leads
    rw [foldl_advance_dots areDots] at ends
    rw [ends]

theorem ShowsAgain.of_dots (again : before.ShowsAgain after path) :
    before.ShowsAgain after outer where
  alike := by
    rw [place_of_dots absolute areDots form, place_of_dots absolute areDots form]
    exact again.alike
  opened front step back formOuter := by
    rw [placeAfter_of_isAbsolute_eq absolute, placeAfter_of_isAbsolute_eq absolute]
    exact again.opened front step (back ++ dots) (by rw [form, formOuter, List.append_assoc]; rfl)
  up front back formOuter := by
    rw [placeAfter_of_isAbsolute_eq absolute, placeAfter_of_isAbsolute_eq absolute]
    exact again.up front (back ++ dots) (by rw [form, formOuter, List.append_assoc]; rfl)

end Dots

end Paths

end FileTree

end EngineDocs
