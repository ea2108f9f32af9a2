/-
This file says what is left of a tree when places are deleted from it with all that lies below them.
Nothing new appears, what is left stands where it stood, and a tree from the disk stays one.
-/

import EngineDocs.Proofs.FileTree.Lookup

namespace EngineDocs.FileTree

/-! ### Deleting one place -/

theorem stays_iff {location other : Location} :
    stays location other = true ↔ other = [] ∨ ∀ rest, other ≠ location ++ rest := by
  rw [stays, Bool.or_eq_true, List.isEmpty_iff, Option.isNone_iff_eq_none,
    Option.eq_none_iff_forall_ne_some]
  simp only [ne_eq, Location.below?_eq_some_iff]

theorem stays_of_concat {location upper : Location} {name : String}
    (stays : stays location (upper ++ [name]) = true) :
    FileTree.stays location upper = true := by
  rw [stays_iff] at stays ⊢
  refine Or.inr fun rest below => ?_
  exact stays.resolve_left (by simp) (rest ++ [name]) (by rw [below, List.append_assoc])

theorem at?_erase (tree : FileTree) (location other : Location) :
    (tree.erase location).at? other = if stays location other then tree.at? other else none := by
  by_cases root : other = []
  · rw [root]
    rfl
  · rw [at?_of_ne_nil _ root, at?_of_ne_nil _ root, erase, Std.TreeMap.getElem?_filter']
    cases tree.items[other]? with
    | none => simp
    | some item => rw [Option.filter_some]

/-- What is below a deleted place, and not the root, is gone. -/
theorem at?_erase_eq_some_iff {tree : FileTree} {location other : Location} {item : Item} :
    (tree.erase location).at? other = some item ↔
      tree.at? other = some item ∧ stays location other = true := by
  rw [at?_erase]
  split <;> simp [*]

theorem mayEnter_erase {tree : FileTree} {location other : Location}
    (remains : stays location other = true) :
    (tree.erase location).mayEnter other = tree.mayEnter other := by
  rw [Bool.eq_iff_iff, ← Bool.not_eq_false, ← Bool.not_eq_false, mayEnter_eq_false_iff,
    mayEnter_eq_false_iff]
  exact not_congr (List.mem_filter.trans (and_iff_left remains))

theorem erase_wellFormed {tree : FileTree} (wellFormed : tree.WellFormed) (location : Location) :
    (tree.erase location).WellFormed where
  parent upper name item there := by
    obtain ⟨standing, stays⟩ := at?_erase_eq_some_iff.mp there
    exact at?_erase_eq_some_iff.mpr
      ⟨wellFormed.parent upper name item standing, stays_of_concat stays⟩
  isName other item there := wellFormed.isName other item (at?_erase_eq_some_iff.mp there).1
  closed other member := by
    obtain ⟨closed, stays⟩ := List.mem_filter.mp member
    exact at?_erase_eq_some_iff.mpr ⟨wellFormed.closed other closed, stays⟩
  unlisted other member := by
    obtain ⟨unlisted, stays⟩ := List.mem_filter.mp member
    exact at?_erase_eq_some_iff.mpr ⟨wellFormed.unlisted other unlisted, stays⟩

/-! ### Deleting many places -/

/-- A tree is what is left of another one. -/
structure Shrinks (before after : FileTree) : Prop where
  workingDirectory : after.workingDirectory = before.workingDirectory
  at? : ∀ location item, after.at? location = some item → before.at? location = some item
  mayEnter : ∀ location, after.at? location = some .directory →
    after.mayEnter location = true → before.mayEnter location = true

namespace Shrinks

variable {before after : FileTree}

theorem erase (before : FileTree) (location : Location) : Shrinks before (before.erase location) :=
  ⟨rfl, fun _ _ there => (at?_erase_eq_some_iff.mp there).1, fun _ directory opened =>
    (mayEnter_erase (at?_erase_eq_some_iff.mp directory).2).symm.trans opened⟩

theorem trans {first second third : FileTree} (front : Shrinks first second)
    (back : Shrinks second third) : Shrinks first third :=
  ⟨back.workingDirectory.trans front.workingDirectory,
    fun location item there => front.at? location item (back.at? location item there),
    fun location directory opened => front.mayEnter location (back.at? location _ directory)
      (back.mayEnter location directory opened)⟩

theorem keeps (shrinks : Shrinks before after) : after.Keeps before :=
  ⟨shrinks.workingDirectory.symm, fun location directory => shrinks.at? location _ directory,
    shrinks.mayEnter⟩

/-- What a path leads to in the rest is what it led to before. -/
theorem item?_eq_some (shrinks : Shrinks before after) {path : String} {item : Item}
    (there : after.item? path = some item) : before.item? path = some item := by
  rw [item?_eq_some_iff] at there ⊢
  obtain ⟨place, found⟩ := there
  rw [lookup_eq_ok_iff] at found
  obtain ⟨checked, leads, standing, plain⟩ := found
  refine ⟨place, (lookup_eq_ok_iff before path place item).mpr
    ⟨checked, shrinks.keeps.leads leads, shrinks.at? place item standing, plain⟩⟩

end Shrinks

/-- The tree without some places and all that lies below them. -/
def eraseAll (tree : FileTree) (locations : List Location) : FileTree := locations.foldl erase tree

theorem eraseAll_wellFormed {tree : FileTree} (wellFormed : tree.WellFormed)
    (locations : List Location) : (tree.eraseAll locations).WellFormed := by
  rw [eraseAll]
  induction locations generalizing tree with
  | nil => exact wellFormed
  | cons location locations inductionHypothesis =>
    exact inductionHypothesis (erase_wellFormed wellFormed location)

theorem eraseAll_shrinks (tree : FileTree) (locations : List Location) :
    Shrinks tree (tree.eraseAll locations) := by
  rw [eraseAll]
  induction locations generalizing tree with
  | nil => exact ⟨rfl, fun _ _ there => there, fun _ _ opened => opened⟩
  | cons location locations inductionHypothesis =>
    exact (Shrinks.erase tree location).trans (inductionHypothesis _)

end EngineDocs.FileTree
