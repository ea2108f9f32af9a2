/-
This file says that a plan sees of a tree only what stands where. Two trees in which the same
items stand at the same places may still be different maps, when the items came in different
orders; a plan fails at the same fault in both, and leaves two such trees again.
-/

import EngineDocs.Proofs.FileTree.Ways

namespace EngineDocs

namespace FileTree

/-- The same items stand at the same places of two trees, and the same directories may be looked
into. -/
structure Same (first second : FileTree) : Prop where
  workingDirectory : first.workingDirectory = second.workingDirectory
  restrictions : first.restrictions = second.restrictions
  at? : ∀ place, first.at? place = second.at? place

/-- Two results are the same fault, or trees that are the same. -/
def SameResult : Except Fault FileTree → Except Fault FileTree → Prop
  | .ok first, .ok second => first.Same second
  | .error first, .error second => first = second
  | _, _ => False

/-- Two plans end at the same fault or at none, in trees that are the same. -/
def SameEnd (first second : FileTree × Option Fault) : Prop :=
  first.1.Same second.1 ∧ first.2 = second.2

namespace Same

variable {first second : FileTree}

theorem enter_eq (same : first.Same second) (place : Location) :
    first.enter place = second.enter place := by
  rw [enter, enter, same.at?, mayEnter_congr same.restrictions]

theorem follow_eq (same : first.Same second) (place : Location) (steps : List String) :
    first.follow place steps = second.follow place steps := by
  induction steps generalizing place with
  | nil => rfl
  | cons step steps inductionHypothesis =>
    rw [follow_cons, follow_cons, same.at? place, stepFrom_congr same.restrictions]
    simp only [inductionHypothesis]

theorem reach_eq (same : first.Same second) (path : String) :
    first.reach path = second.reach path := by
  rw [reach, reach, start, start, same.workingDirectory]
  simp only [same.follow_eq]

theorem isDirectory_eq (same : first.Same second) (path : String) :
    first.isDirectory path = second.isDirectory path := by
  rw [Bool.eq_iff_iff, isDirectory_iff_reach, isDirectory_iff_reach, same.reach_eq]
  simp only [same.at?]

theorem divideLast_eq (same : first.Same second) (path : String) :
    first.divideLast path = second.divideLast path := by
  rw [divideLast, divideLast, start, start, same.workingDirectory]
  simp only [same.follow_eq, same.enter_eq]

theorem put (same : first.Same second) {place : Location} (inner : place ≠ []) (item : Item) :
    (first.put place item).Same (second.put place item) := by
  refine ⟨same.workingDirectory, same.restrictions, fun other => ?_⟩
  rw [at?_put first inner, at?_put second inner, same.at?]

theorem makeDirectory (same : first.Same second) (path : String) :
    SameResult (first.makeDirectory path) (second.makeDirectory path) := by
  rw [FileTree.makeDirectory, FileTree.makeDirectory, same.divideLast_eq]
  cases second.divideLast path with
  | error fault => rfl
  | ok pair =>
    obtain ⟨location, last⟩ := pair
    cases last with
    | none => rfl
    | some name =>
      simp only [bind, Except.bind, same.at?]
      repeat' split
      all_goals first | rfl | exact same.put (by simp) _

theorem writeBytes (same : first.Same second) (path : String) (bytes : ByteArray) :
    SameResult (first.writeBytes path bytes) (second.writeBytes path bytes) := by
  rw [FileTree.writeBytes, FileTree.writeBytes, same.divideLast_eq]
  cases second.divideLast path with
  | error fault => rfl
  | ok pair =>
    obtain ⟨location, last⟩ := pair
    cases last with
    | none => rfl
    | some name =>
      simp only [bind, Except.bind, same.at?]
      repeat' split
      all_goals first | rfl | exact same.put (by simp) _

/-- Attempts to make a directory end in the same way when what follows on a fault does. -/
theorem makeDirectory_match (same : first.Same second) (path : String)
    {one other : Fault → FileTree × Option Fault}
    (handled : ∀ fault, SameEnd (one fault) (other fault)) :
    SameEnd
      (match first.makeDirectory path with
        | .ok made => (made, none)
        | .error fault => one fault)
      (match second.makeDirectory path with
        | .ok made => (made, none)
        | .error fault => other fault) := by
  have tried := same.makeDirectory path
  generalize first.makeDirectory path = left at *
  generalize second.makeDirectory path = right at *
  cases left <;> cases right
  · obtain rfl := tried
    exact handled _
  · exact tried.elim
  · exact tried.elim
  · exact ⟨tried, rfl⟩

theorem confirm (same : first.Same second) (path : String) (fault : Fault) :
    SameEnd (if first.isDirectory path then (first, none) else (first, some fault))
      (if second.isDirectory path then (second, none) else (second, some fault)) := by
  rw [same.isDirectory_eq]
  split <;> exact ⟨same, rfl⟩

theorem makeDirectories_cons (tree : FileTree) (path : String) (outer : List String) :
    tree.makeDirectories (path :: outer) =
      if path.isEmpty then (tree, none)
      else match tree.makeDirectory path with
        | .ok made => (made, none)
        | .error fault =>
          if fault = .noEntry then
            match tree.makeDirectories outer with
            | (tree, some fault) => (tree, some fault)
            | (tree, none) =>
              match tree.makeDirectory path with
              | .ok made => (made, none)
              | .error fault => if tree.isDirectory path then (tree, none) else (tree, some fault)
          else if tree.isDirectory path then (tree, none) else (tree, some fault) := by
  rw [makeDirectories]
  congr 1
  cases tree.makeDirectory path with
  | ok made => rfl
  | error fault => cases fault <;> rfl

theorem makeDirectories (same : first.Same second) (paths : List String) :
    SameEnd (first.makeDirectories paths) (second.makeDirectories paths) := by
  induction paths generalizing first second with
  | nil => exact ⟨same, rfl⟩
  | cons path outer inductionHypothesis =>
    rw [makeDirectories_cons, makeDirectories_cons]
    split
    · exact ⟨same, rfl⟩
    refine same.makeDirectory_match path fun fault => ?_
    split
    · obtain ⟨sameOuter, faults⟩ := inductionHypothesis same
      generalize first.makeDirectories outer = one at *
      generalize second.makeDirectories outer = other at *
      obtain ⟨tree, fault?⟩ := one
      obtain ⟨treeToo, _⟩ := other
      obtain rfl := faults
      cases fault? with
      | some fault => exact ⟨sameOuter, rfl⟩
      | none => exact makeDirectory_match sameOuter path fun fault => confirm sameOuter path fault
    · exact same.confirm path fault

end Same

end FileTree

namespace Change

open FileTree (SameEnd)

theorem perform_same {first second : FileTree} (same : first.Same second) (change : Change) :
    SameEnd (change.perform first) (change.perform second) := by
  cases change with
  | directory path => exact same.makeDirectories _
  | file path content =>
    have tried := same.writeBytes path content.toUTF8
    rw [perform, perform]
    generalize first.writeBytes path content.toUTF8 = one at *
    generalize second.writeBytes path content.toUTF8 = other at *
    cases one <;> cases other
    · exact ⟨same, congrArg some tried⟩
    · exact tried.elim
    · exact tried.elim
    · exact ⟨tried, rfl⟩

/-- A plan ends in the same way in two trees that are the same. -/
theorem performAll_same {first second : FileTree} (same : first.Same second)
    (changes : List Change) :
    SameEnd (performAll first changes) (performAll second changes) := by
  induction changes generalizing first second with
  | nil => exact ⟨same, rfl⟩
  | cons change changes inductionHypothesis =>
    obtain ⟨next, faults⟩ := perform_same same change
    rw [performAll, performAll]
    generalize change.perform first = one at *
    generalize change.perform second = other at *
    obtain ⟨tree, fault?⟩ := one
    obtain ⟨treeToo, _⟩ := other
    obtain rfl := faults
    cases fault? with
    | none => exact inductionHypothesis next
    | some fault => exact ⟨next, rfl⟩

end Change

end EngineDocs
