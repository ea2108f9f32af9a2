/-
This file looks at the way of a path through a tree in which directories are still being made. A
directory that is missing may be there in a moment, so the way goes on through missing places as
if they were directories, until something stands in it that no one takes away: a file, a directory
that may not be entered, or a name that is too long. The way and what ends it belong to the tree at
the start. In any later tree, which has all that there was and more, following the path comes as far
as the places of the way have been made, and then finds what ends it.
-/

import EngineDocs.Proofs.FileTree.Ancestors
import EngineDocs.Proofs.FileTree.Change

namespace EngineDocs.FileTree

/-! ### Places that can be passed -/

/-- Whether a way can lead through a place: a directory stands there, or nothing yet. -/
def isOpen (tree : FileTree) (place : Location) : Bool := (tree.at? place).all Item.isDirectory

theorem isOpen_iff {tree : FileTree} {place : Location} :
    tree.isOpen place = true ↔ tree.at? place = none ∨ tree.at? place = some .directory := by
  rw [isOpen]
  cases tree.at? place with
  | none => simp
  | some item => cases item <;> simp [Item.isDirectory]

theorem isOpen_eq_false_iff {tree : FileTree} {place : Location} :
    tree.isOpen place = false ↔ ∃ item, tree.at? place = some item ∧ item.isFile = true := by
  rw [isOpen]
  cases tree.at? place with
  | none => simp
  | some item => cases item <;> simp [Item.isDirectory, Item.isFile]

/-- Where one step leads from a directory. No step leads out of a closed one. -/
def stepFrom (tree : FileTree) (place : Location) (step : String) : Except Fault Location :=
  if tree.mayEnter place then
    if step = "." then .ok place
    else if step = ".." then .ok place.dropLast
    else if maxNameLength < step.utf8ByteSize then .error .nameTooLong
    else .ok (place ++ [step])
  else .error .denied

theorem stepFrom_congr {first second : FileTree} (same : first.restrictions = second.restrictions)
    (place : Location) (step : String) : first.stepFrom place step = second.stepFrom place step := by
  rw [stepFrom, stepFrom, mayEnter_congr same]

theorem follow_cons (tree : FileTree) (place : Location) (step : String) (steps : List String) :
    tree.follow place (step :: steps) =
      match tree.at? place with
      | none => .error .noEntry
      | some .directory => (tree.stepFrom place step).bind fun next => tree.follow next steps
      | some _ => .error .notDirectory := by
  rw [follow, enter, stepFrom]
  cases tree.at? place with
  | none => rfl
  | some item =>
    cases item with
    | directory =>
      cases tree.mayEnter place with
      | false => rfl
      | true =>
        simp only [if_true]
        repeat' split
        all_goals rfl
    | _ => rfl

/-! ### Ways -/

/-- Where steps lead when every missing directory on the way is made. -/
def walk (tree : FileTree) (place : Location) : List String → Except Fault Location
  | [] => .ok place
  | step :: steps =>
    if tree.isOpen place then
      match tree.stepFrom place step with
      | .ok next => walk tree next steps
      | .error fault => .error fault
    else .error .notDirectory

/-- The places out of which steps lead on such a way. -/
def passed (tree : FileTree) (place : Location) : List String → List Location
  | [] => []
  | step :: steps =>
    if tree.isOpen place then
      place :: match tree.stepFrom place step with
        | .ok next => passed tree next steps
        | .error _ => []
    else []

theorem walk_append (tree : FileTree) (place : Location) (first second : List String) :
    tree.walk place (first ++ second) =
      (tree.walk place first).bind fun middle => tree.walk middle second := by
  induction first generalizing place with
  | nil => rfl
  | cons step first inductionHypothesis =>
    rw [List.cons_append, walk, walk]
    split
    · split
      · exact inductionHypothesis _
      · rfl
    · rfl

theorem passed_append (tree : FileTree) (place : Location) (first second : List String) :
    tree.passed place (first ++ second) = tree.passed place first ++
      match tree.walk place first with
      | .ok middle => tree.passed middle second
      | .error _ => [] := by
  induction first generalizing place with
  | nil => rfl
  | cons step first inductionHypothesis =>
    rw [List.cons_append, passed, passed, walk]
    split
    · split
      · rw [inductionHypothesis]
        rfl
      · rfl
    · rfl

theorem isOpen_of_mem_passed {tree : FileTree} {place other : Location} {steps : List String}
    (member : other ∈ tree.passed place steps) : tree.isOpen other = true := by
  induction steps generalizing place with
  | nil => exact absurd member List.not_mem_nil
  | cons step steps inductionHypothesis =>
    rw [passed] at member
    split at member
    · rcases List.mem_cons.mp member with rfl | later
      · assumption
      · split at later
        · exact inductionHypothesis later
        · exact absurd later List.not_mem_nil
    · exact absurd member List.not_mem_nil

/-- Dots and one more step all lead out of the place where they start. -/
theorem mem_passed_dots {tree : FileTree} {place other : Location} {dots : List String}
    (areDots : ∀ dot ∈ dots, dot = ".") (last : String) :
    other ∈ tree.passed place (dots ++ [last]) ↔ tree.isOpen place = true ∧ other = place := by
  induction dots with
  | nil =>
    rw [List.nil_append, passed]
    split
    · rename_i opened
      rw [and_iff_right opened, List.mem_cons]
      cases tree.stepFrom place last <;> simp [passed]
    · rename_i blocked
      simp [blocked]
  | cons dot dots inductionHypothesis =>
    have later := inductionHypothesis fun dot member => areDots dot (List.mem_cons_of_mem _ member)
    obtain rfl := areDots dot List.mem_cons_self
    rw [List.cons_append, passed]
    split
    · rename_i opened
      rw [List.mem_cons, and_iff_right opened, stepFrom]
      cases tree.mayEnter place with
      | false => simp
      | true =>
        simp only [if_true]
        rw [later, and_iff_right opened, or_self]
    · rename_i blocked
      simp [blocked]

/-! ### The way of a path -/

/-- Where a path leads, be something there or not. -/
def reach (tree : FileTree) (path : String) : Except Fault Location :=
  (checkPath path).bind fun _ => tree.follow (tree.start path) (steps path)

/-- Whether a path is one and the place where it starts is there. -/
def canStart (tree : FileTree) (path : String) : Bool :=
  (checkPath path).isOk && (tree.at? (tree.start path)).isSome

/-- Where a path leads when every missing directory on its way is made. -/
def destination (tree : FileTree) (path : String) : Except Fault Location :=
  (checkPath path).bind fun _ =>
    if (tree.at? (tree.start path)).isSome then tree.walk (tree.start path) (steps path)
    else .error .noEntry

/-- The places through which the way of a path leads. -/
def passes (tree : FileTree) (path : String) : List Location :=
  if tree.canStart path then tree.passed (tree.start path) (steps path) else []

/-- The places on the way of a path, its end included, that are or can become directories. -/
def way (tree : FileTree) (path : String) : List Location :=
  tree.passes path ++
    match tree.destination path with
    | .ok place => if tree.isOpen place then [place] else []
    | .error _ => []

/-- What keeps a path from becoming a directory. -/
def obstacle (tree : FileTree) (path : String) : Option Fault :=
  match tree.destination path with
  | .ok place => if tree.isOpen place then none else some .alreadyExists
  | .error fault => some fault

/-- What keeps a path from becoming a file once the directories on its way are made. -/
def blockage (tree : FileTree) (path : String) : Option Fault :=
  match tree.destination path with
  | .ok place =>
    if place ∈ tree.passes path then some .isDirectory
    else match tree.at? place with
      | some .directory => some .isDirectory
      | some .locked => some .denied
      | _ => none
  | .error fault => some fault

section Way

variable {tree : FileTree} {path outer : String}

theorem isOpen_of_mem_passes {place : Location} (member : place ∈ tree.passes path) :
    tree.isOpen place = true := by
  rw [passes] at member
  split at member
  · exact isOpen_of_mem_passed member
  · exact absurd member List.not_mem_nil

theorem mem_way_of_mem_passes {place : Location} (member : place ∈ tree.passes path) :
    place ∈ tree.way path := List.mem_append_left _ member

theorem isOpen_of_mem_way {place : Location} (member : place ∈ tree.way path) :
    tree.isOpen place = true := by
  rcases List.mem_append.mp member with before | last
  · exact isOpen_of_mem_passes before
  · split at last
    · split at last
      · rwa [List.mem_singleton.mp last]
      · exact absurd last List.not_mem_nil
    · exact absurd last List.not_mem_nil

theorem mem_way_of_isOpen {place : Location} (leads : tree.destination path = .ok place)
    (opened : tree.isOpen place = true) : place ∈ tree.way path := by
  rw [way, leads]
  dsimp only
  rw [if_pos opened]
  exact List.mem_append_right _ List.mem_cons_self

theorem obstacle_eq_none_iff : tree.obstacle path = none ↔
    ∃ place, tree.destination path = .ok place ∧ tree.isOpen place = true := by
  rw [obstacle]
  cases tree.destination path with
  | error fault => simp
  | ok place => cases opened : tree.isOpen place <;> simp [opened]

theorem obstacle_of_error {fault : Fault} (refused : tree.destination path = .error fault) :
    tree.obstacle path = some fault := by
  rw [obstacle, refused]

theorem obstacle_of_closed {place : Location} (leads : tree.destination path = .ok place)
    (closed : tree.isOpen place = false) : tree.obstacle path = some .alreadyExists := by
  rw [obstacle, leads]
  dsimp only
  rw [closed, if_neg Bool.false_ne_true]

theorem way_eq_of_obstacle {fault : Fault} (blocked : tree.obstacle path = some fault) :
    tree.way path = tree.passes path := by
  rw [obstacle] at blocked
  rw [way]
  cases ends : tree.destination path with
  | error fault => exact List.append_nil _
  | ok place =>
    rw [ends] at blocked
    dsimp only at blocked ⊢
    split at blocked
    · exact nomatch blocked
    · rw [if_neg ‹_›, List.append_nil]

theorem way_of_checkPath_error {tree : FileTree} {path : String} {fault : Fault}
    (refused : checkPath path = .error fault) : tree.way path = [] := by
  rw [way, passes, canStart, destination, refused]
  rfl

theorem checkPath_ne_noEntry {path : String} (solid : path ≠ "") :
    checkPath path ≠ .error .noEntry := by
  rw [checkPath]
  split
  · exact nofun
  · rw [if_neg (by simpa using solid)]
    split <;> exact nofun

theorem canStart_iff : tree.canStart path = true ↔
    checkPath path = .ok () ∧ tree.at? (tree.start path) ≠ none := by
  rw [canStart, Bool.and_eq_true, Option.isSome_iff_ne_none]
  refine and_congr_left fun _ => ?_
  cases checkPath path <;> simp [Except.isOk, Except.toBool]

/-! ### The ways of enclosing paths -/

theorem Encloses.start_eq (encloses : Encloses outer path) :
    tree.start outer = tree.start path := by
  rw [start, start, encloses.isAbsolute_eq]

theorem Encloses.checkPath_eq_ok (encloses : Encloses outer path) (solid : outer ≠ "")
    (checked : checkPath path = .ok ()) : checkPath outer = .ok () := by
  obtain ⟨rest, text⟩ := encloses.isBeginning
  have whole : path = outer ++ String.ofList rest := by
    rw [← String.toList_inj, ← text, String.toList_append, String.toList_ofList]
  subst whole
  simp only [checkPath] at checked ⊢
  rw [String.utf8ByteSize_append] at checked
  repeat' split at checked
  · exact nomatch checked
  · exact nomatch checked
  · exact nomatch checked
  · rename_i noNul _ short
    rw [if_neg, if_neg (by simpa using solid), if_neg (by omega)]
    intro nul
    refine noNul ?_
    rw [List.contains_iff_mem] at nul ⊢
    rw [String.toList_append]
    exact List.mem_append_left _ nul

/-- The way of a path leads through the places on the way of the path that encloses it. -/
theorem Encloses.mem_passes_iff (encloses : Encloses outer path) (solid : outer ≠ "")
    (checked : checkPath path = .ok ()) {place : Location} :
    place ∈ tree.passes path ↔ place ∈ tree.way outer := by
  obtain ⟨dots, last, areDots, stepsEq⟩ := encloses.steps_eq
  have checkedToo := encloses.checkPath_eq_ok solid checked
  rw [way, passes, passes, canStart, canStart, destination, checked, checkedToo,
    encloses.start_eq, stepsEq, passed_append]
  simp only [Except.bind]
  split
  · rename_i started
    rw [List.mem_append, List.mem_append]
    refine or_congr_right ?_
    rw [if_pos (by simpa [Except.isOk, Except.toBool] using started)]
    cases tree.walk (tree.start path) (steps outer) with
    | error fault => exact Iff.rfl
    | ok middle =>
      dsimp only
      rw [mem_passed_dots areDots]
      split
      · rw [and_iff_right ‹_›, List.mem_singleton]
      · simp [*]
  · rename_i stuck
    rw [if_neg (by simpa [Except.isOk, Except.toBool] using stuck)]
    exact Iff.rfl

/-- A path in the working directory leads through nothing else. -/
theorem Encloses.mem_passes_of_empty (encloses : Encloses "" path) {place : Location}
    (member : place ∈ tree.passes path) : tree.at? place = some .directory := by
  obtain ⟨dots, last, areDots, stepsEq⟩ := encloses.steps_eq
  rw [show steps "" = [] from rfl, List.nil_append] at stepsEq
  rw [passes, stepsEq] at member
  split at member
  · rename_i started
    obtain ⟨opened, rfl⟩ := (mem_passed_dots areDots last).mp member
    exact (isOpen_iff.mp opened).resolve_left (canStart_iff.mp started).2
  · exact absurd member List.not_mem_nil

/-- What stands in the way of a path stands in the way of every path that it encloses, except that
a file at its end is named differently by those who want to go on from there. -/
theorem Encloses.obstacle_of_outer (encloses : Encloses outer path) (solid : outer ≠ "")
    (checked : checkPath path = .ok ()) {fault : Fault}
    (blocked : tree.obstacle outer = some fault) :
    tree.obstacle path = some fault ∨
      tree.obstacle path = some .notDirectory ∧ fault = .alreadyExists ∧
        ∃ place, tree.destination outer = .ok place ∧ tree.isOpen place = false := by
  obtain ⟨dots, last, areDots, stepsEq⟩ := encloses.steps_eq
  have checkedToo := encloses.checkPath_eq_ok solid checked
  have ends : tree.destination path = (tree.destination outer).bind fun middle =>
      tree.walk middle (dots ++ [last]) := by
    rw [destination, destination, checked, checkedToo, encloses.start_eq, stepsEq, walk_append]
    simp only [Except.bind]
    split <;> rfl
  rw [obstacle] at blocked ⊢
  rw [ends]
  cases led : tree.destination outer with
  | error other =>
    rw [led] at blocked
    exact Or.inl blocked
  | ok place =>
    rw [led] at blocked
    dsimp only at blocked
    split at blocked
    · exact nomatch blocked
    · rename_i closed
      rw [Bool.not_eq_true] at closed
      refine Or.inr ⟨?_, (Option.some.inj blocked).symm, place, rfl, closed⟩
      have stopped : tree.walk place (dots ++ [last]) = .error .notDirectory := by
        cases dots <;> exact if_neg (by rw [closed]; exact Bool.false_ne_true)
      rw [Except.bind, stopped]

end Way

/-! ### Later trees -/

section Later

variable {before after : FileTree}

/-- In a later tree steps lead along their way: to its end, when all places on it are directories
by then, and otherwise into a missing one. -/
theorem Grows.follow_eq_or (grows : before.Grows after) {place : Location} {steps : List String}
    (reserved : ∀ other ∈ before.passed place steps, before.at? other = none →
      after.at? other = none ∨ after.at? other = some .directory) :
    (∀ other ∈ before.passed place steps, after.at? other = some .directory) ∧
        after.follow place steps = before.walk place steps ∨
      (∃ other ∈ before.passed place steps, after.at? other = none) ∧
        after.follow place steps = .error .noEntry := by
  induction steps generalizing place with
  | nil => exact Or.inl ⟨nofun, rfl⟩
  | cons step steps inductionHypothesis =>
    rw [passed] at reserved ⊢
    rw [follow_cons, walk]
    cases opened : before.isOpen place with
    | false =>
      obtain ⟨item, there, isFile⟩ := isOpen_eq_false_iff.mp opened
      obtain ⟨other, thereToo, isFileToo⟩ := grows.files place item there isFile
      refine Or.inl ⟨nofun, ?_⟩
      rw [thereToo]
      cases other <;> first | rfl | exact nomatch isFileToo
    | true =>
      rw [opened] at reserved
      simp only [if_true] at reserved ⊢
      -- Only a place that was missing can still be so; then the steps end here.
      have standing : after.at? place = none ∨ after.at? place = some .directory := by
        rcases isOpen_iff.mp opened with missing | directory
        · exact reserved place List.mem_cons_self missing
        · exact Or.inr (grows.keeps.directories place directory)
      rcases standing with missing | directory
      · rw [missing]
        exact Or.inr ⟨⟨place, List.mem_cons_self, missing⟩, rfl⟩
      · rw [directory]
        dsimp only
        rw [stepFrom_congr grows.restrictions]
        cases led : before.stepFrom place step with
        | error fault => exact Or.inl ⟨by simpa using directory, rfl⟩
        | ok next =>
          rw [led] at reserved
          rcases @inductionHypothesis next fun other member =>
              reserved other (List.mem_cons_of_mem _ member) with
            ⟨directories, ends⟩ | ⟨⟨other, member, missing⟩, ends⟩
          · exact Or.inl ⟨List.forall_mem_cons.mpr ⟨directory, directories⟩, ends⟩
          · exact Or.inr ⟨⟨other, List.mem_cons_of_mem _ member, missing⟩, ends⟩

theorem Grows.at?_eq_none (grows : before.Grows after) {place : Location}
    (missing : after.at? place = none) : before.at? place = none := by
  cases there : before.at? place with
  | none => rfl
  | some item =>
    cases item with
    | directory => exact nomatch missing.symm.trans (grows.keeps.directories place there)
    | _ =>
      obtain ⟨other, stands, _⟩ := grows.files place _ there rfl
      exact nomatch missing.symm.trans stands

/-- Only the root takes no step to reach. -/
theorem isAbsolute_of_steps_nil {path : String} (checked : checkPath path = .ok ())
    (none : steps path = []) : Path.isAbsolute path = true := by
  obtain ⟨first, rest, form⟩ := List.exists_cons_of_ne_nil (Path.segments_ne_nil path)
  have solid : path ≠ "" := by
    rintro rfl
    cases checked
  rw [steps, List.map_eq_nil_iff, form, List.filter_cons] at none
  split at none
  · cases none
  · rename_i empty
    have firstEq : first = [] := by simpa using empty
    refine (Path.isAbsolute_iff form).mpr ⟨firstEq, ?_⟩
    rintro rfl
    refine solid (String.toList_eq_nil_iff.mp ?_)
    rw [← Path.joinWith_segments, form, firstEq]
    rfl

theorem Grows.reach_eq_or (grows : before.Grows after) {path : String}
    (start : before.at? (before.start path) = none → after.at? (before.start path) = none)
    (reserved : ∀ other ∈ before.passes path, before.at? other = none →
      after.at? other = none ∨ after.at? other = some .directory) :
    (∀ other ∈ before.passes path, after.at? other = some .directory) ∧
        after.reach path = before.destination path ∨
      (∃ other ∈ before.passes path, after.at? other = none) ∧
        after.reach path = .error .noEntry := by
  rw [passes, canStart] at reserved ⊢
  rw [reach, destination, grows.keeps.start_eq]
  cases checked : checkPath path with
  | error fault => exact Or.inl ⟨fun _ member => absurd member List.not_mem_nil, rfl⟩
  | ok _ =>
    rw [checked] at reserved
    cases there : before.at? (before.start path) with
    | none =>
      refine Or.inl ⟨fun _ member => absurd member List.not_mem_nil, ?_⟩
      cases stepsEq : steps path with
      | nil =>
        rw [FileTree.start, if_pos (isAbsolute_of_steps_nil checked stepsEq)] at there
        cases there
      | cons step steps =>
        rw [Except.bind, follow_cons, start there]
        rfl
    | some item =>
      rw [there] at reserved
      exact grows.follow_eq_or reserved

/-- The places on the way of a path at which nothing was are left alone or become directories. -/
structure Reserves (before after : FileTree) (path : String) : Prop where
  start : before.at? (before.start path) = none → after.at? (before.start path) = none
  onWay : ∀ place ∈ before.way path, before.at? place = none →
    after.at? place = none ∨ after.at? place = some .directory

/-- All places on the way of a path are directories by now. -/
def Paved (before after : FileTree) (path : String) : Prop :=
  ∀ place ∈ before.way path, after.at? place = some .directory

theorem paved_of_passes {path : String}
    (directories : ∀ other ∈ before.passes path, after.at? other = some .directory)
    (last : ∀ place, before.destination path = .ok place → before.isOpen place = true →
      after.at? place = some .directory) : before.Paved after path := by
  intro other member
  rcases List.mem_append.mp member with inside | final
  · exact directories other inside
  · split at final
    · rename_i place leads
      split at final
      · rw [List.mem_singleton.mp final]
        exact last place leads ‹_›
      · exact absurd final List.not_mem_nil
    · exact absurd final List.not_mem_nil

theorem Reserves.at?_of_mem_way (grows : before.Grows after) {path : String}
    (reserves : before.Reserves after path) {place : Location} (member : place ∈ before.way path) :
    after.at? place = none ∨ after.at? place = some .directory :=
  (isOpen_iff.mp (isOpen_of_mem_way member)).elim (reserves.onWay place member)
    fun directory => Or.inr (grows.keeps.directories place directory)

theorem Encloses.reserves {outer path : String} (encloses : Encloses outer path)
    (checked : checkPath path = .ok ()) (reserves : before.Reserves after path) :
    before.Reserves after outer where
  start := by
    rw [encloses.start_eq]
    exact reserves.start
  onWay place member := by
    by_cases empty : outer = ""
    · subst empty
      rw [way_of_checkPath_error rfl] at member
      exact absurd member List.not_mem_nil
    · exact reserves.onWay place
        (mem_way_of_mem_passes ((encloses.mem_passes_iff empty checked).mpr member))

theorem Reserves.reach_eq_or (grows : before.Grows after) {path : String}
    (reserves : before.Reserves after path) :
    (∀ other ∈ before.passes path, after.at? other = some .directory) ∧
        after.reach path = before.destination path ∨
      (∃ other ∈ before.passes path, after.at? other = none) ∧
        after.reach path = .error .noEntry :=
  grows.reach_eq_or reserves.start fun other member =>
    reserves.onWay other (mem_way_of_mem_passes member)

/-! ### Making a directory in a later tree -/

theorem reach_eq_ok_iff {tree : FileTree} {path : String} {place : Location} :
    tree.reach path = .ok place ↔ checkPath path = .ok () ∧ tree.Leads path place := by
  rw [reach, Leads]
  cases checkPath path with
  | error fault =>
    refine iff_of_false (fun reached => ?_) fun impossible => ?_
    · cases reached
    · cases impossible.1
  | ok _ => exact (and_iff_right rfl).symm

theorem isDirectory_iff_reach (tree : FileTree) (path : String) :
    tree.isDirectory path = true ↔
      ∃ place, tree.reach path = .ok place ∧ tree.at? place = some .directory := by
  rw [isDirectory_iff_lookup]
  refine exists_congr fun place => ?_
  rw [lookup_eq_ok_iff, reach_eq_ok_iff, and_assoc]
  exact and_congr_right fun _ => and_congr_right fun _ => and_iff_left (Or.inl rfl)

theorem isDirectory_of_makeDirectory {tree made : FileTree} {path : String}
    (done : tree.makeDirectory path = .ok made) : made.isDirectory path = true := by
  obtain ⟨location, name, reaches, missing, rfl⟩ := makeDirectory_eq_ok done
  have there : (tree.put (location ++ [name]) .directory).item? path = some .directory :=
    item?_put reaches (by rw [missing]; exact nofun) (Or.inl rfl)
  obtain ⟨place, found⟩ := (item?_eq_some_iff _ path .directory).mp there
  rw [isDirectory, found]
  rfl

theorem isDirectory_of_keeps {tree after : FileTree} (keeps : tree.Keeps after) {path : String}
    (there : tree.isDirectory path = true) : after.isDirectory path = true := by
  rw [isDirectory_iff_reach] at there ⊢
  obtain ⟨place, reached, directory⟩ := there
  obtain ⟨checked, leads⟩ := reach_eq_ok_iff.mp reached
  exact ⟨place, reach_eq_ok_iff.mpr ⟨checked, keeps.leads leads⟩, keeps.directories place directory⟩

/-- A path is a directory by now exactly when nothing stood in its way and its way is made. -/
theorem Reserves.isDirectory_iff (grows : before.Grows after) {path : String}
    (reserves : before.Reserves after path) :
    after.isDirectory path = true ↔ before.obstacle path = none ∧ before.Paved after path := by
  rw [isDirectory_iff_reach, obstacle_eq_none_iff]
  constructor
  · rintro ⟨place, reached, directory⟩
    rcases reserves.reach_eq_or grows with ⟨directories, ends⟩ | ⟨_, ends⟩
    · have led := ends.symm.trans reached
      have opened : before.isOpen place = true := by
        by_contra closed
        obtain ⟨item, there, isFile⟩ := isOpen_eq_false_iff.mp (Bool.eq_false_iff.mpr closed)
        obtain ⟨other, thereToo, isFileToo⟩ := grows.files place item there isFile
        obtain rfl := Option.some.inj (directory.symm.trans thereToo)
        exact nomatch isFileToo
      refine ⟨⟨place, led, opened⟩, paved_of_passes directories fun other leads _ => ?_⟩
      obtain rfl := Except.ok.inj (led.symm.trans leads)
      exact directory
    · exact nomatch ends.symm.trans reached
  · rintro ⟨⟨place, led, opened⟩, paved⟩
    rcases reserves.reach_eq_or grows with ⟨_, ends⟩ | ⟨⟨other, member, missing⟩, _⟩
    · exact ⟨place, ends.trans led, paved place (mem_way_of_isOpen led opened)⟩
    · exact absurd (missing.symm.trans (paved other (mem_way_of_mem_passes member))) nofun

theorem WellFormed.at?_dropLast {tree : FileTree} (wellFormed : tree.WellFormed)
    {place : Location} (directory : tree.at? place = some .directory) :
    tree.at? place.dropLast = some .directory := by
  rcases List.eq_nil_or_concat place with rfl | ⟨upper, name, rfl⟩
  · rfl
  · rw [List.concat_eq_append] at directory ⊢
    rw [List.dropLast_concat]
    exact wellFormed.parent upper name .directory directory

/-- The attempt to make a directory looks at where its path leads, and at nothing else. -/
theorem makeDirectory_eq {tree : FileTree} (wellFormed : tree.WellFormed) (path : String) :
    tree.makeDirectory path = (tree.reach path).bind fun place =>
      match tree.at? place with
      | none => .ok (tree.put place .directory)
      | some _ => .error .alreadyExists := by
  rw [makeDirectory, divideLast, reach]
  cases checked : checkPath path with
  | error fault => rfl
  | ok _ =>
    cases List.eq_nil_or_concat (steps path) with
    | inl none =>
      have absolute := isAbsolute_of_steps_nil checked none
      rw [none, start, if_pos absolute]
      rfl
    | inr some =>
      obtain ⟨front, last, form⟩ := some
      rw [List.concat_eq_append] at form
      simp only [form, List.dropLast_concat, List.getLast?_concat, follow_append, bind, Except.bind]
      cases tree.follow (tree.start path) front with
      | error fault => rfl
      | ok location =>
        dsimp only
        rw [follow_cons, enter]
        cases there : tree.at? location with
        | none => rfl
        | some item =>
          cases item with
          | directory =>
            rw [stepFrom]
            cases tree.mayEnter location with
            | false => rfl
            | true =>
              simp only [if_true, pure, Except.pure, throw, throwThe, MonadExceptOf.throw]
              by_cases here : last = "."
              · rw [if_pos here, if_pos (by simp [isMove, here])]
                simp only [Except.bind, follow, there]
              · by_cases up : last = ".."
                · rw [if_neg here, if_pos up, if_pos (by simp [isMove, up])]
                  simp only [Except.bind, follow, wellFormed.at?_dropLast there]
                · rw [if_neg here, if_neg up, if_neg (by simp [isMove, here, up])]
                  split
                  · rfl
                  · cases stands : tree.at? (location ++ [last]) <;>
                      simp only [Except.bind, follow, stands]
          | _ => rfl

/-- A directory that is made where nothing is in the way paves the way of its path. -/
theorem paved_put {path : String} {place : Location} (inner : place ≠ [])
    (directories : ∀ other ∈ before.passes path, after.at? other = some .directory)
    (led : before.destination path = .ok place) :
    before.Paved (after.put place .directory) path := by
  refine paved_of_passes (fun other member => ?_) fun other leads _ => ?_
  · rw [at?_put after inner]
    split
    · rfl
    · exact directories other member
  · obtain rfl := Except.ok.inj (led.symm.trans leads)
    rw [at?_put after inner, if_pos rfl]

/-- What stands at the end of a way that is made already stood there before, unless it is a
directory. -/
theorem Reserves.paved_of_some (grows : before.Grows after) {path : String}
    (reserves : before.Reserves after path) {place : Location} {item : Item}
    (directories : ∀ other ∈ before.passes path, after.at? other = some .directory)
    (led : before.destination path = .ok place) (ends : after.reach path = .ok place)
    (there : after.at? place = some item) :
    before.Paved after path ∧
      (after.isDirectory path = true ∨ before.obstacle path = some .alreadyExists) := by
  cases opened : before.isOpen place with
  | false =>
    refine ⟨paved_of_passes directories fun other leads openedToo => ?_,
      Or.inr (obstacle_of_closed led opened)⟩
    obtain rfl := Except.ok.inj (led.symm.trans leads)
    exact nomatch opened.symm.trans openedToo
  | true =>
    have directory : after.at? place = some .directory :=
      (reserves.at?_of_mem_way grows (mem_way_of_isOpen led opened)).resolve_left
        (by rw [there]; exact nofun)
    have made : after.isDirectory path = true :=
      (isDirectory_iff_reach after path).mpr ⟨place, ends, directory⟩
    exact ⟨((reserves.isDirectory_iff grows).mp made).2, Or.inl made⟩

/-- The attempt to make a directory ends in one of three ways: it is made, and with it its whole
way; or a directory before it is missing; or its way is made already, and it is there or something
else is. -/
theorem Reserves.makeDirectory_cases (grows : before.Grows after) (wellFormed : after.WellFormed)
    {path : String} (reserves : before.Reserves after path) :
    (∃ place, after.makeDirectory path = .ok (after.put place .directory) ∧ place ≠ [] ∧
        after.at? place = none ∧ place ∈ before.way path ∧ before.obstacle path = none ∧
        before.Paved (after.put place .directory) path) ∨
      (after.makeDirectory path = .error .noEntry ∧
        ∃ place ∈ before.passes path, after.at? place = none) ∨
      (∃ fault, after.makeDirectory path = .error fault ∧ before.Paved after path ∧
        (after.isDirectory path = true ∧ fault = .alreadyExists ∨
          before.obstacle path = some fault)) := by
  rw [makeDirectory_eq wellFormed]
  rcases reserves.reach_eq_or grows with ⟨directories, ends⟩ | ⟨⟨place, member, missing⟩, ends⟩
  · rw [ends]
    cases led : before.destination path with
    | error fault =>
      have paved : before.Paved after path :=
        paved_of_passes directories fun place leads _ => nomatch led.symm.trans leads
      exact Or.inr (Or.inr ⟨fault, rfl, paved, Or.inr (obstacle_of_error led)⟩)
    | ok place =>
      cases there : after.at? place with
      | none =>
        have opened : before.isOpen place = true :=
          isOpen_iff.mpr (Or.inl (grows.at?_eq_none there))
        have inner : place ≠ [] := by
          rintro rfl
          exact nomatch there
        exact Or.inl ⟨place, by simp only [Except.bind, there], inner, there,
          mem_way_of_isOpen led opened, obstacle_eq_none_iff.mpr ⟨place, led, opened⟩,
          paved_put inner directories led⟩
      | some item =>
        obtain ⟨paved, outcome⟩ :=
          reserves.paved_of_some grows directories led (ends.trans led) there
        exact Or.inr (Or.inr ⟨.alreadyExists, by simp only [Except.bind, there], paved,
          outcome.imp_left fun made => ⟨made, rfl⟩⟩)
  · rw [ends]
    exact Or.inr (Or.inl ⟨rfl, place, member, missing⟩)

/-! ### Writing a file in a later tree -/

/-- The attempt to write a file looks at where its path leads, and at nothing else. -/
theorem writeBytes_eq {tree : FileTree} {path name : String} {front : List String}
    (form : steps path = front ++ [name]) (isName : Path.IsName name)
    (plain : meansDirectory path = false) (bytes : ByteArray) :
    tree.writeBytes path bytes = (tree.reach path).bind fun place =>
      match tree.at? place with
      | some .directory => .error .isDirectory
      | some .locked => .error .denied
      | _ => .ok (tree.put place (.file bytes)) := by
  rw [writeBytes, divideLast, reach]
  cases checked : checkPath path with
  | error fault => rfl
  | ok _ =>
    simp only [form, List.dropLast_concat, List.getLast?_concat, follow_append, bind, Except.bind]
    cases tree.follow (tree.start path) front with
    | error fault => rfl
    | ok location =>
      dsimp only
      rw [follow_cons, enter]
      cases tree.at? location with
      | none => rfl
      | some item =>
        cases item with
        | directory =>
          rw [stepFrom]
          cases tree.mayEnter location with
          | false => rfl
          | true =>
            simp only [if_true, pure, Except.pure, throw, throwThe, MonadExceptOf.throw]
            rw [if_neg isName.notHere, if_neg isName.notUp,
              if_neg (by simp [isMove, isName.notHere, isName.notUp, plain])]
            split
            · rfl
            · cases stands : tree.at? (location ++ [name]) with
              | none => simp only [Except.bind, follow, stands]
              | some item => cases item <;> simp only [Except.bind, follow, stands]
        | _ => rfl

/-- A file is written where the way of its path ends, once that way is made and as long as no one
put a directory there or locked it. -/
theorem Grows.writeBytes_cases (grows : before.Grows after) {path name : String}
    {front : List String} (form : steps path = front ++ [name]) (isName : Path.IsName name)
    (plain : meansDirectory path = false)
    (start : before.at? (before.start path) = none → after.at? (before.start path) = none)
    (directories : ∀ other ∈ before.passes path, after.at? other = some .directory)
    (still : ∀ place, before.destination path = .ok place → place ∉ before.passes path →
      after.at? place = before.at? place ∨
        before.blockage path = none ∧ ∃ content, after.at? place = some (.file content))
    (bytes : ByteArray) :
    (before.blockage path = none ∧ ∃ place, before.destination path = .ok place ∧
        after.writeBytes path bytes = .ok (after.put place (.file bytes))) ∨
      ∃ fault, before.blockage path = some fault ∧ after.writeBytes path bytes = .error fault := by
  have ends : after.reach path = before.destination path := by
    rcases grows.reach_eq_or start fun other member _ => Or.inr (directories other member) with
      ⟨_, ends⟩ | ⟨⟨other, member, missing⟩, _⟩
    · exact ends
    · exact absurd (missing.symm.trans (directories other member)) nofun
  rw [writeBytes_eq form isName plain, ends]
  cases led : before.destination path with
  | error fault => exact Or.inr ⟨fault, by rw [blockage, led], rfl⟩
  | ok place =>
    have onIt := still place led
    rw [blockage, led] at onIt ⊢
    dsimp only [Except.bind] at onIt ⊢
    by_cases inside : place ∈ before.passes path
    · rw [if_pos inside, directories place inside]
      exact Or.inr ⟨_, rfl, rfl⟩
    · rw [if_neg inside] at onIt ⊢
      rcases onIt inside with same | ⟨free, content, there⟩
      · rw [same]
        cases before.at? place with
        | none => exact Or.inl ⟨rfl, place, rfl, rfl⟩
        | some item =>
          cases item with
          | file content => exact Or.inl ⟨rfl, place, rfl, rfl⟩
          | locked => exact Or.inr ⟨_, rfl, rfl⟩
          | directory => exact Or.inr ⟨_, rfl, rfl⟩
      · rw [there, free]
        exact Or.inl ⟨rfl, place, rfl, rfl⟩

end Later

/-! ### Paths that go up -/

/-- Every step up of a path leads out of a directory that is there. -/
def Upright (tree : FileTree) (path : String) : Prop :=
  ∀ front back, steps path = front ++ ".." :: back →
    ∃ place, tree.follow (tree.start path) front = .ok place ∧ tree.at? place = some .directory

section Upright

variable {tree : FileTree} {path outer : String}

theorem Encloses.upright (encloses : Encloses outer path) (upright : tree.Upright path) :
    tree.Upright outer := by
  obtain ⟨dots, last, _, stepsEq⟩ := encloses.steps_eq
  intro front back form
  rw [encloses.start_eq]
  refine upright front (back ++ (dots ++ [last])) ?_
  rw [stepsEq, form, List.append_assoc, List.cons_append]

/-- Below a place where nothing is a way that does not go up finds nothing. -/
theorem WellFormed.at?_walk_of_missing (wellFormed : tree.WellFormed) {place last : Location}
    {steps : List String} (missing : tree.at? place = none) (down : ".." ∉ steps)
    (leads : tree.walk place steps = .ok last) : tree.at? last = none := by
  induction steps generalizing place with
  | nil =>
    obtain rfl := Except.ok.inj leads
    exact missing
  | cons step steps inductionHypothesis =>
    have opened : tree.isOpen place = true := isOpen_iff.mpr (Or.inl missing)
    have downToo : ".." ∉ steps := fun member => down (List.mem_cons_of_mem _ member)
    have notUp : step ≠ ".." := by
      rintro rfl
      exact down List.mem_cons_self
    rw [walk, if_pos opened, stepFrom, if_pos (wellFormed.mayEnter_of_none missing),
      if_neg notUp] at leads
    split at leads
    · rename_i next stepped
      split at stepped
      · obtain rfl := Except.ok.inj stepped
        exact inductionHypothesis missing downToo leads
      · split at stepped
        · exact nomatch stepped
        · obtain rfl := Except.ok.inj stepped
          refine inductionHypothesis ?_ downToo leads
          cases there : tree.at? (place ++ [step]) with
          | none => rfl
          | some item =>
            exact absurd (missing.symm.trans (wellFormed.parent place step item there)) nofun
    · exact nomatch leads

theorem WellFormed.at?_walk_of_mem_passed (wellFormed : tree.WellFormed) {place last : Location}
    {steps : List String}
    (upright : ∀ front back, steps = front ++ ".." :: back →
      ∃ middle, tree.follow place front = .ok middle ∧ tree.at? middle = some .directory)
    (leads : tree.walk place steps = .ok last) {other : Location}
    (member : other ∈ tree.passed place steps) (missing : tree.at? other = none) :
    tree.at? last = none := by
  induction steps generalizing place with
  | nil => exact absurd member List.not_mem_nil
  | cons step steps inductionHypothesis =>
    cases there : tree.at? place with
    | none =>
      -- No step goes up from here on: it would have to lead out of a directory.
      refine wellFormed.at?_walk_of_missing there ?_ leads
      intro up
      obtain ⟨front, back, form⟩ := List.append_of_mem up
      obtain ⟨middle, follows, directory⟩ := upright front back form
      cases front with
      | nil =>
        obtain rfl := Except.ok.inj follows
        exact nomatch there.symm.trans directory
      | cons first front =>
        rw [follow_cons, there] at follows
        exact nomatch follows
    | some item =>
      rw [passed] at member
      rw [walk] at leads
      split at member
      · rename_i opened
        have directory : tree.at? place = some .directory :=
          (isOpen_iff.mp opened).resolve_left (by rw [there]; exact nofun)
        rw [if_pos opened] at leads
        rcases List.mem_cons.mp member with rfl | later
        · exact nomatch missing.symm.trans directory
        · split at later
          · rename_i next stepped
            rw [stepped] at leads
            refine inductionHypothesis (fun front back form => ?_) leads later
            obtain ⟨middle, follows, directoryToo⟩ :=
              upright (step :: front) back (congrArg (step :: ·) form)
            rw [follow_cons, directory, stepped] at follows
            exact ⟨middle, follows, directoryToo⟩
          · exact absurd later List.not_mem_nil
      · exact absurd member List.not_mem_nil

theorem Upright.at?_destination (upright : tree.Upright path) (wellFormed : tree.WellFormed)
    {place other : Location} (leads : tree.destination path = .ok place)
    (member : other ∈ tree.passes path) (missing : tree.at? other = none) :
    tree.at? place = none := by
  rw [passes] at member
  split at member
  · rename_i started
    obtain ⟨checked, there⟩ := canStart_iff.mp started
    rw [destination, checked, Except.bind, if_pos (Option.isSome_iff_ne_none.mpr there)] at leads
    exact wellFormed.at?_walk_of_mem_passed upright leads member missing
  · exact absurd member List.not_mem_nil

/-- A fault without the difference between a file at the end of a path and one before its end. -/
def blurred : Fault → Fault
  | .notDirectory => .alreadyExists
  | fault => fault

/-- A fault is the one to expect, or one that differs from it in where the file in the way is; and
it is the one to expect when the path is upright. -/
def Expects (upright : Prop) (expected : Option Fault) (fault : Fault) : Prop :=
  expected.map blurred = some (blurred fault) ∧ (upright → expected = some fault)

theorem Expects.of_eq {upright : Prop} {expected : Option Fault} {fault : Fault}
    (same : expected = some fault) : Expects upright expected fault :=
  ⟨congrArg _ same, fun _ => same⟩

/-- When a directory cannot be made because those it lies in are missing, and one of them cannot be
made, then it cannot be made either, and for the same cause unless its path goes up out of a
missing directory. -/
theorem Encloses.obstacle_of_missing (encloses : Encloses outer path) (solid : outer ≠ "")
    (checked : checkPath path = .ok ()) (wellFormed : tree.WellFormed)
    (missing : (∃ place ∈ tree.passes path, tree.at? place = none) ∨
      tree.obstacle path = some .noEntry)
    {fault : Fault} (blocked : tree.obstacle outer = some fault) :
    Expects (tree.Upright path) (tree.obstacle path) fault ∧
      ∀ place ∈ tree.way path, place ∈ tree.way outer := by
  have inside : ∀ fault, tree.obstacle path = some fault →
      ∀ place ∈ tree.way path, place ∈ tree.way outer := by
    intro fault same place member
    rw [way_eq_of_obstacle same] at member
    exact (encloses.mem_passes_iff solid checked).mp member
  rcases encloses.obstacle_of_outer solid checked blocked with
    same | ⟨stopped, rfl, place, leads, closed⟩
  · exact ⟨.of_eq same, inside fault same⟩
  · refine ⟨⟨congrArg _ stopped, fun upright => ?_⟩, inside _ stopped⟩
    rcases missing with ⟨other, member, missing⟩ | noEntry
    · have before := (encloses.mem_passes_iff solid checked).mp member
      rw [way_eq_of_obstacle blocked] at before
      have nothing := (encloses.upright upright).at?_destination wellFormed leads before missing
      obtain ⟨item, there, _⟩ := isOpen_eq_false_iff.mp closed
      exact nomatch nothing.symm.trans there
    · exact nomatch stopped.symm.trans noEntry

end Upright

end EngineDocs.FileTree
