/-
This file follows several plans that are carried out at the same time, call by call and in any
order. What a change will leave behind and what keeps it from succeeding can be told from the tree
at the start, as long as the plans agree on what is to stand where. So each plan comes as far in one
order as in any other, and the tree is the same once all have come to their ends.
-/

import EngineDocs.Proofs.FileTree.Calls

namespace EngineDocs

open FileTree

namespace Change

/-- The path at which something is made. -/
def path : Change → String
  | directory path => path
  | file path _ => path

/-- What keeps a change from succeeding. -/
def hindrance (before : FileTree) : Change → Option Fault
  | directory path => before.obstacle path
  | file path _ => before.blockage path

/-- What a change puts where nothing of the kind was. -/
def Leaves (before : FileTree) (place : Location) (item : Item) : Change → Prop
  | directory path =>
    before.at? place = none ∧ place ∈ before.way path ∧ item = .directory
  | file path content =>
    before.blockage path = none ∧ before.destination path = .ok place ∧
      item = .file content.toUTF8

/-- The steps up of a directory that is to be made lead out of directories that are there. -/
def Upright (before : FileTree) : Change → Prop
  | directory path => before.Upright path
  | file _ _ => True

/-- All that a change leaves is there. -/
def Laid (before tree : FileTree) (change : Change) : Prop :=
  ∀ place item, change.Leaves before place item → tree.at? place = some item

/-- Nothing kept the change from succeeding, and it has taken place. -/
def Settled (before tree : FileTree) (change : Change) : Prop :=
  change.hindrance before = none ∧ change.Laid before tree

theorem at?_of_leaves_directory {before : FileTree} {place : Location} {change : Change}
    (leaves : change.Leaves before place .directory) : before.at? place = none := by
  cases change with
  | directory path => exact leaves.1
  | file path content => exact nomatch leaves.2.2

theorem at?_of_leaves_file {before : FileTree} {place : Location} {change : Change}
    {content : ByteArray} (leaves : change.Leaves before place (.file content)) :
    before.at? place ≠ some .directory ∧ before.at? place ≠ some .locked := by
  cases change with
  | directory path => cases leaves.2.2
  | file path text =>
    obtain ⟨free, leads, _⟩ := leaves
    rw [blockage, leads] at free
    dsimp only at free
    split at free
    · cases free
    · constructor <;>
      · intro there
        rw [there] at free
        cases free

theorem Leaves.isDirectory_or_file {before : FileTree} {place : Location} {item : Item}
    {change : Change} (leaves : change.Leaves before place item) :
    item = .directory ∨ ∃ content, item = .file content := by
  cases change with
  | directory path => exact Or.inl leaves.2.2
  | file path content => exact Or.inr ⟨_, leaves.2.2⟩

theorem Leaves.ne_nil {before : FileTree} {place : Location} {item : Item} {change : Change}
    (leaves : change.Leaves before place item) : place ≠ [] := by
  rintro rfl
  rcases leaves.isDirectory_or_file with rfl | ⟨content, rfl⟩
  · exact nomatch at?_of_leaves_directory leaves
  · exact (at?_of_leaves_file leaves).1 rfl

end Change

/-! ### Plans that go together -/

/-- Plans whose paths start at one place, which make the directory of a file before it, and which
agree on what is to stand where. -/
structure Compatible (before : FileTree) (plans : List (List Change)) : Prop where
  start : ∃ start, ∀ plan ∈ plans, ∀ change ∈ plan, before.start change.path = start
  chain : ∀ plan ∈ plans, ∀ path, .directory path ∈ plan → path ≠ "" ∧ Chain (Path.ancestors path)
  enclosed : ∀ plan ∈ plans, ∀ front path content back,
    plan = front ++ .file path content :: back →
      ∃ outer, .directory outer ∈ front ∧ Encloses outer path
  named : ∀ plan ∈ plans, ∀ path content, .file path content ∈ plan →
    meansDirectory path = false ∧ ∃ front name, steps path = front ++ [name] ∧ Path.IsName name
  agree : ∀ plan ∈ plans, ∀ change ∈ plan, ∀ other ∈ plans, ∀ change' ∈ other,
    ∀ place item item', change.Leaves before place item → change'.Leaves before place item' →
      item = item'

/-- A plan comes as far as a change: nothing hinders those before it. -/
def Attempts (before : FileTree) (plan : List Change) (change : Change) : Prop :=
  ∃ front back, plan = front ++ change :: back ∧ ∀ earlier ∈ front, earlier.hindrance before = none

theorem Attempts.mem {before : FileTree} {plan : List Change} {change : Change}
    (attempts : Attempts before plan change) : change ∈ plan := by
  obtain ⟨front, back, rfl, _⟩ := attempts
  exact List.mem_append_right _ List.mem_cons_self

/-- A tree on the way from the one at the start to the one at the end: it differs only by what plans
leave. -/
structure Between (before : FileTree) (plans : List (List Change)) (tree : FileTree) : Prop where
  wellFormed : tree.WellFormed
  workingDirectory : tree.workingDirectory = before.workingDirectory
  restrictions : tree.restrictions = before.restrictions
  at? : ∀ place, tree.at? place = before.at? place ∨
    ∃ plan ∈ plans, ∃ change, Attempts before plan change ∧
      ∃ item, change.Leaves before place item ∧ tree.at? place = some item

/-- What one call does to the tree: nothing, or it puts something that a plan leaves. -/
def Advances (before : FileTree) (plans : List (List Change)) (tree after : FileTree) : Prop :=
  after = tree ∨ ∃ plan ∈ plans, ∃ change, Attempts before plan change ∧
    ∃ place item, change.Leaves before place item ∧ after = tree.put place item

section Between

variable {before tree after : FileTree} {plans : List (List Change)} {plan : List Change}
  {change : Change} {path : String}

theorem Between.refl (wellFormed : before.WellFormed) (plans : List (List Change)) :
    Between before plans before := ⟨wellFormed, rfl, rfl, fun _ => Or.inl rfl⟩

theorem Between.grows (between : Between before plans tree) : before.Grows tree where
  keeps := by
    refine ⟨between.workingDirectory, fun place directory => ?_, fun place _ opened =>
      (mayEnter_congr between.restrictions place).trans opened⟩
    rcases between.at? place with same | ⟨_, _, change, _, item, leaves, there⟩
    · exact same.trans directory
    · rcases leaves.isDirectory_or_file with rfl | ⟨content, rfl⟩
      · exact there
      · exact absurd directory (Change.at?_of_leaves_file leaves).1
  restrictions := between.restrictions
  files place item stood isFile := by
    rcases between.at? place with same | ⟨_, _, change, _, other, leaves, there⟩
    · exact ⟨item, same.trans stood, isFile⟩
    · rcases leaves.isDirectory_or_file with rfl | ⟨content, rfl⟩
      · exact nomatch (Change.at?_of_leaves_directory leaves).symm.trans stood
      · exact ⟨_, there, rfl⟩

theorem destination_of_no_start (none : before.at? (before.start path) = none) :
    ∃ fault, before.destination path = .error fault := by
  rw [destination, none]
  cases checkPath path with
  | error fault => exact ⟨fault, rfl⟩
  | ok _ => exact ⟨_, rfl⟩

theorem way_of_no_start (none : before.at? (before.start path) = none) :
    before.way path = [] := by
  obtain ⟨fault, ends⟩ := destination_of_no_start none
  rw [way, passes, canStart, ends, none]
  simp

/-- The place where all paths start stays as it is when nothing is there. -/
theorem Between.start_missing (compatible : Compatible before plans)
    (between : Between before plans tree) (member : plan ∈ plans) (listed : change ∈ plan)
    (none : before.at? (before.start change.path) = none) :
    tree.at? (before.start change.path) = .none := by
  obtain ⟨start, same⟩ := compatible.start
  rcases between.at? (before.start change.path) with still | ⟨other, memberToo, change', attempts,
    item, leaves, _⟩
  · exact still.trans none
  · rw [same plan member change listed, ← same other memberToo change' attempts.mem] at none leaves
    cases change' with
    | directory path =>
      obtain ⟨_, onWay, _⟩ := leaves
      have nowhere : before.way path = [] := way_of_no_start none
      exact absurd onWay (nowhere ▸ List.not_mem_nil)
    | file path content =>
      obtain ⟨fault, ends⟩ : ∃ fault, before.destination path = .error fault :=
        destination_of_no_start none
      exact nomatch ends.symm.trans leaves.2.1

theorem Between.reserves (compatible : Compatible before plans)
    (between : Between before plans tree) (member : plan ∈ plans)
    (listed : .directory path ∈ plan) : before.Reserves tree path where
  start := by
    have missing := between.start_missing compatible member listed
    exact missing
  onWay place onWay missing := by
    rcases between.at? place with still | ⟨other, memberToo, change, attempts, item, leaves, there⟩
    · exact Or.inl (still.trans missing)
    · have same := compatible.agree plan member (.directory path) listed other memberToo change
        attempts.mem place .directory item ⟨missing, onWay, rfl⟩ leaves
      exact Or.inr (same ▸ there)

theorem Between.advances (between : Between before plans tree)
    (advances : Advances before plans tree after) (wellFormed : after.WellFormed) :
    Between before plans after := by
  refine ⟨wellFormed, ?_, ?_, fun place => ?_⟩
  · rcases advances with rfl | ⟨_, _, _, _, _, _, _, rfl⟩
    · exact between.workingDirectory
    · exact between.workingDirectory
  · rcases advances with rfl | ⟨_, _, _, _, _, _, _, rfl⟩
    · exact between.restrictions
    · exact between.restrictions
  · rcases advances with rfl | ⟨plan, member, change, attempts, other, item, leaves, rfl⟩
    · exact between.at? place
    · rw [at?_put tree leaves.ne_nil]
      split
      · rename_i same
        exact Or.inr ⟨plan, member, change, attempts, item, same ▸ leaves, rfl⟩
      · exact between.at? place

/-- What a change has left stays. -/
theorem Change.Laid.advances (compatible : Compatible before plans) (member : plan ∈ plans)
    (listed : change ∈ plan) (laid : change.Laid before tree)
    (advances : Advances before plans tree after) : change.Laid before after := by
  intro place item leaves
  rcases advances with rfl | ⟨other, memberToo, change', attempts, place', item', leavesToo, rfl⟩
  · exact laid place item leaves
  · rw [at?_put tree leavesToo.ne_nil]
    split
    · rename_i same
      subst same
      rw [compatible.agree plan member change listed other memberToo change' attempts.mem place
        item item' leaves leavesToo]
    · exact laid place item leaves

theorem Advances.keeps (between : Between before plans tree)
    (compatible : Compatible before plans)
    (advances : Advances before plans tree after) : tree.Keeps after := by
  rcases advances with rfl | ⟨plan, member, change, attempts, place, item, leaves, rfl⟩
  · exact .refl after
  refine ⟨rfl, fun other directory => ?_, fun _ _ opened => opened⟩
  rw [at?_put tree leaves.ne_nil]
  split
  · rename_i same
    subst same
    rcases between.at? other with
      still | ⟨plan', member', change', attempts', item', leaves', there⟩
    · rcases leaves.isDirectory_or_file with rfl | ⟨content, rfl⟩
      · rfl
      · exact absurd (still.symm.trans directory) (Change.at?_of_leaves_file leaves).1
    · rw [compatible.agree plan member change attempts.mem plan' member' change' attempts'.mem other
        item item' leaves leaves', ← there]
      exact directory
  · exact directory

end Between

/-! ### How far a plan has come -/

/-- The calls that are left of a plan: those of the changes that are to come, after those that are
left of a directory that is being made. -/
inductive Stage (before tree : FileTree) (plan : List Change) : List Call → Prop where
  | between {front back : List Change} (whole : plan = front ++ back)
      (settled : ∀ change ∈ front, change.Settled before tree) :
    Stage before tree plan (back.map Call.ofChange)
  | making {front back : List Change} {path : String} {calls : List Call}
      (whole : plan = front ++ .directory path :: back)
      (settled : ∀ change ∈ front, change.Settled before tree)
      (making : Call.Making before tree path calls) :
    Stage before tree plan (calls ++ back.map Call.ofChange)

/-- A plan came to its first change that something hinders, and to a fault that tells of it. -/
def Fails (before tree : FileTree) (plan : List Change) (fault : Fault) : Prop :=
  ∃ front change back, plan = front ++ change :: back ∧
    (∀ earlier ∈ front, earlier.Settled before tree) ∧
    Expects (change.Upright before) (change.hindrance before) fault ∧ change.Laid before tree

section Stage

variable {before tree after : FileTree} {plans : List (List Change)} {plan front back : List Change}
  {change : Change} {call : Call} {calls more : List Call} {fault : Fault} {path : String}

theorem Stage.start (before : FileTree) (plan : List Change) :
    Stage before before plan (plan.map Call.ofChange) :=
  .between (List.nil_append plan).symm fun _ absent => absurd absent List.not_mem_nil

theorem Stage.settled_of_nil (stage : Stage before tree plan []) :
    ∀ change ∈ plan, change.Settled before tree := by
  generalize none : [] = calls at stage
  cases stage with
  | @between front back whole settled =>
    rw [whole, List.map_eq_nil_iff.mp none.symm, List.append_nil]
    exact settled
  | making _ _ making => exact absurd (List.append_eq_nil_iff.mp none.symm).1 making.ne_nil

theorem settled_advances (compatible : Compatible before plans) (member : plan ∈ plans)
    (whole : plan = front ++ back) (advances : Advances before plans tree after)
    (settled : ∀ change ∈ front, change.Settled before tree) :
    ∀ change ∈ front, change.Settled before after := by
  intro change inside
  have listed : change ∈ plan := whole ▸ List.mem_append_left _ inside
  exact ⟨(settled change inside).1,
    (settled change inside).2.advances compatible member listed advances⟩

/-- What others do leaves a plan where it is. -/
theorem Stage.advances (compatible : Compatible before plans) (between : Between before plans tree)
    (member : plan ∈ plans) (stage : Stage before tree plan calls)
    (advances : Advances before plans tree after) : Stage before after plan calls := by
  cases stage with
  | between whole settled =>
    exact .between whole (settled_advances compatible member whole advances settled)
  | making whole settled making =>
    exact .making whole (settled_advances compatible member whole advances settled)
      (making.keeps (advances.keeps between compatible))

theorem Fails.advances (compatible : Compatible before plans) (member : plan ∈ plans)
    (fails : Fails before tree plan fault) (advances : Advances before plans tree after) :
    Fails before after plan fault := by
  obtain ⟨front, change, back, whole, settled, expects, laid⟩ := fails
  have listed : change ∈ plan := whole ▸ List.mem_append_right _ List.mem_cons_self
  exact ⟨front, change, back, whole,
    settled_advances compatible member whole advances settled, expects,
    laid.advances compatible member listed advances⟩

/-- A plan goes on with the writing of a file or with the making of a directory. -/
theorem Stage.cases (compatible : Compatible before plans) (member : plan ∈ plans)
    (stage : Stage before tree plan (call :: calls)) :
    (∃ front path content back, plan = front ++ .file path content :: back ∧
        (∀ change ∈ front, change.Settled before tree) ∧ call = .write path content ∧
        calls = back.map Call.ofChange) ∨
      ∃ front path back inner, plan = front ++ .directory path :: back ∧
        (∀ change ∈ front, change.Settled before tree) ∧
        Call.Making before tree path (call :: inner) ∧
        calls = inner ++ back.map Call.ofChange := by
  generalize whole : call :: calls = all at stage
  cases stage with
  | @between front back form settled =>
    cases back with
    | nil => exact nomatch whole
    | cons change back =>
      obtain ⟨rfl, rfl⟩ := List.cons.inj whole
      cases change with
      | file path content => exact Or.inl ⟨front, path, content, back, form, settled, rfl, rfl⟩
      | directory path =>
        have listed : .directory path ∈ plan := form ▸ List.mem_append_right _ List.mem_cons_self
        obtain ⟨_, chain⟩ := compatible.chain plan member path listed
        obtain ⟨outer, lies⟩ := Path.ancestors_eq_cons path
        refine Or.inr ⟨front, path, back, [], form, settled, ?_, rfl⟩
        rw [Call.ofChange, lies]
        exact .make (lies ▸ chain)
  | @making front back path calls form settled making =>
    obtain ⟨first, rest, parts⟩ := List.exists_cons_of_ne_nil making.ne_nil
    subst parts
    obtain ⟨rfl, rfl⟩ := List.cons.inj whole
    exact Or.inr ⟨front, path, back, rest, form, settled, making, rfl⟩

theorem attempts_of_settled (whole : plan = front ++ change :: back)
    (settled : ∀ earlier ∈ front, earlier.Settled before tree) : Attempts before plan change :=
  ⟨front, back, whole, fun earlier member => (settled earlier member).1⟩

theorem laid_of_paved (paved : before.Paved tree path) :
    (Change.directory path).Laid before tree := by
  rintro place item ⟨_, onWay, rfl⟩
  exact paved place onWay

theorem settled_of_isDirectory (compatible : Compatible before plans)
    (between : Between before plans tree) (member : plan ∈ plans)
    (listed : .directory path ∈ plan) (there : tree.isDirectory path = true) :
    (Change.directory path).Settled before tree := by
  obtain ⟨free, paved⟩ :=
    ((between.reserves compatible member listed).isDirectory_iff between.grows).mp there
  exact ⟨free, laid_of_paved paved⟩

theorem paved_of_laid (grows : before.Grows tree)
    (laid : (Change.directory path).Laid before tree) : before.Paved tree path := by
  intro place onWay
  rcases isOpen_iff.mp (isOpen_of_mem_way onWay) with missing | directory
  · exact laid place .directory ⟨missing, onWay, rfl⟩
  · exact grows.keeps.directories place directory

/-- By the time a file is written the way of its path is made. -/
theorem directories_of_settled (compatible : Compatible before plans)
    (between : Between before plans tree) (member : plan ∈ plans) {content : String}
    (whole : plan = front ++ .file path content :: back)
    (settled : ∀ change ∈ front, change.Settled before tree) :
    ∀ place ∈ before.passes path, tree.at? place = some .directory := by
  intro place inside
  obtain ⟨outer, listed, encloses⟩ :=
    compatible.enclosed plan member front path content back whole
  have solid := (compatible.chain plan member outer (whole ▸ List.mem_append_left _ listed)).1
  have checked : checkPath path = .ok () := by
    rw [passes] at inside
    split at inside
    · exact (canStart_iff.mp ‹_›).1
    · exact absurd inside List.not_mem_nil
  exact paved_of_laid between.grows (settled _ listed).2 place
    ((encloses.mem_passes_iff solid checked).mp inside)

/-- Where a file is to be written no one else puts anything. -/
theorem still_of_file (compatible : Compatible before plans) (between : Between before plans tree)
    (member : plan ∈ plans) {content : String} (listed : .file path content ∈ plan)
    {place : Location} (leads : before.destination path = .ok place)
    (ahead : place ∉ before.passes path) :
    tree.at? place = before.at? place ∨
      before.blockage path = none ∧ ∃ content, tree.at? place = some (.file content) := by
  rcases between.at? place with still | ⟨other, memberToo, change, attempts, item, leaves, there⟩
  · exact Or.inl still
  · refine Or.inr ?_
    have free : before.blockage path = none := by
      rw [blockage, leads]
      dsimp only
      rw [if_neg ahead]
      rcases leaves.isDirectory_or_file with rfl | ⟨content, rfl⟩
      · rw [Change.at?_of_leaves_directory leaves]
      · obtain ⟨notDirectory, notLocked⟩ := Change.at?_of_leaves_file leaves
        split
        · exact absurd ‹_› notDirectory
        · exact absurd ‹_› notLocked
        · rfl
    have own : (Change.file path content).Leaves before place (.file content.toUTF8) :=
      ⟨free, leads, rfl⟩
    rw [← compatible.agree plan member _ listed other memberToo change attempts.mem place _ item own
      leaves] at there
    exact ⟨free, _, there⟩

/-- The writing of a file does what the tree at the start says that it does. -/
theorem Between.writeBytes_cases (compatible : Compatible before plans)
    (between : Between before plans tree) (member : plan ∈ plans) {content : String}
    (whole : plan = front ++ .file path content :: back)
    (settled : ∀ change ∈ front, change.Settled before tree) :
    (before.blockage path = none ∧ ∃ place, before.destination path = .ok place ∧
        tree.writeBytes path content.toUTF8 = .ok (tree.put place (.file content.toUTF8))) ∨
      ∃ fault, before.blockage path = some fault ∧
        tree.writeBytes path content.toUTF8 = .error fault := by
  have listed : .file path content ∈ plan := whole ▸ List.mem_append_right _ List.mem_cons_self
  obtain ⟨plain, _, _, form, isName⟩ := compatible.named plan member path content listed
  have missing := between.start_missing compatible member listed
  exact between.grows.writeBytes_cases form isName plain missing
    (directories_of_settled compatible between member whole settled)
    (fun place leads ahead => still_of_file compatible between member listed leads ahead) _

/-- A call that fails ends its plan at the first change that something hinders. -/
theorem Stage.fails (compatible : Compatible before plans) (between : Between before plans tree)
    (member : plan ∈ plans) (stage : Stage before tree plan (call :: calls))
    (refuses : Call.Refuses tree call fault) : Fails before tree plan fault := by
  rcases stage.cases compatible member with
    ⟨front, path, content, back, whole, settled, rfl, rfl⟩ |
      ⟨front, path, back, inner, whole, settled, making, rfl⟩
  · cases refuses with
    | write failed =>
      rcases between.writeBytes_cases compatible member whole settled with
        ⟨_, place, _, written⟩ | ⟨other, hindered, failedToo⟩
      · exact nomatch failed.symm.trans written
      · obtain rfl := Except.error.inj (failed.symm.trans failedToo)
        refine ⟨front, _, back, whole, settled, .of_eq hindered, ?_⟩
        rintro place item ⟨free, _⟩
        exact nomatch free.symm.trans hindered
  · have listed : .directory path ∈ plan := whole ▸ List.mem_append_right _ List.mem_cons_self
    obtain ⟨_, expects, paved⟩ :=
      making.fails (between.reserves compatible member listed) refuses
    exact ⟨front, _, back, whole, settled, expects, laid_of_paved paved⟩

/-- Once a change has taken place the plan goes on with those behind it. -/
theorem Stage.of_settled (whole : plan = front ++ change :: back)
    (settled : ∀ earlier ∈ front, earlier.Settled before tree)
    (last : change.Settled before tree) : Stage before tree plan (back.map Call.ofChange) := by
  rw [List.append_cons] at whole
  refine .between whole fun other inside => ?_
  rcases List.mem_append.mp inside with earlier | final
  · exact settled other earlier
  · rw [List.mem_singleton.mp final]
    exact last

theorem settled_of_put {content : String} {place : Location}
    (leaves : (Change.file path content).Leaves before place (.file content.toUTF8)) :
    (Change.file path content).Settled before (tree.put place (.file content.toUTF8)) := by
  refine ⟨leaves.1, fun other item leavesToo => ?_⟩
  obtain ⟨_, leads, rfl⟩ := leavesToo
  rw [at?_put tree leaves.ne_nil, if_pos (Except.ok.inj (leads.symm.trans leaves.2.1))]

/-- A file that is written brings its plan further. -/
theorem Stage.of_written (compatible : Compatible before plans)
    (between : Between before plans tree) (member : plan ∈ plans) {content : String}
    (whole : plan = front ++ .file path content :: back)
    (settled : ∀ change ∈ front, change.Settled before tree)
    (written : tree.writeBytes path content.toUTF8 = .ok after) :
    Advances before plans tree after ∧ after.WellFormed ∧
      Stage before after plan (back.map Call.ofChange) := by
  rcases between.writeBytes_cases compatible member whole settled with
    ⟨free, place, leads, writtenToo⟩ | ⟨other, _, failed⟩
  · have wellFormedAfter := Change.perform_wellFormed between.wellFormed (.file path content)
    rw [Change.perform, written] at wellFormedAfter
    obtain rfl := Except.ok.inj (written.symm.trans writtenToo)
    have leaves : (Change.file path content).Leaves before place (.file content.toUTF8) :=
      ⟨free, leads, rfl⟩
    have advances : Advances before plans tree (tree.put place (.file content.toUTF8)) :=
      Or.inr ⟨plan, member, _, attempts_of_settled whole settled, place, _, leaves, rfl⟩
    exact ⟨advances, wellFormedAfter, .of_settled whole
      (settled_advances compatible member whole advances settled) (settled_of_put leaves)⟩
  · cases written.symm.trans failed

/-- A call that is carried out puts what its plan leaves, and brings it further. -/
theorem Stage.goesOn (wellFormed : before.WellFormed) (compatible : Compatible before plans)
    (between : Between before plans tree) (member : plan ∈ plans)
    (stage : Stage before tree plan (call :: calls))
    (succeeds : Call.Succeeds tree call after more) :
    Advances before plans tree after ∧ after.WellFormed ∧
      Stage before after plan (more ++ calls) := by
  rcases stage.cases compatible member with
    ⟨front, path, content, back, whole, settled, rfl, rfl⟩ |
      ⟨front, path, back, inner, whole, settled, making, rfl⟩
  · cases succeeds with
    | written done => exact Stage.of_written compatible between member whole settled done
  · have listed : .directory path ∈ plan := whole ▸ List.mem_append_right _ List.mem_cons_self
    obtain ⟨opens, wellFormedAfter, later⟩ := making.goesOn wellFormed between.grows
      between.wellFormed (between.reserves compatible member listed) succeeds
    have advances : Advances before plans tree after := by
      refine opens.imp_right fun ⟨place, onWay, missing, _, same⟩ => ?_
      exact ⟨plan, member, _, attempts_of_settled whole settled, place, .directory,
        ⟨missing, onWay, rfl⟩, same⟩
    have settledAfter := settled_advances compatible member whole advances settled
    refine ⟨advances, wellFormedAfter, ?_⟩
    rw [← List.append_assoc]
    rcases later with making | ⟨none, made⟩
    · exact .making whole settledAfter making
    · rw [none, List.nil_append]
      have there := made.resolve_left (compatible.chain plan member path listed).1
      exact .of_settled whole settledAfter (settled_of_isDirectory compatible
        (between.advances advances wellFormedAfter) member listed there)

end Stage

/-! ### Where plans end -/

/-- How a plan ends, with all its changes made or at a fault. -/
def EndsWith (before tree : FileTree) (plan : List Change) : Option Fault → Prop
  | none => ∀ change ∈ plan, change.Settled before tree
  | some fault => Fails before tree plan fault

section EndsWith

variable {before tree after : FileTree} {plans : List (List Change)} {plan : List Change}
  {fault? : Option Fault}

theorem EndsWith.advances (compatible : Compatible before plans) (member : plan ∈ plans)
    (ends : EndsWith before tree plan fault?) (advances : Advances before plans tree after) :
    EndsWith before after plan fault? := by
  cases fault? with
  | none => exact settled_advances compatible member (List.append_nil plan).symm advances ends
  | some fault => exact Fails.advances compatible member ends advances

/-- A plan that has ended has left all that its changes leave, up to the one that failed. -/
theorem EndsWith.laid (ends : EndsWith before tree plan fault?) {change : Change}
    (attempts : Attempts before plan change) : change.Laid before tree := by
  cases fault? with
  | none => exact (ends change attempts.mem).2
  | some fault =>
    obtain ⟨front, last, back, whole, settled, ⟨hindered, _⟩, laid⟩ := ends
    obtain ⟨frontToo, backToo, wholeToo, free⟩ := attempts
    -- The change is not behind the one that failed, since nothing hinders those before it.
    have beforeLast : last ∉ frontToo := by
      intro inside
      rw [free last inside] at hindered
      exact nomatch hindered
    rcases List.append_eq_append_iff.mp (whole.symm.trans wholeToo) with
      ⟨middle, rfl, form⟩ | ⟨middle, rfl, form⟩
    · cases middle with
      | nil =>
        obtain ⟨rfl, _⟩ := List.cons.inj form
        exact laid
      | cons first middle =>
        obtain ⟨rfl, _⟩ := List.cons.inj form
        exact absurd (List.mem_append_right _ List.mem_cons_self) beforeLast
    · cases middle with
      | nil =>
        obtain ⟨rfl, _⟩ := List.cons.inj form
        exact laid
      | cons first middle =>
        obtain ⟨rfl, _⟩ := List.cons.inj form
        exact (settled change (List.mem_append_right _ List.mem_cons_self)).2

theorem Between.at?_eq_of_leaves (between : Between before plans tree)
    (ends : ∀ plan ∈ plans, ∃ fault?, EndsWith before after plan fault?) {place : Location}
    (different : tree.at? place ≠ before.at? place) : after.at? place = tree.at? place := by
  obtain ⟨plan, member, change, attempts, item, leaves, there⟩ :=
    (between.at? place).resolve_left different
  obtain ⟨_, ended⟩ := ends plan member
  rw [there]
  exact ended.laid attempts place item leaves

/-- Two trees in which all plans have ended are the same. -/
theorem at?_eq_of_endsWith (between : Between before plans tree)
    (betweenToo : Between before plans after)
    (ends : ∀ plan ∈ plans, ∃ fault?, EndsWith before tree plan fault?)
    (endsToo : ∀ plan ∈ plans, ∃ fault?, EndsWith before after plan fault?) (place : Location) :
    tree.at? place = after.at? place := by
  by_cases same : tree.at? place = before.at? place
  · by_cases sameToo : after.at? place = before.at? place
    · rw [same, sameToo]
    · exact betweenToo.at?_eq_of_leaves ends sameToo
  · exact (between.at?_eq_of_leaves endsToo same).symm

/-- The fault at which a plan is bound to end: what hinders the first of its changes that something
hinders. -/
def boundFault (before : FileTree) (plan : List Change) : Option Fault :=
  plan.findSome? (Change.hindrance before)

/-- In whichever order plans are carried out, each ends as it was bound to. Only a path that goes up
out of a missing directory leaves open where it finds the file that is in its way. -/
theorem EndsWith.boundFault_eq (ends : EndsWith before tree plan fault?) :
    (boundFault before plan).map blurred = fault?.map blurred ∧
      ((∀ change ∈ plan, change.Upright before) → boundFault before plan = fault?) := by
  rw [boundFault]
  cases fault? with
  | none =>
    have free : plan.findSome? (Change.hindrance before) = none :=
      List.findSome?_eq_none_iff.mpr fun change member => (ends change member).1
    rw [free]
    exact ⟨rfl, fun _ => rfl⟩
  | some fault =>
    obtain ⟨front, change, back, rfl, settled, ⟨hindered, exact⟩, _⟩ := ends
    have free : front.findSome? (Change.hindrance before) = none :=
      List.findSome?_eq_none_iff.mpr fun earlier member => (settled earlier member).1
    obtain ⟨other, hinderedBy, same⟩ := Option.map_eq_some_iff.mp hindered
    have first : (front ++ change :: back).findSome? (Change.hindrance before) = some other := by
      rw [List.findSome?_append, free, Option.none_or, List.findSome?_cons, hinderedBy]
    rw [first]
    refine ⟨congrArg some same, fun upright => ?_⟩
    rw [← hinderedBy]
    exact exact (upright change (List.mem_append_right _ List.mem_cons_self))

end EndsWith

end EngineDocs
