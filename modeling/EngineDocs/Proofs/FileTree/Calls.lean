/-
This file takes changes apart into the single calls on the disk that they consist of. Making a
directory with all that lead to it takes several, and what others do in between changes what the
next one finds. Carried out without such interruption, the calls do what the change does. Carried
out with them, each call leaves the making of a directory in one of a few stages, and it ends with
the directory made or with the fault that was bound to come.
-/

import EngineDocs.Proofs.FileTree.Ways
import Mathlib.Algebra.GroupWithZero.Nat

namespace EngineDocs

open FileTree

/-- A call on the disk that is left to be done. -/
inductive Call where
  /-- Make a directory, given with all that it lies in, from the inside out. -/
  | make (paths : List String)
  /-- Make a directory once those it lies in are made. -/
  | retry (path : String)
  /-- See whether a directory that could not be made is there. -/
  | confirm (path : String) (fault : Fault)
  /-- Write a text file. -/
  | write (path : String) (content : String)
  deriving DecidableEq

namespace Call

/-- Carries out a call, and gives the calls that it leaves to be done. -/
def perform (tree : FileTree) : Call → FileTree × Except Fault (List Call)
  | make [] => (tree, .error .noEntry)
  | make (path :: outer) =>
    if path.isEmpty then (tree, .ok [])
    else match tree.makeDirectory path with
      | .ok made => (made, .ok [])
      | .error .noEntry => (tree, .ok [make outer, retry path])
      | .error fault => (tree, .ok [confirm path fault])
  | retry path =>
    match tree.makeDirectory path with
    | .ok made => (made, .ok [])
    | .error fault => (tree, .ok [confirm path fault])
  | confirm path fault => (tree, if tree.isDirectory path then .ok [] else .error fault)
  | write path content =>
    match tree.writeBytes path content.toUTF8 with
    | .ok written => (written, .ok [])
    | .error fault => (tree, .error fault)

/-- The call with which a change begins. -/
def ofChange : Change → Call
  | .directory path => make (Path.ancestors path)
  | .file path content => write path content

/-- How many calls can become of one, at most. -/
def weight : Call → Nat
  | make paths => 3 * paths.length + 1
  | retry _ => 2
  | confirm _ _ => 1
  | write _ _ => 1

/-- All that a call can do that does not fail: what it leaves of the tree, and what is left to be
done. -/
inductive Succeeds (tree : FileTree) : Call → FileTree → List Call → Prop where
  | empty {outer : List String} : Succeeds tree (make ("" :: outer)) tree []
  | made {path : String} {outer : List String} {made : FileTree} (solid : path ≠ "")
      (done : tree.makeDirectory path = .ok made) : Succeeds tree (make (path :: outer)) made []
  | missing {path : String} {outer : List String} (solid : path ≠ "")
      (failed : tree.makeDirectory path = .error .noEntry) :
      Succeeds tree (make (path :: outer)) tree [make outer, retry path]
  | refused {path : String} {outer : List String} {fault : Fault} (solid : path ≠ "")
      (failed : tree.makeDirectory path = .error fault) (other : fault ≠ .noEntry) :
      Succeeds tree (make (path :: outer)) tree [confirm path fault]
  | retried {path : String} {made : FileTree} (done : tree.makeDirectory path = .ok made) :
      Succeeds tree (retry path) made []
  | again {path : String} {fault : Fault} (failed : tree.makeDirectory path = .error fault) :
      Succeeds tree (retry path) tree [confirm path fault]
  | confirmed {path : String} {fault : Fault} (there : tree.isDirectory path = true) :
      Succeeds tree (confirm path fault) tree []
  | written {path content : String} {written : FileTree}
      (done : tree.writeBytes path content.toUTF8 = .ok written) :
      Succeeds tree (write path content) written []

/-- All that a call can do that fails. The tree stays as it is. -/
inductive Refuses (tree : FileTree) : Call → Fault → Prop where
  | nothing : Refuses tree (make []) .noEntry
  | confirm {path : String} {fault : Fault} (absent : tree.isDirectory path = false) :
      Refuses tree (confirm path fault) fault
  | write {path content : String} {fault : Fault}
      (failed : tree.writeBytes path content.toUTF8 = .error fault) :
      Refuses tree (write path content) fault

section Perform

variable {tree after : FileTree} {call : Call} {more : List Call} {fault : Fault}

theorem succeeds_of_perform (performed : call.perform tree = (after, .ok more)) :
    Succeeds tree call after more := by
  cases call with
  | make paths =>
    cases paths with
    | nil => exact nomatch (Prod.mk.inj performed).2
    | cons path outer =>
      rw [perform] at performed
      by_cases empty : path = ""
      · subst empty
        obtain ⟨rfl, same⟩ := Prod.mk.inj performed
        obtain rfl := Except.ok.inj same
        exact .empty
      rw [if_neg (by simpa using empty)] at performed
      split at performed
      all_goals
        obtain ⟨rfl, same⟩ := Prod.mk.inj performed
        obtain rfl := Except.ok.inj same
      · exact .made empty ‹_›
      · exact .missing empty ‹_›
      · exact .refused empty ‹_› ‹_›
  | retry path =>
    rw [perform] at performed
    split at performed
    all_goals
      obtain ⟨rfl, same⟩ := Prod.mk.inj performed
      obtain rfl := Except.ok.inj same
    · exact .retried ‹_›
    · exact .again ‹_›
  | confirm path fault =>
    obtain ⟨rfl, same⟩ := Prod.mk.inj performed
    split at same
    · obtain rfl := Except.ok.inj same
      exact .confirmed ‹_›
    · exact nomatch same
  | write path content =>
    rw [perform] at performed
    split at performed
    · obtain ⟨rfl, same⟩ := Prod.mk.inj performed
      obtain rfl := Except.ok.inj same
      exact .written ‹_›
    · exact nomatch (Prod.mk.inj performed).2

theorem refuses_of_perform (performed : call.perform tree = (after, .error fault)) :
    after = tree ∧ Refuses tree call fault := by
  cases call with
  | make paths =>
    cases paths with
    | nil =>
      obtain ⟨same, failed⟩ := Prod.mk.inj performed
      obtain rfl := Except.error.inj failed
      exact ⟨same.symm, .nothing⟩
    | cons path outer =>
      rw [perform] at performed
      repeat' split at performed
      all_goals exact nomatch (Prod.mk.inj performed).2
  | retry path =>
    rw [perform] at performed
    split at performed <;> exact nomatch (Prod.mk.inj performed).2
  | confirm path other =>
    obtain ⟨same, failed⟩ := Prod.mk.inj performed
    split at failed
    · exact nomatch failed
    · obtain rfl := Except.error.inj failed
      exact ⟨same.symm, .confirm (Bool.eq_false_iff.mpr ‹_›)⟩
  | write path content =>
    rw [perform] at performed
    split at performed
    · exact nomatch (Prod.mk.inj performed).2
    · obtain ⟨same, failed⟩ := Prod.mk.inj performed
      obtain rfl := Except.error.inj failed
      exact ⟨same.symm, .write ‹_›⟩

/-- The calls that are left weigh less than the one that was carried out. -/
theorem weight_perform (performed : call.perform tree = (after, .ok more)) :
    (more.map weight).sum < call.weight := by
  cases succeeds_of_perform performed <;>
    simp only [List.map_cons, List.map_nil, List.sum_cons, List.sum_nil, weight,
      List.length_cons] <;> omega

end Perform

/-! ### Calls that no one interrupts -/

/-- Calls are carried out one after another up to the first that fails. -/
inductive Ends : FileTree → List Call → FileTree → Option Fault → Prop where
  | done (tree : FileTree) : Ends tree [] tree none
  | fails {tree after : FileTree} {call : Call} {calls : List Call} {fault : Fault}
      (performed : call.perform tree = (after, .error fault)) :
      Ends tree (call :: calls) after (some fault)
  | goesOn {tree next after : FileTree} {call : Call} {calls more : List Call}
      {fault? : Option Fault} (performed : call.perform tree = (next, .ok more))
      (ends : Ends next (more ++ calls) after fault?) : Ends tree (call :: calls) after fault?

namespace Ends

variable {tree after : FileTree} {calls : List Call} {fault? : Option Fault} {path : String}
  {fault : Fault}

/-- How calls end that follow on a change with some result. -/
def Continues (result : FileTree × Option Fault) (calls : List Call) (after : FileTree)
    (fault? : Option Fault) : Prop :=
  match result with
  | (tree, none) => Ends tree calls after fault?
  | (tree, some fault) => after = tree ∧ fault? = some fault

theorem of_confirm
    (continues : Continues (if tree.isDirectory path then (tree, none) else (tree, some fault))
      calls after fault?) : Ends tree (.confirm path fault :: calls) after fault? := by
  split at continues
  · exact .goesOn (congrArg (Prod.mk tree) (if_pos ‹_›)) continues
  · obtain ⟨rfl, rfl⟩ := continues
    exact .fails (congrArg (Prod.mk after) (if_neg ‹_›))

theorem of_retry
    (continues : Continues (match tree.makeDirectory path with
      | .ok made => (made, none)
      | .error fault => if tree.isDirectory path then (tree, none) else (tree, some fault)) calls
      after fault?) : Ends tree (.retry path :: calls) after fault? := by
  split at continues
  · rename_i made done
    have performed : (retry path).perform tree = (made, .ok []) := by rw [perform, done]
    exact .goesOn performed continues
  · rename_i fault failed
    exact .goesOn (by rw [perform, failed]) (of_confirm continues)

/-- Without interruption the calls that make a directory do what `makeDirectories` does. -/
theorem of_make {paths : List String}
    (continues : Continues (tree.makeDirectories paths) calls after fault?) :
    Ends tree (.make paths :: calls) after fault? := by
  induction paths generalizing tree calls after fault? with
  | nil =>
    obtain ⟨rfl, rfl⟩ := continues
    exact .fails rfl
  | cons path outer inductionHypothesis =>
    rw [makeDirectories] at continues
    split at continues
    · exact .goesOn (if_pos ‹_›) continues
    · rename_i solid
      split at continues
      · rename_i made done
        have performed : (make (path :: outer)).perform tree = (made, .ok []) := by
          rw [perform, if_neg solid, done]
        exact .goesOn performed continues
      · rename_i missing
        refine .goesOn (by rw [perform, if_neg solid, missing]) (inductionHypothesis ?_)
        split at continues
        · rename_i next fault failed
          rw [failed]
          exact continues
        · rename_i next made
          rw [made]
          exact of_retry continues
      · rename_i fault other failed
        have performed : (make (path :: outer)).perform tree =
            (tree, .ok [confirm path fault]) := by
          rw [perform, if_neg solid, failed]
          cases fault <;> first | rfl | exact absurd rfl other
        exact .goesOn performed (of_confirm continues)

/-- Without interruption the calls of a plan do what the plan does. -/
theorem of_performAll (tree : FileTree) (changes : List Change) :
    Ends tree (changes.map ofChange) (Change.performAll tree changes).1
      (Change.performAll tree changes).2 := by
  induction changes generalizing tree with
  | nil => exact .done tree
  | cons change changes inductionHypothesis =>
    have continues : Continues (change.perform tree) (changes.map ofChange)
        (Change.performAll tree (change :: changes)).1
        (Change.performAll tree (change :: changes)).2 := by
      rw [Change.performAll]
      split
      · rename_i next performed
        rw [performed]
        exact inductionHypothesis next
      · rename_i next fault performed
        rw [performed]
        exact ⟨rfl, rfl⟩
    cases change with
    | directory path => exact of_make continues
    | file path content =>
      rw [Change.perform] at continues
      split at continues
      · rename_i written done
        have performed : (write path content).perform tree = (written, .ok []) := by
          rw [perform, done]
        exact .goesOn performed continues
      · rename_i fault failed
        obtain ⟨same, failedToo⟩ := continues
        rw [same, failedToo]
        exact .fails (by rw [ofChange, perform, failed])

end Ends

/-! ### Making a directory among others who do the same -/

/-- Whatever keeps an outer path from becoming a directory keeps a path in it from becoming one. -/
def Blocks (before : FileTree) (outer path : String) : Prop :=
  outer ≠ "" → ∀ fault, before.obstacle outer = some fault →
    Expects (before.Upright path) (before.obstacle path) fault ∧
      ∀ place ∈ before.way path, place ∈ before.way outer

/-- The calls that are left of making a directory, which began when the tree was as it was before,
and where the tree is as it is now. -/
inductive Making (before tree : FileTree) : String → List Call → Prop where
  | make {path : String} {outer : List String} (chain : Chain (path :: outer)) :
    Making before tree path [.make (path :: outer)]
  | inside {outer path : String} {calls : List Call} (encloses : Encloses outer path)
      (checked : checkPath path = .ok ()) (blocks : Blocks before outer path)
      (making : Making before tree outer calls) : Making before tree path (calls ++ [.retry path])
  | retry {outer path : String} (encloses : Encloses outer path)
      (checked : checkPath path = .ok ())
      (made : outer = "" ∨ tree.isDirectory outer = true) : Making before tree path [.retry path]
  | confirm {path : String} {fault : Fault} (solid : path ≠ "") (paved : before.Paved tree path)
      (cause : tree.isDirectory path = true ∨ before.obstacle path = some fault) :
    Making before tree path [.confirm path fault]

/-- A tree is another one, or has one more directory on the way of a path. -/
def MakesOnWay (before tree after : FileTree) (path : String) : Prop :=
  after = tree ∨ ∃ place ∈ before.way path, before.at? place = none ∧ place ≠ [] ∧
    after = tree.put place .directory

section Making

variable {before tree after : FileTree} {path outer : String} {call : Call} {calls more : List Call}
  {fault : Fault}

theorem Making.ne_nil (making : Making before tree path calls) : calls ≠ [] := by
  cases making <;> simp

theorem Making.keeps (making : Making before tree path calls) (keeps : tree.Keeps after) :
    Making before after path calls := by
  induction making with
  | make chain => exact .make chain
  | inside encloses checked blocks _ inductionHypothesis =>
    exact .inside encloses checked blocks inductionHypothesis
  | retry encloses checked made =>
    exact .retry encloses checked (made.imp_right (isDirectory_of_keeps keeps))
  | confirm solid paved cause =>
    exact .confirm solid (fun place member => keeps.directories place (paved place member))
      (cause.imp_left (isDirectory_of_keeps keeps))

/-- A call that fails while a directory is made tells of what was bound to keep it from being
made. -/
theorem Making.fails (reserves : before.Reserves tree path)
    (making : Making before tree path (call :: calls)) (refuses : Refuses tree call fault) :
    path ≠ "" ∧ Expects (before.Upright path) (before.obstacle path) fault ∧
      before.Paved tree path := by
  generalize whole : call :: calls = all at making
  induction making generalizing calls with
  | make chain =>
    obtain ⟨rfl, rfl⟩ := List.cons.inj whole
    exact nomatch refuses
  | @inside outer path inner encloses checked blocks making inductionHypothesis =>
    -- The call is one of the directory outside, whose fault this one inherits.
    obtain ⟨first, rest, form⟩ := List.exists_cons_of_ne_nil making.ne_nil
    rw [form, List.cons_append] at whole
    obtain ⟨rfl, rfl⟩ := List.cons.inj whole
    obtain ⟨solid, ⟨blurredSame, exact⟩, paved⟩ :=
      inductionHypothesis (encloses.reserves checked reserves) form.symm
    obtain ⟨other, blocked, sameBlurred⟩ := Option.map_eq_some_iff.mp blurredSame
    obtain ⟨⟨blurredToo, exactToo⟩, within⟩ := blocks solid other blocked
    refine ⟨?_, ⟨blurredToo.trans (congrArg some sameBlurred), fun upright => ?_⟩,
      fun place member => paved place (within place member)⟩
    · rintro rfl
      exact nomatch checked
    · obtain rfl := Option.some.inj (blocked.symm.trans (exact (encloses.upright upright)))
      exact exactToo upright
  | retry encloses checked made =>
    obtain ⟨rfl, rfl⟩ := List.cons.inj whole
    exact nomatch refuses
  | @confirm path other solid paved cause =>
    obtain ⟨rfl, rfl⟩ := List.cons.inj whole
    cases refuses with
    | confirm absent =>
      refine ⟨solid, .of_eq (cause.resolve_left ?_), paved⟩
      rw [absent]
      exact Bool.false_ne_true

/-- The root is never missing. -/
theorem obstacle_root (tree : FileTree) : tree.obstacle "/" = none := rfl

/-- When a directory before the last one is missing, those before it are made first. -/
theorem Making.of_missing (wellFormedBefore : before.WellFormed) {outer : List String}
    (chain : Chain (path :: outer)) (solid : path ≠ "")
    (missing : (∃ place ∈ before.passes path, before.at? place = none) ∨
      before.obstacle path = some .noEntry) :
    Making before tree path [.make outer, .retry path] := by
  have checked : checkPath path = .ok () := by
    rcases missing with ⟨place, member, _⟩ | noEntry
    · rw [passes] at member
      split at member
      · exact (canStart_iff.mp ‹_›).1
      · exact absurd member List.not_mem_nil
    · rw [obstacle, destination] at noEntry
      cases result : checkPath path with
      | ok _ => rfl
      | error fault =>
        rw [result] at noEntry
        exact absurd (result.trans (congrArg _ (Option.some.inj noEntry)))
          (checkPath_ne_noEntry solid)
  cases chain with
  | empty => exact absurd rfl solid
  | root =>
    rcases missing with ⟨place, member, _⟩ | noEntry
    · exact absurd member (by rw [passes]; split <;> exact List.not_mem_nil)
    · cases (obstacle_root before).symm.trans noEntry
  | cons encloses chain =>
    exact .inside encloses checked
      (fun solid _ blocked =>
        encloses.obstacle_of_missing solid checked wellFormedBefore missing blocked)
      (.make chain)

theorem makesOnWay_of_makeDirectory (grows : before.Grows tree) (wellFormed : tree.WellFormed)
    (reserves : before.Reserves tree path) {made : FileTree}
    (done : tree.makeDirectory path = .ok made) :
    MakesOnWay before tree made path ∧ made.WellFormed ∧ made.isDirectory path = true := by
  refine ⟨?_, makeDirectory_wellFormed wellFormed done, isDirectory_of_makeDirectory done⟩
  rcases reserves.makeDirectory_cases grows wellFormed with
    ⟨place, tried, inner, missing, member, _, _⟩ | ⟨tried, _⟩ | ⟨fault, tried, _⟩
  · exact Or.inr ⟨place, member, grows.at?_eq_none missing, inner,
      Except.ok.inj (done.symm.trans tried)⟩
  · exact nomatch done.symm.trans tried
  · exact nomatch done.symm.trans tried

/-- A directory that could not be made although none before it is missing is there, or never will
be. -/
theorem Making.of_error (grows : before.Grows tree) (wellFormed : tree.WellFormed)
    (reserves : before.Reserves tree path) (solid : path ≠ "")
    (failed : tree.makeDirectory path = .error fault)
    (complete : (∀ place ∈ before.passes path, tree.at? place = some .directory) ∨
      fault ≠ .noEntry) : Making before tree path [.confirm path fault] := by
  rcases reserves.makeDirectory_cases grows wellFormed with
    ⟨place, tried, _⟩ | ⟨tried, place, member, missing⟩ | ⟨other, tried, paved, cause⟩
  · exact nomatch failed.symm.trans tried
  · rcases complete with made | different
    · exact nomatch missing.symm.trans (made place member)
    · exact absurd (Except.error.inj (failed.symm.trans tried)) different
  · obtain rfl := Except.error.inj (failed.symm.trans tried)
    exact .confirm solid paved (cause.imp_left And.left)

/-- Once the path that encloses it is made, the way of a path is made. -/
theorem directories_of_outer (grows : before.Grows tree) (reserves : before.Reserves tree path)
    (encloses : Encloses outer path) (checked : checkPath path = .ok ())
    (made : outer = "" ∨ tree.isDirectory outer = true) :
    ∀ place ∈ before.passes path, tree.at? place = some .directory := by
  intro place member
  by_cases empty : outer = ""
  · subst empty
    exact grows.keeps.directories place (encloses.mem_passes_of_empty member)
  · have directory := made.resolve_left empty
    exact (((encloses.reserves checked reserves).isDirectory_iff grows).mp directory).2 place
      ((encloses.mem_passes_iff empty checked).mp member)

theorem MakesOnWay.of_outer (encloses : Encloses outer path) (checked : checkPath path = .ok ())
    (opens : MakesOnWay before tree after outer) : MakesOnWay before tree after path := by
  refine opens.imp_right fun ⟨place, member, rest⟩ => ⟨place, ?_, rest⟩
  by_cases empty : outer = ""
  · subst empty
    rw [way_of_checkPath_error rfl] at member
    exact absurd member List.not_mem_nil
  · exact mem_way_of_mem_passes ((encloses.mem_passes_iff empty checked).mpr member)

/-- When a directory cannot be made because something before it is missing, this was missing from
the start or will never be there. -/
theorem missing_of_noEntry (grows : before.Grows tree) (wellFormed : tree.WellFormed)
    (reserves : before.Reserves tree path)
    (failed : tree.makeDirectory path = .error .noEntry) :
    (∃ place ∈ before.passes path, before.at? place = none) ∨
      before.obstacle path = some .noEntry := by
  rcases reserves.makeDirectory_cases grows wellFormed with
    ⟨place, tried, _⟩ | ⟨_, place, member, missing⟩ | ⟨fault, tried, _, cause⟩
  · exact nomatch failed.symm.trans tried
  · exact Or.inl ⟨place, member, grows.at?_eq_none missing⟩
  · obtain rfl := Except.error.inj (failed.symm.trans tried)
    exact Or.inr (cause.resolve_left fun there => nomatch there.2)

/-- A call that is carried out while a directory is made leaves it being made, or made. -/
theorem Making.goesOn (wellFormedBefore : before.WellFormed) (grows : before.Grows tree)
    (wellFormed : tree.WellFormed) (reserves : before.Reserves tree path)
    (making : Making before tree path (call :: calls)) (succeeds : Succeeds tree call after more) :
    MakesOnWay before tree after path ∧ after.WellFormed ∧
      (Making before after path (more ++ calls) ∨
        more ++ calls = [] ∧ (path = "" ∨ after.isDirectory path = true)) := by
  generalize whole : call :: calls = all at making
  induction making generalizing calls with
  | @make path outer chain =>
    obtain ⟨rfl, rfl⟩ := List.cons.inj whole
    cases succeeds with
    | empty => exact ⟨Or.inl rfl, wellFormed, Or.inr ⟨rfl, Or.inl rfl⟩⟩
    | made solid done =>
      obtain ⟨opens, wellFormedAfter, there⟩ :=
        makesOnWay_of_makeDirectory grows wellFormed reserves done
      exact ⟨opens, wellFormedAfter, Or.inr ⟨rfl, Or.inr there⟩⟩
    | missing solid failed =>
      exact ⟨Or.inl rfl, wellFormed, Or.inl (.of_missing wellFormedBefore chain solid
        (missing_of_noEntry grows wellFormed reserves failed))⟩
    | refused solid failed other =>
      exact ⟨Or.inl rfl, wellFormed, Or.inl (.of_error grows wellFormed reserves solid failed
        (Or.inr other))⟩
  | @inside outer path inner encloses checked blocks making inductionHypothesis =>
    obtain ⟨first, rest, form⟩ := List.exists_cons_of_ne_nil making.ne_nil
    rw [form, List.cons_append] at whole
    obtain ⟨rfl, rfl⟩ := List.cons.inj whole
    obtain ⟨opens, wellFormedAfter, later⟩ :=
      inductionHypothesis (encloses.reserves checked reserves) form.symm
    refine ⟨opens.of_outer encloses checked, wellFormedAfter, Or.inl ?_⟩
    rw [← List.append_assoc]
    rcases later with making | ⟨none, made⟩
    · exact .inside encloses checked blocks making
    · rw [none]
      exact .retry encloses checked made
  | @retry outer path encloses checked made =>
    obtain ⟨rfl, rfl⟩ := List.cons.inj whole
    cases succeeds with
    | retried done =>
      obtain ⟨opens, wellFormedAfter, there⟩ :=
        makesOnWay_of_makeDirectory grows wellFormed reserves done
      exact ⟨opens, wellFormedAfter, Or.inr ⟨rfl, Or.inr there⟩⟩
    | again failed =>
      have solid : path ≠ "" := by
        rintro rfl
        exact nomatch checked
      exact ⟨Or.inl rfl, wellFormed, Or.inl (.of_error grows wellFormed reserves solid failed
        (Or.inl (directories_of_outer grows reserves encloses checked made)))⟩
  | confirm solid paved cause =>
    obtain ⟨rfl, rfl⟩ := List.cons.inj whole
    cases succeeds with
    | confirmed there => exact ⟨Or.inl rfl, wellFormed, Or.inr ⟨rfl, Or.inr there⟩⟩

end Making

end Call

end EngineDocs
