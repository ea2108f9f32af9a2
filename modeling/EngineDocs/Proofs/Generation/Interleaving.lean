/-
This file shows that it does not matter in which order workers take their turns. Each worker comes
as far in its plan as the tree at the start lets it, whatever the others do in the meantime, so all
schedules that come to an end leave the same tree, the same results in the order of the modules,
and the same counters as rendering one module after another.

There is one exception. When the output path goes up out of a directory that is missing, a file may
stand behind the way up. The worker that makes the missing directory finds the file there, while
those that come later find it before they begin; so they fail in any order, but not at the same
fault.
-/

import EngineDocs.Proofs.FileTree.Same
import EngineDocs.Proofs.Generation.ModulePlans
import EngineDocs.Proofs.Generation.Pool

namespace EngineDocs.Generation

open FileTree
open Headers (descend)

namespace Pool

/-! ### What every turn preserves -/

/-- A worker is where its plan lets it be. -/
def Stands (before tree : FileTree) (changes : List Change) : Worker → Prop
  | .writing calls => Stage before tree changes calls
  | .counting fault? _ => EndsWith before tree changes fault?

/-- The counters that a worker has still to change. -/
def toCome (before : FileTree) (plan : Fingerprinted → List Change)
    (entry : Fingerprinted × Worker) : List Progress.Addition :=
  match entry.2 with
  | .writing _ => (renderEvent (entry.1, boundFault before (plan entry.1))).additions
  | .counting _ additions => additions

/-- All that the workers of a pool will have changed in the end. -/
def allAdditions (before : FileTree) (plan : Fingerprinted → List Change)
    (pending : List Fingerprinted) : List Progress.Addition :=
  pending.flatMap fun candidate =>
    (renderEvent (candidate, boundFault before (plan candidate))).additions

/-- The results of workers, without what depends on who came first to a missing directory out of
which the output path goes up. -/
def blur (rendered : Rendered) : Rendered := rendered.map (Prod.map id (Option.map blurred))

/-- What holds of a pool at any time. -/
structure Sound (before : FileTree) (plan : Fingerprinted → List Change)
    (pending : List Fingerprinted) (pool : Pool) : Prop where
  candidates : pool.workers.map Prod.fst = pending
  between : Between before (pending.map plan) pool.tree
  stands : ∀ entry ∈ pool.workers, Stands before pool.tree (plan entry.1) entry.2
  counted : ∃ made,
    pool.progress = made.foldl Progress.add (Progress.record {} (.start "Rendering")) ∧
      (made ++ pool.workers.flatMap (toCome before plan)).Perm (allAdditions before plan pending)

section Sound

variable {before tree after : FileTree} {plan : Fingerprinted → List Change}
  {pending : List Fingerprinted} {pool : Pool} {progress : Progress}
  {front back : List (Fingerprinted × Worker)} {candidate : Fingerprinted} {worker next : Worker}

theorem sound_start (wellFormed : before.WellFormed) :
    Sound before plan pending (start plan before pending) where
  candidates := by
    rw [start, List.map_map]
    exact List.map_id _
  between := .refl wellFormed _
  stands entry member := by
    obtain ⟨candidate, _, rfl⟩ := List.mem_map.mp member
    exact Stage.start before (plan candidate)
  counted := by
    refine ⟨[], rfl, ?_⟩
    rw [start, List.flatMap_map]
    exact .refl _

theorem Stands.advances (compatible : Compatible before (pending.map plan))
    (between : Between before (pending.map plan) tree) (member : candidate ∈ pending)
    (stands : Stands before tree (plan candidate) worker)
    (advances : Advances before (pending.map plan) tree after) :
    Stands before after (plan candidate) worker := by
  have listed : plan candidate ∈ pending.map plan := List.mem_map_of_mem member
  cases worker with
  | writing calls => exact Stage.advances compatible between listed stands advances
  | counting fault? additions => exact EndsWith.advances compatible listed stands advances

/-- A turn keeps a pool sound when it does so with the worker whose turn it is. -/
theorem Sound.replace (compatible : Compatible before (pending.map plan))
    (sound : Sound before plan pending ⟨tree, progress, front ++ (candidate, worker) :: back⟩)
    (advances : Advances before (pending.map plan) tree after) (wellFormed : after.WellFormed)
    (stands : Stands before after (plan candidate) next) (added : List Progress.Addition)
    (came : toCome before plan (candidate, worker) =
      added ++ toCome before plan (candidate, next)) :
    Sound before plan pending
      ⟨after, added.foldl Progress.add progress, front ++ (candidate, next) :: back⟩ where
  candidates := by
    rw [← sound.candidates, List.map_append, List.map_append]
    rfl
  between := sound.between.advances advances wellFormed
  stands entry member := by
    have others : ∀ entry ∈ front ++ back, Stands before after (plan entry.1) entry.2 := by
      intro entry member
      have listed : entry ∈ front ++ (candidate, worker) :: back := by
        rw [List.mem_append] at member ⊢
        exact member.imp_right (List.mem_cons_of_mem _)
      have known : entry.1 ∈ pending := sound.candidates ▸ List.mem_map_of_mem listed
      exact (sound.stands entry listed).advances compatible sound.between known advances
    rcases List.mem_append.mp member with earlier | later
    · exact others entry (List.mem_append_left _ earlier)
    · rcases List.mem_cons.mp later with rfl | later
      · exact stands
      · exact others entry (List.mem_append_right _ later)
  counted := by
    -- What the worker has added moves from the changes to come to those that were made.
    obtain ⟨made, counts, perm⟩ := sound.counted
    refine ⟨made ++ added, ?_, ?_⟩
    · rw [List.foldl_append, ← counts]
    · refine .trans ?_ perm
      simp only [List.flatMap_append, List.flatMap_cons, came, List.append_assoc]
      refine .append_left made ?_
      rw [← List.append_assoc, ← List.append_assoc (front.flatMap _)]
      exact .append_right _ List.perm_append_comm

theorem renderEvent_congr {fault? other? : Option Fault}
    (same : fault?.map blurred = other?.map blurred) :
    renderEvent (candidate, fault?) = renderEvent (candidate, other?) := by
  cases fault? <;> cases other? <;> first | rfl | exact nomatch same

/-- When a plan ends as it was bound to, its worker goes on to count what it was to count. -/
theorem toCome_of_endsWith {calls : List Call} {fault? : Option Fault}
    (ends : EndsWith before tree (plan candidate) fault?) :
    toCome before plan (candidate, .writing calls) =
      toCome before plan (candidate, .counting fault?
        (renderEvent (candidate, fault?)).additions) :=
  congrArg Progress.Event.additions (renderEvent_congr ends.boundFault_eq.1)

/-- A worker whose plan ends goes on to count its module. -/
theorem Sound.ends (compatible : Compatible before (pending.map plan)) {calls : List Call}
    (sound : Sound before plan pending
      ⟨tree, progress, front ++ (candidate, .writing calls) :: back⟩) {fault? : Option Fault}
    (ends : EndsWith before tree (plan candidate) fault?) :
    Sound before plan pending ⟨tree, progress, front ++ (candidate,
      .counting fault? (renderEvent (candidate, fault?)).additions) :: back⟩ := by
  have stands : Stands before tree (plan candidate)
      (.counting fault? (renderEvent (candidate, fault?)).additions) := ends
  exact sound.replace compatible (Or.inl rfl) sound.between.wellFormed stands []
    (toCome_of_endsWith ends)

theorem Sound.advance (wellFormed : before.WellFormed)
    (compatible : Compatible before (pending.map plan)) (sound : Sound before plan pending pool)
    (number : Nat) : Sound before plan pending (pool.advance number) := by
  rcases pool.advance_cases number with same | ⟨front, candidate, worker, back, whole, turn⟩
  · rw [same]
    exact sound
  obtain ⟨tree, progress, workers⟩ := pool
  dsimp only at whole turn
  subst whole
  rw [turn]
  have member : plan candidate ∈ pending.map plan := by
    rw [← sound.candidates]
    exact List.mem_map_of_mem
      (List.mem_map_of_mem (List.mem_append_right _ List.mem_cons_self))
  have stands : Stands before tree (plan candidate) worker :=
    sound.stands _ (List.mem_append_right _ List.mem_cons_self)
  cases worker with
  | writing calls =>
    cases calls with
    | nil =>
      have ends : EndsWith before tree (plan candidate) none := Stage.settled_of_nil stands
      exact sound.ends compatible ends
    | cons call calls =>
      rw [Worker.advance]
      cases performed : call.perform tree with
      | mk after result =>
        cases result with
        | ok more =>
          obtain ⟨advances, wellFormedAfter, stage⟩ :=
            Stage.goesOn wellFormed compatible sound.between member stands
              (Call.succeeds_of_perform performed)
          have standsAfter : Stands before after (plan candidate) (.writing (more ++ calls)) :=
            stage
          exact sound.replace compatible advances wellFormedAfter standsAfter [] rfl
        | error fault =>
          obtain ⟨rfl, refuses⟩ := Call.refuses_of_perform performed
          have ends : EndsWith before after (plan candidate) (some fault) :=
            Stage.fails compatible sound.between member stands refuses
          exact sound.ends compatible ends
  | counting fault? additions =>
    cases additions with
    | nil => exact sound
    | cons addition additions =>
      have standsAfter : Stands before tree (plan candidate) (.counting fault? additions) := stands
      exact sound.replace compatible (Or.inl rfl) sound.between.wellFormed standsAfter
        [addition] rfl

theorem Sound.run (wellFormed : before.WellFormed)
    (compatible : Compatible before (pending.map plan)) (schedule : List Nat) :
    Sound before plan pending ((start plan before pending).run schedule) :=
  run_induction (fun _ number sound => sound.advance wellFormed compatible number)
    (sound_start wellFormed) schedule

/-! ### Pools that have finished -/

theorem Sound.endsWith (sound : Sound before plan pending pool) (finished : pool.Finished)
    {entry : Fingerprinted × Worker} (member : entry ∈ pool.workers) :
    EndsWith before pool.tree (plan entry.1) entry.2.fault? ∧ toCome before plan entry = [] := by
  have stands := sound.stands entry member
  have done := finished entry member
  obtain ⟨candidate, worker⟩ := entry
  cases worker with
  | writing calls => exact nomatch done
  | counting fault? additions =>
    cases additions with
    | nil => exact ⟨stands, rfl⟩
    | cons addition additions => exact nomatch done

theorem Sound.exists_endsWith (sound : Sound before plan pending pool)
    (finished : pool.Finished) :
    ∀ changes ∈ pending.map plan, ∃ fault?, EndsWith before pool.tree changes fault? := by
  intro changes member
  obtain ⟨candidate, known, rfl⟩ := List.mem_map.mp member
  rw [← sound.candidates] at known
  obtain ⟨entry, listed, rfl⟩ := List.mem_map.mp known
  exact ⟨_, (sound.endsWith finished listed).1⟩

/-- The modules fail that were bound to. -/
theorem Sound.blur_rendered (sound : Sound before plan pending pool) (finished : pool.Finished) :
    blur pool.rendered = pending.map fun candidate =>
      (candidate, (boundFault before (plan candidate)).map blurred) := by
  rw [blur, rendered, List.map_map, ← sound.candidates, List.map_map]
  refine List.map_congr_left fun entry member => ?_
  exact congrArg (Prod.mk entry.1) (sound.endsWith finished member).1.boundFault_eq.1.symm

/-- They fail at the faults at which they were bound to when no path goes up out of a missing
directory. -/
theorem Sound.rendered_eq (sound : Sound before plan pending pool) (finished : pool.Finished)
    (upright : ∀ candidate ∈ pending, ∀ change ∈ plan candidate, change.Upright before) :
    pool.rendered = pending.map fun candidate =>
      (candidate, boundFault before (plan candidate)) := by
  rw [rendered, ← sound.candidates, List.map_map]
  refine List.map_congr_left fun entry member => ?_
  have known : entry.1 ∈ pending := sound.candidates ▸ List.mem_map_of_mem member
  exact congrArg (Prod.mk entry.1)
    ((sound.endsWith finished member).1.boundFault_eq.2 (upright entry.1 known)).symm

theorem Sound.progress_eq (sound : Sound before plan pending pool) (finished : pool.Finished) :
    pool.progress = (allAdditions before plan pending).foldl Progress.add
      (Progress.record {} (.start "Rendering")) := by
  obtain ⟨made, counts, perm⟩ := sound.counted
  have nothing : pool.workers.flatMap (toCome before plan) = [] :=
    List.flatMap_eq_nil_iff.mpr fun entry member => (sound.endsWith finished member).2
  rw [nothing, List.append_nil] at perm
  rw [counts]
  exact Progress.foldl_add_perm _ perm

/-- Two pools that have finished, after whichever schedules, are the same but for the faults of
modules whose paths go up out of a missing directory. -/
theorem Sound.unique (sound : Sound before plan pending pool) (finished : pool.Finished)
    {other : Pool} (soundToo : Sound before plan pending other) (finishedToo : other.Finished) :
    pool.tree.Same other.tree ∧ pool.progress = other.progress ∧
      blur pool.rendered = blur other.rendered ∧
      ((∀ candidate ∈ pending, ∀ change ∈ plan candidate, change.Upright before) →
        pool.rendered = other.rendered) := by
  refine ⟨⟨?_, ?_, ?_⟩, ?_, ?_, fun upright => ?_⟩
  · rw [sound.between.workingDirectory, soundToo.between.workingDirectory]
  · rw [sound.between.restrictions, soundToo.between.restrictions]
  · exact at?_eq_of_endsWith sound.between soundToo.between (sound.exists_endsWith finished)
      (soundToo.exists_endsWith finishedToo)
  · rw [sound.progress_eq finished, soundToo.progress_eq finishedToo]
  · rw [sound.blur_rendered finished, soundToo.blur_rendered finishedToo]
  · rw [sound.rendered_eq finished upright, soundToo.rendered_eq finishedToo upright]

end Sound

end Pool

/-! ### The end of the stage -/

/-- The warnings of the modules that could not be rendered. -/
def faultWarnings (rendered : Rendered) : List String :=
  rendered.filterMap fun (candidate, fault) => fault.map (renderWarning candidate.1.name)

/-- A warning tells the name of a module and the fault, and nothing else. -/
theorem faultWarnings_eq (rendered : Rendered) :
    faultWarnings rendered = (rendered.map fun result => (result.1.1.name, result.2)).filterMap
      fun result => result.2.map (renderWarning result.1) := by
  rw [faultWarnings, List.filterMap_map]
  rfl

/-- What is done once all workers are done: the fingerprints of the modules that were rendered are
noted and saved, and the report gets the totals and the warnings. -/
def conclude (settings : Settings) (clock : Clock) (store : FingerprintStore)
    (unchanged : List Fingerprinted) (report : Report) (tree : FileTree) (progress : Progress)
    (rendered : Rendered) : FileTree × Report :=
  let written := (rendered.filter (·.2.isNone)).map Prod.fst
  let (tree, saveWarnings) :=
    saveFingerprints settings (recordAll store (unchanged ++ written)) tree
  (tree, { report with
    modulesUnchanged := unchanged.length
    modulesRendered := written.length
    stages := report.stages ++ [progress.finish clock.rendering]
    warnings := report.warnings ++ faultWarnings rendered ++ saveWarnings })

theorem saveFingerprints_same (settings : Settings) (store : FingerprintStore)
    {first second : FileTree} (same : first.Same second) :
    (saveFingerprints settings store first).1.Same (saveFingerprints settings store second).1 ∧
      (saveFingerprints settings store first).2 = (saveFingerprints settings store second).2 := by
  rw [saveFingerprints, saveFingerprints]
  split
  · have ends := Change.performAll_same same store.changes
    generalize Change.performAll first store.changes = one at *
    generalize Change.performAll second store.changes = other at *
    obtain ⟨tree, fault?⟩ := one
    obtain ⟨treeToo, _⟩ := other
    obtain ⟨sameAfter, rfl⟩ := ends
    cases fault? <;> exact ⟨sameAfter, rfl⟩
  · exact ⟨same, rfl⟩

section Blur

variable {rendered other : Rendered}

/-- Which modules were rendered does not depend on the faults of the others. -/
theorem map_fst_filter_congr (same : Pool.blur rendered = Pool.blur other) :
    (rendered.filter (·.2.isNone)).map Prod.fst = (other.filter (·.2.isNone)).map Prod.fst := by
  have told : ∀ rendered : Rendered, (rendered.filter (·.2.isNone)).map Prod.fst =
      ((Pool.blur rendered).filter (·.2.isNone)).map Prod.fst := by
    intro rendered
    rw [Pool.blur, List.filter_map, List.map_map]
    refine congrArg _ (List.filter_congr fun result _ => ?_)
    exact (Option.isNone_map).symm
  rw [told, same, ← told]

/-- Neither does the number of warnings. -/
theorem length_faultWarnings_congr (same : Pool.blur rendered = Pool.blur other) :
    (faultWarnings rendered).length = (faultWarnings other).length := by
  have told : ∀ rendered : Rendered,
      (faultWarnings rendered).length = (Pool.blur rendered).countP (·.2.isSome) := by
    intro rendered
    rw [faultWarnings, List.length_filterMap_eq_countP, Pool.blur, List.countP_map]
    refine List.countP_congr fun result _ => ?_
    rw [Option.isSome_map, Function.comp_apply, Prod.map_snd, Option.isSome_map]
  rw [told, same, ← told]

end Blur

/-- A pool ends as something else does: in the same tree, with the same counters, and with the same
results, so that the same fingerprints are saved and the same is reported. The wording of warnings
is the same when the output path goes up out of no missing directory. -/
structure EndsAs (settings : Settings) (clock : Clock) (before : FileTree) (pool : Pool)
    (after : FileTree) (progress : Progress) (rendered : Rendered) : Prop where
  sameTree : pool.tree.Same after
  sameProgress : pool.progress = progress
  sameResults : Pool.blur pool.rendered = Pool.blur rendered
  sameConclusion : ∀ store unchanged report,
    let one := conclude settings clock store unchanged report pool.tree pool.progress pool.rendered
    let other := conclude settings clock store unchanged report after progress rendered
    one.1.Same other.1 ∧ { one.2 with warnings := [] } = { other.2 with warnings := [] } ∧
      one.2.warnings.length = other.2.warnings.length
  sameWording : before.Upright settings.outputDir → pool.rendered = rendered ∧
    ∀ store unchanged report,
      (conclude settings clock store unchanged report pool.tree pool.progress pool.rendered).2 =
        (conclude settings clock store unchanged report after progress rendered).2

theorem endsAs_of_same {settings : Settings} {clock : Clock} {before after : FileTree} {pool : Pool}
    {progress : Progress} {rendered : Rendered} (same : pool.tree.Same after)
    (counts : pool.progress = progress) (results : Pool.blur pool.rendered = Pool.blur rendered)
    (wording : before.Upright settings.outputDir → pool.rendered = rendered) :
    EndsAs settings clock before pool after progress rendered where
  sameTree := same
  sameProgress := counts
  sameResults := results
  sameConclusion store unchanged report := by
    obtain ⟨saved, warned⟩ := saveFingerprints_same settings (recordAll store (unchanged ++
      (rendered.filter (·.2.isNone)).map Prod.fst)) same
    simp only [conclude, counts, map_fst_filter_congr results]
    refine ⟨saved, trivial, ?_⟩
    rw [List.length_append, List.length_append, length_faultWarnings_congr results, warned,
      ← List.length_append, ← List.length_append]
  sameWording upright := by
    refine ⟨wording upright, fun store unchanged report => ?_⟩
    obtain ⟨_, warned⟩ := saveFingerprints_same settings (recordAll store (unchanged ++
      (rendered.filter (·.2.isNone)).map Prod.fst)) same
    simp only [conclude, counts, wording upright, warned]

/-- Once all workers are done, all is as if the modules had been rendered one after another. -/
theorem endsAs_renderAll (settings : Settings) (clock : Clock) {before : FileTree}
    (wellFormed : before.WellFormed) {pending : List Fingerprinted}
    (areNames : ∀ candidate ∈ pending, Path.IsName candidate.1.name)
    (distinct : (pending.map (·.1.name)).Nodup) (schedule : List Nat) :
    let plan := fun candidate : Fingerprinted =>
      moduleChanges settings (edition settings clock) candidate.1
    let pool := (Pool.start plan before pending).run schedule
    let sequential := renderAll settings (edition settings clock) before pending
    pool.Finished → EndsAs settings clock before pool sequential.1
      ((sequential.2.map renderEvent).foldl Progress.record
        (Progress.record {} (.start "Rendering")))
      sequential.2 := by
  intro plan pool sequential finished
  have compatible : Compatible before (pending.map plan) :=
    compatible_moduleChanges areNames distinct
  obtain ⟨inOrder, runs⟩ := Pool.exists_run_eq_renderAll settings (edition settings clock) before
    (Progress.record {} (.start "Rendering")) [] pending
  have runsInOrder : (Pool.start plan before pending).run inOrder = _ := runs
  have soundToo := Pool.Sound.run wellFormed compatible inOrder
  have finishedToo : ((Pool.start plan before pending).run inOrder).Finished := by
    rw [runsInOrder]
    intro entry member
    obtain ⟨_, _, rfl⟩ := List.mem_map.mp member
    rfl
  have inOrderToo : ((Pool.start plan before pending).run inOrder).rendered = sequential.2 := by
    rw [runsInOrder, Pool.rendered, List.nil_append, List.map_map]
    exact List.map_id _
  obtain ⟨same, counts, results, wording⟩ :=
    (Pool.Sound.run wellFormed compatible schedule).unique finished soundToo finishedToo
  rw [inOrderToo] at results wording
  rw [runsInOrder] at same counts
  refine endsAs_of_same same counts results fun upright => wording fun candidate known => ?_
  exact upright_moduleChanges upright (areNames candidate known)

/-- Workers may take their turns in any order. Whatever turns they have had, they can go on until
all are done; and then all is as if the modules had been rendered one after another. -/
theorem schedules_agree (settings : Settings) (clock : Clock) {before : FileTree}
    (wellFormed : before.WellFormed) {pending : List Fingerprinted}
    (areNames : ∀ candidate ∈ pending, Path.IsName candidate.1.name)
    (distinct : (pending.map (·.1.name)).Nodup) (schedule : List Nat) :
    let plan := fun candidate : Fingerprinted =>
      moduleChanges settings (edition settings clock) candidate.1
    let pool := (Pool.start plan before pending).run schedule
    let sequential := renderAll settings (edition settings clock) before pending
    (∃ rest, (pool.run rest).Finished) ∧
      (pool.Finished → EndsAs settings clock before pool sequential.1
        ((sequential.2.map renderEvent).foldl Progress.record
          (Progress.record {} (.start "Rendering")))
        sequential.2) := by
  intro plan pool sequential
  exact ⟨pool.exists_finished,
    endsAs_renderAll settings clock wellFormed areNames distinct schedule⟩

/-- A disk on which a file stands where the pages of a module should go. -/
def blockedDisk : FileTree :=
  (Change.performAll {} [.directory "o/modules", .file "o/modules/N" ""]).1

/-- Two modules that are rendered on that disk. -/
def twoModules : List Fingerprinted := [(smallModule "A" "M", "m"), (smallModule "B" "N", "n")]

/-- A schedule in which two workers take turns. -/
def inTurns (rounds : Nat) : List Nat := (List.replicate rounds [0, 1]).flatten

theorem schedules_agree_inTurns :
    let settings := smallSettings "1" [.markdown, .json] true
    let plan := fun candidate : Fingerprinted =>
      moduleChanges settings (edition settings stillClock) candidate.1
    let pool := (Pool.start plan blockedDisk twoModules).run (inTurns 20)
    let sequential := renderAll settings (edition settings stillClock) blockedDisk twoModules
    blockedDisk.WellFormed ∧ (∀ candidate ∈ twoModules, Path.IsName candidate.1.name) ∧
      (twoModules.map (·.1.name)).Nodup ∧ pool.Finished ∧
      EndsAs settings stillClock blockedDisk pool sequential.1
        ((sequential.2.map renderEvent).foldl Progress.record
          (Progress.record {} (.start "Rendering")))
        sequential.2 ∧
      pool.rendered.map Prod.snd = [none, some .alreadyExists] := by
  intro settings plan pool sequential
  have wellFormed : blockedDisk.WellFormed := Change.performAll_wellFormed .empty _
  have areNames : ∀ candidate ∈ twoModules, Path.IsName candidate.1.name := by decide
  have distinct : (twoModules.map (·.1.name)).Nodup := by decide
  have ends : pool.Finished ∧ pool.rendered.map Prod.snd = [none, some .alreadyExists] := by
    decide +kernel
  obtain ⟨finished, results⟩ := ends
  exact ⟨wellFormed, areNames, distinct, finished,
    (schedules_agree settings stillClock wellFormed areNames distinct (inTurns 20)).2 finished,
    results⟩

/-- The wording does depend on the schedule when the output path goes up out of a missing directory
and a file stands behind the way up. -/
theorem wording_differs_on_detour :
    let settings := { smallSettings "1" [.markdown, .json] true with outputDir := "m/../o" }
    let plan := fun candidate : Fingerprinted =>
      moduleChanges settings (edition settings stillClock) candidate.1
    let disk := (Change.performAll {} [.directory "o", .file "o/modules" ""]).1
    let pool := (Pool.start plan disk twoModules).run (List.replicate 30 1 ++ List.replicate 30 0)
    let sequential := renderAll settings (edition settings stillClock) disk twoModules
    disk.WellFormed ∧ (∀ candidate ∈ twoModules, Path.IsName candidate.1.name) ∧
      (twoModules.map (·.1.name)).Nodup ∧ pool.Finished ∧
      faultWarnings sequential.2 =
        [renderWarning "M" .alreadyExists, renderWarning "N" .notDirectory] ∧
      faultWarnings pool.rendered =
        [renderWarning "M" .notDirectory, renderWarning "N" .alreadyExists] ∧
      faultWarnings pool.rendered ≠ faultWarnings sequential.2 := by
  intro settings plan disk pool sequential
  have ends : pool.Finished ∧
      sequential.2.map (fun result => (result.1.1.name, result.2)) =
        [("M", some .alreadyExists), ("N", some .notDirectory)] ∧
      pool.rendered.map (fun result => (result.1.1.name, result.2)) =
        [("M", some .notDirectory), ("N", some .alreadyExists)] := by
    decide +kernel
  obtain ⟨finished, inOrder, otherwise⟩ := ends
  have warnings : faultWarnings sequential.2 =
      [renderWarning "M" .alreadyExists, renderWarning "N" .notDirectory] := by
    rw [faultWarnings_eq, inOrder]
    rfl
  have warningsToo : faultWarnings pool.rendered =
      [renderWarning "M" .notDirectory, renderWarning "N" .alreadyExists] := by
    rw [faultWarnings_eq, otherwise]
    rfl
  have different : renderWarning "M" .notDirectory ≠ renderWarning "M" .alreadyExists := by
    decide +kernel
  refine ⟨Change.performAll_wellFormed .empty _, by decide, by decide, finished, warnings,
    warningsToo, fun same => different ?_⟩
  exact (List.cons.inj (warningsToo.symm.trans (same.trans warnings))).1

/-! ### The whole stage -/

/-- The stage is a pool whose workers are done one after another, and what is done then. -/
theorem renderModules_eq_conclude (settings : Settings) (clock : Clock) (modules : List ModuleData)
    (report : Report) (tree : FileTree) :
    renderModules settings clock modules report tree =
      let store := openedStore settings tree
      let candidates := modules.map fun data => (data, data.fingerprint)
      let sequential := renderAll settings (edition settings clock) tree
        (candidates.filter fun candidate => !isCurrent settings tree store candidate)
      conclude settings clock store (candidates.filter (isCurrent settings tree store)) report
        sequential.1
        ((sequential.2.map renderEvent).foldl Progress.record
          (Progress.record {} (.start "Rendering")))
        sequential.2 := rfl

/-- However the workers of the stage take turns, it ends as if they were done one after another: in
the same tree and with the same report, up to the wording of warnings when the output path goes up
out of a missing directory. -/
theorem conclude_eq_renderModules (settings : Settings) (clock : Clock) {tree : FileTree}
    (wellFormed : tree.WellFormed) {modules : List ModuleData}
    (areNames : ∀ data ∈ modules, Path.IsName data.name)
    (distinct : (modules.map (·.name)).Nodup) (report : Report) (schedule : List Nat) :
    let store := openedStore settings tree
    let candidates := modules.map fun data => (data, data.fingerprint)
    let plan := fun candidate : Fingerprinted =>
      moduleChanges settings (edition settings clock) candidate.1
    let pool := (Pool.start plan tree
      (candidates.filter fun candidate => !isCurrent settings tree store candidate)).run schedule
    let concluded := conclude settings clock store
      (candidates.filter (isCurrent settings tree store)) report pool.tree pool.progress pool.rendered
    let sequential := renderModules settings clock modules report tree
    pool.Finished →
      concluded.1.Same sequential.1 ∧
        { concluded.2 with warnings := [] } = { sequential.2 with warnings := [] } ∧
        concluded.2.warnings.length = sequential.2.warnings.length ∧
        (tree.Upright settings.outputDir → concluded.2 = sequential.2) := by
  intro store candidates plan pool concluded sequential finished
  have named : candidates.map (·.1.name) = modules.map (·.name) := by
    rw [List.map_map]
    rfl
  have areNamesToo : ∀ candidate ∈ candidates.filter fun candidate =>
      !isCurrent settings tree store candidate, Path.IsName candidate.1.name := by
    intro candidate member
    obtain ⟨data, listed, rfl⟩ := List.mem_map.mp (List.mem_of_mem_filter member)
    exact areNames data listed
  have distinctToo : ((candidates.filter fun candidate =>
      !isCurrent settings tree store candidate).map (·.1.name)).Nodup := by
    refine List.Nodup.sublist (List.filter_sublist.map _) ?_
    rw [named]
    exact distinct
  have ends := endsAs_renderAll settings clock wellFormed areNamesToo distinctToo schedule finished
  have whole : sequential = _ := renderModules_eq_conclude settings clock modules report tree
  rw [whole]
  obtain ⟨same, told, counted⟩ := ends.sameConclusion store
    (candidates.filter (isCurrent settings tree store)) report
  exact ⟨same, told, counted, fun upright => (ends.sameWording upright).2 store _ report⟩

end EngineDocs.Generation
