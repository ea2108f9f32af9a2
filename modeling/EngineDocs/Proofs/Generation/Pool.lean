/-
This file holds the workers that write the documents of modules at the same time. There is one for
each module, and a schedule says whose turn it is: the worker makes one call on the disk, or changes
one of the counters, which all share with the tree. So whatever a pool of fewer threads does is the
same as some schedule. Writing the documents of one module after another is a schedule too, and
every schedule can be continued until all workers are done.
-/

import EngineDocs.Proofs.FileTree.Calls
import EngineDocs.Proofs.Generation.Balance

namespace EngineDocs.Generation

/-- A worker writes the documents of a module, and when that is over counts the module. -/
inductive Worker where
  /-- The calls on the disk that are left. -/
  | writing (calls : List Call)
  /-- The fault that ended the writing, and the counters that are left to be changed. -/
  | counting (fault? : Option Fault) (additions : List Progress.Addition)
  deriving DecidableEq

namespace Worker

/-- What one turn of a worker does to the tree, to the counters and to the worker. -/
def advance (candidate : Fingerprinted) (tree : FileTree) (progress : Progress) :
    Worker → FileTree × Progress × Worker
  | writing [] => (tree, progress, counting none (renderEvent (candidate, none)).additions)
  | writing (call :: calls) =>
    match call.perform tree with
    | (tree, .ok more) => (tree, progress, writing (more ++ calls))
    | (tree, .error fault) =>
      (tree, progress, counting (some fault) (renderEvent (candidate, some fault)).additions)
  | counting fault? [] => (tree, progress, counting fault? [])
  | counting fault? (addition :: additions) =>
    (tree, progress.add addition, counting fault? additions)

/-- The fault that ended the writing of a worker. -/
def fault? : Worker → Option Fault
  | writing _ => none
  | counting fault? _ => fault?

/-- How many turns a worker can still use, at most. -/
def weight : Worker → Nat
  | writing calls => (calls.map Call.weight).sum + 3
  | counting _ additions => additions.length

/-- Whether a worker has nothing left to do. -/
def isDone : Worker → Bool
  | counting _ [] => true
  | _ => false

end Worker

/-- The workers with what they share. -/
structure Pool where
  tree : FileTree
  progress : Progress
  workers : List (Fingerprinted × Worker)

namespace Pool

/-- The pool before any worker has had a turn. -/
def start (plan : Fingerprinted → List Change) (tree : FileTree) (pending : List Fingerprinted) :
    Pool where
  tree := tree
  progress := Progress.record {} (.start "Rendering")
  workers := pending.map fun candidate =>
    (candidate, .writing ((plan candidate).map Call.ofChange))

/-- The pool after a turn of one worker. Numbers that belong to no worker are passed over. -/
def advance (pool : Pool) (number : Nat) : Pool :=
  match pool.workers[number]? with
  | none => pool
  | some (candidate, worker) =>
    let (tree, progress, worker) := worker.advance candidate pool.tree pool.progress
    ⟨tree, progress, pool.workers.set number (candidate, worker)⟩

/-- The pool after the turns of a schedule, which gives the numbers of the workers in order. -/
def run (pool : Pool) (schedule : List Nat) : Pool := schedule.foldl advance pool

/-- All workers are done. -/
def Finished (pool : Pool) : Prop := ∀ entry ∈ pool.workers, entry.2.isDone = true

instance (pool : Pool) : Decidable pool.Finished := inferInstanceAs (Decidable (∀ _ ∈ _, _))

/-- The modules in their order, with what became of each. -/
def rendered (pool : Pool) : Rendered :=
  pool.workers.map fun (candidate, worker) => (candidate, worker.fault?)

/-! ### Turns -/

section Turns

variable {tree : FileTree} {progress : Progress} {front back : List (Fingerprinted × Worker)}
  {candidate : Fingerprinted} {worker : Worker}

theorem run_append (pool : Pool) (first second : List Nat) :
    pool.run (first ++ second) = (pool.run first).run second := List.foldl_append

/-- A turn changes one worker. -/
theorem advance_length (tree : FileTree) (progress : Progress)
    (front back : List (Fingerprinted × Worker)) (candidate : Fingerprinted) (worker : Worker) :
    advance ⟨tree, progress, front ++ (candidate, worker) :: back⟩ front.length =
      ⟨(worker.advance candidate tree progress).1, (worker.advance candidate tree progress).2.1,
        front ++ (candidate, (worker.advance candidate tree progress).2.2) :: back⟩ := by
  rw [advance]
  simp

/-- A turn passes no one over or is the turn of a worker. -/
theorem advance_cases (pool : Pool) (number : Nat) :
    pool.advance number = pool ∨
      ∃ front candidate worker back, pool.workers = front ++ (candidate, worker) :: back ∧
        pool.advance number =
          ⟨(worker.advance candidate pool.tree pool.progress).1,
            (worker.advance candidate pool.tree pool.progress).2.1,
            front ++ (candidate, (worker.advance candidate pool.tree pool.progress).2.2) ::
              back⟩ := by
  cases there : pool.workers[number]? with
  | none => exact Or.inl (by rw [advance, there])
  | some entry =>
    obtain ⟨candidate, worker⟩ := entry
    obtain ⟨inside, same⟩ := List.getElem?_eq_some_iff.mp there
    have whole : pool.workers =
        pool.workers.take number ++ (candidate, worker) :: pool.workers.drop (number + 1) := by
      rw [← same, List.getElem_cons_drop, List.take_append_drop]
    have long : (pool.workers.take number).length = number := List.length_take_of_le inside.le
    refine Or.inr ⟨_, candidate, worker, _, whole, ?_⟩
    have turn := advance_length pool.tree pool.progress (pool.workers.take number)
      (pool.workers.drop (number + 1)) candidate worker
    rw [← whole, long] at turn
    exact turn

/-- A property that no turn breaks holds after every schedule. -/
theorem run_induction {motive : Pool → Prop} {pool : Pool}
    (step : ∀ pool number, motive pool → motive (pool.advance number)) (holds : motive pool)
    (schedule : List Nat) : motive (pool.run schedule) := by
  induction schedule generalizing pool with
  | nil => exact holds
  | cons number schedule inductionHypothesis => exact inductionHypothesis (step pool number holds)

/-! ### One worker after another -/

theorem run_counting (tree : FileTree) (progress : Progress)
    (front back : List (Fingerprinted × Worker)) (candidate : Fingerprinted)
    (fault? : Option Fault) (additions : List Progress.Addition) :
    run ⟨tree, progress, front ++ (candidate, .counting fault? additions) :: back⟩
        (List.replicate additions.length front.length) =
      ⟨tree, additions.foldl Progress.add progress,
        front ++ (candidate, .counting fault? []) :: back⟩ := by
  induction additions generalizing progress with
  | nil => rfl
  | cons addition additions inductionHypothesis =>
    rw [List.length_cons, List.replicate_succ, run, List.foldl_cons, advance_length]
    exact inductionHypothesis _

/-- A worker that has all turns to itself carries out its calls, and then counts its module. -/
theorem exists_run_of_ends {after : FileTree} {calls : List Call} {fault? : Option Fault}
    (ends : Call.Ends tree calls after fault?) (progress : Progress)
    (front back : List (Fingerprinted × Worker)) (candidate : Fingerprinted) :
    ∃ schedule, run ⟨tree, progress, front ++ (candidate, .writing calls) :: back⟩ schedule =
      ⟨after, progress.record (renderEvent (candidate, fault?)),
        front ++ (candidate, .counting fault? []) :: back⟩ := by
  have counted : ∀ fault?, (renderEvent (candidate, fault?)).additions.foldl Progress.add progress =
      progress.record (renderEvent (candidate, fault?)) := fun fault? =>
    (Progress.record_eq_foldl progress (starts_renderEvent _)).symm
  induction ends with
  | done tree =>
    refine ⟨front.length ::
      List.replicate (renderEvent (candidate, none)).additions.length front.length, ?_⟩
    rw [run, List.foldl_cons, advance_length, ← counted none]
    exact run_counting tree progress front back candidate none _
  | @fails tree after call calls fault performed =>
    refine ⟨front.length ::
      List.replicate (renderEvent (candidate, some fault)).additions.length front.length, ?_⟩
    rw [run, List.foldl_cons, advance_length, Worker.advance, performed, ← counted (some fault)]
    exact run_counting after progress front back candidate (some fault) _
  | goesOn performed _ inductionHypothesis =>
    obtain ⟨schedule, runs⟩ := inductionHypothesis
    refine ⟨front.length :: schedule, ?_⟩
    rw [run, List.foldl_cons, advance_length, Worker.advance, performed]
    exact runs

/-- To render one module after another is one of the schedules. -/
theorem exists_run_eq_renderAll (settings : Settings) (edition : Edition) (tree : FileTree)
    (progress : Progress) (front : List (Fingerprinted × Worker)) (pending : List Fingerprinted) :
    ∃ schedule, run ⟨tree, progress, front ++ pending.map fun candidate =>
        (candidate, .writing ((moduleChanges settings edition candidate.1).map Call.ofChange))⟩
        schedule =
      ⟨(renderAll settings edition tree pending).1,
        ((renderAll settings edition tree pending).2.map renderEvent).foldl Progress.record
          progress,
        front ++ (renderAll settings edition tree pending).2.map fun (candidate, fault?) =>
          (candidate, .counting fault? [])⟩ := by
  induction pending generalizing tree progress front with
  | nil => exact ⟨[], rfl⟩
  | cons candidate pending inductionHypothesis =>
    -- The others go on in what the first one leaves, so all that they share is generalized.
    obtain ⟨first, runsFirst⟩ := exists_run_of_ends
      (Call.Ends.of_performAll tree (moduleChanges settings edition candidate.1)) progress front
      (pending.map fun candidate =>
        (candidate, .writing ((moduleChanges settings edition candidate.1).map Call.ofChange)))
      candidate
    obtain ⟨rest, runsRest⟩ := inductionHypothesis
      (Change.performAll tree (moduleChanges settings edition candidate.1)).1
      (progress.record (renderEvent (candidate,
        (Change.performAll tree (moduleChanges settings edition candidate.1)).2)))
      (front ++ [(candidate, .counting
        (Change.performAll tree (moduleChanges settings edition candidate.1)).2 [])])
    refine ⟨first ++ rest, ?_⟩
    rw [run_append, List.map_cons, runsFirst]
    rw [List.append_assoc, List.append_assoc, List.singleton_append, List.singleton_append]
      at runsRest
    rw [runsRest, renderAll]
    rfl

/-! ### Schedules that finish -/

/-- A turn of a worker that is not done leaves it with less to do. -/
theorem weight_advance (candidate : Fingerprinted) (tree : FileTree) (progress : Progress)
    (busy : worker.isDone = false) :
    (worker.advance candidate tree progress).2.2.weight < worker.weight := by
  have few : ∀ fault?, (renderEvent (candidate, fault?)).additions.length = 2 := by
    intro fault?
    cases fault? <;> rfl
  cases worker with
  | writing calls =>
    cases calls with
    | nil =>
      rw [Worker.advance, Worker.weight, Worker.weight, few]
      decide
    | cons call calls =>
      rw [Worker.advance]
      cases performed : call.perform tree with
      | mk after result =>
        cases result with
        | ok more =>
          have lighter := Call.weight_perform performed
          simp only [Worker.weight, List.map_append, List.sum_append, List.map_cons, List.sum_cons]
          omega
        | error fault =>
          simp only [Worker.weight, few, List.map_cons, List.sum_cons]
          omega
  | counting fault? additions =>
    cases additions with
    | nil => exact nomatch busy
    | cons addition additions => exact Nat.lt_succ_self _

/-- Every pool can be brought to its end. -/
theorem exists_finished (pool : Pool) : ∃ schedule, (pool.run schedule).Finished := by
  generalize heavy : (pool.workers.map fun entry => entry.2.weight).sum = weight
  induction weight using Nat.strongRecOn generalizing pool with
  | ind weight inductionHypothesis =>
    by_cases finished : pool.Finished
    · exact ⟨[], finished⟩
    · obtain ⟨⟨candidate, worker⟩, member, busy⟩ :
          ∃ entry ∈ pool.workers, entry.2.isDone = false := by
        simpa [Finished] using finished
      obtain ⟨tree, progress, workers⟩ := pool
      obtain ⟨front, back, rfl⟩ := List.append_of_mem member
      have lighter := weight_advance candidate tree progress busy
      have less : ((advance ⟨tree, progress, front ++ (candidate, worker) :: back⟩
          front.length).workers.map fun entry => entry.2.weight).sum < weight := by
        rw [advance_length, ← heavy]
        simp only [List.map_append, List.map_cons, List.sum_append, List.sum_cons]
        exact Nat.add_lt_add_left (Nat.add_lt_add_right lighter _) _
      obtain ⟨schedule, finishes⟩ := inductionHypothesis _ less _ rfl
      exact ⟨front.length :: schedule, finishes⟩

end Turns

end Pool

end EngineDocs.Generation
