/-
This file says what the counters of a stage hold after calls. Each call adds to them, so they hold
the sums of what was added, modulo 2 ^ 64. A call that counts a module changes two counters, one
after the other; the order of these changes does not matter, be they of one call or of many.
-/

import EngineDocs.Generation.Progress
import Mathlib.Algebra.GroupWithZero.Nat
import Mathlib.Data.List.Perm.Basic

namespace EngineDocs.Progress

namespace Event

/-- Whether a call begins a stage. -/
def starts : Event → Bool
  | .start _ => true
  | _ => false

/-- The failures that a call adds. -/
def failures : Event → Nat
  | .failed => 1
  | _ => 0

/-- The declarations that a call adds. -/
def declarations : Event → Nat
  | .done amount => amount
  | _ => 0

end Event

/-- Counters hold some numbers modulo 2 ^ 64. -/
structure Holds (progress : Progress) (stage : String) (modules failures declarations : Nat) :
    Prop where
  stage : progress.stage = stage
  modules : progress.modules.toNat = modules % UInt64.size
  failures : progress.failures.toNat = failures % UInt64.size
  declarations : progress.declarations.toNat = declarations % UInt64.size

theorem holds_start (progress : Progress) (stage : String) :
    (progress.record (.start stage)).Holds stage 0 0 0 := ⟨rfl, rfl, rfl, rfl⟩

namespace Holds

variable {progress : Progress} {stage : String} {modules failures declarations : Nat}

theorem record (holds : progress.Holds stage modules failures declarations) {event : Event}
    (counts : event.starts = false) :
    (progress.record event).Holds stage (modules + 1) (failures + event.failures)
      (declarations + event.declarations) := by
  have one : (progress.modules + 1).toNat = (modules + 1) % UInt64.size := by
    rw [UInt64.toNat_add, holds.modules]
    exact Nat.mod_add_mod modules UInt64.size 1
  cases event with
  | start stage => exact nomatch counts
  | done amount =>
    refine ⟨holds.stage, one, holds.failures, ?_⟩
    show (progress.declarations + amount.toUInt64).toNat = _
    rw [UInt64.toNat_add, holds.declarations]
    exact (Nat.add_mod declarations amount UInt64.size).symm
  | failed =>
    refine ⟨holds.stage, one, ?_, holds.declarations⟩
    show (progress.failures + 1).toNat = _
    rw [UInt64.toNat_add, holds.failures]
    exact Nat.mod_add_mod failures UInt64.size 1

/-- After calls that begin no stage, the counters hold what they held before and what the calls
add. -/
theorem foldl_record (holds : progress.Holds stage modules failures declarations)
    {events : List Event} (count : ∀ event ∈ events, event.starts = false) :
    (events.foldl Progress.record progress).Holds stage (modules + events.length)
      (failures + (events.map Event.failures).sum)
      (declarations + (events.map Event.declarations).sum) := by
  induction events generalizing progress modules failures declarations with
  | nil => exact holds
  | cons event events inductionHypothesis =>
    have next := inductionHypothesis (holds.record (count event List.mem_cons_self))
      fun event member => count event (List.mem_cons_of_mem _ member)
    rw [Nat.add_assoc, Nat.add_assoc, Nat.add_assoc] at next
    rw [List.foldl_cons, List.length_cons, List.map_cons, List.map_cons, List.sum_cons,
      List.sum_cons, Nat.add_comm events.length 1]
    exact next

/-- Numbers below 2 ^ 64 are the totals of the stage. -/
theorem finish_eq (holds : progress.Holds stage modules failures declarations)
    (fewModules : modules < UInt64.size) (fewFailures : failures < UInt64.size)
    (fewDeclarations : declarations < UInt64.size) (elapsed : Duration) :
    progress.finish elapsed = ⟨stage, modules, failures, declarations, elapsed⟩ := by
  rw [finish, holds.stage, holds.modules, holds.failures, holds.declarations,
    Nat.mod_eq_of_lt fewModules, Nat.mod_eq_of_lt fewFailures, Nat.mod_eq_of_lt fewDeclarations]

end Holds

/-! ### Single counters -/

/-- A change of one counter. -/
inductive Addition where
  | module
  | failure
  | declarations (amount : Nat)
  deriving DecidableEq

/-- The counters after a change of one of them. -/
def add (progress : Progress) : Addition → Progress
  | .module => { progress with modules := progress.modules + 1 }
  | .failure => { progress with failures := progress.failures + 1 }
  | .declarations amount =>
    { progress with declarations := progress.declarations + amount.toUInt64 }

/-- The changes that a call makes one after another. -/
def Event.additions : Event → List Addition
  | .start _ => []
  | .done amount => [.module, .declarations amount]
  | .failed => [.module, .failure]

theorem record_eq_foldl (progress : Progress) {event : Event} (counts : event.starts = false) :
    progress.record event = event.additions.foldl add progress := by
  cases event with
  | start stage => exact nomatch counts
  | done amount => rfl
  | failed => rfl

theorem add_right_comm (progress : Progress) (first second : Addition) :
    (progress.add first).add second = (progress.add second).add first := by
  have swap : ∀ a b c : UInt64, a + b + c = a + c + b := fun a b c => by
    rw [UInt64.add_assoc, UInt64.add_comm b, ← UInt64.add_assoc]
  cases first <;> cases second <;> first | rfl | simp only [add, swap]

/-- The counters do not tell in which order they were changed. -/
theorem foldl_add_perm (progress : Progress) {first second : List Addition}
    (perm : first.Perm second) : first.foldl add progress = second.foldl add progress :=
  haveI : RightCommutative add := ⟨add_right_comm⟩
  perm.foldl_eq progress

end EngineDocs.Progress
