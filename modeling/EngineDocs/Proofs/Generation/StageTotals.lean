/-
This file says what the totals of a stage are after any calls. The counters keep nothing from before
the last beginning of a stage, and asking for the totals changes nothing, so the totals are those of
the calls since then. Calls that count may change places, and may even be made at the same time:
they come down to additions to single counters, and the counters do not tell in which order they
were made.
-/

import EngineDocs.Proofs.Generation.Progress
import Mathlib.Data.List.Induction

namespace EngineDocs.Progress

/-! ### Calls and answers -/

/-- A call by one of those who share the counters. -/
inductive Call where
  /-- The counters are changed. -/
  | record (event : Event)
  /-- The totals are asked for after some time of the stage. -/
  | finish (elapsed : Duration)
  deriving DecidableEq

/-- What the calls that ask for totals are answered, in their order. -/
def answers (progress : Progress) : List Call → List StageSummary
  | [] => []
  | .record event :: calls => (progress.record event).answers calls
  | .finish elapsed :: calls => progress.finish elapsed :: progress.answers calls

/-- The calls that change the counters. -/
def recorded : List Call → List Event
  | [] => []
  | .record event :: calls => event :: recorded calls
  | .finish _ :: calls => recorded calls

/-- Earlier calls matter to later ones only by what they recorded. -/
theorem answers_append (progress : Progress) (front back : List Call) :
    progress.answers (front ++ back) =
      progress.answers front ++ ((recorded front).foldl record progress).answers back := by
  induction front generalizing progress with
  | nil => rfl
  | cons call front inductionHypothesis =>
    cases call with
    | record event => exact inductionHypothesis (progress.record event)
    | finish elapsed => exact congrArg (progress.finish elapsed :: ·) (inductionHypothesis progress)

theorem answers_map_record_append (progress : Progress) (events : List Event)
    (back : List Call) :
    progress.answers (events.map .record ++ back) =
      (events.foldl record progress).answers back := by
  induction events generalizing progress with
  | nil => rfl
  | cons event events inductionHypothesis => exact inductionHypothesis (progress.record event)

/-! ### The stage that is going on -/

/-- The last beginning of a stage and what was counted since then; a stage without a name goes on
before any begins. -/
structure IsStage (events : List Event) (stage : String) (since : List Event) : Prop where
  begun : events = since ∧ stage = "" ∨ ∃ earlier, events = earlier ++ .start stage :: since
  counts : ∀ event ∈ since, event.starts = false

theorem exists_isStage (events : List Event) : ∃ stage since, IsStage events stage since := by
  induction events using List.reverseRecOn with
  | nil => exact ⟨"", [], Or.inl ⟨rfl, rfl⟩, nofun⟩
  | append_singleton events event inductionHypothesis =>
    obtain ⟨stage, since, isStage⟩ := inductionHypothesis
    cases starts : event.starts with
    | true =>
      cases event with
      | start stage => exact ⟨stage, [], Or.inr ⟨events, rfl⟩, nofun⟩
      | done amount => exact nomatch starts
      | failed => exact nomatch starts
    | false =>
      -- The stage goes on, and the call is counted in it.
      refine ⟨stage, since ++ [event], ?_, List.forall_mem_append.mpr
        ⟨isStage.counts, List.forall_mem_singleton.mpr starts⟩⟩
      rcases isStage.begun with ⟨rfl, unnamed⟩ | ⟨earlier, rfl⟩
      · exact Or.inl ⟨rfl, unnamed⟩
      · exact Or.inr ⟨earlier, List.append_assoc _ _ _⟩

/-- Whatever the counters held before a stage began is forgotten. -/
theorem IsStage.holds {events since : List Event} {stage : String}
    (isStage : IsStage events stage since) :
    (events.foldl record {}).Holds stage since.length (since.map Event.failures).sum
      (since.map Event.declarations).sum := by
  have begun : ∀ progress : Progress, progress.Holds stage 0 0 0 →
      (since.foldl record progress).Holds stage since.length (since.map Event.failures).sum
        (since.map Event.declarations).sum := by
    intro progress holds
    have counted := holds.foldl_record isStage.counts
    rw [Nat.zero_add, Nat.zero_add, Nat.zero_add] at counted
    exact counted
  rcases isStage.begun with ⟨rfl, rfl⟩ | ⟨earlier, rfl⟩
  · exact begun {} ⟨rfl, rfl, rfl, rfl⟩
  · rw [List.foldl_append, List.foldl_cons]
    exact begun _ (holds_start _ stage)

theorem sum_map_failures (events : List Event) :
    (events.map Event.failures).sum = events.count .failed := by
  induction events with
  | nil => rfl
  | cons event events inductionHypothesis =>
    rw [List.map_cons, List.sum_cons, inductionHypothesis, List.count_cons, Nat.add_comm]
    cases event <;> rfl

/-- The totals of a stage in which these calls counted: each is held modulo 2 ^ 64. -/
def totals (stage : String) (since : List Event) (elapsed : Duration) : StageSummary where
  stage := stage
  modules := since.length % UInt64.size
  failures := since.count .failed % UInt64.size
  declarations := (since.map Event.declarations).sum % UInt64.size
  elapsed := elapsed

theorem IsStage.finish_eq {events since : List Event} {stage : String}
    (isStage : IsStage events stage since) (elapsed : Duration) :
    (events.foldl record {}).finish elapsed = totals stage since elapsed := by
  have holds := isStage.holds
  rw [finish, holds.stage, holds.modules, holds.failures, holds.declarations, sum_map_failures,
    totals]

/-! ### Calls at the same time -/

/-- What happens to the counters at once: a whole call, or one of the changes that a call makes. -/
inductive Step where
  | whole (call : Call)
  | addition (addition : Addition)

/-- What the calls that ask for totals are answered when single changes may stand between them. -/
def stepAnswers (progress : Progress) : List Step → List StageSummary
  | [] => []
  | .whole (.record event) :: steps => (progress.record event).stepAnswers steps
  | .whole (.finish elapsed) :: steps => progress.finish elapsed :: progress.stepAnswers steps
  | .addition addition :: steps => (progress.add addition).stepAnswers steps

/-- The steps in which calls may be carried out. A call is carried out alone, or, when it counts, at
the same time as other ones that stand beside it and count; then the changes they make may come in
any order. -/
inductive CarriesOut : List Step → List Call → Prop
  | nil : CarriesOut [] []
  | alone (call : Call) {steps : List Step} {calls : List Call} :
      CarriesOut steps calls → CarriesOut (.whole call :: steps) (call :: calls)
  | together {events : List Event} {additions : List Addition} {steps : List Step}
      {calls : List Call} : (∀ event ∈ events, event.starts = false) →
      additions.Perm (events.flatMap Event.additions) → CarriesOut steps calls →
      CarriesOut (additions.map .addition ++ steps) (events.map .record ++ calls)

theorem stepAnswers_map_addition_append (progress : Progress) (additions : List Addition)
    (steps : List Step) :
    progress.stepAnswers (additions.map .addition ++ steps) =
      (additions.foldl add progress).stepAnswers steps := by
  induction additions generalizing progress with
  | nil => rfl
  | cons addition additions inductionHypothesis =>
    exact inductionHypothesis (progress.add addition)

/-- Calls that count come down to the changes they make, in any order. -/
theorem foldl_record_eq_foldl_add (progress : Progress) {events : List Event}
    (counts : ∀ event ∈ events, event.starts = false) {additions : List Addition}
    (perm : additions.Perm (events.flatMap Event.additions)) :
    events.foldl record progress = additions.foldl add progress := by
  rw [foldl_add_perm progress perm, List.foldl_flatMap]
  exact List.foldl_ext _ _ _ fun sofar event member => record_eq_foldl sofar (counts event member)

theorem foldl_record_perm (progress : Progress) {events reordered : List Event}
    (counts : ∀ event ∈ events, event.starts = false) (perm : events.Perm reordered) :
    events.foldl record progress = reordered.foldl record progress := by
  have reorderedCounts : ∀ event ∈ reordered, event.starts = false := fun event member =>
    counts event (perm.mem_iff.mpr member)
  rw [foldl_record_eq_foldl_add progress counts (perm.flatMap_right Event.additions).symm,
    foldl_record_eq_foldl_add progress reorderedCounts (List.Perm.refl _)]

theorem CarriesOut.stepAnswers_eq {steps : List Step} {calls : List Call}
    (carriesOut : CarriesOut steps calls) (progress : Progress) :
    progress.stepAnswers steps = progress.answers calls := by
  induction carriesOut generalizing progress with
  | nil => rfl
  | alone call _ inductionHypothesis =>
    cases call with
    | record event => exact inductionHypothesis (progress.record event)
    | finish elapsed => exact congrArg (progress.finish elapsed :: ·) (inductionHypothesis progress)
  | together counts perm _ inductionHypothesis =>
    rw [stepAnswers_map_addition_append, answers_map_record_append, inductionHypothesis,
      foldl_record_eq_foldl_add progress counts perm]

/-! ### Totals after any calls -/

/-- Whoever asks for the totals is told the name of the stage that began last and what was counted
since then, and leaves the answers to all others as they are. Calls that count may change places
between two others, and those beside each other may be carried out at the same time. -/
theorem totals_since_last_start (calls : List Call) :
    (∀ front elapsed back, calls = front ++ .finish elapsed :: back →
      ∃ stage since later, IsStage (recorded front) stage since ∧
        answers {} calls = answers {} front ++ totals stage since elapsed :: later ∧
        answers {} (front ++ back) = answers {} front ++ later ∧
        (since.length < UInt64.size → (totals stage since elapsed).modules = since.length ∧
          (totals stage since elapsed).failures = since.count .failed)) ∧
      (∀ (front back : List Call) (events : List Event),
        calls = front ++ (events.map .record ++ back) → (∀ event ∈ events, event.starts = false) →
        ∀ reordered, events.Perm reordered →
          answers {} (front ++ (reordered.map .record ++ back)) = answers {} calls) ∧
      ∀ steps, CarriesOut steps calls → stepAnswers {} steps = answers {} calls := by
  refine ⟨?_, ?_, fun steps carriesOut => carriesOut.stepAnswers_eq {}⟩
  · rintro front elapsed back rfl
    obtain ⟨stage, since, isStage⟩ := exists_isStage (recorded front)
    refine ⟨stage, since, _, isStage, ?_, answers_append {} front back, fun few => ?_⟩
    · rw [answers_append, answers, isStage.finish_eq]
    · exact ⟨Nat.mod_eq_of_lt few, Nat.mod_eq_of_lt (Nat.lt_of_le_of_lt List.count_le_length few)⟩
  · rintro front back events rfl counts reordered perm
    rw [answers_append {} front, answers_append {} front, answers_map_record_append,
      answers_map_record_append, foldl_record_perm _ counts perm]

/-- Two stages: in the first one three calls are carried out at the same time, and the declarations
they count do not fit into 64 bits; in the second one nothing is counted. -/
theorem totals_since_last_start_two_stages :
    let counted := [.done 18446744073709551615, .failed, .done 2]
    let back := [.finish {}, .record (.start "Rendering"), .finish {}]
    let calls := [.record (.start "Extracting")] ++ (counted.map .record ++ back)
    answers {} calls = [⟨"Extracting", 3, 1, 1, {}⟩, ⟨"Rendering", 0, 0, 0, {}⟩] ∧
      (∃ stage since later,
        IsStage (recorded (.record (.start "Extracting") :: counted.map .record)) stage since ∧
          answers {} calls = totals stage since {} :: later) ∧
      answers {} ([.record (.start "Extracting")] ++
        ([.failed, .done 2, .done 18446744073709551615].map .record ++ back)) = answers {} calls ∧
      stepAnswers {} (.whole (.record (.start "Extracting")) ::
        ([.module, .module, .declarations 2, .failure, .declarations 18446744073709551615,
            .module].map .addition ++ back.map .whole)) = answers {} calls := by
  intro counted back calls
  have counts : ∀ event ∈ counted, event.starts = false := by decide
  have carriesOut : CarriesOut (.whole (.record (.start "Extracting")) ::
      ([.module, .module, .declarations 2, .failure, .declarations 18446744073709551615,
          .module].map .addition ++ back.map .whole)) calls :=
    .alone _ (.together counts (by decide) (.alone _ (.alone _ (.alone _ .nil))))
  obtain ⟨asked, reordered, atOnce⟩ := totals_since_last_start calls
  refine ⟨by decide +kernel, ?_, ?_, atOnce _ carriesOut⟩
  · obtain ⟨stage, since, later, isStage, told, _⟩ :=
      asked (.record (.start "Extracting") :: counted.map .record) {}
        [.record (.start "Rendering"), .finish {}] rfl
    exact ⟨stage, since, later, isStage, told⟩
  · exact reordered [.record (.start "Extracting")] back counted rfl counts _ (by decide)

end EngineDocs.Progress
