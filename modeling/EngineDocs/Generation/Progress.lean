/-
This file holds the counters of a stage of a run. They count modulo 2 ^ 64, and they are shared by
all who work on a stage: each call changes a counter by adding to it, so the order of the calls
does not matter.
-/

import EngineDocs.Duration
import EngineDocs.Json.Value

namespace EngineDocs

/-- The totals of a stage. -/
structure StageSummary where
  stage : String
  /-- The modules that were handled, failures included. -/
  modules : Nat
  failures : Nat
  declarations : Nat
  elapsed : Duration := {}
  deriving DecidableEq

namespace StageSummary

/-- The JSON form, which leaves out the time that was taken. -/
def toJson (summary : StageSummary) : Json :=
  .obj [("stage", .str summary.stage), ("modules", .nat summary.modules),
    ("failures", .nat summary.failures), ("declarations", .nat summary.declarations)]

end StageSummary

/-- The counters of the stage that is going on. -/
structure Progress where
  stage : String := ""
  modules : UInt64 := 0
  failures : UInt64 := 0
  declarations : UInt64 := 0
  deriving DecidableEq

namespace Progress

/-- A call that changes the counters. -/
inductive Event where
  /-- A stage begins. -/
  | start (stage : String)
  /-- A module was handled. -/
  | done (declarations : Nat)
  /-- A module failed. -/
  | failed
  deriving DecidableEq

/-- The counters after a call. -/
def record (progress : Progress) : Event → Progress
  | .start stage => { stage }
  | .done declarations =>
    { progress with
      modules := progress.modules + 1
      declarations := progress.declarations + declarations.toUInt64 }
  | .failed =>
    { progress with modules := progress.modules + 1, failures := progress.failures + 1 }

/-- The totals of the stage so far. -/
def finish (progress : Progress) (elapsed : Duration) : StageSummary where
  stage := progress.stage
  modules := progress.modules.toNat
  failures := progress.failures.toNat
  declarations := progress.declarations.toNat
  elapsed := elapsed

end Progress

end EngineDocs
