/-
This file shows that the books of a report balance. Its figures are kept twice, in the fields of the
report and in the counters of the two stages, and both agree with what the run did: every module
that was found was read and then left as it is, rendered or failed, and every header that was
skipped and every module that failed has its warning.
-/

import EngineDocs.Proofs.Generation.Progress
import EngineDocs.Proofs.Generation.Stages
import EngineDocs.Proofs.Text.Runs
import Mathlib.Algebra.Order.BigOperators.Group.List
import Mathlib.Algebra.Order.Group.Nat

namespace EngineDocs

/-! ### Headers that are skipped -/

namespace Headers

/-- The headers at or below a root that cannot be read, each with the cause. -/
def unreadable (tree : FileTree) (root : String) : List (String × Failure) :=
  (find tree root).filterMap fun path =>
    match parseFile tree path with
    | .ok _ => none
    | .error failure => some (path, failure)

theorem foldl_add_skipped (tree : FileTree) (paths : List String) (parsed : Parsed) :
    (paths.foldl (Parsed.add tree) parsed).skipped =
      parsed.skipped ++ paths.filterMap fun path =>
        match parseFile tree path with
        | .ok _ => none
        | .error failure => some (path, failure) := by
  induction paths generalizing parsed with
  | nil => exact (List.append_nil _).symm
  | cons path paths inductionHypothesis =>
    rw [List.foldl_cons, inductionHypothesis, Parsed.add, List.filterMap_cons]
    cases parseFile tree path with
    | ok set => rfl
    | error failure => exact List.append_assoc _ [_] _

theorem parse_skipped (tree : FileTree) (root : String) :
    (parse tree root).skipped = unreadable tree root := foldl_add_skipped tree _ {}

end Headers

namespace Generation

/-- The headers of a module that are skipped: those of its public part that cannot be read. -/
def skippedHeaders (tree : FileTree) (info : ModuleInfo) : List (String × Failure) :=
  (info.publicDir.map (Headers.unreadable tree)).getD []

theorem process_skipped (tree : FileTree) (info : ModuleInfo) :
    (info.process tree).skipped = skippedHeaders tree info := by
  rw [ModuleInfo.process, skippedHeaders]
  cases info.publicDir with
  | none => rfl
  | some publicDir => exact Headers.parse_skipped tree publicDir

/-- The warning about a header that is skipped. -/
def skipWarning (header : String × Failure) : String :=
  "Skipped " ++ header.1 ++ ": " ++ header.2.message

/-! ### The whole report -/

section Report

variable {settings : Settings} {clock : Clock} {before after : FileTree}

/-- The modules whose documents a run wrote. -/
def rendered (settings : Settings) (clock : Clock) (tree : FileTree) : List Fingerprinted :=
  ((rendering settings clock tree).2.filter (·.2.isNone)).map Prod.fst

/-- The modules whose documents a run could not write, each with the cause. -/
def failed (settings : Settings) (clock : Clock) (tree : FileTree) :
    List (Fingerprinted × Fault) :=
  (rendering settings clock tree).2.filterMap fun (candidate, fault?) =>
    fault?.map fun fault => (candidate, fault)

/-- What the writing of modules adds to a report. -/
theorem renderModules_snd_eq (settings : Settings) (clock : Clock) (tree : FileTree)
    (report : Report) :
    (renderModules settings clock (processed settings tree) report tree).2 =
      { report with
        modulesUnchanged := (unchanged settings tree).length
        modulesRendered := (rendered settings clock tree).length
        stages := report.stages ++
          [(((rendering settings clock tree).2.map renderEvent).foldl Progress.record
            (Progress.record {} (.start "Rendering"))).finish clock.rendering]
        warnings := report.warnings ++ renderWarnings settings clock tree ++
          (saving settings clock tree).2 } := by
  unfold renderModules renderWarnings saving noted rendered rendering pending unchanged candidates
    openedStore
  rfl

/-- The warning about a module that failed. -/
def failWarning (failure : Fingerprinted × Fault) : String :=
  renderWarning failure.1.1.name failure.2

/-- The report of a run, in terms of its stages. -/
theorem report_eq {modules : List ModuleInfo} (scanned : scanModules settings before = .ok modules)
    {report : Report} (ends : run settings clock before = (after, .ok report)) :
    report =
      let extraction := reportExtraction settings clock (modules.map (ModuleInfo.process before))
      { extraction with
        modulesUnchanged := (unchanged settings before).length
        modulesRendered := (rendered settings clock before).length
        stages := extraction.stages ++
          [(((rendering settings clock before).2.map renderEvent).foldl Progress.record
            (Progress.record {} (.start "Rendering"))).finish clock.rendering]
        warnings := extraction.warnings ++ renderWarnings settings clock before ++
          (saving settings clock before).2
        errors := extraction.errors ++ (pageIndexing settings clock before).2 ++
          (dataIndexing settings clock before).2
        elapsed := clock.total } := by
  have all : (modules.map (ModuleInfo.process before)).map (·.data) =
      processed settings before := by
    rw [processed, scanned, List.map_map]
    rfl
  rw [run, scanned] at ends
  simp only [all] at ends
  generalize reportExtraction settings clock (modules.map (ModuleInfo.process before)) =
    extraction at ends ⊢
  have written := (renderModules_eq settings clock before extraction).1
  have noted := renderModules_snd_eq settings clock before extraction
  generalize renderModules settings clock (processed settings before) extraction before =
    rendered at *
  obtain ⟨middle, report⟩ := rendered
  subst written
  have indexed := (renderIndices_eq settings clock before report).2
  generalize renderIndices settings clock (processed settings before) report
    (saving settings clock before).1 = pair at *
  obtain ⟨last, final⟩ := pair
  subst indexed noted
  split at ends
  · exact (Except.ok.inj (Prod.mk.inj ends).2).symm
  · cases (Prod.mk.inj ends).2

/-! ### The modules of a run -/

theorem length_renderings (settings : Settings) (clock : Clock) (tree : FileTree) :
    (rendering settings clock tree).2.length =
      (rendered settings clock tree).length + (failed settings clock tree).length := by
  rw [rendered, failed, List.length_map]
  induction (rendering settings clock tree).2 with
  | nil => rfl
  | cons result results inductionHypothesis =>
    obtain ⟨candidate, fault?⟩ := result
    cases fault? with
    | none =>
      rw [List.length_cons, inductionHypothesis]
      exact Nat.add_right_comm _ _ 1
    | some fault =>
      rw [List.length_cons, inductionHypothesis]
      rfl

/-- Every module that is processed is left as it is, or rendered, or fails. -/
theorem length_processed (settings : Settings) (clock : Clock) (tree : FileTree) :
    (processed settings tree).length = (unchanged settings tree).length +
      ((rendered settings clock tree).length + (failed settings clock tree).length) := by
  have pendings : (rendering settings clock tree).2.length = (pending settings tree).length := by
    rw [← List.length_map (f := Prod.fst), rendering, map_fst_renderAll]
  rw [← length_renderings, pendings, ← List.length_map (f := fun data => (data, data.fingerprint)),
    unchanged, pending]
  exact List.length_eq_length_filter_add _

/-- What was rendered is part of what was processed, in the same order. -/
theorem rendered_sublist (settings : Settings) (clock : Clock) (tree : FileTree) :
    ((rendered settings clock tree).map Prod.fst).Sublist (processed settings tree) := by
  have candidates : (candidates settings tree).map Prod.fst = processed settings tree := by
    rw [Generation.candidates, List.map_map]
    exact List.map_id _
  rw [← candidates]
  have tried : (rendered settings clock tree).Sublist (pending settings tree) := by
    rw [rendered,
      ← map_fst_renderAll settings (edition settings clock) tree (pending settings tree)]
    exact List.Sublist.map Prod.fst List.filter_sublist
  exact (tried.trans List.filter_sublist).map Prod.fst

theorem sum_failures_renderEvent (settings : Settings) (clock : Clock) (tree : FileTree) :
    (((rendering settings clock tree).2.map renderEvent).map Progress.Event.failures).sum =
      (failed settings clock tree).length := by
  rw [failed]
  induction (rendering settings clock tree).2 with
  | nil => rfl
  | cons result results inductionHypothesis =>
    obtain ⟨candidate, fault?⟩ := result
    rw [List.map_cons, List.map_cons, List.sum_cons, inductionHypothesis]
    cases fault? with
    | none => exact Nat.zero_add _
    | some fault => exact Nat.add_comm 1 _

theorem sum_declarations_renderEvent (settings : Settings) (clock : Clock) (tree : FileTree) :
    (((rendering settings clock tree).2.map renderEvent).map Progress.Event.declarations).sum =
      (((rendered settings clock tree).map Prod.fst).map ModuleData.declarationCount).sum := by
  rw [rendered]
  induction (rendering settings clock tree).2 with
  | nil => rfl
  | cons result results inductionHypothesis =>
    obtain ⟨candidate, fault?⟩ := result
    rw [List.map_cons, List.map_cons, List.sum_cons, inductionHypothesis]
    cases fault? with
    | none => rfl
    | some fault => exact Nat.zero_add _

theorem starts_renderEvent (result : Fingerprinted × Option Fault) :
    (renderEvent result).starts = false := by
  obtain ⟨candidate, fault?⟩ := result
  cases fault? <;> rfl

end Report

/-! ### The counters -/

/-- The totals of reading modules. -/
theorem stages_reportExtraction {settings : Settings} {clock : Clock} {read : List ProcessedModule}
    (fewModules : read.length < UInt64.size)
    (fewDeclarations : (read.map (·.data.declarationCount)).sum < UInt64.size) :
    (reportExtraction settings clock read).stages =
      [⟨"Extracting", read.length, 0, (read.map (·.data.declarationCount)).sum,
        clock.extracting⟩] := by
  let events := read.map fun read => Progress.Event.done read.data.declarationCount
  have count : ∀ event ∈ events, event.starts = false := fun event member => by
    obtain ⟨_, _, rfl⟩ := List.mem_map.mp member
    rfl
  have holds := (Progress.holds_start {} "Extracting").foldl_record count
  have noFailures : (events.map Progress.Event.failures).sum = 0 :=
    List.sum_eq_zero fun failures member => by
      obtain ⟨event, listed, rfl⟩ := List.mem_map.mp member
      obtain ⟨_, _, rfl⟩ := List.mem_map.mp listed
      rfl
  have sums : events.map Progress.Event.declarations = read.map (·.data.declarationCount) := by
    rw [List.map_map]
    rfl
  rw [noFailures, sums, List.length_map, Nat.zero_add, Nat.zero_add, Nat.zero_add,
    List.foldl_map] at holds
  exact congrArg (fun summary => [summary])
    (holds.finish_eq fewModules (by decide) fewDeclarations clock.extracting)

/-- The totals of writing modules. -/
theorem finish_rendering {settings : Settings} {clock : Clock} {tree : FileTree}
    (fewModules : (processed settings tree).length < UInt64.size)
    (fewDeclarations :
      ((processed settings tree).map ModuleData.declarationCount).sum < UInt64.size) :
    (((rendering settings clock tree).2.map renderEvent).foldl Progress.record
        (Progress.record {} (.start "Rendering"))).finish clock.rendering =
      ⟨"Rendering", (rendered settings clock tree).length + (failed settings clock tree).length,
        (failed settings clock tree).length,
        (((rendered settings clock tree).map Prod.fst).map ModuleData.declarationCount).sum,
        clock.rendering⟩ := by
  have all := length_processed settings clock tree
  have some : (((rendered settings clock tree).map Prod.fst).map ModuleData.declarationCount).sum ≤
      ((processed settings tree).map ModuleData.declarationCount).sum :=
    ((rendered_sublist settings clock tree).map _).sum_le_sum fun _ _ => Nat.zero_le _
  have count : ∀ event ∈ (rendering settings clock tree).2.map renderEvent,
      event.starts = false := fun event member => by
    obtain ⟨result, _, rfl⟩ := List.mem_map.mp member
    exact starts_renderEvent result
  have holds := (Progress.holds_start {} "Rendering").foldl_record count
  rw [sum_failures_renderEvent, sum_declarations_renderEvent, List.length_map, length_renderings,
    Nat.zero_add, Nat.zero_add, Nat.zero_add] at holds
  exact holds.finish_eq (by omega) (by omega) (by omega) clock.rendering

/-! ### The books -/

/-- Whether a warning tells of a module whose documents could not be written. -/
def isRenderWarning (warning : String) : Bool :=
  Text.startsWith "Failed to render module ".toList warning.toList

/-- The figures and the warnings of a report agree with each other and with what the run did with
the modules that it found. -/
structure Balances (settings : Settings) (clock : Clock) (tree : FileTree)
    (modules : List ModuleInfo) (report : Report) : Prop where
  found : report.modulesFound = modules.length
  processed : report.modulesProcessed = report.modulesFound
  handled : report.modulesRendered + report.modulesUnchanged +
    (report.warnings.filter isRenderWarning).length = report.modulesProcessed
  declarations : report.declarations =
    (modules.map fun info => (info.process tree).data.declarationCount).sum
  stages : report.stages =
    [⟨"Extracting", report.modulesFound, 0, report.declarations, clock.extracting⟩,
      ⟨"Rendering", report.modulesProcessed - report.modulesUnchanged,
        (report.warnings.filter isRenderWarning).length,
        (((rendered settings clock tree).map Prod.fst).map ModuleData.declarationCount).sum,
        clock.rendering⟩]
  warnings : ∃ saveWarnings, report.warnings =
      (modules.flatMap (skippedHeaders tree)).map skipWarning ++
      (failed settings clock tree).map failWarning ++ saveWarnings ∧
    saveWarnings.length ≤ 1 ∧ ∀ warning ∈ saveWarnings,
      ∃ fault, warning = "Failed to save fingerprints: " ++ (Failure.io fault).message

theorem isRenderWarning_skipWarning (header : String × Failure) :
    isRenderWarning (skipWarning header) = false := by
  rw [isRenderWarning, skipWarning, String.toList_append, String.toList_append,
    String.toList_append]
  rfl

theorem isRenderWarning_append {warning : String} (begins : isRenderWarning warning = true)
    (rest : String) : isRenderWarning (warning ++ rest) = true := by
  rw [isRenderWarning, Text.startsWith_iff] at begins ⊢
  rw [String.toList_append]
  exact begins.trans (List.prefix_append _ _)

theorem isRenderWarning_renderWarning (name : String) (fault : Fault) :
    isRenderWarning (renderWarning name fault) = true := by
  have begins : isRenderWarning "Failed to render module " = true := rfl
  exact isRenderWarning_append (isRenderWarning_append (isRenderWarning_append
    (isRenderWarning_append (isRenderWarning_append begins _) _) _) _) _

theorem isRenderWarning_save (message : String) :
    isRenderWarning ("Failed to save fingerprints: " ++ message) = false := by
  rw [isRenderWarning, String.toList_append]
  rfl

theorem saving_snd (settings : Settings) (clock : Clock) (tree : FileTree) :
    (saving settings clock tree).2.length ≤ 1 ∧ ∀ warning ∈ (saving settings clock tree).2,
      ∃ fault, warning = "Failed to save fingerprints: " ++ (Failure.io fault).message := by
  rw [saving, saveFingerprints]
  split
  · split
    · exact ⟨Nat.zero_le 1, List.forall_mem_nil _⟩
    · rename_i fault _
      exact ⟨Nat.le_refl 1, fun warning member => ⟨fault, List.mem_singleton.mp member⟩⟩
  · exact ⟨Nat.zero_le 1, List.forall_mem_nil _⟩

/-- The warnings of a run, one for each header that was skipped, one for each module that failed,
and at most one about the fingerprints. -/
theorem warnings_eq (settings : Settings) (clock : Clock) (tree : FileTree)
    (modules : List ModuleInfo) :
    (modules.map (ModuleInfo.process tree)).flatMap skippedWarnings ++
        renderWarnings settings clock tree ++ (saving settings clock tree).2 =
      (modules.flatMap (skippedHeaders tree)).map skipWarning ++
        (failed settings clock tree).map failWarning ++ (saving settings clock tree).2 := by
  congr 2
  · rw [List.flatMap_map, List.map_flatMap]
    refine List.flatMap_congr fun info _ => ?_
    rw [skippedWarnings, process_skipped]
    rfl
  · rw [renderWarnings, failed, List.map_filterMap]
    refine List.filterMap_congr fun result _ => ?_
    exact (Option.map_map failWarning (result.1, ·) result.2).symm

/-- Of the warnings only those about modules that failed look like one. -/
theorem filter_isRenderWarning {settings : Settings} {clock : Clock} {tree : FileTree}
    (headers : List (String × Failure)) :
    ((headers.map skipWarning ++
        (failed settings clock tree).map failWarning ++ (saving settings clock tree).2).filter
        isRenderWarning).length = (failed settings clock tree).length := by
  have skips : (headers.map skipWarning).filter isRenderWarning = [] := by
    rw [List.filter_eq_nil_iff]
    intro warning member
    obtain ⟨header, _, rfl⟩ := List.mem_map.mp member
    rw [isRenderWarning_skipWarning]
    exact Bool.false_ne_true
  have saves : (saving settings clock tree).2.filter isRenderWarning = [] := by
    rw [List.filter_eq_nil_iff]
    intro warning member
    obtain ⟨fault, rfl⟩ := (saving_snd settings clock tree).2 warning member
    rw [isRenderWarning_save]
    exact Bool.false_ne_true
  have failures : ((failed settings clock tree).map failWarning).filter isRenderWarning =
      (failed settings clock tree).map failWarning := by
    rw [List.filter_eq_self]
    intro warning member
    obtain ⟨⟨candidate, fault⟩, _, rfl⟩ := List.mem_map.mp member
    exact isRenderWarning_renderWarning candidate.1.name fault
  rw [List.filter_append, List.filter_append, skips, saves, failures, List.nil_append,
    List.append_nil, List.length_map]

/-- The counts of a report, in terms of what the run did with its modules. -/
structure Counts (settings : Settings) (clock : Clock) (tree : FileTree)
    (modules : List ModuleInfo) (report : Report) : Prop where
  found : report.modulesFound = modules.length
  processed : report.modulesProcessed = modules.length
  declarations : report.declarations =
    (modules.map fun info => (info.process tree).data.declarationCount).sum
  unchanged : report.modulesUnchanged = (unchanged settings tree).length
  rendered : report.modulesRendered = (rendered settings clock tree).length
  warnings : report.warnings =
    (modules.flatMap (skippedHeaders tree)).map skipWarning ++
      (failed settings clock tree).map failWarning ++ (saving settings clock tree).2
  stages : report.stages =
    (reportExtraction settings clock (modules.map (ModuleInfo.process tree))).stages ++
      [(((rendering settings clock tree).2.map renderEvent).foldl Progress.record
        (Progress.record {} (.start "Rendering"))).finish clock.rendering]

theorem counts_of_run {settings : Settings} {clock : Clock} {before after : FileTree}
    {modules : List ModuleInfo} (scanned : scanModules settings before = .ok modules)
    {report : Report} (ends : run settings clock before = (after, .ok report)) :
    Counts settings clock before modules report := by
  rw [report_eq scanned ends]
  refine ⟨List.length_map _, List.length_map _, ?_, rfl, rfl,
    warnings_eq settings clock before modules, rfl⟩
  show ((modules.map (ModuleInfo.process before)).map (·.data.declarationCount)).sum = _
  rw [List.map_map]
  rfl

theorem processed_of_scan {settings : Settings} {tree : FileTree} {modules : List ModuleInfo}
    (scanned : scanModules settings tree = .ok modules) :
    processed settings tree = modules.map fun info => (info.process tree).data := by
  rw [processed, scanned]

/-- The books of every report balance, as long as its counts fit into 64 bits. -/
theorem report_balances {settings : Settings} {clock : Clock} {before after : FileTree}
    {report : Report} (ends : run settings clock before = (after, .ok report))
    (fewModules : report.modulesFound < UInt64.size)
    (fewDeclarations : report.declarations < UInt64.size) :
    ∃ modules, scanModules settings before = .ok modules ∧
      Balances settings clock before modules report := by
  cases scanned : scanModules settings before with
  | error failure =>
    rw [run_of_scan_error clock scanned] at ends
    exact nomatch (Prod.mk.inj ends).2
  | ok modules =>
    have counts := counts_of_run scanned ends
    rw [counts.found] at fewModules
    rw [counts.declarations] at fewDeclarations
    have inFull := processed_of_scan scanned
    have sums : ((processed settings before).map ModuleData.declarationCount) =
        modules.map fun info => (info.process before).data.declarationCount := by
      rw [inFull, List.map_map]
      rfl
    have lengths := length_processed settings clock before
    rw [inFull, List.length_map] at lengths
    have failures : (report.warnings.filter isRenderWarning).length =
        (failed settings clock before).length := by
      rw [counts.warnings]
      exact filter_isRenderWarning _
    have modulesLeft : report.modulesProcessed - report.modulesUnchanged =
        (rendered settings clock before).length + (failed settings clock before).length := by
      rw [counts.unchanged, counts.processed]
      omega
    have extracting : (reportExtraction settings clock
        (modules.map (ModuleInfo.process before))).stages = _ :=
      stages_reportExtraction (by rw [List.length_map]; exact fewModules)
        (by rw [List.map_map]; exact fewDeclarations)
    have rendering : (((rendering settings clock before).2.map renderEvent).foldl Progress.record
        (Progress.record {} (.start "Rendering"))).finish clock.rendering = _ :=
      finish_rendering (by rw [inFull, List.length_map]; exact fewModules)
        (by rw [sums]; exact fewDeclarations)
    refine ⟨modules, rfl, counts.found, counts.processed.trans counts.found.symm, ?_,
      counts.declarations, ?_, _, counts.warnings, saving_snd settings clock before⟩
    · rw [counts.rendered, counts.unchanged, failures, counts.processed]
      omega
    · rw [modulesLeft, failures, counts.found, counts.declarations, counts.stages, extracting,
        rendering, List.length_map, List.map_map]
      rfl

/-! ### A small engine in which much goes wrong -/

/-- A tree with two modules: a header of the first cannot be read, a file stands where the pages of
the second should go, and a directory where the fingerprints should. -/
def mishaps : FileTree :=
  ((Change.performAll (smallEngine [("A", "M"), ("B", "N")])
    [.file "s/A/M/Public/F.h" "class F;", .directory "o/modules", .file "o/modules/N" "",
      .directory "o/data/.fingerprints.json"]).1).put ["s", "A", "M", "Public", "L.h"] .locked

theorem report_balances_mishaps :
    ∃ after report modules, run (smallSettings "1" [.markdown] true) stillClock mishaps =
        (after, .ok report) ∧
      report.modulesFound < UInt64.size ∧ report.declarations < UInt64.size ∧
      scanModules (smallSettings "1" [.markdown] true) mishaps = .ok modules ∧
      Balances (smallSettings "1" [.markdown] true) stillClock mishaps modules report ∧
      report.warnings =
        ["Skipped s/A/M/Public/L.h: IO error: Permission denied (os error 13)",
          "Failed to render module N: Render error for N: IO error: File exists (os error 17)",
          "Failed to save fingerprints: IO error: Is a directory (os error 21)"] := by
  have facts : ((run (smallSettings "1" [.markdown] true) stillClock mishaps).2.toOption.map
      fun report => (report.modulesFound, report.declarations, report.warnings)) =
      some (2, 1, ["Skipped s/A/M/Public/L.h: IO error: Permission denied (os error 13)",
        "Failed to render module N: Render error for N: IO error: File exists (os error 17)",
        "Failed to save fingerprints: IO error: Is a directory (os error 21)"]) := by
    decide +kernel
  cases ends : run (smallSettings "1" [.markdown] true) stillClock mishaps with
  | mk after result =>
    rw [ends] at facts
    cases result with
    | error failure => exact nomatch facts
    | ok report =>
      simp only [Except.toOption, Option.map_some, Option.some.injEq, Prod.mk.injEq] at facts
      obtain ⟨found, declarations, warnings⟩ := facts
      have fewModules : report.modulesFound < UInt64.size := by rw [found]; decide
      have fewDeclarations : report.declarations < UInt64.size := by rw [declarations]; decide
      obtain ⟨modules, scanned, balances⟩ := report_balances ends fewModules fewDeclarations
      exact ⟨after, report, modules, rfl, fewModules, fewDeclarations, scanned, balances, warnings⟩

end Generation

end EngineDocs
