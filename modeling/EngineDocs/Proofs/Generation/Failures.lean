/-
This file says for which causes a run fails, and exactly when. A run looks for its source
directory, then at its exclude patterns, and then for modules; when one of these is wrong it fails
before it has changed anything. Once it has found modules, nothing that goes wrong with a header, a
rules file, a document or an index makes it fail: it does so only when the report cannot be written
in the end.
-/

import EngineDocs.Proofs.Generation.Stages

namespace EngineDocs.Generation

open FileTree

/-! ### Exclude patterns -/

/-- Whether an entry of an exclude list is a pattern. -/
def IsGlob (entry : String) : Prop := ∃ pattern, Glob.Pattern.read entry.toList = .ok pattern

theorem readEntry_eq_ok_iff (entry : String) (pattern : Glob.Pattern) :
    ExcludeList.readEntry entry = .ok pattern ↔ Glob.Pattern.read entry.toList = .ok pattern := by
  rw [ExcludeList.readEntry]
  cases Glob.Pattern.read entry.toList <;> simp

theorem mapM_readEntry_eq_ok {entries : List String} (globs : ∀ entry ∈ entries, IsGlob entry) :
    ∃ patterns, entries.mapM ExcludeList.readEntry = .ok patterns := by
  induction entries with
  | nil => exact ⟨[], rfl⟩
  | cons entry entries inductionHypothesis =>
    obtain ⟨pattern, read⟩ := globs entry List.mem_cons_self
    obtain ⟨patterns, readAll⟩ :=
      inductionHypothesis fun entry member => globs entry (List.mem_cons_of_mem _ member)
    refine ⟨pattern :: patterns, ?_⟩
    rw [List.mapM_cons, (readEntry_eq_ok_iff entry pattern).mpr read, readAll]
    rfl

theorem mapM_readEntry_eq_error {entries : List String} {entry : String} (member : entry ∈ entries)
    (bad : ¬IsGlob entry) : ∃ error, entries.mapM ExcludeList.readEntry = .error error := by
  induction entries with
  | nil => exact absurd member List.not_mem_nil
  | cons first entries inductionHypothesis =>
    rw [List.mapM_cons]
    cases read : ExcludeList.readEntry first with
    | error error => exact ⟨error, rfl⟩
    | ok pattern =>
      rcases List.mem_cons.mp member with rfl | later
      · exact absurd ⟨pattern, (readEntry_eq_ok_iff entry pattern).mp read⟩ bad
      · obtain ⟨error, failed⟩ := inductionHypothesis later
        exact ⟨error, by rw [failed]; rfl⟩

theorem scanner_eq_ok {settings : Settings}
    (globs : ∀ entry ∈ settings.excludeDirs, IsGlob entry) :
    ∃ found, scanner settings = .ok found := by
  obtain ⟨patterns, read⟩ := mapM_readEntry_eq_ok globs
  exact ⟨_, by rw [scanner, Scanner.create, ExcludeList.read, read]; rfl⟩

theorem scanner_eq_error {settings : Settings} {entry : String}
    (member : entry ∈ settings.excludeDirs) (bad : ¬IsGlob entry) :
    ∃ error, scanner settings = .error error := by
  obtain ⟨error, failed⟩ := mapM_readEntry_eq_error member bad
  exact ⟨error, by rw [scanner, Scanner.create, ExcludeList.read, failed]; rfl⟩

/-! ### Finding modules -/

/-- No category and no place below the plugins directory has a module. -/
def FindsNothing (settings : Settings) (tree : FileTree) : Prop :=
  ∃ found, scanner settings = .ok found ∧
    (∀ category ∈ settings.moduleCategories, found.scanCategory tree category = []) ∧
    ∀ directory, settings.pluginsDir = some directory → found.scanPlugins tree directory = []

theorem categories_of_scanner {settings : Settings} {found : Scanner}
    (created : scanner settings = .ok found) : found.categories = settings.moduleCategories := by
  rw [scanner, Scanner.create] at created
  cases read : ExcludeList.read settings.excludeDirs with
  | error error =>
    rw [read] at created
    exact nomatch created
  | ok exclude =>
    rw [read] at created
    rw [← Except.ok.inj created]

/-- The modules that a scanner finds. -/
def foundModules (settings : Settings) (tree : FileTree) (found : Scanner) : List ModuleInfo :=
  found.scan tree ++ (settings.pluginsDir.map (found.scanPlugins tree)).getD []

theorem findsNothing_iff {settings : Settings} {tree : FileTree} {found : Scanner}
    (created : scanner settings = .ok found) :
    FindsNothing settings tree ↔ foundModules settings tree found = [] := by
  have plugins : (settings.pluginsDir.map (found.scanPlugins tree)).getD [] = [] ↔
      ∀ directory, settings.pluginsDir = some directory →
        found.scanPlugins tree directory = [] := by
    cases settings.pluginsDir <;> simp
  rw [foundModules, List.append_eq_nil_iff, plugins, Scanner.scan, List.flatMap_eq_nil_iff,
    categories_of_scanner created]
  constructor
  · rintro ⟨other, createdToo, nothing⟩
    rw [Except.ok.inj (created.symm.trans createdToo)]
    exact nothing
  · exact fun nothing => ⟨found, created, nothing⟩

/-- Looking for modules goes through the source directory, the exclude patterns and the modules in
this order. -/
theorem scanModules_eq (settings : Settings) (tree : FileTree) :
    scanModules settings tree =
      if tree.isDirectory settings.sourceDir = false then
        .error (.sourceNotFound settings.sourceDir)
      else match scanner settings with
        | .error error => .error (.config error)
        | .ok found =>
          if foundModules settings tree found = [] then .error (.noModules settings.sourceDir)
          else .ok (foundModules settings tree found) := by
  rw [scanModules]
  cases tree.isDirectory settings.sourceDir with
  | false => rfl
  | true =>
    simp only [Bool.not_true, Bool.false_eq_true, if_false, reduceCtorEq]
    cases scanner settings with
    | error error => rfl
    | ok found =>
      simp only [foundModules]
      by_cases none : found.scan tree ++
          (settings.pluginsDir.map (found.scanPlugins tree)).getD [] = []
      · simp only [none, List.isEmpty_nil, if_true]
        rfl
      · simp only [none, List.isEmpty_iff, if_false]
        rfl

/-! ### Writing the report -/

/-- Whether a file can be written does not depend on its text. -/
theorem fault_perform_file (tree : FileTree) (path first second : String) :
    ((Change.file path first).perform tree).2 = ((Change.file path second).perform tree).2 := by
  rw [Change.perform, Change.perform, writeBytes, writeBytes]
  cases tree.divideLast path with
  | error fault => rfl
  | ok pair =>
    obtain ⟨location, last⟩ := pair
    cases last with
    | none => rfl
    | some name =>
      simp only [bind, Except.bind]
      by_cases moves : (isMove name || meansDirectory path) = true
      · simp only [if_pos moves]
      · by_cases long : maxNameLength < name.utf8ByteSize
        · simp only [if_neg moves, if_pos long]
        · simp only [if_neg moves, if_neg long]
          cases tree.at? (location ++ [name]) with
          | none => rfl
          | some item => cases item <;> rfl

/-- The output directory cannot be made, or it can and the report file cannot be written into it,
in the tree to which all documents and indices have been written. -/
def CannotReport (settings : Settings) (clock : Clock) (tree : FileTree) (fault : Fault) : Prop :=
  let (made, fault?) :=
    (Change.directory settings.outputDir).perform (dataIndexing settings clock tree).1
  fault? = some fault ∨
    fault? = none ∧ ∀ content,
      ((Change.file (Path.join settings.outputDir Report.fileName) content).perform made).2 =
        some fault

theorem cannotReport_iff {settings : Settings} {clock : Clock} {tree : FileTree} {report : Report}
    (output : report.outputDir = settings.outputDir) (fault : Fault) :
    CannotReport settings clock tree fault ↔
      (Change.performAll (dataIndexing settings clock tree).1 (report.changes clock.moment)).2 =
        some fault := by
  rw [CannotReport, Report.changes, output, Change.performAll]
  cases (Change.directory settings.outputDir).perform (dataIndexing settings clock tree).1 with
  | mk made fault? =>
    cases fault? with
    | some other => simp
    | none =>
      have written : (Change.performAll made [.file (Path.join settings.outputDir Report.fileName)
          (report.text clock.moment)]).2 =
          ((Change.file (Path.join settings.outputDir Report.fileName)
            (report.text clock.moment)).perform made).2 := by
        rw [Change.performAll]
        split <;> rename_i performed <;> rw [performed]
        rfl
      simp only [reduceCtorEq, false_or, true_and, written]
      constructor
      · exact fun all => all _
      · intro one content
        rw [fault_perform_file made _ content (report.text clock.moment)]
        exact one

/-! ### The causes of failure -/

/-- A run that found modules fails exactly when the report cannot be written. -/
theorem run_of_scan_ok {settings : Settings} (clock : Clock) {tree : FileTree}
    {modules : List ModuleInfo} (scanned : scanModules settings tree = .ok modules) :
    (∃ fault after, (∀ other, CannotReport settings clock tree other ↔ other = fault) ∧
        run settings clock tree = (after, .error (.io fault))) ∨
      (∀ other, ¬CannotReport settings clock tree other) ∧
        ∃ after report, run settings clock tree = (after, .ok report) := by
  obtain ⟨report, whole, output, _⟩ := run_eq clock scanned
  have cannot : ∀ fault, CannotReport settings clock tree fault ↔ _ := cannotReport_iff output
  rw [whole]
  cases performed : Change.performAll (dataIndexing settings clock tree).1
      (report.changes clock.moment) with
  | mk after fault? =>
    rw [performed] at cannot
    cases fault? with
    | some fault =>
      refine Or.inl ⟨fault, after, fun other => ?_, rfl⟩
      rw [cannot, Option.some_inj, eq_comm]
    | none =>
      exact Or.inr ⟨fun other failed => absurd ((cannot other).mp failed) nofun, after, report, rfl⟩

/-- A run fails because there is no source directory, or else because an exclude entry is no
pattern, or else because there are no modules, each time with the tree as it was; or else because
the report cannot be written; and for no other cause. -/
theorem run_fails_iff (settings : Settings) (clock : Clock) (tree : FileTree) :
    (run settings clock tree = (tree, .error (.sourceNotFound settings.sourceDir)) ↔
      tree.isDirectory settings.sourceDir = false) ∧
    ((∃ error, run settings clock tree = (tree, .error (.config error))) ↔
      tree.isDirectory settings.sourceDir = true ∧
        ∃ entry ∈ settings.excludeDirs, ¬IsGlob entry) ∧
    (run settings clock tree = (tree, .error (.noModules settings.sourceDir)) ↔
      tree.isDirectory settings.sourceDir = true ∧
        (∀ entry ∈ settings.excludeDirs, IsGlob entry) ∧ FindsNothing settings tree) ∧
    (∀ fault, (∃ after, run settings clock tree = (after, .error (.io fault))) ↔
      tree.isDirectory settings.sourceDir = true ∧
        (∀ entry ∈ settings.excludeDirs, IsGlob entry) ∧ ¬FindsNothing settings tree ∧
        CannotReport settings clock tree fault) ∧
    ((∃ after report, run settings clock tree = (after, .ok report)) ∨
      (∃ after fault, run settings clock tree = (after, .error (.io fault))) ∨
      ∃ failure, run settings clock tree = (tree, .error failure) ∧
        (failure = .sourceNotFound settings.sourceDir ∨ (∃ error, failure = .config error) ∨
          failure = .noModules settings.sourceDir)) := by
  have scan := scanModules_eq settings tree
  by_cases directory : tree.isDirectory settings.sourceDir = false
  · rw [if_pos directory] at scan
    have whole := run_of_scan_error clock scan
    simp [whole, directory]
  rw [if_neg directory] at scan
  rw [Bool.not_eq_false] at directory
  by_cases globs : ∀ entry ∈ settings.excludeDirs, IsGlob entry
  · have noBad : ¬∃ entry ∈ settings.excludeDirs, ¬IsGlob entry :=
      fun ⟨entry, member, bad⟩ => bad (globs entry member)
    obtain ⟨found, created⟩ := scanner_eq_ok globs
    have nothing : FindsNothing settings tree ↔ _ := findsNothing_iff created
    simp only [created] at scan
    by_cases empty : foundModules settings tree found = []
    · rw [if_pos empty] at scan
      have whole := run_of_scan_error clock scan
      simp [whole, directory, noBad, and_iff_right globs, nothing, empty]
    · rw [if_neg empty] at scan
      rcases run_of_scan_ok clock scan with
        ⟨fault, after, cannot, whole⟩ | ⟨can, after, report, whole⟩
      · simp [whole, directory, noBad, and_iff_right globs, nothing, empty, cannot, eq_comm]
      · simp [whole, directory, noBad, nothing, empty, can]
  · have bad : ∃ entry ∈ settings.excludeDirs, ¬IsGlob entry := by simpa using globs
    obtain ⟨error, failed⟩ : ∃ error, scanner settings = .error error := by
      obtain ⟨entry, member, notGlob⟩ := bad
      exact scanner_eq_error member notGlob
    simp only [failed] at scan
    have whole := run_of_scan_error clock scan
    simp [whole, directory, globs, bad]

end EngineDocs.Generation
