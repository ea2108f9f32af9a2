/-
This file takes a run apart into its stages: the modules that are left as they are and those whose
documents are written, the tree once the fingerprints are saved, and the tree once the indices and
the report are written. Each stage leaves alone what lies below the output directory in places that
are not its own, and a run without warnings and errors is one in which every stage succeeded.
-/

import EngineDocs.Proofs.Discovery.Names
import EngineDocs.Proofs.Generation.Documents
import EngineDocs.Proofs.Generation.FingerprintFile

namespace EngineDocs.Generation

open FileTree
open Headers (descend)

/-! ### The stages -/

/-- The fingerprints that a run starts with. -/
def openedStore (settings : Settings) (tree : FileTree) : FingerprintStore :=
  FingerprintStore.load tree (Output.dataDirectory settings.outputDir) (renderContext settings)

/-- The modules of a run with their fingerprints. -/
def candidates (settings : Settings) (tree : FileTree) : List Fingerprinted :=
  (processed settings tree).map fun data => (data, data.fingerprint)

/-- The modules that a run leaves as they are. -/
def unchanged (settings : Settings) (tree : FileTree) : List Fingerprinted :=
  (candidates settings tree).filter (isCurrent settings tree (openedStore settings tree))

/-- The modules whose documents a run writes. -/
def pending (settings : Settings) (tree : FileTree) : List Fingerprinted :=
  (candidates settings tree).filter fun candidate =>
    !isCurrent settings tree (openedStore settings tree) candidate

/-- The tree once the documents are written, and what became of each module. -/
def rendering (settings : Settings) (clock : Clock) (tree : FileTree) : FileTree × Rendered :=
  renderAll settings (edition settings clock) tree (pending settings tree)

/-- The modules whose fingerprints a run notes. -/
def noted (settings : Settings) (clock : Clock) (tree : FileTree) : List Fingerprinted :=
  unchanged settings tree ++ ((rendering settings clock tree).2.filter (·.2.isNone)).map Prod.fst

/-- The tree once the fingerprints are saved, and the warning about them. -/
def saving (settings : Settings) (clock : Clock) (tree : FileTree) : FileTree × List String :=
  saveFingerprints settings
    (recordAll (openedStore settings tree) (noted settings clock tree))
    (rendering settings clock tree).1

/-- The tree once the index for readers is written, and the error about it. -/
def pageIndexing (settings : Settings) (clock : Clock) (tree : FileTree) :
    FileTree × List String :=
  attempt (settings.wants .markdown) "Failed to generate markdown index: "
    (Output.index settings.outputDir (edition settings clock) settings.moduleCategories
      (processed settings tree) ++ Output.readme settings.outputDir (edition settings clock))
    (saving settings clock tree).1

/-- The tree once all indices are written, and the error about those in JSON. -/
def dataIndexing (settings : Settings) (clock : Clock) (tree : FileTree) :
    FileTree × List String :=
  attempt (settings.wants .json) "Failed to generate JSON index: "
    (Output.modulesIndex settings.outputDir (edition settings clock) (processed settings tree) ++
      Output.apiIndex settings.outputDir (edition settings clock) (processed settings tree))
    (pageIndexing settings clock tree).1

/-- The warnings about modules whose documents could not be written. -/
def renderWarnings (settings : Settings) (clock : Clock) (tree : FileTree) : List String :=
  (rendering settings clock tree).2.filterMap fun (candidate, fault) =>
    fault.map (renderWarning candidate.1.name)

/-- The tree that an attempt leaves is that of its changes, whether they succeed or not. -/
theorem attempt_fst (wanted : Bool) (complaint : String) (changes : List Change)
    (tree : FileTree) : (attempt wanted complaint changes tree).1 =
      if wanted then (Change.performAll tree changes).1 else tree := by
  rw [attempt]
  split
  · split <;> rename_i performed <;> rw [performed]
  · rfl

theorem saving_fst (settings : Settings) (clock : Clock) (tree : FileTree) :
    (saving settings clock tree).1 =
      if settings.incremental then
        (Change.performAll (rendering settings clock tree).1
          (recordAll (openedStore settings tree) (noted settings clock tree)).changes).1
      else (rendering settings clock tree).1 := by
  rw [saving, saveFingerprints]
  split
  · split <;> rename_i performed <;> rw [performed]
  · rfl

theorem renderModules_eq (settings : Settings) (clock : Clock) (tree : FileTree) (report : Report) :
    (renderModules settings clock (processed settings tree) report tree).1 =
        (saving settings clock tree).1 ∧
      (renderModules settings clock (processed settings tree) report tree).2.warnings =
        report.warnings ++ renderWarnings settings clock tree ++ (saving settings clock tree).2 ∧
      (renderModules settings clock (processed settings tree) report tree).2.errors =
        report.errors ∧
      (renderModules settings clock (processed settings tree) report tree).2.outputDir =
        report.outputDir := by
  unfold renderModules renderWarnings saving noted rendering pending unchanged candidates openedStore
  refine ⟨?_, ?_, ?_, ?_⟩
  · rfl
  · rfl
  · rfl
  · rfl

theorem renderIndices_eq (settings : Settings) (clock : Clock) (tree : FileTree) (report : Report) :
    (renderIndices settings clock (processed settings tree) report (saving settings clock tree).1).1 =
        (dataIndexing settings clock tree).1 ∧
      (renderIndices settings clock (processed settings tree) report
          (saving settings clock tree).1).2 =
        { report with errors := report.errors ++ (pageIndexing settings clock tree).2 ++
            (dataIndexing settings clock tree).2 } := by
  unfold renderIndices dataIndexing pageIndexing
  refine ⟨?_, ?_⟩
  · rfl
  · rfl

/-- A run that finds modules goes through all stages and then writes its report. -/
theorem run_eq {settings : Settings} (clock : Clock) {tree : FileTree} {modules : List ModuleInfo}
    (scanned : scanModules settings tree = .ok modules) :
    ∃ report : Report,
      run settings clock tree =
        (match Change.performAll (dataIndexing settings clock tree).1
            (report.changes clock.moment) with
        | (after, none) => (after, .ok report)
        | (after, some fault) => (after, .error (.io fault))) ∧
      report.outputDir = settings.outputDir ∧
      report.warnings = (modules.map (ModuleInfo.process tree)).flatMap skippedWarnings ++
        renderWarnings settings clock tree ++ (saving settings clock tree).2 ∧
      report.errors = (pageIndexing settings clock tree).2 ++ (dataIndexing settings clock tree).2 := by
  have all : (modules.map (ModuleInfo.process tree)).map (·.data) = processed settings tree := by
    rw [processed, scanned, List.map_map]
    rfl
  let extraction := reportExtraction settings clock (modules.map (ModuleInfo.process tree))
  obtain ⟨written, warnings, errors, output⟩ :=
    renderModules_eq settings clock tree extraction
  unfold run
  rw [scanned]
  simp only [all]
  generalize renderModules settings clock (processed settings tree) extraction tree = rendered at *
  obtain ⟨middle, report⟩ := rendered
  subst written
  obtain ⟨indexed, final⟩ := renderIndices_eq settings clock tree report
  generalize renderIndices settings clock (processed settings tree) report
    (saving settings clock tree).1 = pair at *
  obtain ⟨last, whole⟩ := pair
  subst indexed final
  refine ⟨_, rfl, output, warnings, ?_⟩
  show report.errors ++ _ ++ _ = _
  rw [show report.errors = [] from errors, List.nil_append]

theorem rendered_of_no_warnings {settings : Settings} {clock : Clock} {tree : FileTree}
    (none : renderWarnings settings clock tree = []) :
    ∀ result ∈ (rendering settings clock tree).2, result.2 = .none := by
  intro result member
  rw [renderWarnings, List.filterMap_eq_nil_iff] at none
  exact Option.map_eq_none_iff.mp (none result member)

theorem complaints_of_run_ok {settings : Settings} {clock : Clock} {before after : FileTree}
    {modules : List ModuleInfo} (scanned : scanModules settings before = .ok modules)
    {report : Report} (ends : run settings clock before = (after, .ok report)) :
    report.warnings = (modules.map (ModuleInfo.process before)).flatMap skippedWarnings ++
        renderWarnings settings clock before ++ (saving settings clock before).2 ∧
      report.errors = (pageIndexing settings clock before).2 ++
        (dataIndexing settings clock before).2 := by
  obtain ⟨final, whole, _, warnings, errors⟩ := run_eq clock scanned
  have same : final = report := by
    rw [ends] at whole
    split at whole
    · exact (Except.ok.inj (Prod.mk.inj whole).2).symm
    · exact nomatch (Prod.mk.inj whole).2
  subst same
  exact ⟨warnings, errors⟩

theorem run_of_scan_error {settings : Settings} (clock : Clock) {tree : FileTree}
    {failure : Failure} (failed : scanModules settings tree = .error failure) :
    run settings clock tree = (tree, .error failure) := by
  rw [run, failed]

/-! ### Modules whose fingerprints are noted -/

section Noted

variable {settings : Settings} {clock : Clock} {tree : FileTree}

theorem mem_processed_of_mem_noted {candidate : Fingerprinted}
    (member : candidate ∈ noted settings clock tree) :
    candidate.1 ∈ processed settings tree ∧ candidate.2 = candidate.1.fingerprint := by
  have found : candidate ∈ candidates settings tree := by
    rcases List.mem_append.mp member with kept | written
    · exact List.mem_of_mem_filter kept
    · obtain ⟨result, listed, rfl⟩ := List.mem_map.mp written
      have rendered := List.mem_map_of_mem (f := Prod.fst) (List.mem_of_mem_filter listed)
      rw [rendering, map_fst_renderAll] at rendered
      exact List.mem_of_mem_filter rendered
  obtain ⟨data, isProcessed, rfl⟩ := List.mem_map.mp found
  exact ⟨isProcessed, rfl⟩

/-- A module is noted unless its rendering failed. -/
theorem mem_noted_of_mem_processed {data : ModuleData} (member : data ∈ processed settings tree)
    (succeeded : ∀ fault,
      ((data, data.fingerprint), some fault) ∉ (rendering settings clock tree).2) :
    (data, data.fingerprint) ∈ noted settings clock tree := by
  have candidate : (data, data.fingerprint) ∈ candidates settings tree :=
    List.mem_map_of_mem (f := fun data => (data, data.fingerprint)) member
  by_cases current : isCurrent settings tree (openedStore settings tree) (data, data.fingerprint)
  · exact List.mem_append_left _ (List.mem_filter.mpr ⟨candidate, current⟩)
  · have rendered : (data, data.fingerprint) ∈ (rendering settings clock tree).2.map Prod.fst := by
      rw [rendering, map_fst_renderAll]
      exact List.mem_filter.mpr ⟨candidate, by rw [Bool.eq_false_iff.mpr current]; rfl⟩
    obtain ⟨⟨found, fault⟩, listed, rfl⟩ := List.mem_map.mp rendered
    cases fault with
    | none =>
      exact List.mem_append_right _
        (List.mem_map.mpr ⟨_, List.mem_filter.mpr ⟨listed, rfl⟩, rfl⟩)
    | some fault => exact absurd listed (succeeded fault)

/-- What is noted for a name is the fingerprint of a module of this name. -/
theorem exists_noted_of_lastFingerprint? {name fingerprint : String}
    (found : lastFingerprint? ((noted settings clock tree).map fun candidate =>
      (candidate.1.name, candidate.2)) name = some fingerprint) :
    ∃ data ∈ processed settings tree, (data, data.fingerprint) ∈ noted settings clock tree ∧
      data.name = name ∧ data.fingerprint = fingerprint := by
  obtain ⟨⟨data, last⟩, listed, same⟩ := List.mem_map.mp (lastFingerprint?_mem found)
  obtain ⟨rfl, rfl⟩ := Prod.mk.inj same
  obtain ⟨member, fingerprinted⟩ := mem_processed_of_mem_noted listed
  dsimp only at member fingerprinted
  subst fingerprinted
  exact ⟨data, member, listed, rfl, rfl⟩

/-- A run in which nothing fails notes the fingerprints of all its modules, and no others. -/
theorem lastFingerprint?_noted_iff (distinct : ((processed settings tree).map (·.name)).Nodup)
    (rendered : ∀ result ∈ (rendering settings clock tree).2, result.2 = none)
    (name fingerprint : String) :
    lastFingerprint? ((noted settings clock tree).map fun candidate =>
        (candidate.1.name, candidate.2)) name = some fingerprint ↔
      ∃ data ∈ processed settings tree, data.name = name ∧ data.fingerprint = fingerprint := by
  constructor
  · intro found
    obtain ⟨data, member, _, same⟩ := exists_noted_of_lastFingerprint? found
    exact ⟨data, member, same⟩
  · rintro ⟨data, member, rfl, rfl⟩
    have isNoted : (data, data.fingerprint) ∈ noted settings clock tree :=
      mem_noted_of_mem_processed member fun fault listed => nomatch rendered _ listed
    obtain ⟨last, found⟩ := lastFingerprint?_isSome (List.mem_map_of_mem
      (f := fun candidate : Fingerprinted => (candidate.1.name, candidate.2)) isNoted)
    obtain ⟨other, memberToo, _, named, rfl⟩ := exists_noted_of_lastFingerprint? found
    rw [found, List.inj_on_of_nodup_map distinct memberToo member named]

end Noted

/-! ### Where the stages write -/

/-- The names on the way from the output directory to the fingerprint file. -/
def fingerprintNames : List String := ["data", ".fingerprints.json"]

/-- The names on the way from the output directory to the files about all modules. -/
def sharedNames (settings : Settings) : List (List String) :=
  (if settings.wants .markdown then [["index.md"], ["README.md"]] else []) ++
  (if settings.wants .json then [["data", "modules.json"], ["data", "api-index.json"]] else []) ++
  [["generation_report.txt"]]

section Spares

variable {settings : Settings} (clock : Clock) {tree : FileTree} {names : List String}

theorem isName_of_mem_pending (wellFormed : tree.WellFormed) :
    ∀ candidate ∈ pending settings tree, Path.IsName candidate.1.name := by
  intro candidate member
  obtain ⟨data, found, rfl⟩ := List.mem_map.mp (List.mem_of_mem_filter member)
  exact isName_of_mem_processed wellFormed found

theorem rendering_spares (wellFormed : tree.WellFormed)
    (apart : ∀ candidate ∈ pending settings tree,
      names ∉ documentNames settings candidate.1.name) :
    Spared settings.outputDir names tree (rendering settings clock tree).1 :=
  renderAll_spares tree (isName_of_mem_pending wellFormed) apart

theorem storeChanges_spare (store : FingerprintStore) {output : String}
    (path : store.path = descend output fingerprintNames) (different : names ≠ fingerprintNames) :
    ∀ change ∈ store.changes, change.Spares output names := by
  intro change member
  rcases List.mem_append.mp member with directory | file
  · split at directory
    · rw [List.mem_singleton.mp directory]
      trivial
    · exact absurd directory List.not_mem_nil
  · rw [List.mem_singleton.mp file, path]
    exact ⟨fingerprintNames, rfl, by decide, Ne.symm different⟩

/-- A run keeps its fingerprints in the data directory. -/
theorem recordAll_path (settings : Settings) (tree : FileTree) (modules : List Fingerprinted) :
    (recordAll (openedStore settings tree) modules).path =
      descend settings.outputDir fingerprintNames := by
  rw [FingerprintStore.recordAll_eq]
  rfl

theorem saving_spares (different : settings.incremental = true → names ≠ fingerprintNames) :
    Spared settings.outputDir names (rendering settings clock tree).1
      (saving settings clock tree).1 := by
  rw [saving_fst]
  split
  · rename_i incremental
    exact Change.performAll_spares _ (storeChanges_spare _
      (recordAll_path settings tree (noted settings clock tree)) (different incremental))
  · exact .refl _

theorem attempt_spares {wanted : Bool} {complaint output : String} {changes : List Change}
    (tree : FileTree) (spare : wanted = true → ∀ change ∈ changes, change.Spares output names) :
    Spared output names tree (attempt wanted complaint changes tree).1 := by
  rw [attempt_fst]
  split
  · rename_i isWanted
    exact Change.performAll_spares tree (spare isWanted)
  · exact .refl _

theorem pageIndexing_spares (apart : names ∉ sharedNames settings) :
    Spared settings.outputDir names (saving settings clock tree).1
      (pageIndexing settings clock tree).1 := by
  refine attempt_spares _ fun wanted change member => ?_
  simp only [sharedNames, wanted, if_true, List.mem_append, List.mem_cons, not_or] at apart
  simp only [Output.index, Output.readme, List.cons_append, List.nil_append, List.mem_cons,
    List.not_mem_nil, or_false] at member
  rcases member with rfl | rfl | rfl | rfl
  · trivial
  · exact ⟨["index.md"], rfl, by decide, Ne.symm apart.1.1.1⟩
  · trivial
  · exact ⟨["README.md"], rfl, by decide, Ne.symm apart.1.1.2.1⟩

theorem dataIndexing_spares (apart : names ∉ sharedNames settings) :
    Spared settings.outputDir names (pageIndexing settings clock tree).1
      (dataIndexing settings clock tree).1 := by
  refine attempt_spares _ fun wanted change member => ?_
  simp only [sharedNames, wanted, if_true, List.mem_append, List.mem_cons, not_or] at apart
  simp only [Output.modulesIndex, Output.apiIndex, Output.dataFile, List.cons_append,
    List.nil_append, List.mem_cons, List.not_mem_nil, or_false] at member
  rcases member with rfl | rfl | rfl | rfl
  · trivial
  · exact ⟨["data", "modules.json"], rfl, by decide, Ne.symm apart.1.2.1⟩
  · trivial
  · exact ⟨["data", "api-index.json"], rfl, by decide, Ne.symm apart.1.2.2.1⟩

theorem reportChanges_spare {report : Report} (output : report.outputDir = settings.outputDir)
    (different : names ≠ ["generation_report.txt"]) :
    ∀ change ∈ report.changes clock.moment, change.Spares settings.outputDir names := by
  intro change member
  rw [Report.changes, output] at member
  simp only [List.mem_cons, List.not_mem_nil, or_false] at member
  rcases member with rfl | rfl
  · trivial
  · exact ⟨["generation_report.txt"], rfl, by decide, Ne.symm different⟩

/-- The tree after a run that finds modules is the one with the indices and a report written into
it. -/
theorem run_fst_eq {modules : List ModuleInfo} (scanned : scanModules settings tree = .ok modules) :
    ∃ report : Report, report.outputDir = settings.outputDir ∧
      (run settings clock tree).1 = (Change.performAll (dataIndexing settings clock tree).1
        (report.changes clock.moment)).1 := by
  obtain ⟨report, whole, output, _, _⟩ := run_eq clock scanned
  refine ⟨report, output, ?_⟩
  rw [whole]
  split <;> rename_i performed <;> rw [performed]

/-- Once the fingerprints are saved, a run writes no more than the files about all modules. -/
theorem run_spares {modules : List ModuleInfo} (scanned : scanModules settings tree = .ok modules)
    (apart : names ∉ sharedNames settings) :
    Spared settings.outputDir names (saving settings clock tree).1 (run settings clock tree).1 := by
  obtain ⟨report, output, last⟩ := run_fst_eq clock scanned
  have different : names ≠ ["generation_report.txt"] := by
    rintro rfl
    exact apart (List.mem_append_right _ List.mem_cons_self)
  rw [last]
  exact ((pageIndexing_spares clock apart).trans (dataIndexing_spares clock apart)).trans
    (Change.performAll_spares _ (reportChanges_spare clock output different))

end Spares

/-! ### Trees from the disk stay so -/

section WellFormed

variable {settings : Settings} (clock : Clock) {tree : FileTree}

theorem attempt_wellFormed {wanted : Bool} {complaint : String} {changes : List Change}
    (wellFormed : tree.WellFormed) : (attempt wanted complaint changes tree).1.WellFormed := by
  rw [attempt_fst]
  split
  · exact Change.performAll_wellFormed wellFormed changes
  · exact wellFormed

theorem saving_wellFormed (wellFormed : tree.WellFormed) :
    (saving settings clock tree).1.WellFormed := by
  have rendered : (rendering settings clock tree).1.WellFormed := renderAll_wellFormed wellFormed
  rw [saving_fst]
  split
  · exact Change.performAll_wellFormed rendered _
  · exact rendered

/-- A run takes trees from the disk to such trees. -/
theorem run_wellFormed (wellFormed : tree.WellFormed) :
    (run settings clock tree).1.WellFormed := by
  cases scanned : scanModules settings tree with
  | error failure =>
    rw [run_of_scan_error clock scanned]
    exact wellFormed
  | ok modules =>
    obtain ⟨report, _, last⟩ := run_fst_eq clock scanned
    rw [last]
    exact Change.performAll_wellFormed
      (attempt_wellFormed (attempt_wellFormed (saving_wellFormed clock wellFormed))) _

end WellFormed

/-! ### Files stay -/

section Grows

variable {settings : Settings} (clock : Clock) (tree : FileTree)

theorem attempt_grows (wanted : Bool) (complaint : String) (changes : List Change) :
    tree.Grows (attempt wanted complaint changes tree).1 := by
  rw [attempt_fst]
  split
  · exact Change.performAll_grows tree changes
  · exact .refl tree

theorem saving_grows :
    (rendering settings clock tree).1.Grows (saving settings clock tree).1 := by
  rw [saving_fst]
  split
  · exact Change.performAll_grows _ _
  · exact .refl _

/-- Once the documents are written, no file goes away in a run. -/
theorem run_grows {tree : FileTree} {modules : List ModuleInfo}
    (scanned : scanModules settings tree = .ok modules) :
    (rendering settings clock tree).1.Grows (run settings clock tree).1 := by
  obtain ⟨report, _, last⟩ := run_fst_eq clock scanned
  rw [last]
  exact (((saving_grows clock tree).trans (attempt_grows _ _ _ _)).trans
    (attempt_grows _ _ _ _)).trans (Change.performAll_grows _ _)

end Grows

/-! ### Fingerprints from one run to the next -/

section Fingerprints

variable {settings : Settings} {tree : FileTree}

theorem openedStore_previous_eq (settings : Settings) (tree : FileTree) :
    (openedStore settings tree).previous =
      match tree.readText (descend settings.outputDir fingerprintNames) with
      | .ok content =>
        FingerprintStore.previousOf content (Digest.ofString (renderContext settings))
      | .error _ => {} := by
  have path : Path.join (Output.dataDirectory settings.outputDir) FingerprintStore.fileName =
      descend settings.outputDir fingerprintNames := rfl
  cases read : tree.readText (descend settings.outputDir fingerprintNames) <;>
    simp only [openedStore, FingerprintStore.load, path, read]

theorem openedStore_previous {content : String}
    (read : tree.readText (descend settings.outputDir fingerprintNames) = .ok content) :
    (openedStore settings tree).previous =
      FingerprintStore.previousOf content (Digest.ofString (renderContext settings)) := by
  rw [openedStore_previous_eq, read]

theorem readText_of_previous {name fingerprint : String}
    (recorded : (openedStore settings tree).previous[name]? = some fingerprint) :
    ∃ content, tree.readText (descend settings.outputDir fingerprintNames) = .ok content := by
  rw [openedStore_previous_eq] at recorded
  split at recorded
  · rename_i content read
    exact ⟨content, read⟩
  · exact absurd recorded nofun

/-- Trees that have the same fingerprint file start a run with the same fingerprints. -/
theorem openedStore_previous_congr {other : FileTree}
    (same : ∀ content,
      other.readText (descend settings.outputDir fingerprintNames) = .ok content ↔
        tree.readText (descend settings.outputDir fingerprintNames) = .ok content) :
    (openedStore settings other).previous = (openedStore settings tree).previous := by
  rw [openedStore_previous_eq, openedStore_previous_eq]
  cases read : tree.readText (descend settings.outputDir fingerprintNames) with
  | ok content => rw [(same content).mpr read]
  | error fault =>
    split
    · rename_i content found
      exact absurd (read.symm.trans ((same content).mp found)) nofun
    · rfl

theorem fingerprintNames_not_mem_sharedNames (settings : Settings) :
    fingerprintNames ∉ sharedNames settings := by
  rw [sharedNames]
  cases settings.wants .markdown <;> cases settings.wants .json <;> decide

variable (clock : Clock)

/-- The fingerprint file that a run saves. -/
theorem item?_saving (incremental : settings.incremental = true)
    (saved : (saving settings clock tree).2 = []) :
    (saving settings clock tree).1.item? (descend settings.outputDir fingerprintNames) =
      some (.file (String.ofList (StoredFingerprints.toJson
        ⟨Digest.ofString (renderContext settings),
          (recordAll (openedStore settings tree) (noted settings clock tree)).current⟩).pretty).toUTF8) := by
  have context : (recordAll (openedStore settings tree) (noted settings clock tree)).context =
      Digest.ofString (renderContext settings) := by
    rw [FingerprintStore.recordAll_eq]
    rfl
  have path := recordAll_path settings tree (noted settings clock tree)
  rw [saving, saveFingerprints, if_pos incremental] at saved ⊢
  rw [← context]
  generalize recordAll (openedStore settings tree) (noted settings clock tree) = store at *
  have only : ∀ change ∈ store.changes, change.Spares settings.outputDir fingerprintNames ∨
      change = .file (descend settings.outputDir fingerprintNames)
        (String.ofList (StoredFingerprints.toJson ⟨store.context, store.current⟩).pretty) := by
    intro change member
    rcases List.mem_append.mp member with directory | file
    · split at directory
      · rw [List.mem_singleton.mp directory]
        exact Or.inl trivial
      · exact absurd directory List.not_mem_nil
    · rw [List.mem_singleton.mp file, path]
      exact Or.inr rfl
  have member : .file (descend settings.outputDir fingerprintNames)
      (String.ofList (StoredFingerprints.toJson ⟨store.context, store.current⟩).pretty) ∈
        store.changes := by
    rw [← path]
    exact List.mem_append_right _ List.mem_cons_self
  split at saved
  · rename_i after performed
    have written : (Change.performAll (rendering settings clock tree).1 store.changes).1.item?
        (descend settings.outputDir fingerprintNames) = _ :=
      Change.item?_performAll_of_mem (by decide) (by decide) only member (by rw [performed])
    rw [performed] at written
    exact written
  · exact absurd saved (List.cons_ne_nil _ _)

/-- What a run leaves for the next one: under a context with the same digest, the fingerprints that
it noted, and under any other context none. -/
theorem getElem?_previous_run {modules : List ModuleInfo}
    (scanned : scanModules settings tree = .ok modules) (incremental : settings.incremental = true)
    (saved : (saving settings clock tree).2 = []) {next : Settings}
    (output : next.outputDir = settings.outputDir) (name : String) :
    (openedStore next (run settings clock tree).1).previous[name]? =
      if Digest.ofString (renderContext settings) = Digest.ofString (renderContext next) then
        lastFingerprint? ((noted settings clock tree).map fun candidate =>
          (candidate.1.name, candidate.2)) name
      else none := by
  have file := (run_spares clock scanned (fingerprintNames_not_mem_sharedNames settings)).item?_eq_some
    (by decide) (by decide) (item?_saving clock incremental saved)
  rw [← readText_eq_ok_iff, ← output] at file
  rw [openedStore_previous file, FingerprintStore.getElem?_previousOf,
    FingerprintStore.recordAll_eq, FingerprintMap.getElem?_foldl_insert]
  split
  · exact Option.or_none
  · rfl

end Fingerprints

/-! ### Documents after a run -/

section Run

variable {settings : Settings} {clock : Clock} {tree : FileTree} {names : List String}

/-- What a run neither renders nor writes for all modules together stays. -/
theorem run_spares_from_start (wellFormed : tree.WellFormed) {modules : List ModuleInfo}
    (scanned : scanModules settings tree = .ok modules)
    (apart : ∀ candidate ∈ pending settings tree, names ∉ documentNames settings candidate.1.name)
    (unsaved : settings.incremental = true → names ≠ fingerprintNames)
    (unshared : names ∉ sharedNames settings) :
    Spared settings.outputDir names tree (run settings clock tree).1 :=
  ((rendering_spares clock wellFormed apart).trans (saving_spares clock unsaved)).trans
    (run_spares clock scanned unshared)

/-- The documents of a module that was rendered last under its name are there after the run. -/
theorem item?_run (wellFormed : tree.WellFormed) {modules : List ModuleInfo}
    (scanned : scanModules settings tree = .ok modules) {front back : Rendered}
    {candidate : Fingerprinted}
    (rendered : (rendering settings clock tree).2 = front ++ (candidate, none) :: back)
    (last : ∀ result ∈ back, result.1.1.name ≠ candidate.1.name) {content : String}
    (document : (names, content) ∈ documents settings (edition settings clock) candidate.1)
    (unsaved : settings.incremental = true → names ≠ fingerprintNames)
    (unshared : names ∉ sharedNames settings) :
    (run settings clock tree).1.item? (descend settings.outputDir names) =
      some (.file content.toUTF8) := by
  have listed : candidate ∈ pending settings tree := by
    rw [← map_fst_renderAll settings (edition settings clock) tree (pending settings tree)]
    refine List.mem_map.mpr ⟨(candidate, none), ?_, rfl⟩
    rw [show (renderAll settings (edition settings clock) tree (pending settings tree)).2 = _
      from rendered]
    exact List.mem_append_right _ List.mem_cons_self
  have known := mem_documentNames_of_mem_documents document
  have areNames := isName_of_mem_documentNames (isName_of_mem_pending wellFormed candidate listed)
    known
  exact ((saving_spares clock unsaved).trans (run_spares clock scanned unshared)).item?_eq_some
    areNames (ne_nil_of_mem_documentNames known)
    (item?_renderAll (isName_of_mem_pending wellFormed) rendered last document)

end Run

/-! ### Runs without warnings and errors -/

/-- A run that ends with a report in which there are no warnings and no errors. -/
def QuietRun (settings : Settings) (clock : Clock) (before after : FileTree) : Prop :=
  ∃ report, run settings clock before = (after, .ok report) ∧ report.warnings = [] ∧
    report.errors = []

namespace QuietRun

variable {settings : Settings} {clock : Clock} {before after : FileTree}

theorem scanned (quiet : QuietRun settings clock before after) :
    ∃ modules, scanModules settings before = .ok modules := by
  obtain ⟨report, ends, _⟩ := quiet
  cases scanned : scanModules settings before with
  | ok modules => exact ⟨modules, rfl⟩
  | error failure =>
    rw [run_of_scan_error clock scanned] at ends
    exact nomatch (Prod.mk.inj ends).2

theorem after_eq (quiet : QuietRun settings clock before after) :
    (run settings clock before).1 = after := by
  obtain ⟨report, ends, _⟩ := quiet
  rw [ends]

/-- Every stage of such a run succeeded. -/
theorem stages (quiet : QuietRun settings clock before after) :
    renderWarnings settings clock before = [] ∧ (saving settings clock before).2 = [] ∧
      (pageIndexing settings clock before).2 = [] ∧
      (dataIndexing settings clock before).2 = [] := by
  obtain ⟨modules, scanned⟩ := quiet.scanned
  obtain ⟨report, ends, noWarnings, noErrors⟩ := quiet
  obtain ⟨warnings, errors⟩ := complaints_of_run_ok scanned ends
  rw [noWarnings] at warnings
  rw [noErrors] at errors
  obtain ⟨front, saved⟩ := List.append_eq_nil_iff.mp warnings.symm
  obtain ⟨pages, data⟩ := List.append_eq_nil_iff.mp errors.symm
  exact ⟨(List.append_eq_nil_iff.mp front).2, saved, pages, data⟩

theorem rendered (quiet : QuietRun settings clock before after) :
    ∀ result ∈ (rendering settings clock before).2, result.2 = none :=
  rendered_of_no_warnings quiet.stages.1

/-- Whether a run ended with a report without warnings and errors. -/
def isQuiet : Except Failure Report → Bool
  | .ok report => report.warnings.isEmpty && report.errors.isEmpty
  | .error _ => false

theorem of_isQuiet (quiet : isQuiet (run settings clock before).2 = true) :
    QuietRun settings clock before (run settings clock before).1 := by
  cases result : (run settings clock before).2 with
  | error failure =>
    rw [result] at quiet
    exact nomatch quiet
  | ok report =>
    rw [result, isQuiet, Bool.and_eq_true, List.isEmpty_iff, List.isEmpty_iff] at quiet
    exact ⟨report, Prod.ext rfl result, quiet⟩

end QuietRun

/-! ### A small engine -/

/-- A tree with modules, each given by its category and its name, that have no headers. -/
def smallEngine (modules : List (String × String)) : FileTree :=
  (Change.performAll {} (modules.flatMap fun (category, name) =>
    [.directory ("s/" ++ category ++ "/" ++ name ++ "/Public"),
      .file ("s/" ++ category ++ "/" ++ name ++ "/" ++ name ++ ".Build.cs") ""])).1

theorem smallEngine_wellFormed (modules : List (String × String)) :
    (smallEngine modules).WellFormed :=
  Change.performAll_wellFormed .empty _

/-- Settings for a small engine. -/
def smallSettings (version : String) (formats : List OutputFormat) (incremental : Bool) :
    Settings where
  sourceDir := "s"
  outputDir := "o"
  engineVersion := version
  moduleCategories := ["A", "B"]
  excludeDirs := []
  formats := formats
  incremental := incremental

/-- A clock that stands still. -/
def stillClock : Clock := { moment := ⟨0⟩ }

/-- The data of a module of a small engine. -/
def smallModule (category name : String) : ModuleData where
  name := name
  path := category ++ "/" ++ name
  category := category
  dependencies := {}
  classes := []
  functions := []
  enums := []
  structs := []
  description := none

end EngineDocs.Generation
