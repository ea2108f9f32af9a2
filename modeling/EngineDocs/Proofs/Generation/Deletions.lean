/-
This file says which documents an incremental run makes anew when some were deleted. Whether a
module is rendered again is decided by its fingerprint, by its overview and by its data file. The
data file of a module therefore always comes back; any other page comes back only when one of the
three gives the reason, and stays away when it alone was deleted.
-/

import EngineDocs.Proofs.FileTree.Erase
import EngineDocs.Proofs.Generation.Truthful

namespace EngineDocs.Generation

open FileTree
open Headers (descend)

/-- The path of a page of a module. -/
def pagePath (settings : Settings) (name page : String) : String :=
  Path.join (Output.moduleDirectory settings.outputDir name) page

/-- The path of the fingerprint file. -/
def fingerprintPath (settings : Settings) : String :=
  Path.join (Output.dataDirectory settings.outputDir) FingerprintStore.fileName

theorem pagePath_eq (settings : Settings) (name page : String) :
    pagePath settings name page = descend settings.outputDir ["modules", name, page] := rfl

theorem fingerprintPath_eq (settings : Settings) :
    fingerprintPath settings = descend settings.outputDir fingerprintNames := rfl

section IncrementalRun

variable {settings : Settings} {clock : Clock} {tree after : FileTree} {data : ModuleData}

/-! ### One run -/

theorem mem_pending_iff : (data, data.fingerprint) ∈ pending settings tree ↔
    data ∈ processed settings tree ∧
      isCurrent settings tree (openedStore settings tree) (data, data.fingerprint) = false := by
  rw [pending, List.mem_filter, Bool.not_eq_true']
  refine and_congr_left fun _ => ?_
  constructor
  · intro member
    obtain ⟨other, found, same⟩ := List.mem_map.mp member
    obtain ⟨rfl, _⟩ := Prod.mk.inj same
    exact found
  · exact fun member => List.mem_map_of_mem (f := fun data => (data, data.fingerprint)) member

/-- A document of a module that is rendered is there afterwards. -/
theorem QuietRun.isFile_of_mem_pending (quiet : QuietRun settings clock tree after)
    (wellFormed : tree.WellFormed) (rendered : (data, data.fingerprint) ∈ pending settings tree)
    {names : List String} (document : names ∈ documentNames settings data.name) :
    after.isFile (descend settings.outputDir names) = true := by
  obtain ⟨modules, scanned⟩ := quiet.scanned
  have listed := rendered
  rw [← map_fst_renderAll settings (edition settings clock) tree (pending settings tree)] at listed
  obtain ⟨⟨candidate, fault⟩, member, rfl⟩ := List.mem_map.mp listed
  obtain rfl : fault = none := quiet.rendered _ member
  rw [← quiet.after_eq]
  exact (run_grows clock scanned).isFile
    (isFile_renderAll (isName_of_mem_pending wellFormed) member document)

/-- No file goes away in a run. -/
theorem QuietRun.isFile_of_isFile (quiet : QuietRun settings clock tree after) {path : String}
    (there : tree.isFile path = true) : after.isFile path = true := by
  obtain ⟨modules, scanned⟩ := quiet.scanned
  rw [← quiet.after_eq]
  exact ((renderAll_grows tree).trans (run_grows clock scanned)).isFile there

theorem page_mem_documentNames (markdown : settings.wants .markdown = true) (name : String)
    {page : String} (known : page ∈ pageNames) :
    ["modules", name, page] ∈ documentNames settings name :=
  mem_documentNames_iff.mpr (Or.inl ⟨markdown, page, known, rfl⟩)

/-- No page of a module appears when no module of its name is rendered. -/
theorem QuietRun.page_isFile_of_isFile (quiet : QuietRun settings clock tree after)
    (wellFormed : tree.WellFormed) (markdown : settings.wants .markdown = true)
    (isName : Path.IsName data.name) {page : String} (known : page ∈ pageNames) {base : Location}
    (leads : tree.Leads settings.outputDir base)
    (unrendered : ∀ candidate ∈ pending settings tree, candidate.1.name ≠ data.name)
    (there : after.isFile (pagePath settings data.name page) = true) :
    tree.isFile (pagePath settings data.name page) = true := by
  obtain ⟨modules, scanned⟩ := quiet.scanned
  have document := page_mem_documentNames markdown data.name known
  have spared : Spared settings.outputDir ["modules", data.name, page] tree after := by
    rw [← quiet.after_eq]
    refine run_spares_from_start wellFormed scanned ?_ (fun _ same => ?_) fun shared => ?_
    · intro candidate rendered beside
      exact unrendered candidate rendered (name_eq_of_mem_documentNames beside document)
    · exact absurd (List.cons.inj same).1 (by decide)
    · have other := (eq_of_mem_sharedNames document shared).2.2.2
      exact absurd (List.cons.inj other).1 (by decide)
  rw [isFile_eq, pagePath_eq, Option.any_eq_true] at there ⊢
  obtain ⟨item, found, isFile⟩ := there
  exact ⟨item, spared.item?_eq_some_of_isFile wellFormed leads
    (isName_of_mem_documentNames isName document) (List.cons_ne_nil _ _) isFile found, isFile⟩

/-! ### What is left of the fingerprints -/

theorem previous_of_shrinks {left : FileTree} (shrinks : Shrinks left tree)
    (there : tree.isFile (fingerprintPath settings) = true) :
    (openedStore settings tree).previous = (openedStore settings left).previous := by
  rw [isFile_eq, fingerprintPath_eq, Option.any_eq_true] at there
  obtain ⟨item, found, _⟩ := there
  refine openedStore_previous_congr fun content => ?_
  rw [readText_eq_ok_iff, readText_eq_ok_iff, found, shrinks.item?_eq_some found]

theorem previous_of_missing (missing : tree.isFile (fingerprintPath settings) = false)
    (name : String) : (openedStore settings tree).previous[name]? = none := by
  cases recorded : (openedStore settings tree).previous[name]? with
  | none => rfl
  | some fingerprint =>
    obtain ⟨content, read⟩ := readText_of_previous recorded
    rw [readText_eq_ok_iff] at read
    rw [isFile_eq, fingerprintPath_eq, read] at missing
    exact nomatch missing

theorem leads_of_previous {name fingerprint : String}
    (recorded : (openedStore settings tree).previous[name]? = some fingerprint) :
    ∃ base, tree.Leads settings.outputDir base := by
  obtain ⟨content, read⟩ := readText_of_previous recorded
  rw [readText_eq_ok_iff, item?_descend_eq_some_iff tree (by decide) (by decide)] at read
  obtain ⟨_, base, leads, _⟩ := read
  exact ⟨base, leads⟩

/-- A module is left as it is exactly when its fingerprint is stored and both its overview and its
data file are there. -/
theorem isCurrent_iff (incremental : settings.incremental = true) :
    isCurrent settings tree (openedStore settings tree) (data, data.fingerprint) = true ↔
      (openedStore settings tree).previous[data.name]? = some data.fingerprint ∧
      (settings.wants .markdown = true →
        tree.isFile (pagePath settings data.name "overview.md") = true) ∧
      (settings.wants .json = true →
        tree.isFile (Output.moduleFile settings.outputDir data.name) = true) := by
  simp only [isCurrent, FingerprintStore.isUnchanged, outputsPresent, incremental, Bool.true_and,
    Bool.and_eq_true, Bool.or_eq_true, beq_iff_eq, Bool.not_eq_true', pagePath]
  refine and_congr_right fun _ => and_congr ?_ ?_
  · cases settings.wants .markdown <;> simp
  · cases settings.wants .json <;> simp

/-- A page is there after a run exactly when it was there before, or a module of its name was not
up to date. -/
theorem QuietRun.page_isFile_iff (quiet : QuietRun settings clock tree after)
    (wellFormed : tree.WellFormed) (incremental : settings.incremental = true)
    (markdown : settings.wants .markdown = true) (member : data ∈ processed settings tree)
    {page : String} (known : page ∈ pageNames) :
    after.isFile (pagePath settings data.name page) = true ↔
      tree.isFile (pagePath settings data.name page) = true ∨
        ∃ other ∈ processed settings tree, other.name = data.name ∧
          isCurrent settings tree (openedStore settings tree) (other, other.fingerprint) =
            false := by
  constructor
  · intro there
    by_cases stale : ∃ other ∈ processed settings tree, other.name = data.name ∧
        isCurrent settings tree (openedStore settings tree) (other, other.fingerprint) = false
    · exact Or.inr stale
    · have current : isCurrent settings tree (openedStore settings tree)
          (data, data.fingerprint) = true := by
        by_contra notCurrent
        exact stale ⟨data, member, rfl, Bool.eq_false_iff.mpr notCurrent⟩
      obtain ⟨base, leads⟩ := leads_of_previous ((isCurrent_iff incremental).mp current).1
      refine Or.inl (quiet.page_isFile_of_isFile wellFormed markdown
        (isName_of_mem_processed wellFormed member) known leads ?_ there)
      intro candidate rendered named
      obtain ⟨other, _, rfl⟩ := List.mem_map.mp (List.mem_of_mem_filter rendered)
      obtain ⟨found, notCurrent⟩ := mem_pending_iff.mp rendered
      exact stale ⟨other, found, named, notCurrent⟩
  · rintro (there | ⟨other, found, named, notCurrent⟩)
    · exact quiet.isFile_of_isFile there
    · rw [← named, pagePath_eq]
      exact quiet.isFile_of_mem_pending wellFormed (mem_pending_iff.mpr ⟨found, notCurrent⟩)
        (page_mem_documentNames markdown other.name known)

/-- A data file is always there after a run. -/
theorem QuietRun.moduleFile_isFile (quiet : QuietRun settings clock tree after)
    (wellFormed : tree.WellFormed) (incremental : settings.incremental = true)
    (json : settings.wants .json = true) (member : data ∈ processed settings tree) :
    after.isFile (Output.moduleFile settings.outputDir data.name) = true := by
  cases current : isCurrent settings tree (openedStore settings tree)
      (data, data.fingerprint) with
  | true => exact quiet.isFile_of_isFile (((isCurrent_iff incremental).mp current).2.2 json)
  | false =>
    rw [moduleFile_eq]
    exact quiet.isFile_of_mem_pending wellFormed (mem_pending_iff.mpr ⟨member, current⟩)
      (mem_documentNames_iff.mpr (Or.inr ⟨json, rfl⟩))

end IncrementalRun

/-! ### Deletions between two runs -/

section Deletions

variable {settings : Settings} {clock later : Clock} {before left after : FileTree}

/-- A run without warnings in which no two modules have one name leaves the fingerprints of all its
modules. -/
theorem previous_of_run_ok (incremental : settings.incremental = true) {report : Report}
    (ends : run settings clock before = (left, .ok report)) (noWarnings : report.warnings = [])
    (distinct : ((processed settings before).map (·.name)).Nodup) {data : ModuleData}
    (member : data ∈ processed settings before) :
    (openedStore settings left).previous[data.name]? = some data.fingerprint := by
  obtain ⟨modules, scanned⟩ := scanModules_of_mem_processed member
  have warnings := (complaints_of_run_ok scanned ends).1
  rw [noWarnings] at warnings
  obtain ⟨front, saved⟩ := List.append_eq_nil_iff.mp warnings.symm
  have rendered := rendered_of_no_warnings (List.append_eq_nil_iff.mp front).2
  have tree : left = (run settings clock before).1 := by rw [ends]
  rw [tree, getElem?_previous_run clock scanned incremental saved rfl, if_pos rfl]
  exact (lastFingerprint?_noted_iff distinct rendered _ _).mpr ⟨data, member, rfl, rfl⟩

theorem QuietRun.previous_of_mem (quiet : QuietRun settings clock before left)
    (incremental : settings.incremental = true)
    (distinct : ((processed settings before).map (·.name)).Nodup) {data : ModuleData}
    (member : data ∈ processed settings before) :
    (openedStore settings left).previous[data.name]? = some data.fingerprint := by
  obtain ⟨report, ends, noWarnings, _⟩ := quiet
  exact previous_of_run_ok incremental ends noWarnings distinct member

/-- A module of a name is not up to date in what is left after deletions exactly when the fingerprint
file, the overview or the data file is missing, or the fingerprint was not stored to begin with. -/
theorem not_current_iff (incremental : settings.incremental = true) {tree : FileTree}
    (shrinks : Shrinks left tree) {data : ModuleData} (member : data ∈ processed settings tree) :
    (∃ other ∈ processed settings tree, other.name = data.name ∧
        isCurrent settings tree (openedStore settings tree) (other, other.fingerprint) = false) ↔
      tree.isFile (fingerprintPath settings) = false ∨
      (settings.wants .markdown = true ∧
        tree.isFile (pagePath settings data.name "overview.md") = false) ∨
      (settings.wants .json = true ∧
        tree.isFile (Output.moduleFile settings.outputDir data.name) = false) ∨
      ∃ other ∈ processed settings tree, other.name = data.name ∧
        (openedStore settings left).previous[data.name]? ≠ some other.fingerprint := by
  constructor
  · rintro ⟨other, found, named, notCurrent⟩
    by_contra fine
    simp only [not_or, not_and, not_exists, Bool.not_eq_false, ne_eq, not_not] at fine
    obtain ⟨file, overview, dataFile, stored⟩ := fine
    refine absurd ((isCurrent_iff incremental).mpr ?_) (Bool.eq_false_iff.mp notCurrent)
    rw [named, previous_of_shrinks shrinks file]
    exact ⟨stored other found named, overview, dataFile⟩
  · rintro (missing | ⟨markdown, missing⟩ | ⟨json, missing⟩ | ⟨other, found, named, unstored⟩)
    · refine ⟨data, member, rfl, Bool.eq_false_iff.mpr fun current => ?_⟩
      have recorded := ((isCurrent_iff incremental).mp current).1
      rw [previous_of_missing missing] at recorded
      exact nomatch recorded
    · refine ⟨data, member, rfl, Bool.eq_false_iff.mpr fun current => ?_⟩
      rw [((isCurrent_iff incremental).mp current).2.1 markdown] at missing
      exact nomatch missing
    · refine ⟨data, member, rfl, Bool.eq_false_iff.mpr fun current => ?_⟩
      rw [((isCurrent_iff incremental).mp current).2.2 json] at missing
      exact nomatch missing
    · refine ⟨other, found, named, Bool.eq_false_iff.mpr fun current => ?_⟩
      have recorded := ((isCurrent_iff incremental).mp current).1
      cases file : tree.isFile (fingerprintPath settings) with
      | true =>
        rw [previous_of_shrinks shrinks file, named] at recorded
        exact unstored recorded
      | false =>
        rw [previous_of_missing file] at recorded
        exact nomatch recorded

/-- When things are deleted after a run, the next incremental run without warnings and errors brings
all data files back. It brings a page back exactly when the fingerprint file, the overview or the
data file of the module is missing too, or when the fingerprint of a module of its name was not
stored, which is not so after a first run without warnings in which no two modules have one
name. -/
theorem deleted_documents_return_iff (wellFormed : before.WellFormed)
    (incremental : settings.incremental = true) {report : Report}
    (first : run settings clock before = (left, .ok report)) (deleted : List Location)
    (same : processed settings (left.eraseAll deleted) = processed settings before)
    (second : QuietRun settings later (left.eraseAll deleted) after) {data : ModuleData}
    (member : data ∈ processed settings before) :
    (settings.wants .json = true →
      after.isFile (Output.moduleFile settings.outputDir data.name) = true) ∧
    (settings.wants .markdown = true → ∀ page ∈ pageNames,
      (after.isFile (pagePath settings data.name page) = true ↔
        (left.eraseAll deleted).isFile (pagePath settings data.name page) = true ∨
        (left.eraseAll deleted).isFile (fingerprintPath settings) = false ∨
        (left.eraseAll deleted).isFile (pagePath settings data.name "overview.md") = false ∨
        (settings.wants .json = true ∧
          (left.eraseAll deleted).isFile (Output.moduleFile settings.outputDir data.name) =
            false) ∨
        ∃ other ∈ processed settings before, other.name = data.name ∧
          (openedStore settings left).previous[data.name]? ≠ some other.fingerprint)) ∧
    (report.warnings = [] → ((processed settings before).map (·.name)).Nodup →
      ∀ other ∈ processed settings before, other.name = data.name →
        (openedStore settings left).previous[data.name]? = some other.fingerprint) := by
  have leftWellFormed : left.WellFormed := by
    have after := @run_wellFormed settings clock before wellFormed
    rw [first] at after
    exact after
  have remaining := eraseAll_wellFormed leftWellFormed deleted
  have present : data ∈ processed settings (left.eraseAll deleted) := by
    rw [same]
    exact member
  refine ⟨fun json => second.moduleFile_isFile remaining incremental json present, ?_, ?_⟩
  · intro markdown page known
    rw [second.page_isFile_iff remaining incremental markdown present known,
      not_current_iff incremental (eraseAll_shrinks left deleted) present, same]
    simp only [markdown, true_and]
  · intro noWarnings distinct other found named
    rw [← named]
    exact previous_of_run_ok incremental first noWarnings distinct found

end Deletions

/-! ### A small engine of which documents are deleted -/

/-- A tree after a first run that renders one module as pages. -/
def smallOutput : FileTree :=
  (run (smallSettings "1" [.markdown] true) stillClock (smallEngine [("A", "M")])).1

/-- The tree without a page and without the fingerprints. -/
def smallOutputWithoutFingerprints : FileTree :=
  smallOutput.eraseAll [["o", "modules", "M", "api.md"], ["o", "data", ".fingerprints.json"]]

/-- The tree without a page. -/
def smallOutputWithoutPage : FileTree :=
  smallOutput.eraseAll [["o", "modules", "M", "api.md"]]

theorem deleted_documents_return_iff_without_fingerprints :
    (smallEngine [("A", "M")]).WellFormed ∧
      QuietRun (smallSettings "1" [.markdown] true) stillClock (smallEngine [("A", "M")])
        smallOutput ∧
      QuietRun (smallSettings "1" [.markdown] true) stillClock smallOutputWithoutFingerprints
        (run (smallSettings "1" [.markdown] true) stillClock smallOutputWithoutFingerprints).1 ∧
      smallOutputWithoutFingerprints.isFile
        (pagePath (smallSettings "1" [.markdown] true) "M" "api.md") = false ∧
      (run (smallSettings "1" [.markdown] true) stillClock
        smallOutputWithoutFingerprints).1.isFile
          (pagePath (smallSettings "1" [.markdown] true) "M" "api.md") = true := by
  have facts : processed (smallSettings "1" [.markdown] true) (smallEngine [("A", "M")]) =
        [smallModule "A" "M"] ∧
      QuietRun.isQuiet (run (smallSettings "1" [.markdown] true) stillClock
        (smallEngine [("A", "M")])).2 = true ∧
      processed (smallSettings "1" [.markdown] true) smallOutputWithoutFingerprints =
        [smallModule "A" "M"] ∧
      QuietRun.isQuiet (run (smallSettings "1" [.markdown] true) stillClock
        smallOutputWithoutFingerprints).2 = true ∧
      smallOutputWithoutFingerprints.isFile
        (fingerprintPath (smallSettings "1" [.markdown] true)) = false ∧
      smallOutputWithoutFingerprints.isFile
        (pagePath (smallSettings "1" [.markdown] true) "M" "api.md") = false := by
    decide +kernel
  obtain ⟨found, firstQuiet, foundAgain, secondQuiet, missing, deleted⟩ := facts
  have second := QuietRun.of_isQuiet secondQuiet
  refine ⟨smallEngine_wellFormed _, QuietRun.of_isQuiet firstQuiet, second, deleted, ?_⟩
  obtain ⟨report, ends, _⟩ := QuietRun.of_isQuiet firstQuiet
  have returns := deleted_documents_return_iff (smallEngine_wellFormed _) rfl ends _
    (foundAgain.trans found.symm) second (found ▸ List.mem_singleton_self (smallModule "A" "M"))
  exact (returns.2.1 rfl "api.md" (by decide)).mpr (Or.inr (Or.inl missing))

/-- A page that alone is deleted stays away: the next run has no warnings and no errors, and
leaves the module as it is. -/
theorem deleted_page_stays_away :
    QuietRun (smallSettings "1" [.markdown] true) stillClock (smallEngine [("A", "M")])
        smallOutput ∧
      smallModule "A" "M" ∈
        processed (smallSettings "1" [.markdown] true) smallOutputWithoutPage ∧
      QuietRun (smallSettings "1" [.markdown] true) stillClock smallOutputWithoutPage
        (run (smallSettings "1" [.markdown] true) stillClock smallOutputWithoutPage).1 ∧
      "api.md" ∈ pageNames ∧
      (run (smallSettings "1" [.markdown] true) stillClock smallOutputWithoutPage).1.isFile
        (pagePath (smallSettings "1" [.markdown] true) "M" "api.md") = false := by
  have facts : QuietRun.isQuiet (run (smallSettings "1" [.markdown] true) stillClock
        (smallEngine [("A", "M")])).2 = true ∧
      processed (smallSettings "1" [.markdown] true) smallOutputWithoutPage =
        [smallModule "A" "M"] ∧
      QuietRun.isQuiet (run (smallSettings "1" [.markdown] true) stillClock
        smallOutputWithoutPage).2 = true ∧
      (run (smallSettings "1" [.markdown] true) stillClock smallOutputWithoutPage).1.isFile
        (pagePath (smallSettings "1" [.markdown] true) "M" "api.md") = false := by
    decide +kernel
  obtain ⟨firstQuiet, found, secondQuiet, away⟩ := facts
  exact ⟨QuietRun.of_isQuiet firstQuiet, found ▸ List.mem_singleton_self _,
    QuietRun.of_isQuiet secondQuiet, by decide, away⟩

end EngineDocs.Generation
