/-
This file shows what a full run does to the truth of a fingerprint file. A full run writes no
fingerprint file and takes none away, so the fingerprints that an earlier run stored stay. They stay
true exactly when every document that the full run wrote for a module of a stored name is one that
the stored fingerprint also stands for.
-/

import EngineDocs.Proofs.Generation.FullRuns
import EngineDocs.Proofs.Generation.Histories

namespace EngineDocs.Generation

open FileTree
open Headers (descend)

/-- The documents of the module that a full run rendered last under a name are, together with those
that it left alone, the documents of a module with the stored fingerprint. -/
def Agrees (settings full : Settings) (clock : Clock) (before : FileTree)
    (name fingerprint : String) (latest : ModuleData) : Prop :=
  ∃ data : ModuleData, data.name = name ∧ data.fingerprint = fingerprint ∧
    ∀ path ∈ wantedPaths settings name, ∃ moment content,
      Change.file path content ∈ moduleChanges settings ⟨settings.engineVersion, moment⟩ data ∧
        if path ∈ wantedPaths full name then
          Change.file path content ∈ moduleChanges full (edition full clock) latest
        else before.readText path = .ok content

section FullRun

variable {settings full : Settings} {clock : Clock} {before after : FileTree} {base : Location}

theorem mem_wantedPaths_iff (output : full.outputDir = settings.outputDir) {name : String}
    (isName : Path.IsName name) {names : List String}
    (areNames : ∀ step ∈ names, Path.IsName step) :
    descend settings.outputDir names ∈ wantedPaths full name ↔
      names ∈ documentNames full name := by
  rw [wantedPaths_eq, output]
  constructor
  · intro member
    obtain ⟨others, listed, same⟩ := List.mem_map.mp member
    rw [← Headers.descend_inj (isName_of_mem_documentNames isName listed) areNames same]
    exact listed
  · exact List.mem_map_of_mem

theorem agrees_iff (output : full.outputDir = settings.outputDir) {name fingerprint : String}
    (isName : Path.IsName name) {latest : ModuleData} (named : latest.name = name) :
    Agrees settings full clock before name fingerprint latest ↔
      ∃ data : ModuleData, data.name = name ∧ data.fingerprint = fingerprint ∧
        ∀ names ∈ documentNames settings name, ∃ moment content,
          (names, content) ∈ documents settings ⟨settings.engineVersion, moment⟩ data ∧
            if names ∈ documentNames full name then
              (names, content) ∈ documents full (edition full clock) latest
            else before.readText (descend settings.outputDir names) = .ok content := by
  refine exists_congr fun data => and_congr_right fun dataNamed => and_congr_right fun _ => ?_
  rw [wantedPaths_eq, List.forall_mem_map]
  refine forall₂_congr fun names known => exists₂_congr fun moment content => ?_
  have areNames := isName_of_mem_documentNames isName known
  have latestIff := @file_mem_moduleChanges_iff full (edition full clock) latest (named ▸ isName)
    names areNames content
  rw [output] at latestIff
  rw [file_mem_moduleChanges_iff (dataNamed ▸ isName) areNames, latestIff]
  simp only [mem_wantedPaths_iff output isName areNames]

/-- A full run writes over the fingerprint file only for a module of its name. -/
theorem QuietRun.previous_eq (quiet : QuietRun full clock before after)
    (wellFormed : before.WellFormed) (always : full.incremental = false)
    (output : full.outputDir = settings.outputDir) (leads : before.Leads settings.outputDir base)
    (free : ¬(full.wants .json = true ∧
      ∃ data ∈ processed full before, data.name = ".fingerprints")) :
    (openedStore settings after).previous = (openedStore settings before).previous := by
  refine openedStore_previous_congr fun content => ?_
  rw [← output] at leads ⊢
  refine (quiet.spares wellFormed always ?_ (fingerprintNames_not_mem_sharedNames full)).readText_iff
    wellFormed leads (by decide) (by decide) content
  intro data member document
  obtain ⟨wanted, named⟩ := eq_of_eq_fingerprintNames document
  exact free ⟨wanted, data, member, named⟩

/-- After a full run that writes over the fingerprint file, nothing is stored. -/
theorem QuietRun.previous_eq_empty (quiet : QuietRun full clock before after)
    (wellFormed : before.WellFormed) (always : full.incremental = false)
    (output : full.outputDir = settings.outputDir) (wanted : full.wants .json = true)
    (present : ∃ data ∈ processed full before, data.name = ".fingerprints") :
    (openedStore settings after).previous = {} := by
  cases last : lastNamed ".fingerprints" (processed full before) with
  | none =>
    obtain ⟨data, member, named⟩ := present
    exact absurd named (lastNamed_eq_none_iff.mp last data member)
  | some latest =>
    have named := (lastNamed_eq_some last).1
    have document : (fingerprintNames, String.ofList
        (DataFile.ofModule (edition full clock) latest).pretty) ∈
          documents full (edition full clock) latest := by
      have listed := (@mem_documents_data_iff full (edition full clock) latest _).mpr ⟨wanted, rfl⟩
      rw [named] at listed
      exact listed
    have file := quiet.item?_lastNamed wellFormed always last document
      (fingerprintNames_not_mem_sharedNames full)
    rw [← readText_eq_ok_iff, output] at file
    rw [openedStore_previous file, FingerprintStore.previousOf_ofModule]

/-- Whether a full run writes an index over the data file of a stored name. -/
def IsOverwritten (settings full : Settings) (name : String) : Prop :=
  settings.wants .json = true ∧ full.wants .json = true ∧ (name = "modules" ∨ name = "api-index")

theorem QuietRun.not_shows_of_isOverwritten (quiet : QuietRun full clock before after)
    (output : full.outputDir = settings.outputDir) {data : ModuleData}
    (isName : Path.IsName data.name) (overwritten : IsOverwritten settings full data.name) :
    ¬Shows settings after data := by
  intro shows
  obtain ⟨wanted, wantedToo, named⟩ := overwritten
  rw [shows_iff isName] at shows
  obtain ⟨moment, content, document, there⟩ := shows ["data", data.name ++ ".json"]
    (mem_documentNames_iff.mpr (Or.inr ⟨wanted, rfl⟩))
  obtain ⟨_, rfl⟩ := mem_documents_data_iff.mp document
  have index : ∃ document, (["data", data.name ++ ".json"], document) ∈
      dataIndices full clock before := by
    rcases named with same | same <;> rw [same]
    · exact ⟨_, List.mem_cons_self⟩
    · exact ⟨_, List.mem_cons_of_mem _ List.mem_cons_self⟩
  obtain ⟨document, index⟩ := index
  have written := quiet.item?_index wantedToo index
  rw [← readText_eq_ok_iff] at there written
  rw [output] at written
  exact pretty_ne_of_mem_dataIndices index _ data
    (String.ofList_injective (Except.ok.inj (written.symm.trans there)))

/-- A module of a name that was not overwritten by an index is shown after a full run exactly when
what the run wrote and what it left alone are its documents. -/
theorem QuietRun.item?_iff (quiet : QuietRun full clock before after)
    (wellFormed : before.WellFormed) (always : full.incremental = false)
    (output : full.outputDir = settings.outputDir) (leads : before.Leads settings.outputDir base)
    {name : String} (isName : Path.IsName name) (free : ¬IsOverwritten settings full name)
    {names : List String} (document : names ∈ documentNames settings name) (content : String) :
    after.item? (descend settings.outputDir names) = some (.file content.toUTF8) ↔
      match lastNamed name (processed full before) with
      | some latest =>
        if names ∈ documentNames full name then
          (names, content) ∈ documents full (edition full clock) latest
        else before.readText (descend settings.outputDir names) = .ok content
      | none => before.readText (descend settings.outputDir names) = .ok content := by
  have unshared : names ∉ sharedNames full := by
    intro shared
    obtain ⟨wanted, wantedToo, named, _⟩ := eq_of_mem_sharedNames document shared
    exact free ⟨wanted, wantedToo, named⟩
  have left : (∀ data ∈ processed full before, names ∉ documentNames full data.name) →
      (after.item? (descend settings.outputDir names) = some (.file content.toUTF8) ↔
        before.readText (descend settings.outputDir names) = .ok content) := by
    intro apart
    rw [← readText_eq_ok_iff]
    rw [← output] at leads ⊢
    exact (quiet.spares wellFormed always apart unshared).readText_iff wellFormed leads
      (isName_of_mem_documentNames isName document) (ne_nil_of_mem_documentNames document) content
  cases last : lastNamed name (processed full before) with
  | none =>
    refine left fun data member beside => ?_
    exact lastNamed_eq_none_iff.mp last data member (name_eq_of_mem_documentNames beside document)
  | some latest =>
    dsimp only
    by_cases rendered : names ∈ documentNames full name
    · rw [if_pos rendered, ← output]
      exact quiet.item?_iff_of_lastNamed wellFormed always last rendered unshared content
    · rw [if_neg rendered]
      refine left fun data member beside => rendered ?_
      rw [← name_eq_of_mem_documentNames beside document]
      exact beside

/-- A full run for another version leaves no data file that is for the old one. -/
theorem QuietRun.not_shows_of_version_ne (quiet : QuietRun full clock before after)
    (wellFormed : before.WellFormed) (always : full.incremental = false)
    (output : full.outputDir = settings.outputDir) (leads : before.Leads settings.outputDir base)
    (wanted : settings.wants .json = true) (wantedToo : full.wants .json = true)
    (versions : settings.engineVersion ≠ full.engineVersion) {data latest : ModuleData}
    (isName : Path.IsName data.name)
    (last : lastNamed data.name (processed full before) = some latest) :
    ¬Shows settings after data := by
  intro shows
  by_cases overwritten : IsOverwritten settings full data.name
  · exact quiet.not_shows_of_isOverwritten output isName overwritten shows
  · have document : ["data", data.name ++ ".json"] ∈ documentNames settings data.name :=
      mem_documentNames_iff.mpr (Or.inr ⟨wanted, rfl⟩)
    rw [shows_iff isName] at shows
    obtain ⟨moment, content, listed, there⟩ := shows _ document
    obtain ⟨_, rfl⟩ := mem_documents_data_iff.mp listed
    rw [quiet.item?_iff wellFormed always output leads isName overwritten document, last] at there
    dsimp only at there
    rw [if_pos (mem_documentNames_iff.mpr (Or.inr ⟨wantedToo, rfl⟩)),
      ← (lastNamed_eq_some last).1] at there
    have same := String.ofList_injective (mem_documents_data_iff.mp there).2
    exact versions (DataFile.document_inj_of_pretty_eq same).1

/-- A stored fingerprint stays true through a full run exactly when no index is written over the
data file of its name and the documents of the module that was rendered last under the name
agree with it. -/
theorem QuietRun.stored_iff (quiet : QuietRun full clock before after)
    (wellFormed : before.WellFormed) (always : full.incremental = false)
    (output : full.outputDir = settings.outputDir) (leads : before.Leads settings.outputDir base)
    {name fingerprint : String}
    (stored : ∃ data ∈ (Set.univ : Set ModuleData), data.name = name ∧
      data.fingerprint = fingerprint ∧ Path.IsName data.name ∧ Shows settings before data) :
    (∃ data ∈ (Set.univ : Set ModuleData), data.name = name ∧ data.fingerprint = fingerprint ∧
        Path.IsName data.name ∧ Shows settings after data) ↔
      ¬IsOverwritten settings full name ∧
        ∀ latest, lastNamed name (processed full before) = some latest →
          Agrees settings full clock before name fingerprint latest := by
  obtain ⟨old, _, rfl, fingerprinted, isName, shown⟩ := stored
  constructor
  · rintro ⟨data, _, named, same, isNameToo, shows⟩
    have free : ¬IsOverwritten settings full old.name := by
      rw [← named]
      exact fun overwritten => quiet.not_shows_of_isOverwritten output isNameToo overwritten shows
    refine ⟨free, fun latest last => ?_⟩
    rw [agrees_iff output isName (lastNamed_eq_some last).1]
    refine ⟨data, named, same, ?_⟩
    rw [shows_iff isNameToo, named] at shows
    intro names document
    obtain ⟨moment, content, listed, there⟩ := shows names document
    rw [quiet.item?_iff wellFormed always output leads isName free document, last] at there
    exact ⟨moment, content, listed, there⟩
  · rintro ⟨free, agrees⟩
    cases last : lastNamed old.name (processed full before) with
    | none =>
      refine ⟨old, trivial, rfl, fingerprinted, isName, ?_⟩
      rw [shows_iff isName] at shown ⊢
      intro names document
      obtain ⟨moment, content, listed, there⟩ := shown names document
      refine ⟨moment, content, listed, ?_⟩
      rw [quiet.item?_iff wellFormed always output leads isName free document, last]
      exact (readText_eq_ok_iff _ _ _).mpr there
    | some latest =>
      obtain ⟨data, named, same, each⟩ :=
        (agrees_iff output isName (lastNamed_eq_some last).1).mp (agrees latest last)
      refine ⟨data, trivial, named, same, named ▸ isName, ?_⟩
      rw [shows_iff (named ▸ isName), named]
      intro names document
      obtain ⟨moment, content, listed, left⟩ := each names document
      refine ⟨moment, content, listed, ?_⟩
      rw [quiet.item?_iff wellFormed always output leads isName free document, last]
      exact left

/-- A full run without warnings and errors leaves a truthful fingerprint file truthful exactly when
it writes over the file itself, or each stored fingerprint agrees with what the run wrote. -/
theorem truthful_after_full_run_iff (wellFormed : before.WellFormed)
    (there : before.isDirectory settings.outputDir = true)
    (truthful : Truthful Set.univ settings before) (output : full.outputDir = settings.outputDir)
    (always : full.incremental = false) (quiet : QuietRun full clock before after) :
    Truthful Set.univ settings after ↔
      (full.wants .json = true ∧ ∃ data ∈ processed full before, data.name = ".fingerprints") ∨
      ∀ name fingerprint, (openedStore settings before).previous[name]? = some fingerprint →
        ¬IsOverwritten settings full name ∧
          ∀ latest, lastNamed name (processed full before) = some latest →
            Agrees settings full clock before name fingerprint latest := by
  obtain ⟨base, leads⟩ := leads_of_isDirectory there
  by_cases lost : full.wants .json = true ∧
      ∃ data ∈ processed full before, data.name = ".fingerprints"
  · refine iff_of_true ?_ (Or.inl lost)
    intro name fingerprint recorded
    rw [quiet.previous_eq_empty wellFormed always output lost.1 lost.2] at recorded
    exact absurd recorded nofun
  · rw [or_iff_right lost, Truthful, quiet.previous_eq wellFormed always output leads lost]
    refine forall₃_congr fun name fingerprint recorded => ?_
    exact quiet.stored_iff wellFormed always output leads (truthful name fingerprint recorded)

end FullRun

/-! ### A small history with a full run -/

theorem smallHistory_truthful :
    Truthful Set.univ (smallSettings "1" [.json] true) smallHistory := by
  have history : History "o" {renderContext (smallSettings "1" [.json] true)}
      {(smallModule "A" "M").canonicalText} smallHistory := smallHistory_history rfl rfl
  have sound := (history.sound (Set.injOn_singleton _ _) (Set.injOn_singleton _ _)).2
  intro name fingerprint recorded
  obtain ⟨data, _, rest⟩ := sound _ rfl (by decide) rfl name fingerprint recorded
  exact ⟨data, trivial, rest⟩

theorem smallHistory_stored : ∃ fingerprint,
    (openedStore (smallSettings "1" [.json] true) smallHistory).previous["M"]? =
      some fingerprint := by
  have first : processed (smallSettings "1" [.json] true) (smallEngine [("A", "M")]) =
        [smallModule "A" "M"] ∧
      (saving (smallSettings "1" [.json] true) stillClock (smallEngine [("A", "M")])).2 = [] ∧
      (lastFingerprint? ((noted (smallSettings "1" [.json] true) stillClock
        (smallEngine [("A", "M")])).map fun candidate => (candidate.1.name, candidate.2))
          "M").isSome = true := by
    decide +kernel
  obtain ⟨found, saved, noted⟩ := first
  obtain ⟨modules, scanned⟩ := scanModules_of_mem_processed (found ▸ List.mem_singleton_self _)
  obtain ⟨fingerprint, stored⟩ := Option.isSome_iff_exists.mp noted
  refine ⟨fingerprint, ?_⟩
  rw [smallHistory, @getElem?_previous_run _ _ stillClock modules scanned rfl saved
    (smallSettings "1" [.json] true) rfl, if_pos rfl]
  exact stored

theorem truthful_after_full_run_iff_same_version :
    smallHistory.WellFormed ∧ smallHistory.isDirectory "o" = true ∧
      Truthful Set.univ (smallSettings "1" [.json] true) smallHistory ∧
      QuietRun (smallSettings "1" [.json] false) stillClock smallHistory
        (run (smallSettings "1" [.json] false) stillClock smallHistory).1 ∧
      (Truthful Set.univ (smallSettings "1" [.json] true)
          (run (smallSettings "1" [.json] false) stillClock smallHistory).1 ↔
        ((smallSettings "1" [.json] false).wants .json = true ∧
          ∃ data ∈ processed (smallSettings "1" [.json] false) smallHistory,
            data.name = ".fingerprints") ∨
        ∀ name fingerprint,
          (openedStore (smallSettings "1" [.json] true) smallHistory).previous[name]? =
              some fingerprint →
            ¬IsOverwritten (smallSettings "1" [.json] true) (smallSettings "1" [.json] false)
                name ∧
              ∀ latest, lastNamed name
                  (processed (smallSettings "1" [.json] false) smallHistory) = some latest →
                Agrees (smallSettings "1" [.json] true) (smallSettings "1" [.json] false)
                  stillClock smallHistory name fingerprint latest) := by
  have facts : smallHistory.isDirectory "o" = true ∧
      QuietRun.isQuiet (run (smallSettings "1" [.json] false) stillClock smallHistory).2 =
        true := by
    decide +kernel
  have wellFormed : smallHistory.WellFormed := run_wellFormed _ (smallEngine_wellFormed _)
  have quiet := QuietRun.of_isQuiet facts.2
  exact ⟨wellFormed, facts.1, smallHistory_truthful, quiet,
    truthful_after_full_run_iff wellFormed facts.1 smallHistory_truthful rfl rfl quiet⟩

/-- A full run for another version leaves fingerprints that are no longer true: the data file of
the module is for the new version, and its fingerprint still stands under the old one. -/
theorem not_truthful_after_full_run_for_another_version :
    smallHistory.WellFormed ∧ smallHistory.isDirectory "o" = true ∧
      Truthful Set.univ (smallSettings "1" [.json] true) smallHistory ∧
      QuietRun (smallSettings "2" [.json] false) stillClock smallHistory
        (run (smallSettings "2" [.json] false) stillClock smallHistory).1 ∧
      ¬Truthful Set.univ (smallSettings "1" [.json] true)
        (run (smallSettings "2" [.json] false) stillClock smallHistory).1 := by
  have facts : smallHistory.isDirectory "o" = true ∧
      processed (smallSettings "2" [.json] false) smallHistory = [smallModule "A" "M"] ∧
      QuietRun.isQuiet (run (smallSettings "2" [.json] false) stillClock smallHistory).2 =
        true := by
    decide +kernel
  obtain ⟨directory, found, isQuiet⟩ := facts
  have wellFormed : smallHistory.WellFormed := run_wellFormed _ (smallEngine_wellFormed _)
  have quiet := QuietRun.of_isQuiet isQuiet
  obtain ⟨base, leads⟩ := leads_of_isDirectory directory
  have free : ¬((smallSettings "2" [.json] false).wants .json = true ∧
      ∃ data ∈ processed (smallSettings "2" [.json] false) smallHistory,
        data.name = ".fingerprints") := by
    rw [found]
    decide
  have kept := @QuietRun.previous_eq (smallSettings "1" [.json] true) _ _ _ _ base quiet wellFormed
    rfl rfl leads free
  obtain ⟨fingerprint, stored⟩ := smallHistory_stored
  rw [← kept] at stored
  refine ⟨wellFormed, directory, smallHistory_truthful, quiet, fun truthful => ?_⟩
  obtain ⟨data, _, named, _, isName, shows⟩ := truthful "M" fingerprint stored
  have last : lastNamed data.name (processed (smallSettings "2" [.json] false) smallHistory) =
      some (smallModule "A" "M") := by
    rw [named, found]
    decide
  exact @QuietRun.not_shows_of_version_ne (smallSettings "1" [.json] true) _ _ _ _ base quiet
    wellFormed rfl rfl leads rfl rfl (by decide) data _ isName last shows

end EngineDocs.Generation
