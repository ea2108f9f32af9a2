/-
This file shows that incremental runs keep documents up to date. Whatever runs came before, and
whatever was changed outside the output directory between them, after a run the documents of each
module that could be written are those that its current data gives, up to the moments at which they
were made.

What carries the induction is that the fingerprint file stays truthful. A run may only skip a module
whose fingerprint is stored under the current context; the context fixes the version and the
formats, the fingerprint fixes the data, and no other module of the run writes at the same paths.
-/

import EngineDocs.Proofs.Generation.ContextText
import EngineDocs.Proofs.Generation.Truthful

namespace EngineDocs

open Headers (descend)

namespace Generation

open FileTree

/-! ### Documents that are shown -/

theorem Shows.congr {first second : Settings} {tree : FileTree} {data : ModuleData}
    (shows : Shows first tree data) (output : first.outputDir = second.outputDir)
    (version : first.engineVersion = second.engineVersion)
    (formats : first.formats = second.formats) : Shows second tree data := by
  have wants : first.wants = second.wants := by
    funext format
    rw [Settings.wants, Settings.wants, formats]
  simp only [Shows, wantedPaths, moduleChanges, output, version, wants] at shows ⊢
  exact shows

/-! ### Histories -/

/-- What is asked of each run of a history: it is an incremental one, its modules have names of
their own, its version has no bar, the fingerprint file can be saved, and what it takes digests of
is among the given contexts and texts. -/
structure Proper (output : String) (contexts texts : Set String) (settings : Settings)
    (clock : Clock) (tree : FileTree) : Prop where
  outputDir : settings.outputDir = output
  incremental : settings.incremental = true
  distinct : ((processed settings tree).map (·.name)).Nodup
  unreserved : ∀ data ∈ processed settings tree, data.name ∉ reservedNames
  plain : '|' ∉ settings.engineVersion.toList
  saved : (∃ modules, scanModules settings tree = .ok modules) → (saving settings clock tree).2 = []
  context : renderContext settings ∈ contexts
  text : ∀ data ∈ processed settings tree, data.canonicalText ∈ texts

/-- The trees that come from an empty output directory by runs, and by changes that touch nothing
in it. -/
inductive History (output : String) (contexts texts : Set String) : FileTree → Prop where
  | empty {tree : FileTree} (wellFormed : tree.WellFormed)
      (nothing : ∀ names, names ≠ [] → (∀ name ∈ names, Path.IsName name) →
        tree.item? (descend output names) = none) :
      History output contexts texts tree
  | edit {before after : FileTree} (history : History output contexts texts before)
      (wellFormed : after.WellFormed)
      (untouched : ∀ names, names ≠ [] → (∀ name ∈ names, Path.IsName name) →
        after.item? (descend output names) = before.item? (descend output names)) :
      History output contexts texts after
  | run {tree : FileTree} (history : History output contexts texts tree) {settings : Settings}
      {clock : Clock} (proper : Proper output contexts texts settings clock tree) :
      History output contexts texts (Generation.run settings clock tree).1

section Run

variable {output : String} {contexts texts : Set String} {settings : Settings} {clock : Clock}
  {tree : FileTree}

/-- A module that is left as it is keeps its documents. -/
theorem shows_run_of_unchanged (proper : Proper output contexts texts settings clock tree)
    (wellFormed : tree.WellFormed) {modules : List ModuleInfo}
    (scanned : scanModules settings tree = .ok modules) {data : ModuleData}
    (kept : (data, data.fingerprint) ∈ unchanged settings tree)
    (shows : Shows settings tree data) : Shows settings (run settings clock tree).1 data := by
  obtain ⟨member, current⟩ := List.mem_filter.mp kept
  obtain ⟨_, isProcessed, same⟩ := List.mem_map.mp member
  obtain ⟨rfl, _⟩ := Prod.mk.inj same
  have isName := isName_of_mem_processed wellFormed isProcessed
  have unreserved := proper.unreserved _ isProcessed
  rw [shows_iff isName] at shows ⊢
  intro names document
  obtain ⟨moment, content, listed, there⟩ := shows names document
  refine ⟨moment, content, listed, ?_⟩
  refine Spared.item?_eq_some (run_spares_from_start wellFormed scanned ?_
    (fun _ => ne_fingerprintNames_of_unreserved unreserved document)
    (not_mem_sharedNames_of_unreserved unreserved document))
    (isName_of_mem_documentNames isName document) (ne_nil_of_mem_documentNames document) there
  -- A module that is rendered at the same place would be this one, and this one is not rendered.
  intro candidate rendered beside
  obtain ⟨found, stale⟩ := List.mem_filter.mp rendered
  obtain ⟨other, isProcessedToo, rfl⟩ := List.mem_map.mp found
  have sameName := name_eq_of_mem_documentNames beside document
  have sameData := List.inj_on_of_nodup_map proper.distinct isProcessedToo isProcessed sameName
  rw [sameData, current] at stale
  exact absurd stale (by decide)

/-- A module whose documents were written has them. -/
theorem shows_run_of_rendered (proper : Proper output contexts texts settings clock tree)
    (wellFormed : tree.WellFormed) {modules : List ModuleInfo}
    (scanned : scanModules settings tree = .ok modules) {data : ModuleData}
    (member : ((data, data.fingerprint), none) ∈ (rendering settings clock tree).2) :
    Shows settings (run settings clock tree).1 data := by
  have names : (((rendering settings clock tree).2.map Prod.fst).map (·.1.name)).Nodup := by
    have distinct := proper.distinct
    rw [rendering, map_fst_renderAll]
    refine List.Nodup.sublist (List.filter_sublist.map _) ?_
    rw [candidates, List.map_map]
    exact distinct
  have rendered := List.mem_map_of_mem (f := Prod.fst) member
  rw [rendering, map_fst_renderAll] at rendered
  have isName := isName_of_mem_pending wellFormed _ rendered
  obtain ⟨_, isProcessed, same⟩ := List.mem_map.mp (List.mem_of_mem_filter rendered)
  obtain ⟨rfl, _⟩ := Prod.mk.inj same
  have unreserved := proper.unreserved _ isProcessed
  obtain ⟨front, back, split⟩ := List.append_of_mem member
  rw [shows_iff isName]
  intro places document
  obtain ⟨content, listed⟩ := @exists_mem_documents settings (edition settings clock) _ _ document
  refine ⟨clock.moment, content, listed, item?_run wellFormed scanned split ?_ listed
    (fun _ => ne_fingerprintNames_of_unreserved unreserved document)
    (not_mem_sharedNames_of_unreserved unreserved document)⟩
  rw [split, List.map_append, List.map_append, List.map_cons, List.map_cons, List.nodup_middle,
    List.nodup_cons] at names
  intro result later sameName
  refine names.1 (List.mem_append_right _ ?_)
  rw [← sameName]
  exact List.mem_map_of_mem (f := fun candidate : Fingerprinted => candidate.1.name)
    (List.mem_map_of_mem (f := Prod.fst) later)

/-- Every module whose fingerprint a run notes has its documents after the run. -/
theorem shows_run_of_noted (collisionFree : Set.InjOn Digest.ofString texts)
    (truthful : Truthful {data | data.canonicalText ∈ texts} settings tree)
    (proper : Proper output contexts texts settings clock tree) (wellFormed : tree.WellFormed)
    {modules : List ModuleInfo} (scanned : scanModules settings tree = .ok modules)
    {data : ModuleData} (member : (data, data.fingerprint) ∈ noted settings clock tree) :
    Shows settings (run settings clock tree).1 data := by
  have isProcessed := (mem_processed_of_mem_noted member).1
  rcases List.mem_append.mp member with kept | written
  · refine shows_run_of_unchanged proper wellFormed scanned kept ?_
    have current := (List.mem_filter.mp kept).2
    simp only [isCurrent, FingerprintStore.isUnchanged, Bool.and_eq_true, beq_iff_eq] at current
    obtain ⟨stored, known, _, fingerprinted, _, shows⟩ := truthful _ _ current.1.2
    have sameText := collisionFree known (proper.text data isProcessed) fingerprinted
    rw [ModuleData.canonicalText_injective sameText] at shows
    exact shows
  · obtain ⟨⟨candidate, fault⟩, listed, rfl⟩ := List.mem_map.mp written
    obtain ⟨rendered, succeeded⟩ := List.mem_filter.mp listed
    obtain rfl := Option.isNone_iff_eq_none.mp succeeded
    exact shows_run_of_rendered proper wellFormed scanned rendered

end Run

/-! ### The invariant of a history -/

/-- The fingerprint file is truthful under every context that a run may have. -/
def Sound (output : String) (contexts texts : Set String) (tree : FileTree) : Prop :=
  ∀ settings : Settings, settings.outputDir = output → '|' ∉ settings.engineVersion.toList →
    renderContext settings ∈ contexts → Truthful {data | data.canonicalText ∈ texts} settings tree

section Invariant

variable {output : String} {contexts texts : Set String}

/-- A run leaves the fingerprint file truthful. -/
theorem sound_run (contextsFree : Set.InjOn Digest.ofString contexts)
    (textsFree : Set.InjOn Digest.ofString texts) {settings : Settings} {clock : Clock}
    {tree : FileTree} (wellFormed : tree.WellFormed) (sound : Sound output contexts texts tree)
    (proper : Proper output contexts texts settings clock tree) :
    Sound output contexts texts (run settings clock tree).1 := by
  cases scanned : scanModules settings tree with
  | error failure =>
    rw [run_of_scan_error clock scanned]
    exact sound
  | ok modules =>
    intro next nextOutput nextPlain nextContext name fingerprint recorded
    have output := nextOutput.trans proper.outputDir.symm
    rw [getElem?_previous_run clock scanned proper.incremental (proper.saved ⟨modules, scanned⟩)
      output] at recorded
    split at recorded
    · rename_i sameDigest
      have sameContext := contextsFree proper.context nextContext sameDigest
      obtain ⟨version, formats⟩ := renderContext_inj proper.plain nextPlain sameContext
      obtain ⟨data, isProcessed, member, rfl, rfl⟩ := exists_noted_of_lastFingerprint? recorded
      have truthful := sound settings proper.outputDir proper.plain proper.context
      exact ⟨data, proper.text data isProcessed, rfl, rfl,
        isName_of_mem_processed wellFormed isProcessed,
        (shows_run_of_noted textsFree truthful proper wellFormed scanned member).congr output.symm
          version formats⟩
    · exact nomatch recorded

theorem History.sound (contextsFree : Set.InjOn Digest.ofString contexts)
    (textsFree : Set.InjOn Digest.ofString texts) {tree : FileTree}
    (history : History output contexts texts tree) :
    tree.WellFormed ∧ Sound output contexts texts tree := by
  induction history with
  | empty wellFormed nothing =>
    refine ⟨wellFormed, fun settings inside _ _ => truthful_of_no_file ?_⟩
    rw [inside]
    exact nothing fingerprintNames (by decide) (by decide)
  | edit _ wellFormed untouched inductionHypothesis =>
    refine ⟨wellFormed, fun settings inside plain context => ?_⟩
    refine (inductionHypothesis.2 settings inside plain context).congr ?_
    rw [inside]
    exact untouched
  | run _ proper inductionHypothesis =>
    exact ⟨run_wellFormed _ inductionHypothesis.1,
      sound_run contextsFree textsFree inductionHypothesis.1 inductionHypothesis.2 proper⟩

/-- After every run of a history, each module whose rendering did not fail has the documents that
its current data gives with the current version, up to the moments at which they were made. -/
theorem History.shows_after_run (contextsFree : Set.InjOn Digest.ofString contexts)
    (textsFree : Set.InjOn Digest.ofString texts) {tree : FileTree}
    (history : History output contexts texts tree) {settings : Settings} {clock : Clock}
    (proper : Proper output contexts texts settings clock tree) {data : ModuleData}
    (member : data ∈ processed settings tree)
    (succeeded : ∀ fault, ((data, data.fingerprint), some fault) ∉ (rendering settings clock tree).2) :
    Shows settings (Generation.run settings clock tree).1 data := by
  obtain ⟨wellFormed, sound⟩ := history.sound contextsFree textsFree
  obtain ⟨modules, scanned⟩ := scanModules_of_mem_processed member
  exact shows_run_of_noted textsFree
    (sound settings proper.outputDir proper.plain proper.context) proper wellFormed scanned
    (mem_noted_of_mem_processed member succeeded)

end Invariant

/-! ### A small history -/

/-- The tree of a small engine after a run for version 1. -/
def smallHistory : FileTree :=
  (run (smallSettings "1" [.json] true) stillClock (smallEngine [("A", "M")])).1

theorem smallHistory_proper {contexts texts : Set String} {version : String} {tree : FileTree}
    (found : processed (smallSettings version [.json] true) tree = [smallModule "A" "M"])
    (plain : '|' ∉ version.toList)
    (saved : (saving (smallSettings version [.json] true) stillClock tree).2 = [])
    (context : renderContext (smallSettings version [.json] true) ∈ contexts)
    (text : (smallModule "A" "M").canonicalText ∈ texts) :
    Proper "o" contexts texts (smallSettings version [.json] true) stillClock tree where
  outputDir := rfl
  incremental := rfl
  distinct := by
    rw [found]
    exact List.nodup_singleton _
  unreserved data member := by
    rw [found, List.mem_singleton] at member
    rw [member]
    decide
  plain := plain
  saved _ := saved
  context := context
  text data member := by
    rw [found, List.mem_singleton] at member
    rw [member]
    exact text

theorem smallHistory_history {contexts texts : Set String}
    (context : renderContext (smallSettings "1" [.json] true) ∈ contexts)
    (text : (smallModule "A" "M").canonicalText ∈ texts) :
    History "o" contexts texts smallHistory := by
  have first : processed (smallSettings "1" [.json] true) (smallEngine [("A", "M")]) =
        [smallModule "A" "M"] ∧
      (saving (smallSettings "1" [.json] true) stillClock (smallEngine [("A", "M")])).2 = [] ∧
      (smallEngine [("A", "M")]).follow ((smallEngine [("A", "M")]).start "o") (steps "o") =
        .ok ["o"] ∧
      ((smallEngine [("A", "M")]).at? ["o"]).isNone = true := by
    decide +kernel
  obtain ⟨found, saved, leads, missing⟩ := first
  refine .run (.empty (smallEngine_wellFormed _) fun names nonempty areNames => ?_)
    (smallHistory_proper found (by decide) saved context text)
  exact item?_eq_none_of_missing leads (Option.isNone_iff_eq_none.mp missing) nonempty areNames

theorem History.shows_after_run_twice :
    ∃ contexts texts : Set String, ∃ data,
      Set.InjOn Digest.ofString contexts ∧ Set.InjOn Digest.ofString texts ∧
      History "o" contexts texts smallHistory ∧
      Proper "o" contexts texts (smallSettings "2" [.json] true) stillClock smallHistory ∧
      data ∈ processed (smallSettings "2" [.json] true) smallHistory ∧
      (∀ fault, ((data, data.fingerprint), some fault) ∉
        (rendering (smallSettings "2" [.json] true) stillClock smallHistory).2) ∧
      Shows (smallSettings "2" [.json] true)
        (Generation.run (smallSettings "2" [.json] true) stillClock smallHistory).1 data := by
  have second : processed (smallSettings "2" [.json] true) smallHistory =
        [smallModule "A" "M"] ∧
      QuietRun.isQuiet (Generation.run (smallSettings "2" [.json] true) stillClock
        smallHistory).2 = true := by
    decide +kernel
  have different : Digest.ofString (renderContext (smallSettings "1" [.json] true)) ≠
      Digest.ofString (renderContext (smallSettings "2" [.json] true)) := by
    decide +kernel
  obtain ⟨found, isQuiet⟩ := second
  have quiet := QuietRun.of_isQuiet isQuiet
  let contexts : Set String := {renderContext (smallSettings "1" [.json] true),
    renderContext (smallSettings "2" [.json] true)}
  let texts : Set String := {(smallModule "A" "M").canonicalText}
  have contextsFree : Set.InjOn Digest.ofString contexts :=
    Set.injOn_pair.mpr fun same => absurd same different
  have textsFree : Set.InjOn Digest.ofString texts := Set.injOn_singleton _ _
  have history : History "o" contexts texts smallHistory :=
    smallHistory_history (Or.inl rfl) rfl
  have proper : Proper "o" contexts texts (smallSettings "2" [.json] true) stillClock
      smallHistory :=
    smallHistory_proper found (by decide) quiet.stages.2.1 (Or.inr rfl) rfl
  have member : smallModule "A" "M" ∈ processed (smallSettings "2" [.json] true) smallHistory := by
    rw [found]
    exact List.mem_singleton_self _
  have succeeded : ∀ fault, ((smallModule "A" "M", (smallModule "A" "M").fingerprint), some fault) ∉
      (rendering (smallSettings "2" [.json] true) stillClock smallHistory).2 :=
    fun fault listed => absurd (quiet.rendered _ listed) nofun
  exact ⟨contexts, texts, smallModule "A" "M", contextsFree, textsFree, history, proper, member,
    succeeded, History.shows_after_run contextsFree textsFree history proper member succeeded⟩

end Generation

end EngineDocs
