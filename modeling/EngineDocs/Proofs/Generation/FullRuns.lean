/-
This file says what a full run leaves on the disk. A run that is not incremental renders every
module that it finds: of several modules of one name the last one wins, the two indices win over
modules of their names, and all other documents stay as they were.
-/

import EngineDocs.Proofs.Generation.Truthful

namespace EngineDocs.Generation

open FileTree
open Headers (descend)

/-! ### The last module of a name -/

theorem lastNamed_eq_some {name : String} {modules : List ModuleData} {data : ModuleData}
    (last : lastNamed name modules = some data) :
    data.name = name ∧ ∃ front back, modules = front ++ data :: back ∧
      ∀ other ∈ back, other.name ≠ name := by
  obtain ⟨named, before, behind, form, others⟩ := List.find?_eq_some_iff_append.mp last
  refine ⟨beq_iff_eq.mp named, behind.reverse, before.reverse, ?_, ?_⟩
  · rw [← List.reverse_reverse modules, form, List.reverse_append, List.reverse_cons,
      List.append_assoc, List.singleton_append]
  · intro other member
    have different := others other (List.mem_reverse.mp member)
    simpa using different

theorem lastNamed_eq_none_iff {name : String} {modules : List ModuleData} :
    lastNamed name modules = none ↔ ∀ data ∈ modules, data.name ≠ name := by
  simp [lastNamed]

/-! ### What a full run writes -/

section Quiet

variable {full : Settings} {clock : Clock} {before after : FileTree}

theorem pending_eq_candidates (always : full.incremental = false) (tree : FileTree) :
    pending full tree = candidates full tree := by
  refine List.filter_eq_self.mpr fun candidate _ => ?_
  rw [isCurrent, always]
  rfl

/-- A full run leaves alone what is neither a document of one of its modules nor a file about all
modules. -/
theorem QuietRun.spares (quiet : QuietRun full clock before after) (wellFormed : before.WellFormed)
    (always : full.incremental = false) {names : List String}
    (apart : ∀ data ∈ processed full before, names ∉ documentNames full data.name)
    (unshared : names ∉ sharedNames full) : Spared full.outputDir names before after := by
  obtain ⟨modules, scanned⟩ := quiet.scanned
  rw [← quiet.after_eq]
  refine run_spares_from_start wellFormed scanned ?_ ?_ unshared
  · rw [pending_eq_candidates always]
    intro candidate member
    obtain ⟨data, found, rfl⟩ := List.mem_map.mp member
    exact apart data found
  · rw [always]
    exact nofun

/-- A full run leaves the documents of the last module of each name. -/
theorem QuietRun.item?_lastNamed (quiet : QuietRun full clock before after)
    (wellFormed : before.WellFormed) (always : full.incremental = false) {name : String}
    {latest : ModuleData} (last : lastNamed name (processed full before) = some latest)
    {names : List String} {content : String}
    (document : (names, content) ∈ documents full (edition full clock) latest)
    (unshared : names ∉ sharedNames full) :
    after.item? (descend full.outputDir names) = some (.file content.toUTF8) := by
  obtain ⟨modules, scanned⟩ := quiet.scanned
  obtain ⟨rfl, front, back, form, others⟩ := lastNamed_eq_some last
  have order : (rendering full clock before).2.map Prod.fst =
      front.map (fun data => (data, data.fingerprint)) ++ (latest, latest.fingerprint) ::
        back.map fun data => (data, data.fingerprint) := by
    rw [rendering, map_fst_renderAll, pending_eq_candidates always, candidates, form,
      List.map_append, List.map_cons]
  obtain ⟨first, rest, split, _, tail⟩ := List.map_eq_append_iff.mp order
  obtain ⟨result, later, rfl, here, behind⟩ := List.map_eq_cons_iff.mp tail
  obtain ⟨candidate, fault⟩ := result
  have succeeded := quiet.rendered (candidate, fault)
    (by rw [split]; exact List.mem_append_right _ List.mem_cons_self)
  dsimp only at here succeeded
  subst here succeeded
  rw [← quiet.after_eq]
  have unsaved : full.incremental = true → names ≠ fingerprintNames := by
    intro incremental
    exact absurd (always.symm.trans incremental) Bool.false_ne_true
  refine item?_run wellFormed scanned split ?_ document unsaved unshared
  intro result member
  have listed := List.mem_map_of_mem (f := Prod.fst) member
  rw [behind] at listed
  obtain ⟨data, inside, same⟩ := List.mem_map.mp listed
  rw [← same]
  exact others data inside

/-- At a place for the documents of a module of a name that is rendered, the text after a full run
is that of the last module of the name. -/
theorem QuietRun.item?_iff_of_lastNamed (quiet : QuietRun full clock before after)
    (wellFormed : before.WellFormed) (always : full.incremental = false) {name : String}
    {latest : ModuleData} (last : lastNamed name (processed full before) = some latest)
    {names : List String} (document : names ∈ documentNames full name)
    (unshared : names ∉ sharedNames full) (content : String) :
    after.item? (descend full.outputDir names) = some (.file content.toUTF8) ↔
      (names, content) ∈ documents full (edition full clock) latest := by
  refine ⟨fun there => ?_, fun listed =>
    quiet.item?_lastNamed wellFormed always last listed unshared⟩
  rw [← (lastNamed_eq_some last).1] at document
  obtain ⟨written, listed⟩ := @exists_mem_documents full (edition full clock) _ _ document
  have found := quiet.item?_lastNamed wellFormed always last listed unshared
  rw [← readText_eq_ok_iff] at there found
  rw [Except.ok.inj (there.symm.trans found)]
  exact listed

/-! ### What a full run writes about all modules -/

theorem attempt_done {complaint : String} {changes : List Change} {tree : FileTree}
    (quiet : (attempt true complaint changes tree).2 = []) :
    (Change.performAll tree changes).2 = none ∧
      (attempt true complaint changes tree).1 = (Change.performAll tree changes).1 := by
  rw [attempt, if_pos rfl] at quiet ⊢
  split at quiet
  · rename_i performed
    rw [performed]
    exact ⟨rfl, rfl⟩
  · exact absurd quiet (List.cons_ne_nil _ _)

/-- The two indices in JSON, each with the names on the way to it. -/
def dataIndices (full : Settings) (clock : Clock) (before : FileTree) :
    List (List String × Json) :=
  [(["data", "modules.json"],
      DataFile.modulesIndex (edition full clock) (processed full before)),
    (["data", "api-index.json"],
      DataFile.apiIndex (edition full clock) (processed full before))]

theorem QuietRun.item?_index (quiet : QuietRun full clock before after)
    (wanted : full.wants .json = true) {names : List String} {document : Json}
    (index : (names, document) ∈ dataIndices full clock before) :
    after.item? (descend full.outputDir names) =
      some (.file (String.ofList document.pretty).toUTF8) := by
  obtain ⟨modules, scanned⟩ := quiet.scanned
  obtain ⟨report, output, last⟩ := run_fst_eq clock scanned
  have areNames : ∀ name ∈ names, Path.IsName name := by
    simp only [dataIndices, List.mem_cons, Prod.mk.injEq, List.not_mem_nil, or_false] at index
    rcases index with ⟨rfl, _⟩ | ⟨rfl, _⟩ <;> decide
  have nonempty : names ≠ [] := by
    rintro rfl
    simp [dataIndices] at index
  have notReport : names ≠ ["generation_report.txt"] := by
    rintro rfl
    simp [dataIndices] at index
  have stage := quiet.stages.2.2.2
  rw [← quiet.after_eq, last]
  refine (Change.performAll_spares _ (reportChanges_spare clock output notReport)).item?_eq_some
    areNames nonempty ?_
  rw [dataIndexing, wanted] at stage ⊢
  obtain ⟨done, tree⟩ := attempt_done stage
  rw [tree]
  refine Change.item?_performAll_of_mem areNames nonempty ?_ ?_ done
  · intro change member
    simp only [Output.modulesIndex, Output.apiIndex, Output.dataFile, List.cons_append,
      List.nil_append, List.mem_cons, List.not_mem_nil, or_false] at member
    simp only [dataIndices, List.mem_cons, Prod.mk.injEq, List.not_mem_nil, or_false] at index
    rcases index with ⟨rfl, rfl⟩ | ⟨rfl, rfl⟩ <;> rcases member with rfl | rfl | rfl | rfl
    · exact Or.inl trivial
    · exact Or.inr rfl
    · exact Or.inl trivial
    · exact Or.inl ⟨["data", "api-index.json"], rfl, by decide, by decide⟩
    · exact Or.inl trivial
    · exact Or.inl ⟨["data", "modules.json"], rfl, by decide, by decide⟩
    · exact Or.inl trivial
    · exact Or.inr rfl
  · simp only [dataIndices, List.mem_cons, Prod.mk.injEq, List.not_mem_nil, or_false] at index
    rcases index with ⟨rfl, rfl⟩ | ⟨rfl, rfl⟩
    · exact List.mem_append_left _ (List.mem_cons_of_mem _ List.mem_cons_self)
    · exact List.mem_append_right _ (List.mem_cons_of_mem _ List.mem_cons_self)

/-- An index is no data file of a module. -/
theorem pretty_ne_of_mem_dataIndices {names : List String} {document : Json}
    (index : (names, document) ∈ dataIndices full clock before) (edition : Edition)
    (data : ModuleData) : document.pretty ≠ (DataFile.ofModule edition data).pretty := by
  intro same
  simp only [dataIndices, List.mem_cons, Prod.mk.injEq, List.not_mem_nil, or_false] at index
  rcases index with ⟨_, rfl⟩ | ⟨_, rfl⟩ <;>
    exact absurd (DataFile.document_inj_of_pretty_eq same).2 (by decide)

end Quiet

end EngineDocs.Generation
