/-
This file says when a fingerprint file is truthful: each fingerprint that it stores belongs to a
module whose documents are on the disk. It also says which names of modules clash with the files
about all modules, and when the documents of a module survive a run.
-/

import EngineDocs.Proofs.Generation.Stages
import Mathlib.Data.Set.Function

namespace EngineDocs.Generation

open FileTree
open Headers (descend)

/-! ### Names that clash -/

/-- The names of modules whose data files are also files about all modules. -/
def reservedNames : List String := ["modules", "api-index", ".fingerprints"]

/-- A document of a module is also a file about all modules only when the module has the name of
one of the two indices. -/
theorem eq_of_mem_sharedNames {settings others : Settings} {name : String} {names : List String}
    (document : names ∈ documentNames settings name) (shared : names ∈ sharedNames others) :
    settings.wants .json = true ∧ others.wants .json = true ∧
      (name = "modules" ∨ name = "api-index") ∧ names = ["data", name ++ ".json"] := by
  rw [sharedNames] at shared
  simp only [List.mem_append, List.mem_singleton] at shared
  rcases mem_documentNames_iff.mp document with ⟨_, page, _, rfl⟩ | ⟨wanted, rfl⟩
  · rcases shared with (pages | data) | report
    · split at pages <;> simp at pages
    · split at data <;> simp at data
    · simp at report
  · rcases shared with (pages | data) | report
    · split at pages <;> simp at pages
    · split at data
      · rename_i wantedToo
        refine ⟨wanted, wantedToo, ?_, rfl⟩
        rw [List.mem_pair, List.cons.injEq, List.cons.injEq, List.cons.injEq, List.cons.injEq] at data
        rcases data with ⟨_, same, _⟩ | ⟨_, same, _⟩
        · exact Or.inl (@json_append_inj name "modules" same)
        · exact Or.inr (@json_append_inj name "api-index" same)
      · simp at data
    · simp at report

theorem eq_of_eq_fingerprintNames {settings : Settings} {name : String}
    (document : fingerprintNames ∈ documentNames settings name) :
    settings.wants .json = true ∧ name = ".fingerprints" := by
  rcases mem_documentNames_iff.mp document with ⟨_, page, _, same⟩ | ⟨wanted, same⟩
  · exact absurd (List.cons.inj same).1 (by decide)
  · exact ⟨wanted, (json_append_inj (List.cons.inj (List.cons.inj same).2).1.symm)⟩

theorem not_mem_sharedNames_of_unreserved {settings others : Settings} {name : String}
    {names : List String} (unreserved : name ∉ reservedNames)
    (document : names ∈ documentNames settings name) : names ∉ sharedNames others := by
  intro shared
  rcases (eq_of_mem_sharedNames document shared).2.2.1 with rfl | rfl <;>
    exact unreserved (by decide)

theorem ne_fingerprintNames_of_unreserved {settings : Settings} {name : String}
    {names : List String} (unreserved : name ∉ reservedNames)
    (document : names ∈ documentNames settings name) : names ≠ fingerprintNames := by
  rintro rfl
  obtain ⟨_, rfl⟩ := eq_of_eq_fingerprintNames document
  exact unreserved (by decide)

/-! ### Truthful fingerprint files -/

/-- Each fingerprint that is stored under the context of the settings is that of a known module
whose wanted documents are on the disk. The module has the name of a directory, as all have. -/
def Truthful (known : Set ModuleData) (settings : Settings) (tree : FileTree) : Prop :=
  ∀ name fingerprint, (openedStore settings tree).previous[name]? = some fingerprint →
    ∃ data ∈ known, data.name = name ∧ data.fingerprint = fingerprint ∧ Path.IsName data.name ∧
      Shows settings tree data

/-- Without a fingerprint file nothing false is stored. -/
theorem truthful_of_no_file {known : Set ModuleData} {settings : Settings} {tree : FileTree}
    (missing : tree.item? (descend settings.outputDir fingerprintNames) = none) :
    Truthful known settings tree := by
  intro name fingerprint recorded
  obtain ⟨content, read⟩ := readText_of_previous recorded
  rw [readText_eq_ok_iff, missing] at read
  exact nomatch read

/-- Only what lies below the output directory matters. -/
theorem Truthful.congr {known : Set ModuleData} {settings : Settings} {before after : FileTree}
    (truthful : Truthful known settings before)
    (same : ∀ names, names ≠ [] → (∀ name ∈ names, Path.IsName name) →
      after.item? (descend settings.outputDir names) =
        before.item? (descend settings.outputDir names)) :
    Truthful known settings after := by
  intro name fingerprint recorded
  have file : ∀ content,
      after.readText (descend settings.outputDir fingerprintNames) = .ok content ↔
        before.readText (descend settings.outputDir fingerprintNames) = .ok content := by
    intro content
    rw [readText_eq_ok_iff, readText_eq_ok_iff, same fingerprintNames (by decide) (by decide)]
  rw [openedStore_previous_congr file] at recorded
  obtain ⟨data, isKnown, named, fingerprinted, isName, shows⟩ := truthful name fingerprint recorded
  refine ⟨data, isKnown, named, fingerprinted, isName, ?_⟩
  rw [shows_iff isName] at shows ⊢
  intro names document
  rw [same names (ne_nil_of_mem_documentNames document) (isName_of_mem_documentNames isName document)]
  exact shows names document

end EngineDocs.Generation
