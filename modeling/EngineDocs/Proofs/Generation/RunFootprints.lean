/-
This file says where an incremental run leaves traces, and when a later scan does not see them. On
the way to the output directory a run makes the directories that are missing. In there it makes the
data directory and whatever it needs below the directory of all pages, and besides pages it writes
files that lie right in the output directory, and data files. Scans pass over data files, so a scan
sees nothing of a run that makes no directory inside of what is scanned.
-/

import EngineDocs.Proofs.Discovery.Rescans
import EngineDocs.Proofs.FileTree.Footprints
import EngineDocs.Proofs.Generation.ModulePlans

namespace EngineDocs

open FileTree
open Headers (descend)

/-! ### Traces of a run -/

namespace FileTree

/-- A path to something lies in a directory, unless it is a name in the working directory. -/
theorem isDirectory_of_item?_join {tree : FileTree} {base name : String} {item : Item}
    (isName : Path.IsName name) (there : tree.item? (Path.join base name) = some item) :
    base = "" ∨ tree.isDirectory base = true := by
  rw [← Headers.descend_singleton, item?_descend_eq_some_iff tree
    (List.forall_mem_singleton.mpr isName) (List.cons_ne_nil _ _)] at there
  obtain ⟨checked, place, leads, down, _⟩ := there
  refine or_iff_not_imp_left.mpr fun solid => (isDirectory_iff_reach tree base).mpr ⟨place, ?_, ?_⟩
  · rw [Headers.descend_singleton] at checked
    exact reach_eq_ok_iff.mpr
      ⟨(Path.encloses_join isName).checkPath_eq_ok solid checked, leads⟩
  · rw [follow] at down
    split at down
    · cases down
    · exact (enter_eq_ok_iff.mp ‹_›).1

end FileTree

/-! ### Changes of a run -/

section Lands

variable {origin tree : FileTree} {output : String}

end Lands

namespace Generation

section Changes

variable {settings : Settings}

/-- The changes that write files about all modules make the output directory or the data directory,
or write one of these files. -/
inductive IsShared (settings : Settings) : Change → Prop where
  | output : IsShared settings (.directory settings.outputDir)
  | data : IsShared settings (.directory (descend settings.outputDir ["data"]))
  | file {names : List String} {content : String} (shared : names ∈ sharedNames settings) :
    IsShared settings (.file (descend settings.outputDir names) content)

theorem isShared_of_mem_index {edition : Edition} {categories : List String}
    {modules : List ModuleData} (wanted : settings.wants .markdown = true) {change : Change}
    (member : change ∈ Output.index settings.outputDir edition categories modules ++
      Output.readme settings.outputDir edition) : IsShared settings change := by
  simp only [Output.index, Output.readme, List.cons_append, List.nil_append, List.mem_cons,
    List.not_mem_nil, or_false] at member
  rcases member with rfl | rfl | rfl | rfl
  · exact .output
  · exact @IsShared.file _ ["index.md"] _ (by simp [sharedNames, wanted])
  · exact .output
  · exact @IsShared.file _ ["README.md"] _ (by simp [sharedNames, wanted])

theorem isShared_of_mem_indices {edition : Edition} {modules : List ModuleData}
    (wanted : settings.wants .json = true) {change : Change}
    (member : change ∈ Output.modulesIndex settings.outputDir edition modules ++
      Output.apiIndex settings.outputDir edition modules) : IsShared settings change := by
  simp only [Output.modulesIndex, Output.apiIndex, Output.dataFile, List.cons_append,
    List.nil_append, List.mem_cons, List.not_mem_nil, or_false] at member
  rcases member with rfl | rfl | rfl | rfl
  · exact .data
  · exact @IsShared.file _ ["data", "modules.json"] _ (by simp [sharedNames, wanted])
  · exact .data
  · exact @IsShared.file _ ["data", "api-index.json"] _ (by simp [sharedNames, wanted])

theorem isShared_of_mem_report {report : Report} (output : report.outputDir = settings.outputDir)
    {moment : Moment} {change : Change} (member : change ∈ report.changes moment) :
    IsShared settings change := by
  rw [Report.changes, output] at member
  simp only [List.mem_cons, List.not_mem_nil, or_false] at member
  rcases member with rfl | rfl
  · exact .output
  · exact @IsShared.file _ ["generation_report.txt"] _ (by simp [sharedNames])

end Changes

/-! ### The traces of a whole run -/

section Run

variable {settings : Settings} {clock : Clock} {origin tree : FileTree}

/-- The output directory is there, or it is the working directory. -/
def IsOpen (settings : Settings) (tree : FileTree) : Prop :=
  tree.WellFormed ∧ (settings.outputDir = "" ∨ tree.isDirectory settings.outputDir = true)

theorem IsOpen.perform (isOpen : IsOpen settings tree) (change : Change) :
    IsOpen settings (change.perform tree).1 :=
  ⟨Change.perform_wellFormed isOpen.1 change,
    isOpen.2.imp_right (isDirectory_of_keeps (Change.perform_keeps tree change))⟩

/-- Whatever lies in the output directory lies in a directory. -/
theorem isOpen_of_item? (wellFormed : tree.WellFormed) {item : Item}
    (there : tree.item? (descend settings.outputDir fingerprintNames) = some item) :
    IsOpen settings tree := by
  have names : fingerprintNames = ["data"] ++ [".fingerprints.json"] := rfl
  have outer := Headers.descend_singleton settings.outputDir "data"
  rw [names, ← Headers.join_descend] at there
  rcases isDirectory_of_item?_join (by decide) there with empty | directory
  · rw [outer, ← String.toList_inj, Path.toList_join settings.outputDir (by decide)] at empty
    exact absurd (List.append_eq_nil_iff.mp empty).2 (by decide)
  · rw [outer, isDirectory_eq, Option.any_eq_true] at directory
    obtain ⟨_, found, _⟩ := directory
    exact ⟨wellFormed, isDirectory_of_item?_join (by decide) found⟩

/-- A property of open output directories that no change of a file about all modules breaks holds
once all these files are written. -/
theorem run_induction {motive : FileTree → Prop} {modules : List ModuleInfo}
    (scanned : scanModules settings tree = .ok modules)
    (isOpen : IsOpen settings (saving settings clock tree).1)
    (holds : motive (saving settings clock tree).1)
    (step : ∀ change, IsShared settings change → ∀ middle : FileTree, IsOpen settings middle →
      motive middle → motive (change.perform middle).1) :
    motive (dataIndexing settings clock tree).1 ∧ motive (run settings clock tree).1 ∧
      IsOpen settings (dataIndexing settings clock tree).1 := by
  have all : ∀ {changes : List Change} {middle : FileTree},
      (∀ change ∈ changes, IsShared settings change) → IsOpen settings middle ∧ motive middle →
      IsOpen settings (Change.performAll middle changes).1 ∧
        motive (Change.performAll middle changes).1 := by
    intro changes middle shared start
    exact Change.performAll_induction
      (motive := fun middle => IsOpen settings middle ∧ motive middle)
      (fun change member middle both =>
        ⟨both.1.perform change, step change (shared change member) middle both.1 both.2⟩) start
  have pages : IsOpen settings (pageIndexing settings clock tree).1 ∧
      motive (pageIndexing settings clock tree).1 := by
    rw [pageIndexing, attempt_fst]
    split
    · exact all (fun change member => isShared_of_mem_index ‹_› member) ⟨isOpen, holds⟩
    · exact ⟨isOpen, holds⟩
  have indices : IsOpen settings (dataIndexing settings clock tree).1 ∧
      motive (dataIndexing settings clock tree).1 := by
    rw [dataIndexing, attempt_fst]
    split
    · exact all (fun change member => isShared_of_mem_indices ‹_› member) pages
    · exact pages
  obtain ⟨report, output, last⟩ := run_fst_eq clock scanned
  refine ⟨indices.2, ?_, indices.1⟩
  rw [last]
  exact (all (fun change member => isShared_of_mem_report output member) indices).2

end Run

end Generation

end EngineDocs
