/-
This file shows which modules keep their data files in a full run. The path of a data file depends
on the name of its module alone, and the two indices lie in the same directory. So a module keeps
its data file exactly when it is the last module of its name and does not have the name of an index;
the documents of all others are written over without a warning.
-/

import EngineDocs.Proofs.Generation.FullRuns

namespace EngineDocs

/-! ### Indices are no data files -/

/-- All counts of modules fit into 64 bits, as they do in memory. -/
structure CountsFit (modules : List ModuleData) : Prop where
  length : modules.length < UInt64.size
  declarations : ∀ data ∈ modules, data.declarationCount < UInt64.size

namespace DataFile

open Json (Fits)

theorem fits_nat {depth count : Nat} (small : count < UInt64.size) : Fits depth (.nat count) :=
  .int (Int.natCast_nonneg count) (Int.ofNat_lt.mpr small)

theorem fits_summary {data : ModuleData} (small : data.declarationCount < UInt64.size) :
    Fits 3 (summary data) := by
  rw [ModuleData.declarationCount] at small
  refine .obj ?_
  simp only [List.forall_mem_cons]
  exact ⟨.str _, .str _, .str _, data.dependencies.fits_toJson, fits_nat (by omega),
    fits_nat (by omega), fits_nat (by omega), fits_nat (by omega), nofun⟩

theorem fits_modulesIndex (edition : Edition) {modules : List ModuleData}
    (countsFit : CountsFit modules) : Fits 5 (modulesIndex edition modules) := by
  refine .obj ?_
  simp only [List.cons_append, List.nil_append, List.forall_mem_cons]
  refine ⟨.str _, .str _, fits_nat countsFit.length, .arr ?_, nofun⟩
  intro value member
  obtain ⟨data, listed, rfl⟩ := List.mem_map.mp member
  exact fits_summary (countsFit.declarations data listed)

theorem fits_arr_flatMap {α : Type} {write : ModuleData → α → Json} {depth : Nat}
    (each : ∀ data item, Fits depth (write data item)) (items : ModuleData → List α)
    (modules : List ModuleData) :
    Fits (depth + 1) (.arr (modules.flatMap fun data => (items data).map (write data))) := by
  refine .arr fun value member => ?_
  obtain ⟨data, _, listed⟩ := List.mem_flatMap.mp member
  obtain ⟨item, _, rfl⟩ := List.mem_map.mp listed
  exact each data item

theorem fits_apiIndex (edition : Edition) (modules : List ModuleData) :
    Fits 4 (apiIndex edition modules) := by
  have named : ∀ moduleName name filePath, Fits 2 (namedEntry moduleName name filePath) := by
    intro moduleName name filePath
    refine .obj ?_
    simp only [List.forall_mem_cons]
    exact ⟨.str _, .str _, .str _, nofun⟩
  have classes : ∀ (data : ModuleData) (record : ClassRecord),
      Fits 2 (classEntry data.name record) := by
    intro data record
    refine .obj ?_
    simp only [List.forall_mem_cons]
    exact ⟨.str _, .str _, Json.fits_strings _, .str _, nofun⟩
  have functions : ∀ (data : ModuleData) (record : FunctionRecord),
      Fits 2 (functionEntry data.name record) := by
    intro data record
    refine .obj ?_
    simp only [List.forall_mem_cons]
    exact ⟨.str _, .str _, .str _, .str _, nofun⟩
  refine .obj ?_
  simp only [List.cons_append, List.nil_append, List.forall_mem_cons]
  exact ⟨.str _, .str _, fits_arr_flatMap classes _ modules, fits_arr_flatMap functions _ modules,
    fits_arr_flatMap (fun data (record : EnumRecord) =>
      named data.name record.name record.filePath) _ modules,
    fits_arr_flatMap (fun data (record : StructRecord) =>
      named data.name record.name record.filePath) _ modules,
    nofun⟩

/-- The list of all modules has no payload. -/
theorem payload?_modulesIndex (edition : Edition) {modules : List ModuleData}
    (countsFit : CountsFit modules) :
    payload? (String.ofList (modulesIndex edition modules).pretty) = none := by
  rw [payload?, String.toList_ofList,
    Json.read?_pretty (fits_modulesIndex edition countsFit) (by decide)]
  rfl

/-- The flat index of all declarations has no payload. -/
theorem payload?_apiIndex (edition : Edition) (modules : List ModuleData) :
    payload? (String.ofList (apiIndex edition modules).pretty) = none := by
  rw [payload?, String.toList_ofList, Json.read?_pretty (fits_apiIndex edition modules) (by decide)]
  rfl

end DataFile

/-! ### Data files after a full run -/

namespace Generation

open FileTree
open Headers (descend)

/-- What is read of a module has no description. -/
theorem withoutDescription_of_mem_processed {settings : Settings} {tree : FileTree}
    {data : ModuleData} (member : data ∈ processed settings tree) :
    data.withoutDescription = data := by
  rw [processed] at member
  split at member
  · obtain ⟨info, _, rfl⟩ := List.mem_map.mp member
    rfl
  · exact absurd member List.not_mem_nil

section FullRun

variable {settings : Settings} {clock : Clock} {before after : FileTree} {data : ModuleData}

theorem exists_lastNamed {modules : List ModuleData} (member : data ∈ modules) :
    ∃ latest ∈ modules, lastNamed data.name modules = some latest := by
  cases last : lastNamed data.name modules with
  | none => exact absurd rfl (lastNamed_eq_none_iff.mp last data member)
  | some latest =>
    obtain ⟨_, front, back, rfl, _⟩ := lastNamed_eq_some last
    exact ⟨latest, List.mem_append_right _ List.mem_cons_self, rfl⟩

/-- The data file of a name that no index has holds the last module of the name. -/
theorem QuietRun.payload?_lastNamed (quiet : QuietRun settings clock before after)
    (wellFormed : before.WellFormed) (wanted : settings.wants .json = true)
    (always : settings.incremental = false) {name : String} (notModules : name ≠ "modules")
    (notApiIndex : name ≠ "api-index") {latest : ModuleData}
    (last : lastNamed name (processed settings before) = some latest) :
    ∃ text, after.readText (Output.moduleFile settings.outputDir name) = .ok text ∧
      DataFile.payload? text = some latest.withoutDescription := by
  obtain rfl := (lastNamed_eq_some last).1
  refine ⟨_, ?_, DataFile.payload?_ofModule (edition settings clock) latest⟩
  rw [moduleFile_eq, readText_eq_ok_iff]
  refine quiet.item?_lastNamed wellFormed always last (mem_documents_data_iff.mpr ⟨wanted, rfl⟩) ?_
  intro shared
  have document : ["data", latest.name ++ ".json"] ∈ documentNames settings latest.name :=
    mem_documentNames_iff.mpr (Or.inr ⟨wanted, rfl⟩)
  rcases (eq_of_mem_sharedNames document shared).2.2.1 with same | same
  · exact notModules same
  · exact notApiIndex same

/-- The data file of a name that an index has holds no module. -/
theorem QuietRun.payload?_index (quiet : QuietRun settings clock before after)
    (wanted : settings.wants .json = true) (countsFit : CountsFit (processed settings before))
    {name : String} (index : name = "modules" ∨ name = "api-index") :
    ∃ text, after.readText (Output.moduleFile settings.outputDir name) = .ok text ∧
      DataFile.payload? text = none := by
  rcases index with rfl | rfl
  · refine ⟨_, ?_, DataFile.payload?_modulesIndex (edition settings clock) countsFit⟩
    rw [moduleFile_eq, readText_eq_ok_iff]
    exact quiet.item?_index wanted List.mem_cons_self
  · refine ⟨_, ?_, DataFile.payload?_apiIndex (edition settings clock) (processed settings before)⟩
    rw [moduleFile_eq, readText_eq_ok_iff]
    exact quiet.item?_index wanted (List.mem_cons_of_mem _ List.mem_cons_self)

/-- After a full run without warnings and errors, the data file of a module holds the module exactly
when no index has its name and no later module of its name differs from it. -/
theorem data_file_holds_module_iff (wellFormed : before.WellFormed)
    (wanted : settings.wants .json = true) (always : settings.incremental = false)
    (countsFit : CountsFit (processed settings before))
    (quiet : QuietRun settings clock before after) (member : data ∈ processed settings before) :
    (∃ text, after.readText (Output.moduleFile settings.outputDir data.name) = .ok text ∧
        DataFile.payload? text = some data) ↔
      data.name ≠ "modules" ∧ data.name ≠ "api-index" ∧
        lastNamed data.name (processed settings before) = some data := by
  by_cases index : data.name = "modules" ∨ data.name = "api-index"
  · obtain ⟨text, read, none⟩ := quiet.payload?_index wanted countsFit index
    constructor
    · rintro ⟨other, readToo, found⟩
      rw [← Except.ok.inj (read.symm.trans readToo), none] at found
      exact nomatch found
    · rintro ⟨notModules, notApiIndex, _⟩
      exact absurd index (not_or.mpr ⟨notModules, notApiIndex⟩)
  · obtain ⟨notModules, notApiIndex⟩ := not_or.mp index
    obtain ⟨latest, found, last⟩ := exists_lastNamed member
    obtain ⟨text, read, payload⟩ :=
      quiet.payload?_lastNamed wellFormed wanted always notModules notApiIndex last
    rw [withoutDescription_of_mem_processed found] at payload
    rw [last, Option.some_inj]
    constructor
    · rintro ⟨other, readToo, same⟩
      rw [← Except.ok.inj (read.symm.trans readToo), payload] at same
      exact ⟨notModules, notApiIndex, Option.some.inj same⟩
    · rintro ⟨_, _, rfl⟩
      exact ⟨text, read, payload⟩

end FullRun

/-! ### A small engine in which two modules have one name -/

theorem data_file_holds_module_iff_small :
    (smallEngine [("A", "M")]).WellFormed ∧
      CountsFit (processed (smallSettings "1" [.json] false) (smallEngine [("A", "M")])) ∧
      QuietRun (smallSettings "1" [.json] false) stillClock (smallEngine [("A", "M")])
        (run (smallSettings "1" [.json] false) stillClock (smallEngine [("A", "M")])).1 ∧
      ∃ text, (run (smallSettings "1" [.json] false) stillClock
          (smallEngine [("A", "M")])).1.readText (Output.moduleFile "o" "M") = .ok text ∧
        DataFile.payload? text = some (smallModule "A" "M") := by
  have facts : processed (smallSettings "1" [.json] false) (smallEngine [("A", "M")]) =
        [smallModule "A" "M"] ∧
      QuietRun.isQuiet (run (smallSettings "1" [.json] false) stillClock
        (smallEngine [("A", "M")])).2 = true := by
    decide +kernel
  obtain ⟨found, isQuiet⟩ := facts
  have quiet := QuietRun.of_isQuiet isQuiet
  have countsFit : CountsFit
      (processed (smallSettings "1" [.json] false) (smallEngine [("A", "M")])) := by
    rw [found]
    exact ⟨by decide, by decide⟩
  have member : smallModule "A" "M" ∈
      processed (smallSettings "1" [.json] false) (smallEngine [("A", "M")]) := by
    rw [found]
    exact List.mem_singleton_self _
  refine ⟨smallEngine_wellFormed _, countsFit, quiet, ?_⟩
  refine (data_file_holds_module_iff (smallEngine_wellFormed _) rfl rfl countsFit quiet member).mpr
    ⟨by decide, by decide, ?_⟩
  rw [found]
  decide

/-- Of two modules of one name in different categories, the data file of the first is lost, and the
run has no warnings and no errors. -/
theorem data_file_lost_to_namesake :
    (smallSettings "1" [.json] false).validate = .ok () ∧
      QuietRun (smallSettings "1" [.json] false) stillClock
        (smallEngine [("A", "M"), ("B", "M")])
        (run (smallSettings "1" [.json] false) stillClock
          (smallEngine [("A", "M"), ("B", "M")])).1 ∧
      smallModule "A" "M" ∈ processed (smallSettings "1" [.json] false)
        (smallEngine [("A", "M"), ("B", "M")]) ∧
      ¬∃ text, (run (smallSettings "1" [.json] false) stillClock
          (smallEngine [("A", "M"), ("B", "M")])).1.readText (Output.moduleFile "o" "M") =
            .ok text ∧
        DataFile.payload? text = some (smallModule "A" "M") := by
  have facts : processed (smallSettings "1" [.json] false)
        (smallEngine [("A", "M"), ("B", "M")]) = [smallModule "A" "M", smallModule "B" "M"] ∧
      QuietRun.isQuiet (run (smallSettings "1" [.json] false) stillClock
        (smallEngine [("A", "M"), ("B", "M")])).2 = true := by
    decide +kernel
  obtain ⟨found, isQuiet⟩ := facts
  have quiet := QuietRun.of_isQuiet isQuiet
  have last : lastNamed "M" (processed (smallSettings "1" [.json] false)
      (smallEngine [("A", "M"), ("B", "M")])) = some (smallModule "B" "M") := by
    rw [found]
    decide
  obtain ⟨text, read, payload⟩ := quiet.payload?_lastNamed (smallEngine_wellFormed _) rfl rfl
    (by decide) (by decide) last
  refine ⟨rfl, quiet, ?_, ?_⟩
  · rw [found]
    exact List.mem_cons_self
  · rintro ⟨other, readToo, same⟩
    rw [← Except.ok.inj (read.symm.trans readToo), payload] at same
    exact absurd same (by decide)

end Generation

end EngineDocs
