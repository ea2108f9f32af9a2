/-
This file shows that the counts of a listing of modules add up. Every module that is found belongs
to a configured category or to the plugins, and its category has a row; so the rows divide the
modules, and the counts add up to their number, as long as no category has two rows. A category
that is configured twice is scanned twice: its modules are listed twice, and both of its rows count
all of them.
-/

import EngineDocs.Command.Run
import EngineDocs.Proofs.Generation.Failures
import EngineDocs.Proofs.Generation.Stages
import EngineDocs.Proofs.Grouping
import Mathlib.Data.List.Dedup

namespace EngineDocs

/-! ### The categories of modules -/

namespace Scanner

variable {scanner : Scanner} {tree : FileTree} {info : ModuleInfo}

/-- A module of the engine belongs to a category that is scanned. -/
theorem category_mem_of_mem_scan (member : info ∈ scanner.scan tree) :
    info.category ∈ scanner.categories := by
  obtain ⟨category, configured, member⟩ := List.mem_flatMap.mp member
  unfold scanCategory at member
  dsimp only at member
  split at member
  · obtain ⟨entry, _, kept⟩ := List.mem_filterMap.mp member
    rw [entryModule?] at kept
    split at kept
    · rwa [moduleInfo?_category kept]
    · cases kept
  · exact absurd member List.not_mem_nil

theorem category_of_mem_scanPlugins {pluginsDir : String}
    (member : info ∈ scanner.scanPlugins tree pluginsDir) : info.category = pluginsCategory := by
  rw [scanPlugins] at member
  split at member
  · obtain ⟨⟨names, item⟩, _, kept⟩ := List.mem_filterMap.mp member
    obtain ⟨name, _, kept⟩ := Option.bind_eq_some_iff.mp kept
    obtain ⟨directory, _, kept⟩ := Option.bind_eq_some_iff.mp kept
    split at kept
    · exact moduleInfo?_category kept
    · cases kept
  · exact absurd member List.not_mem_nil

end Scanner

/-- Modules are found by a scanner of the settings. -/
theorem Generation.exists_scanner {settings : Settings} {tree : FileTree}
    {modules : List ModuleInfo} (scanned : scanModules settings tree = .ok modules) :
    ∃ found, scanner settings = .ok found := by
  rw [scanModules_eq] at scanned
  split at scanned
  · exact nomatch scanned
  · split at scanned
    · exact nomatch scanned
    · exact ⟨_, ‹_›⟩

/-- A module that is found belongs to a configured category or to the plugins. -/
theorem Generation.category_of_mem_scanModules {settings : Settings} {tree : FileTree}
    {modules : List ModuleInfo} (scanned : scanModules settings tree = .ok modules)
    {info : ModuleInfo} (member : info ∈ modules) :
    info.category ∈ settings.moduleCategories ∨ info.category = pluginsCategory := by
  rw [scanModules_eq] at scanned
  split at scanned
  · exact nomatch scanned
  split at scanned
  · exact nomatch scanned
  · rename_i found created
    split at scanned
    · exact nomatch scanned
    rw [← Except.ok.inj scanned] at member
    rcases List.mem_append.mp member with inEngine | inPlugins
    · rw [← categories_of_scanner created]
      exact Or.inl (Scanner.category_mem_of_mem_scan inEngine)
    · cases directory : settings.pluginsDir with
      | none =>
        rw [directory] at inPlugins
        exact absurd inPlugins List.not_mem_nil
      | some pluginsDir =>
        rw [directory] at inPlugins
        exact Or.inr (Scanner.category_of_mem_scanPlugins inPlugins)

/-! ### Rows -/

namespace Command

/-- The number of modules of a category. -/
def categoryCount (modules : List ModuleInfo) (category : String) : Nat :=
  (modules.filter (·.category == category)).length

/-- The categories that have a row: those that are configured, as often as they are, and that of the
plugins when a module is in it. -/
def reportedCategories (settings : Settings) (modules : List ModuleInfo) : List String :=
  settings.moduleCategories ++
    if ∃ info ∈ modules, info.category = pluginsCategory then [pluginsCategory] else []

/-- No category has two rows, and the counts of the rows add up to the number of modules. -/
def CountsAddUp (counts : List (String × Nat)) (modules : List ModuleInfo) : Prop :=
  (counts.map Prod.fst).Nodup ∧ (counts.map Prod.snd).sum = modules.length

instance (counts : List (String × Nat)) (modules : List ModuleInfo) :
    Decidable (CountsAddUp counts modules) :=
  inferInstanceAs (Decidable (_ ∧ _))

section Rows

variable {settings : Settings} {tree : FileTree} {modules : List ModuleInfo}

theorem categoryCount_pos_iff (category : String) :
    0 < categoryCount modules category ↔ ∃ info ∈ modules, info.category = category := by
  simp only [categoryCount, List.length_pos_iff_exists_mem, List.mem_filter, beq_iff_eq]

/-- There is a row with its count for every category that has one. -/
theorem reportedCounts_eq {scanner : Scanner} (created : Generation.scanner settings = .ok scanner)
    (modules : List ModuleInfo) :
    reportedCounts scanner modules = (reportedCategories settings modules).map fun category =>
      (category, categoryCount modules category) := by
  show scanner.categories.map (fun category => (category, categoryCount modules category)) ++
    (if 0 < categoryCount modules pluginsCategory then
      [(pluginsCategory, categoryCount modules pluginsCategory)] else []) = _
  rw [Generation.categories_of_scanner created, reportedCategories, List.map_append]
  simp only [categoryCount_pos_iff]
  split <;> rfl

theorem runScan_json (found : Generation.scanModules settings tree = .ok modules) :
    runScan settings tree "json" =
      .ok (jsonOutput (scanJson ((reportedCategories settings modules).map fun category =>
        (category, categoryCount modules category)) modules)) := by
  obtain ⟨scanner, created⟩ := Generation.exists_scanner found
  rw [runScan, found, ← reportedCounts_eq created modules]
  simp only [bind, Except.bind, created, Except.mapError]
  rfl

theorem mem_reportedCategories (found : Generation.scanModules settings tree = .ok modules)
    {info : ModuleInfo} (member : info ∈ modules) :
    info.category ∈ reportedCategories settings modules :=
  mem_append_if.mpr <| (Generation.category_of_mem_scanModules found member).imp_right fun plugin =>
    ⟨⟨info, member, plugin⟩, plugin⟩

/-- The counts of different categories that cover the modules add up to their number. -/
theorem sum_categoryCount {categories : List String} (distinct : categories.Nodup)
    (covered : ∀ info ∈ modules, info.category ∈ categories) :
    (categories.map (categoryCount modules)).sum = modules.length :=
  sum_length_filter ModuleInfo.category distinct covered

/-- The rows of a listing of modules are those of the configured categories in their order, and then
of the plugins when a module is in it; each has the number of the listed modules of its category.
Counting every category once, they add up to the number of listed modules, and when the configured
categories are different, no category has two rows. The plugins may only be configured as a category
when no module is in it. -/
theorem scan_counts_add_up (found : Generation.scanModules settings tree = .ok modules)
    (apart : pluginsCategory ∈ settings.moduleCategories →
      ∀ info ∈ modules, info.category ≠ pluginsCategory) :
    ∃ counts, runScan settings tree "json" = .ok (jsonOutput (scanJson counts modules)) ∧
      counts.map Prod.fst = settings.moduleCategories ++
        (if ∃ info ∈ modules, info.category = pluginsCategory then [pluginsCategory] else []) ∧
      (∀ row ∈ counts, row.2 = (modules.filter (·.category == row.1)).length) ∧
      (counts.dedup.map Prod.snd).sum = modules.length ∧
      (settings.moduleCategories.Nodup → CountsAddUp counts modules) := by
  have categories : ((reportedCategories settings modules).map fun category =>
      (category, categoryCount modules category)).map Prod.fst =
        reportedCategories settings modules := by
    rw [List.map_map]
    exact List.map_id _
  have covered := fun info => @mem_reportedCategories settings tree modules found info
  refine ⟨_, runScan_json found, categories, ?_, ?_, fun distinct => ?_⟩
  · intro row listed
    obtain ⟨category, _, rfl⟩ := List.mem_map.mp listed
    rfl
  · have rowsDiffer : Function.Injective fun category : String =>
        (category, categoryCount modules category) := fun first second same =>
      (Prod.mk.inj same).1
    rw [List.dedup_map_of_injective rowsDiffer, List.map_map]
    exact sum_categoryCount (List.nodup_dedup _) fun info member =>
      List.mem_dedup.mpr (covered info member)
  · have different : (reportedCategories settings modules).Nodup :=
      nodup_append_if distinct _ fun ⟨info, member, plugin⟩ configured =>
        apart configured info member plugin
    rw [CountsAddUp, categories]
    refine ⟨different, ?_⟩
    rw [List.map_map]
    exact sum_categoryCount different covered

end Rows

/-! ### Small engines -/

/-- Settings for a small engine with these categories, and with plugins in one of its
directories. -/
def scanSettings (categories : List String) : Settings :=
  { Generation.smallSettings "1" [.json] false with
    moduleCategories := categories, pluginsDir := some "s/P" }

/-- What is found of a module of a small engine, at a path below its source directory. -/
def smallInfo (category name place : String) : ModuleInfo where
  name := name
  path := place
  category := category
  buildCsPath := "s/" ++ place ++ "/" ++ name ++ ".Build.cs"
  publicDir := some ("s/" ++ place ++ "/Public")
  privateDir := none

/-- Two categories with modules, one without, and a plugin. -/
theorem scan_counts_add_up_small :
    Generation.scanModules (scanSettings ["A", "C", "B"])
        (Generation.smallEngine [("A", "M"), ("B", "M"), ("A", "N"), ("P/Q", "M")]) =
      .ok [smallInfo "A" "M" "A/M", smallInfo "A" "N" "A/N", smallInfo "B" "M" "B/M",
        smallInfo pluginsCategory "M" "P/Q/M"] ∧
      pluginsCategory ∉ (scanSettings ["A", "C", "B"]).moduleCategories ∧
      ∃ counts, runScan (scanSettings ["A", "C", "B"])
          (Generation.smallEngine [("A", "M"), ("B", "M"), ("A", "N"), ("P/Q", "M")]) "json" =
            .ok (jsonOutput (scanJson counts
              [smallInfo "A" "M" "A/M", smallInfo "A" "N" "A/N", smallInfo "B" "M" "B/M",
                smallInfo pluginsCategory "M" "P/Q/M"])) ∧
        counts.map Prod.fst = ["A", "C", "B", "Plugins"] ∧
        CountsAddUp counts
          [smallInfo "A" "M" "A/M", smallInfo "A" "N" "A/N", smallInfo "B" "M" "B/M",
            smallInfo pluginsCategory "M" "P/Q/M"] := by
  have found : Generation.scanModules (scanSettings ["A", "C", "B"])
        (Generation.smallEngine [("A", "M"), ("B", "M"), ("A", "N"), ("P/Q", "M")]) =
      .ok [smallInfo "A" "M" "A/M", smallInfo "A" "N" "A/N", smallInfo "B" "M" "B/M",
        smallInfo pluginsCategory "M" "P/Q/M"] := by
    decide +kernel
  have unlisted : pluginsCategory ∉ (scanSettings ["A", "C", "B"]).moduleCategories := by decide
  obtain ⟨counts, printed, rows, _, _, whole⟩ :=
    scan_counts_add_up found fun listed => absurd listed unlisted
  exact ⟨found, unlisted, counts, printed, rows, whole (by decide)⟩

/-- When a category is configured twice, its modules are listed twice and counted twice in each of
two rows, so the counts are more than the modules. A module of the engine in a category that is
configured with the name of the plugins has two rows as well. -/
theorem not_countsAddUp_of_repeated_rows :
    ((scanSettings ["A", "A"]).validate = .ok () ∧
      Generation.scanModules (scanSettings ["A", "A"]) (Generation.smallEngine [("A", "M")]) =
        .ok [smallInfo "A" "M" "A/M", smallInfo "A" "M" "A/M"] ∧
      runScan (scanSettings ["A", "A"]) (Generation.smallEngine [("A", "M")]) "json" =
        .ok (jsonOutput (scanJson [("A", 2), ("A", 2)]
          [smallInfo "A" "M" "A/M", smallInfo "A" "M" "A/M"])) ∧
      ¬CountsAddUp [("A", 2), ("A", 2)]
        [smallInfo "A" "M" "A/M", smallInfo "A" "M" "A/M"]) ∧
    (scanSettings ["Plugins"]).validate = .ok () ∧
      Generation.scanModules (scanSettings ["Plugins"])
          (Generation.smallEngine [("Plugins", "M")]) =
        .ok [smallInfo "Plugins" "M" "Plugins/M"] ∧
      runScan (scanSettings ["Plugins"]) (Generation.smallEngine [("Plugins", "M")]) "json" =
        .ok (jsonOutput (scanJson [("Plugins", 1), ("Plugins", 1)]
          [smallInfo "Plugins" "M" "Plugins/M"])) ∧
      ¬CountsAddUp [("Plugins", 1), ("Plugins", 1)] [smallInfo "Plugins" "M" "Plugins/M"] := by
  have twice : Generation.scanModules (scanSettings ["A", "A"])
      (Generation.smallEngine [("A", "M")]) =
        .ok [smallInfo "A" "M" "A/M", smallInfo "A" "M" "A/M"] := by
    decide +kernel
  have plugin : Generation.scanModules (scanSettings ["Plugins"])
      (Generation.smallEngine [("Plugins", "M")]) =
        .ok [smallInfo "Plugins" "M" "Plugins/M"] := by
    decide +kernel
  exact ⟨⟨rfl, twice, runScan_json twice, by decide⟩, rfl, plugin, runScan_json plugin, by decide⟩

end Command

end EngineDocs
