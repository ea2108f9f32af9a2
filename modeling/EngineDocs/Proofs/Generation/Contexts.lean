/-
This file says for which settings the context tells versions and formats apart: for those of which
neither version absorbs what the other settings write behind theirs. Otherwise a run keeps the
documents of another version as if they were its own.
-/

import EngineDocs.Proofs.Generation.ContextText
import EngineDocs.Proofs.Generation.Deletions

namespace EngineDocs.Generation

open FileTree
open Headers (descend)

/-! ### Settings that the context tells apart -/

/-- The context of two settings tells their versions and formats apart exactly when neither version
absorbs what stands behind the other. -/
theorem context_is_faithful_iff (first second : Settings) :
    (renderContext first = renderContext second →
        first.engineVersion = second.engineVersion ∧ first.formats = second.formats) ↔
      ¬Absorbs first second ∧ ¬Absorbs second first := by
  constructor
  · intro faithful
    refine ⟨fun absorbs => ?_, fun absorbs => ?_⟩
    · exact absorbs.version_ne (faithful absorbs.renderContext_eq).1
    · exact absorbs.version_ne (faithful absorbs.renderContext_eq.symm).1.symm
  · rintro ⟨forwards, backwards⟩ same
    rcases (renderContext_eq_iff first second).mp same with
      ⟨version, formats, _⟩ | absorbs | absorbs
    · exact ⟨version, formats⟩
    · exact absurd absorbs forwards
    · exact absurd absorbs backwards

/-- Settings with the same output directory and context start with the same fingerprints. -/
theorem openedStore_previous_of_context_eq (first second : Settings) (tree : FileTree)
    (output : first.outputDir = second.outputDir)
    (context : renderContext first = renderContext second) :
    (openedStore first tree).previous = (openedStore second tree).previous := by
  rw [openedStore_previous_eq, openedStore_previous_eq, output, context]

theorem pending_of_missing {settings : Settings} {tree : FileTree}
    (missing : tree.isFile (fingerprintPath settings) = false) :
    pending settings tree = candidates settings tree := by
  refine List.filter_eq_self.mpr fun candidate _ => ?_
  rw [isCurrent, FingerprintStore.isUnchanged, previous_of_missing missing]
  simp

theorem QuietRun.rendering_eq {settings : Settings} {clock : Clock} {before after : FileTree}
    (quiet : QuietRun settings clock before after) :
    (rendering settings clock before).2 =
      (pending settings before).map fun candidate => (candidate, none) := by
  rw [← map_fst_renderAll settings (edition settings clock) before (pending settings before),
    List.map_map]
  conv_lhs => rw [← List.map_id (rendering settings clock before).2]
  refine List.map_congr_left fun result member => Prod.ext rfl ?_
  exact quiet.rendered result member

/-! ### A plugin whose documents are kept for another version -/

/-- A tree with a source directory without modules, and one plugin module. -/
def smallPlugin : FileTree :=
  (Change.performAll {} [.directory "s", .directory "p/M/Public", .file "p/M/M.Build.cs" ""]).1

theorem smallPlugin_wellFormed : smallPlugin.WellFormed := Change.performAll_wellFormed .empty _

/-- The data of the plugin module. -/
def pluginModule : ModuleData := { smallModule "Plugins" "M" with path := "p/M" }

/-- Settings for the plugin with a version and the one category of the engine. -/
def pluginSettings (version category : String) : Settings :=
  { smallSettings version [.json] true with
    pluginsDir := some "p", moduleCategories := [category] }

/-- The tree after a run for version 1 with a category that has a bar in its name. -/
def smallPluginOutput : FileTree :=
  (run (pluginSettings "1" "json|A") stillClock smallPlugin).1

theorem smallPluginOutput_facts :
    QuietRun (pluginSettings "1" "json|A") stillClock smallPlugin smallPluginOutput ∧
      processed (pluginSettings "1" "json|A") smallPlugin = [pluginModule] ∧
      smallPluginOutput.item? (Output.moduleFile "o" "M") = some (.file
        (String.ofList (DataFile.ofModule ⟨"1", ⟨0⟩⟩ pluginModule).pretty).toUTF8) := by
  have facts : QuietRun.isQuiet (run (pluginSettings "1" "json|A") stillClock smallPlugin).2 =
        true ∧
      processed (pluginSettings "1" "json|A") smallPlugin = [pluginModule] ∧
      smallPlugin.isFile (fingerprintPath (pluginSettings "1" "json|A")) = false := by
    decide +kernel
  obtain ⟨isQuiet, found, missing⟩ := facts
  have quiet := QuietRun.of_isQuiet isQuiet
  have rendered := quiet.rendering_eq
  rw [pending_of_missing missing, candidates, found] at rendered
  obtain ⟨modules, scanned⟩ := quiet.scanned
  have listed : (["data", pluginModule.name ++ ".json"],
      String.ofList (DataFile.ofModule ⟨"1", ⟨0⟩⟩ pluginModule).pretty) ∈
        documents (pluginSettings "1" "json|A") ⟨"1", ⟨0⟩⟩ pluginModule :=
    List.mem_append_right _ List.mem_cons_self
  refine ⟨quiet, found, ?_⟩
  rw [moduleFile_eq]
  exact @item?_run _ _ _ _ smallPlugin_wellFormed _ scanned [] [] _ rendered
    (fun result absent => absurd absent List.not_mem_nil) _ listed (fun _ => by decide) (by decide)

/-- A bar moves from the category into the version and the context stays the same: a run for the
other version finds the fingerprint, renders nothing, and leaves the data file for version 1. -/
theorem context_vouches_for_another_version :
    (pluginSettings "1" "json|A").validate = .ok () ∧
      (pluginSettings "1|json" "A").validate = .ok () ∧
      renderContext (pluginSettings "1" "json|A") = renderContext (pluginSettings "1|json" "A") ∧
      (pluginSettings "1" "json|A").engineVersion ≠
        (pluginSettings "1|json" "A").engineVersion ∧
      QuietRun (pluginSettings "1" "json|A") stillClock smallPlugin smallPluginOutput ∧
      processed (pluginSettings "1|json" "A") smallPluginOutput = [pluginModule] ∧
      pending (pluginSettings "1|json" "A") smallPluginOutput = [] ∧
      (run (pluginSettings "1|json" "A") stillClock smallPluginOutput).1.item?
          (Output.moduleFile "o" "M") =
        some (.file (String.ofList
          (DataFile.ofModule ⟨"1", ⟨0⟩⟩ pluginModule).pretty).toUTF8) := by
  obtain ⟨quiet, found, written⟩ := smallPluginOutput_facts
  have context : renderContext (pluginSettings "1" "json|A") =
      renderContext (pluginSettings "1|json" "A") := by decide
  have foundAgain : processed (pluginSettings "1|json" "A") smallPluginOutput =
      [pluginModule] := by
    decide +kernel
  have wellFormed : smallPluginOutput.WellFormed := run_wellFormed _ smallPlugin_wellFormed
  have current : isCurrent (pluginSettings "1|json" "A") smallPluginOutput
      (openedStore (pluginSettings "1|json" "A") smallPluginOutput)
      (pluginModule, pluginModule.fingerprint) = true := by
    refine (isCurrent_iff rfl).mpr ⟨?_, fun markdown => absurd markdown (by decide), fun _ => ?_⟩
    · rw [openedStore_previous_of_context_eq (pluginSettings "1|json" "A")
        (pluginSettings "1" "json|A") _ rfl context.symm]
      exact quiet.previous_of_mem rfl (found ▸ List.nodup_singleton _)
        (found ▸ List.mem_singleton_self _)
    · rw [isFile_eq]
      exact (congrArg (Option.any Item.isFile) written).trans rfl
  have skipped : pending (pluginSettings "1|json" "A") smallPluginOutput = [] := by
    rw [pending, candidates, foundAgain, List.map_singleton, List.filter_singleton, current]
    rfl
  obtain ⟨modules, scanned⟩ := scanModules_of_mem_processed
    (foundAgain ▸ List.mem_singleton_self pluginModule)
  refine ⟨rfl, rfl, context, by decide, quiet, foundAgain, skipped, ?_⟩
  rw [moduleFile_eq] at written ⊢
  refine (run_spares_from_start wellFormed scanned ?_ ?_ ?_).item?_eq_some (by decide) (by decide)
    written
  · rw [skipped]
    exact List.forall_mem_nil _
  · exact fun _ => by decide
  · decide

end EngineDocs.Generation
