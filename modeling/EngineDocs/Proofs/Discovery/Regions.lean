/-
This file says which paths the data of a run shows. A scan starts at the directories of the
categories and at the plugins directory, and from there it goes on along names and once from a
rules file to the directory that it lies in. Whatever kind of paths these steps do not leave is the
kind of all paths that show in the data.
-/

import EngineDocs.Proofs.Discovery.Mirrors
import EngineDocs.Proofs.Header.Noise

namespace EngineDocs

open FileTree
open Headers (descend)

/-! ### The paths in the data of a module -/

/-- The paths of the headers from which the records come. -/
def DeclarationSet.filePaths (set : DeclarationSet) : List String :=
  set.classes.map (·.filePath) ++ set.functions.map (·.filePath) ++
    set.enums.map (·.filePath) ++ set.structs.map (·.filePath)

/-- The paths of the headers from which the records of a module come. -/
def ModuleData.filePaths (data : ModuleData) : List String :=
  (⟨data.classes, data.functions, data.enums, data.structs⟩ : DeclarationSet).filePaths

namespace Headers

theorem mem_filePaths_append {first second : DeclarationSet} {path : String} :
    path ∈ (first ++ second).filePaths ↔ path ∈ first.filePaths ∨ path ∈ second.filePaths := by
  have parts : first ++ second = DeclarationSet.append first second := rfl
  rw [parts]
  simp only [DeclarationSet.filePaths, DeclarationSet.append, List.map_append, List.mem_append]
  tauto

/-- All records of a header have the path that is given for it. -/
theorem eq_of_mem_filePaths_extractAll {content path filePath : String}
    (member : path ∈ (Header.extractAll content filePath).filePaths) : path = filePath := by
  simp only [DeclarationSet.filePaths, Header.extractAll, Header.recognizeClasses,
    Header.recognizeEnums, Header.recognizeStructs, List.mem_append, List.mem_map] at member
  rcases member with ((⟨_, ⟨_, _, rfl⟩, rfl⟩ | ⟨record, listed, rfl⟩) | ⟨_, ⟨_, _, rfl⟩, rfl⟩) |
    ⟨_, ⟨_, _, rfl⟩, rfl⟩
  · rfl
  · obtain ⟨_, _, recorded⟩ := Header.mem_recognizeFunctions_iff.mp listed
    rw [(Header.FunctionDeclaration.record_eq_ok_iff.mp recorded).2.2]
  · rfl
  · rfl

/-- Every record of many headers shows the path of one of them. -/
theorem exists_of_mem_filePaths_parse {tree : FileTree} {root path : String}
    (member : path ∈ (parse tree root).declarations.filePaths) :
    ∃ header ∈ find tree root, path = DisplayPath.ofHeader header := by
  have step : ∀ (headers : List String) (parsed : Parsed),
      path ∈ (headers.foldl (Parsed.add tree) parsed).declarations.filePaths →
        path ∈ parsed.declarations.filePaths ∨
          ∃ header ∈ headers, path = DisplayPath.ofHeader header := by
    intro headers
    induction headers with
    | nil => exact fun parsed member => Or.inl member
    | cons header headers inductionHypothesis =>
      intro parsed member
      rcases inductionHypothesis _ member with before | ⟨later, listed, same⟩
      · rw [declarations_add, parseFile] at before
        split at before
        · rename_i set read
          rcases mem_filePaths_append.mp before with old | new
          · exact Or.inl old
          · refine Or.inr ⟨header, List.mem_cons_self, ?_⟩
            split at read
            · rw [← Option.some.inj read] at new
              exact eq_of_mem_filePaths_extractAll new
            · cases read
        · exact Or.inl before
      · exact Or.inr ⟨later, List.mem_cons_of_mem _ listed, same⟩
  rcases step _ _ member with none | found
  · exact absurd none List.not_mem_nil
  · exact found

end Headers

/-! ### What is found in a region -/

/-- A kind of paths that a scan does not leave: names lead on in it, and so does the way from a
file to the directory that it lies in. -/
structure Region (region : String → Prop) : Prop where
  join : ∀ {path name : String}, region path → Path.IsName name → region (Path.join path name)
  parent : ∀ {path name outer : String}, region path → Path.IsName name →
    Path.parent? (Path.join path name) = some outer → region outer

/-- A module was found in a region. -/
structure FoundIn (region : String → Prop) (source : String) (tree : FileTree)
    (info : ModuleInfo) : Prop where
  path : ∃ directory, region directory ∧ info.path = DisplayPath.ofModule directory source
  publicDir : ∀ publicDir, info.publicDir = some publicDir →
    region publicDir ∧ tree.isDirectory publicDir = true

section Region

variable {region : String → Prop} (closed : Region region) {tree : FileTree}
  (wellFormed : tree.WellFormed)

include closed

theorem Region.descend {path : String} (inside : region path) {names : List String}
    (areNames : ∀ name ∈ names, Path.IsName name) : region (Headers.descend path names) := by
  induction names generalizing path with
  | nil => exact inside
  | cons name names inductionHypothesis =>
    exact inductionHypothesis (closed.join inside (areNames name List.mem_cons_self))
      fun name member => areNames name (List.mem_cons_of_mem _ member)

theorem foundIn_of_moduleInfo? {scanner : Scanner} {directory name category rulesPath : String}
    {info : ModuleInfo} (inside : region directory)
    (found : scanner.moduleInfo? tree directory name category rulesPath = some info) :
    FoundIn region scanner.sourceDir tree info := by
  rw [Scanner.moduleInfo?] at found
  split at found
  · rw [← Option.some.inj found]
    refine ⟨⟨directory, inside, rfl⟩, fun publicDir there => ?_⟩
    dsimp only at there
    split at there
    · rename_i isPublic
      rw [← Option.some.inj there]
      exact ⟨closed.join inside (by decide), isPublic⟩
    · cases there
  · cases found

include wellFormed

theorem foundIn_of_mem_scanCategory {scanner : Scanner} {category : String} {info : ModuleInfo}
    (inside : region (Path.join scanner.sourceDir category))
    (member : info ∈ scanner.scanCategory tree category) :
    FoundIn region scanner.sourceDir tree info := by
  rw [Scanner.scanCategory_eq] at member
  obtain ⟨⟨names, item⟩, listed, kept⟩ := List.mem_filterMap.mp member
  have areNames := (wellFormed.isName_of_mem_listing listed).2
  rcases names with _ | ⟨name, _ | ⟨next, names⟩⟩
  · cases kept
  · rw [Scanner.moduleBelow?, Scanner.entryModule?] at kept
    split at kept
    · exact foundIn_of_moduleInfo? closed
        (closed.join inside (areNames name List.mem_cons_self)) kept
    · cases kept
  · cases kept

theorem foundIn_of_mem_scanPlugins {scanner : Scanner} {pluginsDir : String} {info : ModuleInfo}
    (inside : region pluginsDir) (member : info ∈ scanner.scanPlugins tree pluginsDir) :
    FoundIn region scanner.sourceDir tree info := by
  rw [Scanner.scanPlugins_eq] at member
  obtain ⟨⟨names, item⟩, listed, kept⟩ := List.mem_filterMap.mp member
  obtain ⟨solid, areNames⟩ := wellFormed.isName_of_mem_listing listed
  obtain ⟨name, _, kept⟩ := Option.bind_eq_some_iff.mp kept
  obtain ⟨directory, parent, kept⟩ := Option.bind_eq_some_iff.mp kept
  split at kept
  · obtain ⟨front, last, rfl, above, isName⟩ := Path.exists_concat_of_names areNames solid
    rw [Headers.descend_append, Headers.descend_singleton] at parent
    exact foundIn_of_moduleInfo? closed
      (closed.parent (closed.descend inside above) isName parent) kept
  · exact nomatch kept

/-- The records of a module that was found in a region show headers in it. -/
theorem FoundIn.mem_filePaths {source path : String} {info : ModuleInfo}
    (foundIn : FoundIn region source tree info) (member : path ∈ (info.dataIn tree).filePaths) :
    ∃ header, region header ∧ path = DisplayPath.ofHeader header := by
  rw [ModuleInfo.dataIn, ModuleInfo.process] at member
  cases there : info.publicDir with
  | none =>
    rw [there] at member
    exact absurd member List.not_mem_nil
  | some publicDir =>
    rw [there] at member
    obtain ⟨inside, directory⟩ := foundIn.publicDir publicDir there
    obtain ⟨header, found, same⟩ := Headers.exists_of_mem_filePaths_parse member
    rw [Headers.find_eq wellFormed directory] at found
    obtain ⟨names, listed, rfl⟩ := List.mem_map.mp found
    obtain ⟨⟨other, item⟩, shown, kept⟩ := List.mem_filterMap.mp listed
    dsimp only at kept
    split at kept
    · obtain rfl := Option.some.inj kept
      exact ⟨_, closed.descend inside (wellFormed.isName_of_mem_listing shown).2, same⟩
    · cases kept

/-- All data of a run was found where the run scans. -/
theorem Generation.exists_foundIn_of_mem_processed {settings : Settings}
    (engine : ∀ category ∈ settings.moduleCategories,
      region (Path.join settings.sourceDir category))
    (plugins : ∀ pluginsDir, settings.pluginsDir = some pluginsDir → region pluginsDir)
    {data : ModuleData} (member : data ∈ processed settings tree) :
    ∃ info, data = info.dataIn tree ∧ FoundIn region settings.sourceDir tree info := by
  rw [processed_eq, scanner_eq] at member
  split at member
  · cases read : ExcludeList.read settings.excludeDirs with
    | error error =>
      rw [read] at member
      exact absurd member List.not_mem_nil
    | ok patterns =>
      rw [read] at member
      obtain ⟨info, found, rfl⟩ := List.mem_map.mp member
      refine ⟨info, rfl, ?_⟩
      rcases List.mem_append.mp found with inEngine | inPlugins
      · obtain ⟨category, listed, inCategory⟩ := List.mem_flatMap.mp inEngine
        exact foundIn_of_mem_scanCategory closed wellFormed (engine category listed) inCategory
      · cases directory : settings.pluginsDir with
        | none =>
          rw [directory] at inPlugins
          exact absurd inPlugins List.not_mem_nil
        | some pluginsDir =>
          rw [directory] at inPlugins
          exact foundIn_of_mem_scanPlugins closed wellFormed (plugins pluginsDir directory)
            inPlugins
  · exact absurd member List.not_mem_nil

end Region

end EngineDocs
