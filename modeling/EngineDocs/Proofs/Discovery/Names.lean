/-
This file shows that the name of every module that is found is a name in the sense of the file
tree. The name of a module of the engine is that of its directory on the disk; the name of a plugin
module is the last name of the path of its directory.
-/

import EngineDocs.Generation.Run
import EngineDocs.Proofs.FileTree.Lookup

namespace EngineDocs

/-! ### What a directory holds -/

namespace FileTree

theorem at?_of_mem_toList {tree : FileTree} {location : Location} {item : Item}
    (inner : location ≠ []) (member : (location, item) ∈ tree.items.toList) :
    tree.at? location = some item := by
  rw [at?_of_ne_nil tree inner]
  exact Std.TreeMap.mem_toList_iff_getElem?_eq_some.mp member

theorem mem_contents_iff {tree : FileTree} {location names : Location} {item : Item} :
    (names, item) ∈ tree.contents location ↔
      names ≠ [] ∧ tree.at? (location ++ names) = some item := by
  constructor
  · intro member
    obtain ⟨⟨other, found⟩, listed, kept⟩ := List.mem_filterMap.mp member
    dsimp only at kept
    split at kept
    · rename_i name rest below
      obtain ⟨rfl, rfl⟩ := Prod.mk.inj (Option.some.inj kept)
      rw [Location.below?_eq_some_iff] at below
      subst below
      exact ⟨List.cons_ne_nil _ _, at?_of_mem_toList (by simp) listed⟩
    · exact nomatch kept
  · rintro ⟨solid, there⟩
    have inner : location ++ names ≠ [] := fun none => solid (List.append_eq_nil_iff.mp none).2
    rw [at?_of_ne_nil _ inner] at there
    refine List.mem_filterMap.mpr
      ⟨_, Std.TreeMap.mem_toList_iff_getElem?_eq_some.mpr there, ?_⟩
    dsimp only
    rw [(Location.below?_eq_some_iff location _ names).mpr rfl]
    obtain ⟨name, rest, rfl⟩ := List.exists_cons_of_ne_nil solid
    rfl

theorem mem_shown_iff {tree : FileTree} {location names : Location} {item : Item} :
    (names, item) ∈ tree.shown location ↔
      names ≠ [] ∧ tree.at? (location ++ names) = some item ∧ tree.shows location names = true := by
  rw [shown, List.mem_filter, mem_contents_iff, and_assoc]

theorem mem_entries_iff {tree : FileTree} {location : Location} {name : String} {item : Item} :
    (name, item) ∈ tree.entries location ↔
      tree.at? (location ++ [name]) = some item ∧ tree.mayList location = true := by
  have shown_iff : (name, item) ∈ tree.entries location ↔ ([name], item) ∈ tree.shown location := by
    rw [entries, List.mem_filterMap]
    constructor
    · rintro ⟨⟨names, found⟩, listed, kept⟩
      dsimp only at kept
      split at kept
      · obtain ⟨rfl, rfl⟩ := Prod.mk.inj (Option.some.inj kept)
        exact listed
      · cases kept
    · exact fun listed => ⟨_, listed, rfl⟩
  rw [shown_iff, mem_shown_iff, and_iff_right (List.cons_ne_nil _ _)]
  simp [shows]

end FileTree

/-! ### The last name of a path -/

namespace Path

theorem innerComponent?_eq_name {segment text : Text}
    (component : innerComponent? segment = some (.name text)) :
    segment = text ∧ text ≠ [] ∧ text ≠ ['.'] ∧ text ≠ ['.', '.'] := by
  rw [innerComponent?] at component
  split at component
  · exact nomatch component
  · rename_i solid
    split at component
    · exact nomatch component
    · rename_i notUp
      obtain rfl := Component.name.inj (Option.some.inj component)
      simp only [Bool.or_eq_true, List.isEmpty_iff, beq_iff_eq, not_or] at solid notUp
      exact ⟨rfl, solid.1, solid.2, notUp⟩

theorem firstComponent?_eq_name {absolute : Bool} {segment text : Text}
    (component : firstComponent? absolute segment = some (.name text)) :
    innerComponent? segment = some (.name text) := by
  rw [firstComponent?] at component
  split at component
  · exact nomatch component
  · split at component
    · exact nomatch component
    · exact component

/-- The last component of a path is a name in the sense of the file tree when it is a name. -/
theorem isName_of_lastName? {path name : String} (last : lastName? path = some name.toList) :
    IsName name := by
  have component : Component.name name.toList ∈ components path := by
    rw [lastName?] at last
    split at last
    · rename_i text found
      rw [← Option.some.inj last]
      exact List.mem_of_getLast? found
    · exact nomatch last
  obtain ⟨⟨segment, label⟩, labelled, rfl⟩ := List.mem_filterMap.mp component
  have inside : segment ∈ segments path ∧
      innerComponent? segment = some (.name name.toList) := by
    rw [Path.labelled] at labelled
    split at labelled
    · exact absurd labelled List.not_mem_nil
    · rename_i first rest divided
      rw [divided]
      rcases List.mem_cons.mp labelled with here | later
      · obtain ⟨rfl, same⟩ := Prod.mk.inj here
        exact ⟨List.mem_cons_self, firstComponent?_eq_name same.symm⟩
      · obtain ⟨other, member, same⟩ := List.mem_map.mp later
        obtain ⟨rfl, component⟩ := Prod.mk.inj same
        exact ⟨List.mem_cons_of_mem _ member, component⟩
  obtain ⟨rfl, solid, notHere, notUp⟩ := innerComponent?_eq_name inside.2
  refine ⟨?_, ?_, ?_, ?_⟩
  · rintro rfl
    exact solid rfl
  · intro slash
    exact absurd (Text.not_cut_of_mem_pieces inside.1 '/' slash) (by decide)
  · rintro rfl
    exact notHere rfl
  · rintro rfl
    exact notUp rfl

end Path

/-! ### Modules -/

namespace Scanner

theorem moduleInfo?_name {scanner : Scanner} {tree : FileTree}
    {directory name category rulesPath : String} {info : ModuleInfo}
    (found : scanner.moduleInfo? tree directory name category rulesPath = some info) :
    info.name = name := by
  rw [moduleInfo?] at found
  split at found
  · rw [← Option.some.inj found]
  · exact nomatch found

theorem moduleInfo?_category {scanner : Scanner} {tree : FileTree}
    {directory name category rulesPath : String} {info : ModuleInfo}
    (found : scanner.moduleInfo? tree directory name category rulesPath = some info) :
    info.category = category := by
  rw [moduleInfo?] at found
  split at found
  · rw [← Option.some.inj found]
  · exact nomatch found

theorem isName_of_mem_scan {scanner : Scanner} {tree : FileTree} (wellFormed : tree.WellFormed)
    {info : ModuleInfo} (member : info ∈ scanner.scan tree) : Path.IsName info.name := by
  obtain ⟨category, _, member⟩ := List.mem_flatMap.mp member
  unfold scanCategory at member
  dsimp only at member
  split at member
  · rename_i location _
    obtain ⟨⟨name, item⟩, listed, kept⟩ := List.mem_filterMap.mp member
    rw [entryModule?] at kept
    split at kept
    · have there := (FileTree.mem_entries_iff.mp listed).1
      have isName := (wellFormed.isName _ _ there name (by simp)).1
      exact moduleInfo?_name kept ▸ isName
    · exact nomatch kept
  · exact absurd member List.not_mem_nil

theorem isName_of_mem_scanPlugins {scanner : Scanner} {tree : FileTree} {pluginsDir : String}
    {info : ModuleInfo} (member : info ∈ scanner.scanPlugins tree pluginsDir) :
    Path.IsName info.name := by
  rw [scanPlugins] at member
  split at member
  · obtain ⟨⟨names, item⟩, _, kept⟩ := List.mem_filterMap.mp member
    obtain ⟨name, _, kept⟩ := Option.bind_eq_some_iff.mp kept
    obtain ⟨directory, _, kept⟩ := Option.bind_eq_some_iff.mp kept
    split at kept
    · rename_i conditions
      simp only [Bool.and_eq_true, beq_iff_eq] at conditions
      exact moduleInfo?_name kept ▸ Path.isName_of_lastName? conditions.2
    · exact nomatch kept
  · exact absurd member List.not_mem_nil

end Scanner

namespace Generation

/-- The modules that a run reads, in the order in which it finds them. -/
def processed (settings : Settings) (tree : FileTree) : List ModuleData :=
  match scanModules settings tree with
  | .ok modules => modules.map fun info => (info.process tree).data
  | .error _ => []

theorem scanModules_of_mem_processed {settings : Settings} {tree : FileTree} {data : ModuleData}
    (member : data ∈ processed settings tree) :
    ∃ modules, scanModules settings tree = .ok modules := by
  rw [processed] at member
  split at member
  · rename_i modules scanned
    exact ⟨modules, scanned⟩
  · exact absurd member List.not_mem_nil

theorem isName_of_mem_scanModules {settings : Settings} {tree : FileTree}
    (wellFormed : tree.WellFormed) {modules : List ModuleInfo}
    (scanned : scanModules settings tree = .ok modules) {info : ModuleInfo}
    (member : info ∈ modules) : Path.IsName info.name := by
  rw [scanModules] at scanned
  simp only [bind, Except.bind, pure, Except.pure, throw, throwThe, MonadExceptOf.throw] at scanned
  split at scanned
  · exact nomatch scanned
  split at scanned
  · exact nomatch scanned
  split at scanned
  · exact nomatch scanned
  rw [← Except.ok.inj scanned] at member
  rcases List.mem_append.mp member with engine | plugin
  · exact Scanner.isName_of_mem_scan wellFormed engine
  · cases directory : settings.pluginsDir with
    | none =>
      rw [directory] at plugin
      exact absurd plugin List.not_mem_nil
    | some pluginsDir =>
      rw [directory] at plugin
      exact Scanner.isName_of_mem_scanPlugins plugin

/-- The modules of a run have names that a disk can hold. -/
theorem isName_of_mem_processed {settings : Settings} {tree : FileTree}
    (wellFormed : tree.WellFormed) {data : ModuleData} (member : data ∈ processed settings tree) :
    Path.IsName data.name := by
  rw [processed] at member
  split at member
  · rename_i modules scanned
    obtain ⟨info, found, rfl⟩ := List.mem_map.mp member
    exact isName_of_mem_scanModules wellFormed scanned found
  · exact absurd member List.not_mem_nil

end Generation

end EngineDocs
