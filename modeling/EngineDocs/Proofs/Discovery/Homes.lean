/-
This file shows that the data of an engine does not depend on where the engine lives. A path for
display starts at the directory called `Engine`, so nothing in front of it shows; and a scan that
starts below this directory sees the same wherever it stands. There is one exception, for which no
scan can be blamed: the system refuses paths that are too long, and a path that it takes under one
home may be too long under another.
-/

import EngineDocs.Proofs.Discovery.Regions
import EngineDocs.Proofs.FileTree.Places

namespace EngineDocs

open FileTree
open Headers (descend)

/-! ### What paths below a home show -/

namespace DisplayPath

variable {home : String} {names : List String}

/-- The path of an engine is divided into segments of its home, the anchor, and the segments of the
names below it. -/
theorem stretches_descend (home : String) (areNames : ∀ name ∈ names, Path.IsName name) :
    ∃ front, stretches (descend home ("Engine" :: names)) =
        front ++ anchor :: names.flatMap stretches ∧
      ∀ piece, piece ≠ [] → (piece ∈ front ↔ piece ∈ stretches home) := by
  have isEngine : Path.IsName "Engine" := by decide
  induction names using List.reverseRecOn with
  | nil =>
    exact @Path.exists_solid_pieces_join isSeparator rfl home "Engine" isEngine.isAbsolute_eq
  | append_singleton names name inductionHypothesis =>
    have above : ∀ name ∈ names, Path.IsName name :=
      fun name member => areNames name (List.mem_append_left _ member)
    have isName := areNames name (List.mem_append_right _ List.mem_cons_self)
    obtain ⟨front, form, inside⟩ := inductionHypothesis above
    obtain ⟨base, upper, isNameUpper, _, joined⟩ := Path.exists_join_of_descend home
      (List.forall_mem_cons.mpr ⟨isEngine, above⟩) (List.cons_ne_nil _ _)
    refine ⟨front, ?_, inside⟩
    have whole := (Headers.join_descend home ("Engine" :: names) name).symm
    rw [List.cons_append] at whole
    have divided : stretches (Path.join (Path.join base upper) name) =
        stretches (Path.join base upper) ++ stretches name :=
      Path.pieces_join_join rfl isNameUpper.nonempty isNameUpper.noSlash isName.isAbsolute_eq
    rw [joined] at whole form
    rw [whole, divided, form, List.flatMap_append, List.flatMap_singleton, List.append_assoc,
      List.cons_append]

/-- What a path of an engine shows depends on the names below the engine only. -/
theorem engineRelative?_descend (unnamed : anchor ∉ stretches home)
    (areNames : ∀ name ∈ names, Path.IsName name) :
    engineRelative? (descend home ("Engine" :: names)) =
      some (String.ofList (Text.joinWith ['/'] (anchor :: names.flatMap stretches))) := by
  obtain ⟨front, form, inside⟩ := stretches_descend home areNames
  exact engineRelative?_of_stretches form (mt (inside anchor (by decide)).mp unnamed)

end DisplayPath

/-! ### Engines that are the same -/

/-- An engine lives in a directory: a path leads to it, and no segment of the path is called as the
directory of the engine. -/
structure LivesIn (tree : FileTree) (home : String) (place : Location) : Prop where
  leads : tree.Leads home place
  unnamed : DisplayPath.anchor ∉ DisplayPath.stretches home

/-- The same engine lives in directories of two trees: the same items stand in it, and the same of
its directories can be listed and entered. Both homes can be entered or neither, and the system takes
the paths to what is there in both trees or in neither. -/
structure SameEngine (first : FileTree) (home : String) (place : Location) (second : FileTree)
    (otherHome : String) (otherPlace : Location) : Prop where
  lives : LivesIn first home place
  livesToo : LivesIn second otherHome otherPlace
  items : ∀ names, first.at? (place ++ "Engine" :: names) =
    second.at? (otherPlace ++ "Engine" :: names)
  entered : first.mayEnter place = second.mayEnter otherPlace
  mayList : ∀ names, first.mayList (place ++ "Engine" :: names) =
    second.mayList (otherPlace ++ "Engine" :: names)
  mayEnter : ∀ names, first.mayEnter (place ++ "Engine" :: names) =
    second.mayEnter (otherPlace ++ "Engine" :: names)
  refused : ∀ names, first.at? (place ++ "Engine" :: names) ≠ none →
    (checkPath (descend home ("Engine" :: names))).isOk =
      (checkPath (descend otherHome ("Engine" :: names))).isOk

/-- Two paths lead along the same names into the engine. -/
def EnginePair (home otherHome path other : String) : Prop :=
  ∃ names, (∀ name ∈ names, Path.IsName name) ∧ path = descend home ("Engine" :: names) ∧
    other = descend otherHome ("Engine" :: names)

namespace SameEngine

variable {first second : FileTree} {home otherHome : String} {place otherPlace : Location}
  (same : SameEngine first home place second otherHome otherPlace)
  (wellFormed : first.WellFormed) (wellFormedToo : second.WellFormed)

theorem isName_engine {names : List String} (areNames : ∀ name ∈ names, Path.IsName name) :
    ∀ name ∈ "Engine" :: names, Path.IsName name :=
  List.forall_mem_cons.mpr ⟨by decide, areNames⟩

theorem pair_join {path other name : String} (paired : EnginePair home otherHome path other)
    (isName : Path.IsName name) :
    EnginePair home otherHome (Path.join path name) (Path.join other name) := by
  obtain ⟨names, areNames, rfl, rfl⟩ := paired
  refine ⟨names ++ [name], ?_, Headers.join_descend home ("Engine" :: names) name,
    Headers.join_descend otherHome ("Engine" :: names) name⟩
  exact List.forall_mem_append.mpr ⟨areNames, List.forall_mem_singleton.mpr isName⟩

include same

theorem passable_iff (names : Location) :
    first.Passable place ("Engine" :: names) ↔ second.Passable otherPlace ("Engine" :: names) := by
  rw [passable_cons_iff, passable_cons_iff, same.entered]
  simp only [Passable, List.append_assoc, List.singleton_append, same.mayEnter]

theorem checkPath_iff {names : Location} {item : Item}
    (there : first.at? (place ++ "Engine" :: names) = some item) :
    checkPath (descend home ("Engine" :: names)) = .ok () ↔
      checkPath (descend otherHome ("Engine" :: names)) = .ok () := by
  have ok_iff : ∀ path, checkPath path = .ok () ↔ (checkPath path).isOk = true := by
    intro path
    cases checkPath path <;> simp [Except.isOk, Except.toBool]
  have refused := same.refused names (there ▸ Option.some_ne_none item)
  rw [ok_iff, ok_iff, refused]

theorem alikeBelow (names : Location) : first.AlikeBelow (place ++ "Engine" :: names) second
    (otherPlace ++ "Engine" :: names) := by
  refine ⟨fun lower item _ _ => ?_, fun lower => ?_, fun lower => ?_⟩
  · rw [List.append_assoc, List.append_assoc, List.cons_append, same.items]
  · rw [List.append_assoc, List.append_assoc, List.cons_append, same.mayList]
  · rw [List.append_assoc, List.append_assoc, List.cons_append, same.mayEnter]

include wellFormed wellFormedToo

theorem listing_eq {path other : String} (paired : EnginePair home otherHome path other) :
    first.listing path = second.listing other := by
  obtain ⟨names, areNames, rfl, rfl⟩ := paired
  refine listing_eq_of_mem_iff fun entry => ?_
  rw [same.lives.leads.mem_listing_descend_iff wellFormed (isName_engine areNames),
    same.livesToo.leads.mem_listing_descend_iff wellFormedToo (isName_engine areNames),
    ← (same.alikeBelow names).visible_eq, ← same.passable_iff]
  refine and_congr_left fun ⟨_, member⟩ => ?_
  exact same.checkPath_iff (wellFormed.directory_of_mem_visible member)

theorem item?_join_eq {path other name : String} (paired : EnginePair home otherHome path other)
    (isName : Path.IsName name) :
    first.item? (Path.join path name) = second.item? (Path.join other name) := by
  obtain ⟨names, areNames, rfl, rfl⟩ := paired
  have below := isName_engine
    (List.forall_mem_append.mpr ⟨areNames, List.forall_mem_singleton.mpr isName⟩)
  rw [Headers.join_descend, Headers.join_descend]
  ext item
  rw [List.cons_append,
    same.lives.leads.item?_descend_eq_some_iff wellFormed below (List.cons_ne_nil _ _),
    same.livesToo.leads.item?_descend_eq_some_iff wellFormedToo below (List.cons_ne_nil _ _),
    ← same.items, ← same.passable_iff]
  exact and_congr_left fun ⟨_, there⟩ => same.checkPath_iff there

/-- A scan of the engine sees and shows the same from both homes. -/
theorem mirrors (source otherSource : String) :
    Mirrors first second source otherSource (EnginePair home otherHome) where
  join := pair_join
  parent := by
    rintro path other name ⟨names, areNames, rfl, rfl⟩ isName
    have areNamesToo := isName_engine areNames
    refine ⟨_, _, Path.parent?_join_descend home areNamesToo (List.cons_ne_nil _ _) isName,
      Path.parent?_join_descend otherHome areNamesToo (List.cons_ne_nil _ _) isName,
      ⟨names, areNames, rfl, rfl⟩, ?_⟩
    rw [Path.lastName?_descend home areNamesToo (List.cons_ne_nil _ _),
      Path.lastName?_descend otherHome areNamesToo (List.cons_ne_nil _ _)]
  header := by
    rintro path other ⟨names, areNames, rfl, rfl⟩
    rw [DisplayPath.ofHeader, DisplayPath.ofHeader,
      DisplayPath.engineRelative?_descend same.lives.unnamed areNames,
      DisplayPath.engineRelative?_descend same.livesToo.unnamed areNames, Option.getD_some,
      Option.getD_some]
  module := by
    rintro path other ⟨names, areNames, rfl, rfl⟩
    rw [DisplayPath.ofModule, DisplayPath.ofModule,
      DisplayPath.engineRelative?_descend same.lives.unnamed areNames,
      DisplayPath.engineRelative?_descend same.livesToo.unnamed areNames, Option.getD_some,
      Option.getD_some]
  listing := same.listing_eq wellFormed wellFormedToo
  item? paired isName _ := same.item?_join_eq wellFormed wellFormedToo paired isName

end SameEngine

/-! ### Data and homes -/

/-- Settings for an engine that lives in a directory. -/
def Settings.atHome (settings : Settings) (home : String) (withPlugins : Bool) : Settings :=
  { settings with
    sourceDir := descend home ["Engine", "Source"]
    pluginsDir := if withPlugins then some (descend home ["Engine", "Plugins"]) else none }

namespace Generation

section Home

variable {home : String} {names : List String}

/-- What a path below the directory of an engine shows begins with the name of that directory. -/
theorem prefix_of_engineRelative? (unnamed : DisplayPath.anchor ∉ DisplayPath.stretches home)
    (areNames : ∀ name ∈ names, Path.IsName name) (solid : names ≠ []) {shown : String}
    (relative : DisplayPath.engineRelative? (descend home ("Engine" :: names)) = some shown) :
    "Engine/".toList <+: shown.toList := by
  obtain ⟨name, names, rfl⟩ := List.exists_cons_of_ne_nil solid
  obtain ⟨piece, rest, form⟩ :=
    List.exists_cons_of_ne_nil (Text.pieces_ne_nil DisplayPath.isSeparator name.toList)
  rw [DisplayPath.engineRelative?_descend unnamed areNames, List.flatMap_cons,
    DisplayPath.stretches, form, List.cons_append, Text.joinWith_cons_cons] at relative
  have text := congrArg String.toList (Option.some.inj relative)
  have start : "Engine/".toList = DisplayPath.anchor ++ ['/'] := by decide
  rw [String.toList_ofList] at text
  rw [← text, start]
  exact List.prefix_append _ _

/-- A path leads along names to something below the directory of an engine. -/
def EnginePath (home path : String) : Prop :=
  ∃ names, names ≠ [] ∧ (∀ name ∈ names, Path.IsName name) ∧
    path = descend home ("Engine" :: names)

/-- Scans stay below the directory of an engine. -/
theorem region_engine (home : String) : Region (EnginePath home) where
  join := by
    rintro path name ⟨names, _, areNames, rfl⟩ isName
    refine ⟨names ++ [name], by simp, ?_, Headers.join_descend home ("Engine" :: names) name⟩
    exact List.forall_mem_append.mpr ⟨areNames, List.forall_mem_singleton.mpr isName⟩
  parent := by
    rintro path name outer ⟨names, solid, areNames, rfl⟩ isName parent
    rw [Path.parent?_join_descend home (SameEngine.isName_engine areNames) (List.cons_ne_nil _ _)
      isName] at parent
    exact ⟨names, solid, areNames, (Option.some.inj parent).symm⟩

/-- All paths in the data of an engine start at its directory. -/
theorem prefix_of_mem_processed {settings : Settings} {withPlugins : Bool} {tree : FileTree}
    (unnamed : DisplayPath.anchor ∉ DisplayPath.stretches home) (wellFormed : tree.WellFormed)
    (categories : ∀ category ∈ settings.moduleCategories, Path.IsName category)
    {data : ModuleData} (member : data ∈ processed (settings.atHome home withPlugins) tree) :
    ∀ path ∈ data.path :: data.filePaths, "Engine/".toList <+: path.toList := by
  have inside : ∀ {name : String}, Path.IsName name →
      EnginePath home (descend home ["Engine", name]) := fun isName =>
    ⟨_, List.cons_ne_nil _ _, List.forall_mem_singleton.mpr isName, rfl⟩
  have source : EnginePath home (descend home ["Engine", "Source"]) := inside (by decide)
  have engine : ∀ category ∈ settings.moduleCategories,
      EnginePath home (Path.join (descend home ["Engine", "Source"]) category) :=
    fun category listed => (region_engine home).join source (categories category listed)
  have plugins : ∀ pluginsDir, (settings.atHome home withPlugins).pluginsDir = some pluginsDir →
      EnginePath home pluginsDir := by
    intro pluginsDir given
    rw [Settings.atHome] at given
    dsimp only at given
    split at given
    · rw [← Option.some.inj given]
      exact inside (by decide)
    · exact nomatch given
  obtain ⟨info, rfl, foundIn⟩ :=
    exists_foundIn_of_mem_processed (region_engine home) wellFormed engine plugins member
  intro path listed
  rcases List.mem_cons.mp listed with rfl | inRecords
  · obtain ⟨directory, ⟨names, solid, areNames, rfl⟩, shown⟩ := foundIn.path
    have path : (info.dataIn tree).path = info.path := rfl
    have relative := DisplayPath.engineRelative?_descend unnamed areNames
    rw [path, shown, DisplayPath.ofModule, relative]
    exact prefix_of_engineRelative? unnamed areNames solid relative
  · obtain ⟨header, ⟨names, solid, areNames, rfl⟩, rfl⟩ :=
      foundIn.mem_filePaths (region_engine home) wellFormed inRecords
    have relative := DisplayPath.engineRelative?_descend unnamed areNames
    rw [DisplayPath.ofHeader, relative]
    exact prefix_of_engineRelative? unnamed areNames solid relative

end Home

/-- Wherever an engine lives, a run finds the same modules with the same data and the same
fingerprints, as long as the system takes the paths to what is there; and all paths in the data
start at the directory of the engine. -/
theorem data_independent_of_home (settings : Settings) (withPlugins : Bool)
    {first second : FileTree} {home otherHome : String} {place otherPlace : Location}
    (same : SameEngine first home place second otherHome otherPlace)
    (wellFormed : first.WellFormed) (wellFormedToo : second.WellFormed)
    (categories : ∀ category ∈ settings.moduleCategories, Path.IsName category) :
    (scanModules (settings.atHome home withPlugins) first).isOk =
        (scanModules (settings.atHome otherHome withPlugins) second).isOk ∧
      candidates (settings.atHome home withPlugins) first =
        candidates (settings.atHome otherHome withPlugins) second ∧
      ∀ data ∈ processed (settings.atHome home withPlugins) first,
        ∀ path ∈ data.path :: data.filePaths, "Engine/".toList <+: path.toList := by
  have isSource : Path.IsName "Source" := by decide
  have mirrors := same.mirrors wellFormed wellFormedToo
    (settings.atHome home withPlugins).sourceDir (settings.atHome otherHome withPlugins).sourceDir
  have engine : EnginePair home otherHome (descend home ["Engine"]) (descend otherHome ["Engine"]) :=
    ⟨[], nofun, rfl, rfl⟩
  have sameData : processed (settings.atHome home withPlugins) first =
      processed (settings.atHome otherHome withPlugins) second := by
    refine processed_congr mirrors wellFormed wellFormedToo rfl rfl ?_ ?_ ?_
    · exact mirrors.isDirectory_eq engine isSource (by decide)
    · exact fun category listed =>
        mirrors.join (mirrors.join engine isSource) (categories category listed)
    · rw [Settings.atHome, Settings.atHome]
      dsimp only
      split
      · exact .some (mirrors.join engine (by decide))
      · exact .none
  refine ⟨?_, ?_, fun data member => ?_⟩
  · rw [isOk_scanModules, isOk_scanModules, sameData]
  · rw [candidates, candidates, sameData]
  · exact prefix_of_mem_processed same.lives.unnamed wellFormed categories member

/-! ### A small engine in two homes -/

/-- Bytes are compared as arrays. -/
local instance (priority := high) bytesDecidableEq : DecidableEq ByteArray := fun first second =>
  decidable_of_iff (first.data = second.data) ByteArray.ext_iff.symm

deriving instance DecidableEq for Item

/-- A tree with a small engine in a directory: one module with a header. -/
def engineIn (home : String) : FileTree :=
  (Change.performAll {} [
    .directory (descend home ["Engine", "Source", "A", "M", "Public"]),
    .file (descend home ["Engine", "Source", "A", "M", "M.Build.cs"]) "",
    .file (descend home ["Engine", "Source", "A", "M", "Public", "M.h"]) "class M;"]).1

theorem engineIn_wellFormed (home : String) : (engineIn home).WellFormed :=
  Change.performAll_wellFormed .empty _

/-- Trees that show the same below two directories have the same items there. -/
theorem at?_eq_of_contents_eq {first second : FileTree} {place other : Location}
    (same : first.contents place = second.contents other) {names : Location} (solid : names ≠ []) :
    first.at? (place ++ names) = second.at? (other ++ names) := by
  ext item
  have listed := @mem_contents_iff first place names item
  rw [same, mem_contents_iff] at listed
  exact ⟨fun there => (listed.mpr ⟨solid, there⟩).2, fun there => (listed.mp ⟨solid, there⟩).2⟩

theorem leads_empty {tree : FileTree} (atRoot : tree.workingDirectory = []) :
    tree.Leads "" [] := congrArg Except.ok atRoot

theorem engineIn_workingDirectory (home : String) : (engineIn home).workingDirectory = [] := by
  rw [engineIn]
  exact (Change.performAll_grows {} _).keeps.workingDirectory

theorem engineIn_restrictions (home : String) : (engineIn home).restrictions = {} := by
  rw [engineIn]
  exact (Change.performAll_grows {} _).restrictions

theorem mayEnter_engineIn (home : String) (location : Location) :
    (engineIn home).mayEnter location = true := by
  rw [mayEnter, engineIn_restrictions]
  rfl

theorem mayList_engineIn (home : String) (location : Location) :
    (engineIn home).mayList location = true := by
  rw [mayList, engineIn_restrictions]
  rfl

theorem enter_root_engineIn (home : String) : (engineIn home).enter [] = .ok () :=
  enter_eq_ok_iff.mpr ⟨rfl, mayEnter_engineIn home []⟩

theorem sameEngine_engineIn : SameEngine (engineIn "") "" [] (engineIn "q") "q" ["q"] := by
  have facts : (engineIn "").contents ["Engine"] = (engineIn "q").contents ["q", "Engine"] ∧
      (engineIn "").at? ["Engine"] = some .directory ∧
      (engineIn "q").at? ["q", "Engine"] = some .directory ∧
      (∀ entry ∈ (engineIn "").contents ["Engine"],
        (checkPath (descend "" ("Engine" :: entry.1))).isOk = true ∧
          (checkPath (descend "q" ("Engine" :: entry.1))).isOk = true) ∧
      (engineIn "q").follow ((engineIn "q").start "q") (steps "q") = .ok ["q"] := by
    decide +kernel
  obtain ⟨same, engine, engineToo, taken, leads⟩ := facts
  refine ⟨⟨leads_empty (engineIn_workingDirectory ""), by decide⟩, ⟨leads, by decide⟩,
    fun names => ?_, ?_, fun names => ?_, fun names => ?_, fun names there => ?_⟩
  · by_cases none : names = []
    · rw [none]
      exact engine.trans engineToo.symm
    · exact at?_eq_of_contents_eq same none
  · exact (mayEnter_engineIn "" _).trans (mayEnter_engineIn "q" _).symm
  · exact (mayList_engineIn "" _).trans (mayList_engineIn "q" _).symm
  · exact (mayEnter_engineIn "" _).trans (mayEnter_engineIn "q" _).symm
  · by_cases none : names = []
    · rw [none]
      decide
    · obtain ⟨item, found⟩ := Option.ne_none_iff_exists'.mp there
      have listed : (names, item) ∈ (engineIn "").contents ["Engine"] :=
        mem_contents_iff.mpr ⟨none, found⟩
      obtain ⟨takenHere, takenThere⟩ := taken _ listed
      exact takenHere.trans takenThere.symm

theorem data_independent_of_home_small :
    SameEngine (engineIn "") "" [] (engineIn "q") "q" ["q"] ∧ (engineIn "").WellFormed ∧
      (engineIn "q").WellFormed ∧
      (∀ category ∈ (smallSettings "1" [.json] true).moduleCategories, Path.IsName category) ∧
      candidates ((smallSettings "1" [.json] true).atHome "" false) (engineIn "") =
        candidates ((smallSettings "1" [.json] true).atHome "q" false) (engineIn "q") ∧
      (processed ((smallSettings "1" [.json] true).atHome "" false) (engineIn "")).map
          (fun data => data.path :: data.filePaths) =
        [["Engine/Source/A/M", "Engine/Source/A/M/Public/M.h"]] := by
  have categories : ∀ category ∈ (smallSettings "1" [.json] true).moduleCategories,
      Path.IsName category := by decide
  exact ⟨sameEngine_engineIn, engineIn_wellFormed _, engineIn_wellFormed _, categories,
    (data_independent_of_home (smallSettings "1" [.json] true) false sameEngine_engineIn
      (engineIn_wellFormed _) (engineIn_wellFormed _) categories).2.1, by decide +kernel⟩

/-! ### A home with a path that is almost too long -/

/-- A path that stays where it starts. -/
def detour (count : Nat) : Text := (List.replicate count ['.', '/']).flatten

theorem detour_succ (count : Nat) : detour (count + 1) = '.' :: '/' :: detour count := by
  rw [detour, List.replicate_succ, List.flatten_cons]
  rfl

theorem detour_concat (count : Nat) : detour (count + 1) = detour count ++ ['.', '/'] := by
  rw [detour, List.replicate_succ', List.flatten_append, List.flatten_singleton]
  rfl

theorem pieces_detour {cut : Char → Bool} (slash : cut '/' = true) (dot : cut '.' = false)
    (count : Nat) : Text.pieces cut (detour count) = List.replicate count ['.'] ++ [[]] := by
  induction count with
  | zero => rfl
  | succ count inductionHypothesis =>
    have alone : Text.pieces cut ['.'] = [['.']] :=
      Text.pieces_of_forall_not fun c member => by rwa [List.mem_singleton.mp member]
    have divided := @Text.pieces_append_cons cut '/' slash ['.'] (detour count)
    rw [detour_succ, ← List.singleton_append, divided, alone, inductionHypothesis]
    rfl

/-- The working directory, by a path of 4082 characters. -/
def longHome : String := String.ofList (detour 2041)

theorem toList_longHome : longHome.toList = detour 2041 := String.toList_ofList

theorem utf8ByteSize_detour (count : Nat) :
    (String.ofList (detour count)).utf8ByteSize = 2 * count := by
  induction count with
  | zero => rfl
  | succ count inductionHypothesis =>
    have step : (String.ofList ['.', '/']).utf8ByteSize = 2 := rfl
    rw [detour_concat, String.ofList_append, String.utf8ByteSize_append, inductionHypothesis, step,
      Nat.mul_succ]

theorem nul_notMem_detour (count : Nat) : '\x00' ∉ detour count := by
  intro member
  obtain ⟨step, listed, inside⟩ := List.mem_flatten.mp member
  rw [(List.mem_replicate.mp listed).2] at inside
  exact absurd inside (by decide)

theorem livesIn_longHome {tree : FileTree} (atRoot : tree.workingDirectory = [])
    (entered : tree.enter [] = .ok ()) : LivesIn tree longHome [] where
  leads := by
    have relative : Path.isAbsolute longHome = false := by
      rw [Path.isAbsolute, toList_longHome, detour_succ]
      rfl
    have divided : steps longHome = List.replicate 2041 "." := by
      rw [steps, Path.segments, toList_longHome, pieces_detour rfl rfl, List.filter_append,
        List.filter_replicate_of_pos rfl, List.map_append, List.map_replicate]
      exact List.append_nil _
    rw [Leads, start, relative, divided, atRoot]
    exact follow_dots (fun _ => List.eq_of_mem_replicate) entered
  unnamed := by
    rw [DisplayPath.stretches, toList_longHome, pieces_detour rfl rfl, List.mem_append,
      List.mem_replicate]
    decide

/-- A path below the long home is one below the working directory with the detour in front. -/
theorem descend_longHome {names : List String} (areNames : ∀ name ∈ names, Path.IsName name)
    (solid : names ≠ []) : descend longHome names = longHome ++ descend "" names := by
  have nonempty : longHome.isEmpty = false := by
    rw [Bool.eq_false_iff, ne_eq, String.isEmpty_iff, ← String.toList_eq_nil_iff, toList_longHome,
      detour_succ]
    exact List.cons_ne_nil _ _
  have front : Path.frontOf longHome = longHome.toList := by
    rw [Path.frontOf, nonempty, toList_longHome, detour_concat, List.getLast?_append]
    rfl
  rw [← String.toList_inj, String.toList_append, Path.toList_descend _ areNames solid,
    Path.toList_descend _ areNames solid, front]
  rfl

theorem checkPath_longHome {names : List String} (areNames : ∀ name ∈ names, Path.IsName name)
    (solid : names ≠ []) (noNul : '\x00' ∉ (descend "" names).toList) :
    checkPath (descend longHome names) =
      if pathLimit ≤ 4082 + (descend "" names).utf8ByteSize then .error .nameTooLong
      else .ok () := by
  have size : longHome.utf8ByteSize = 4082 := utf8ByteSize_detour 2041
  have whole := descend_longHome areNames solid
  have unbroken : (descend longHome names).toList.contains '\x00' = false := by
    rw [Bool.eq_false_iff, ne_eq, List.contains_iff_mem, whole, String.toList_append,
      toList_longHome, List.mem_append]
    exact not_or.mpr ⟨nul_notMem_detour _, noNul⟩
  have nonempty : (descend longHome names).isEmpty = false := by
    rw [Bool.eq_false_iff, ne_eq, String.isEmpty_iff, ← String.utf8ByteSize_eq_zero_iff, whole,
      String.utf8ByteSize_append, size]
    omega
  rw [checkPath, unbroken, nonempty, if_neg nofun, if_neg nofun, whole, String.utf8ByteSize_append,
    size]

/-- A path below the long home that is not too long leads to the directory that it names. -/
theorem lookup_longHome {tree : FileTree} (wellFormed : tree.WellFormed)
    (atRoot : tree.workingDirectory = []) (opened : ∀ place, tree.mayEnter place = true)
    {names : List String} (solid : names ≠ []) (directory : tree.at? names = some .directory)
    (noNul : '\x00' ∉ (descend "" names).toList)
    (fits : 4082 + (descend "" names).utf8ByteSize < pathLimit) :
    tree.lookup (descend longHome names) = .ok (names, .directory) := by
  have areNames : ∀ name ∈ names, Path.IsName name := fun name member =>
    (wellFormed.isName names _ directory name member).1
  have checked : checkPath (descend longHome names) = .ok () := by
    rw [checkPath_longHome areNames solid noNul, if_neg (Nat.not_le.mpr fits)]
  have lives := livesIn_longHome atRoot (enter_eq_ok_iff.mpr ⟨tree.at?_nil, opened []⟩)
  have leads : tree.Leads (descend longHome names) names :=
    (leads_descend_iff tree areNames names).mpr
      ⟨[], lives.leads, wellFormed.follow_eq directory fun _ _ _ _ => opened _, rfl⟩
  exact (lookup_eq_ok_iff tree _ names .directory).mpr ⟨checked, leads, directory, Or.inl rfl⟩

/-- Nothing is found in categories whose paths are refused. -/
theorem processed_atHome_eq_nil {settings : Settings} {home : String} (tree : FileTree)
    (refused : ∀ category ∈ settings.moduleCategories,
      checkPath (descend home ["Engine", "Source", category]) = .error .nameTooLong) :
    processed (settings.atHome home false) tree = [] := by
  have none : (settings.atHome home false).pluginsDir = none := rfl
  have empty : ∀ category ∈ (settings.atHome home false).moduleCategories,
      tree.listing (Path.join (settings.atHome home false).sourceDir category) = [] :=
    fun category listed => listing_of_refused
      ((congrArg checkPath (Headers.join_descend home _ category)).trans (refused category listed))
  rw [processed_eq, scanner_eq]
  split
  · cases ExcludeList.read (settings.atHome home false).excludeDirs with
    | error error => rfl
    | ok patterns =>
      have scanned : Scanner.scan ⟨(settings.atHome home false).sourceDir,
          (settings.atHome home false).moduleCategories, patterns⟩ tree = [] := by
        refine List.flatMap_eq_nil_iff.mpr fun category listed => ?_
        rw [Scanner.scanCategory_eq, empty category listed]
        rfl
      simp only [Except.map, foundModules, scanned, none]
      rfl
  · rfl

/-- One tree holds an engine, and two paths to its home lead to the same place. Below one of them
the module is found. Below the other the directory of sources is found, but the paths to the
categories are too long. -/
theorem data_depends_on_length_of_home :
    LivesIn (engineIn "") "" [] ∧ LivesIn (engineIn "") longHome [] ∧
      (engineIn "").WellFormed ∧
      (∀ category ∈ (smallSettings "1" [.json] true).moduleCategories, Path.IsName category) ∧
      (engineIn "").isDirectory (descend longHome ["Engine", "Source"]) = true ∧
      (processed ((smallSettings "1" [.json] true).atHome "" false) (engineIn "")).map (·.name) =
        ["M"] ∧
      processed ((smallSettings "1" [.json] true).atHome longHome false) (engineIn "") = [] := by
  have atRoot := engineIn_workingDirectory ""
  have entered := enter_root_engineIn ""
  have wellFormed := engineIn_wellFormed ""
  have shown : (engineIn "").at? ["Engine", "Source"] = some .directory ∧
      (processed ((smallSettings "1" [.json] true).atHome "" false) (engineIn "")).map (·.name) =
        ["M"] := by
    decide +kernel
  obtain ⟨source, found⟩ := shown
  have refused : ∀ category ∈ ["A", "B"],
      checkPath (descend longHome ["Engine", "Source", category]) = .error .nameTooLong := by
    intro category listed
    have named : ∀ name ∈ ["Engine", "Source", category], Path.IsName name := by
      revert category
      decide
    rw [checkPath_longHome named (List.cons_ne_nil _ _) (by revert category; decide)]
    revert category
    decide
  have isDirectory : (engineIn "").isDirectory (descend longHome ["Engine", "Source"]) = true :=
    (isDirectory_iff_lookup _ _).mpr ⟨_, lookup_longHome wellFormed atRoot (mayEnter_engineIn "")
      (List.cons_ne_nil _ _) source (by decide) (by decide)⟩
  refine ⟨⟨leads_empty atRoot, by decide⟩, livesIn_longHome atRoot entered, wellFormed, by decide,
    isDirectory, found, ?_⟩
  exact processed_atHome_eq_nil _ refused

end Generation

end EngineDocs
