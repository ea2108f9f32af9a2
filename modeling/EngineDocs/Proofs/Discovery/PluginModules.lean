/-
This file says which modules a scan of the plugins finds. At any depth below the plugins directory
it finds the directories which hold a rules file of their own name and which have a public or a
private part, unless a pattern leaves out one of the directories on the way; the order is that of
the rules files, component by component. There are three exceptions: a directory that cannot be
listed is passed over with all below it, a part does not count when it is out of reach, and the
plugins directory itself is no module when its path does not end in a name.
-/

import EngineDocs.Proofs.Discovery.EngineModules
import EngineDocs.Proofs.Discovery.Rescans

namespace EngineDocs

open FileTree
open Headers (descend)

/-! ### The directory of a rules file -/

namespace FileTree

/-- A part of a module lies at its place and is in reach: the system takes the path to it, and the
directory that it lies in may be entered. -/
structure ShowsPart (tree : FileTree) (directory : String) (place : Location) (part : String) :
    Prop where
  taken : checkPath (Path.join directory part) = .ok ()
  entered : tree.mayEnter place = true
  there : tree.at? (place ++ [part]) = some .directory

section Descent

variable {tree : FileTree} {root : String} {place upper : Location}

/-- What a path ends in is the name of the directory that it leads to, except that a path without a
name at its end goes no further. -/
theorem Leads.lastName?_descend_iff (leads : tree.Leads root place)
    (leadsToo : tree.Leads (descend root upper) (place ++ upper))
    (areNames : ∀ name ∈ upper, Path.IsName name) (name : String) :
    Path.lastName? (descend root upper) = some name.toList ↔
      (place ++ upper).getLast? = some name ∧
        (upper = [] → (Path.lastName? root).isSome = true) := by
  constructor
  · intro last
    refine ⟨leadsToo.getLast?_eq last, fun none => ?_⟩
    rw [none] at last
    exact Option.isSome_iff_exists.mpr ⟨_, last⟩
  · rintro ⟨last, ends⟩
    by_cases none : upper = []
    · obtain ⟨text, found⟩ := Option.isSome_iff_exists.mp (ends none)
      rw [← String.toList_ofList (l := text)] at found
      have same := leads.getLast?_eq found
      rw [none, List.append_nil, same] at last
      rw [none, ← Option.some.inj last]
      exact found
    · rw [Path.lastName?_descend root areNames none, ← List.getLast?_append_of_ne_nil place none,
        last, Option.map_some]

/-- The path of a file lies in a path to the directory of the file, which ends in the same name. -/
theorem Leads.exists_parent? (leads : tree.Leads root place) (solid : root ≠ "") {name : String}
    (isName : Path.IsName name) :
    ∃ outer, Path.parent? (Path.join root name) = some outer ∧ tree.Leads outer place ∧
      Path.lastName? outer = Path.lastName? root := by
  obtain ⟨outer, dots, parent, absolute, areDots, form⟩ := exists_parent?_join root isName
  exact ⟨outer, parent, leads.of_dots absolute areDots form,
    Path.lastName?_of_parent?_join solid isName parent⟩

theorem Leads.isDirectory_join_iff {directory part : String} (leads : tree.Leads directory place)
    (wellFormed : tree.WellFormed) (isPart : Path.IsName part) :
    tree.isDirectory (Path.join directory part) = true ↔ tree.ShowsPart directory place part := by
  have below := leads.isDirectory_descend_iff wellFormed (List.forall_mem_singleton.mpr isPart)
    (List.cons_ne_nil _ _)
  rw [Headers.descend_singleton, passable_singleton_iff] at below
  exact below.trans ⟨fun ⟨taken, entered, there⟩ => ⟨taken, entered, there⟩,
    fun shows => ⟨shows.taken, shows.entered, shows.there⟩⟩

end Descent

end FileTree

namespace Scanner

theorem rulesName?_eq_some_iff (fileName name : String) :
    rulesName? fileName = some name ↔ fileName = name ++ ".Build.cs" := by
  rw [rulesName?, Option.map_eq_some_iff, ← String.toList_inj, String.toList_append]
  simp only [Text.after?_eq_some_iff]
  constructor
  · rintro ⟨rest, form, rfl⟩
    rw [String.toList_ofList, ← List.reverse_inj, List.reverse_append, List.reverse_reverse]
    exact form
  · intro form
    refine ⟨name.toList.reverse, ?_, ?_⟩
    · rw [form, List.reverse_append]
      rfl
    · rw [List.reverse_reverse, String.ofList_toList]

/-! ### The modules below a directory -/

/-- A module of a plugin lies at the end of some names below the plugins directory, and no pattern
leaves out any of them. -/
structure LiesAmongPlugins (scanner : Scanner) (tree : FileTree) (pluginsDir name : String)
    (root upper : Location) : Prop where
  found : tree.lookup pluginsDir = .ok (root, .directory)
  named : (root ++ upper).getLast? = some name
  admitted : ∀ step ∈ upper, scanner.exclude.Admits step
  holds : tree.HoldsModule (root ++ upper) name

/-- What there is to tell of a module of a plugin. -/
structure IsPlugin (scanner : Scanner) (tree : FileTree) (pluginsDir : String)
    (root upper : Location) (directory : String) (info : ModuleInfo) : Prop where
  lies : scanner.LiesAmongPlugins tree pluginsDir info.name root upper
  category_eq : info.category = pluginsCategory
  buildCsPath_eq : info.buildCsPath = descend pluginsDir (upper ++ [info.name ++ ".Build.cs"])
  parent : Path.parent? info.buildCsPath = some directory
  describes : info.Describes scanner.sourceDir directory
    (tree.ShowsPart directory (root ++ upper) "Public")
    (tree.ShowsPart directory (root ++ upper) "Private")

variable {scanner : Scanner} {tree : FileTree}

/-- The directory of a module that lies strictly below the plugins directory. -/
theorem IsPlugin.directory_eq {pluginsDir directory : String} {root upper : Location}
    {info : ModuleInfo}
    (isPlugin : scanner.IsPlugin tree pluginsDir root upper directory info)
    (wellFormed : tree.WellFormed) (below : upper ≠ []) :
    directory = descend pluginsDir upper := by
  obtain ⟨item, there, _⟩ := isPlugin.lies.holds.rules
  rw [List.append_assoc] at there
  have areNames := wellFormed.isName_below there
  have parent := isPlugin.parent
  rw [isPlugin.buildCsPath_eq, ← Headers.join_descend,
    Path.parent?_join_descend pluginsDir (fun name inner =>
      areNames name (List.mem_append_left _ inner)) below
      (areNames _ (List.mem_append_right _ List.mem_cons_self))] at parent
  exact (Option.some.inj parent).symm

theorem buildCsPath_of_pluginModule? {pluginsDir : String} {names : List String} {item : Item}
    {info : ModuleInfo}
    (found : scanner.pluginModule? tree pluginsDir names item = some info) :
    info.buildCsPath = descend pluginsDir names := by
  obtain ⟨name, _, kept⟩ := Option.bind_eq_some_iff.mp found
  obtain ⟨directory, _, kept⟩ := Option.bind_eq_some_iff.mp kept
  split at kept
  · exact ((moduleInfo?_eq_some_iff Iff.rfl Iff.rfl info).mp kept).2.2.1
  · cases kept

/-- An item is kept when it is a file, no pattern leaves out a directory on the way, and the
directory that it lies in has the name. -/
theorem isKept_iff {pluginsDir directory : String} {root upper : Location}
    (leads : tree.Leads pluginsDir root)
    (leadsToo : tree.Leads (descend pluginsDir upper) (root ++ upper))
    (areNames : ∀ name ∈ upper, Path.IsName name)
    (last : Path.lastName? directory = Path.lastName? (descend pluginsDir upper)) (item : Item)
    (name : String) :
    (item.isFile && !upper.any scanner.exclude.excludes &&
        Path.lastName? directory == some name.toList) = true ↔
      item.isFile = true ∧ (∀ step ∈ upper, scanner.exclude.Admits step) ∧
        (root ++ upper).getLast? = some name ∧
        (upper = [] → (Path.lastName? pluginsDir).isSome = true) := by
  rw [Bool.and_eq_true, Bool.and_eq_true, Bool.not_eq_true', List.any_eq_false, beq_iff_eq, last,
    leads.lastName?_descend_iff leadsToo areNames, and_assoc]
  simp only [Bool.not_eq_true, ExcludeList.excludes_eq_false_iff]

/-- The module in an item below the plugins directory. -/
theorem pluginModule?_eq_some_iff (wellFormed : tree.WellFormed) {pluginsDir fileName : String}
    {root upper : Location} {item : Item}
    (found : tree.lookup pluginsDir = .ok (root, .directory))
    (there : tree.at? (root ++ (upper ++ [fileName])) = some item)
    (walkable : tree.Walkable root (upper ++ [fileName])) (info : ModuleInfo) :
    scanner.pluginModule? tree pluginsDir (upper ++ [fileName]) item = some info ↔
      ∃ directory, fileName = info.name ++ ".Build.cs" ∧ item.isFile = true ∧
        scanner.IsPlugin tree pluginsDir root upper directory info ∧
        (tree.ShowsPart directory (root ++ upper) "Public" ∨
          tree.ShowsPart directory (root ++ upper) "Private") ∧
        (upper = [] → (Path.lastName? pluginsDir).isSome = true) := by
  have above : tree.at? (root ++ upper) = some .directory := by
    rw [← List.append_assoc] at there
    exact wellFormed.directory_above (List.cons_ne_nil _ _) there
  have named := wellFormed.isName_below there
  have isFile := named fileName (List.mem_append_right _ List.mem_cons_self)
  have areNames : ∀ name ∈ upper, Path.IsName name :=
    fun name member => named name (List.mem_append_left _ member)
  obtain ⟨_, leads, _⟩ := (lookup_eq_ok_iff tree _ _ _).mp found
  have below : tree.Leads (descend pluginsDir upper) (root ++ upper) :=
    (leads_descend_iff tree areNames _).mpr
      ⟨root, leads, wellFormed.follow_eq above walkable.passable, rfl⟩
  have solid := ne_empty_of_lookup found
  obtain ⟨outer, parent, leadsOuter, last⟩ :=
    below.exists_parent? (Path.descend_ne_empty solid areNames) isFile
  rw [Headers.join_descend] at parent
  have isThere : ∀ part, Path.IsName part →
      (tree.isDirectory (Path.join outer part) = true ↔
        tree.ShowsPart outer (root ++ upper) part) :=
    fun _ isPart => leadsOuter.isDirectory_join_iff wellFormed isPart
  have told : ∀ name, scanner.moduleInfo? tree outer name pluginsCategory
      (descend pluginsDir (upper ++ [fileName])) = some info ↔ _ := fun name =>
    moduleInfo?_eq_some_iff (isThere "Public" (by decide)) (isThere "Private" (by decide)) info
  rw [pluginModule?, List.getLast?_concat, Option.getD_some, List.dropLast_concat, parent]
  simp only [Option.bind_eq_bind, Option.bind_some, Option.bind_eq_some_iff]
  constructor
  · rintro ⟨name, rules, kept⟩
    split at kept
    · rename_i conditions
      obtain ⟨file, admitted, ends, solidEnd⟩ :=
        (isKept_iff leads below areNames last item name).mp conditions
      obtain ⟨rfl, category, path, part, described⟩ := (told name).mp kept
      obtain rfl := (rulesName?_eq_some_iff _ _).mp rules
      rw [← List.append_assoc] at there
      exact ⟨outer, rfl, file, ⟨⟨found, ends, admitted, ⟨⟨item, there, file⟩,
        part.imp (·.there) (·.there)⟩⟩, category, path, path ▸ parent, described⟩, part, solidEnd⟩
    · cases kept
  · rintro ⟨directory, rfl, file, ⟨lies, category, path, isParent, described⟩, part, solidEnd⟩
    obtain rfl : outer = directory := Option.some.inj (parent.symm.trans (path ▸ isParent))
    refine ⟨info.name, (rulesName?_eq_some_iff _ _).mpr rfl, ?_⟩
    have kept := (isKept_iff leads below areNames last item info.name).mpr
      ⟨file, lies.admitted, lies.named, solidEnd⟩
    rw [if_pos kept]
    exact (told _).mpr ⟨rfl, category, path, part, described⟩

/-- The modules that are found are in the order of their rules files. -/
theorem scanPlugins_ordered (wellFormed : tree.WellFormed) (scanner : Scanner)
    (pluginsDir : String) :
    (scanner.scanPlugins tree pluginsDir).Pairwise fun first second =>
      Path.Before first.buildCsPath second.buildCsPath := by
  rw [scanPlugins]
  split
  · rename_i root found
    refine List.Pairwise.filterMap _ (fun first second before one isOne other isOther => ?_)
      (wellFormed.descend_ordered (ne_empty_of_lookup found) root)
    rw [buildCsPath_of_pluginModule? isOne, buildCsPath_of_pluginModule? isOther]
    exact before
  · exact .nil

/-- The modules that are found are those that lie below the plugins directory, but for those whose
rules file no walk comes to, those whose parts are out of reach, and a plugins directory without a
name. -/
theorem mem_scanPlugins_iff (wellFormed : tree.WellFormed) (pluginsDir : String)
    (info : ModuleInfo) :
    info ∈ scanner.scanPlugins tree pluginsDir ↔
      ∃ root upper directory, scanner.IsPlugin tree pluginsDir root upper directory info ∧
        tree.Walkable root (upper ++ [info.name ++ ".Build.cs"]) ∧
        (tree.ShowsPart directory (root ++ upper) "Public" ∨
          tree.ShowsPart directory (root ++ upper) "Private") ∧
        (upper = [] → (Path.lastName? pluginsDir).isSome = true) := by
  rw [scanPlugins]
  constructor
  · intro member
    split at member
    · rename_i root found
      obtain ⟨⟨names, item⟩, listed, kept⟩ := List.mem_filterMap.mp member
      obtain ⟨solid, there, walked⟩ := mem_shown_iff.mp listed
      obtain ⟨upper, fileName, rfl⟩ := (List.eq_nil_or_concat' names).resolve_left solid
      have walkable := shows_iff.mp walked
      obtain ⟨directory, rfl, _, isPlugin, part, ends⟩ :=
        (pluginModule?_eq_some_iff wellFormed found there walkable info).mp kept
      exact ⟨root, upper, directory, isPlugin, walkable, part, ends⟩
    · exact absurd member List.not_mem_nil
  · rintro ⟨root, upper, directory, isPlugin, walkable, part, ends⟩
    rw [isPlugin.lies.found]
    obtain ⟨item, there, file⟩ := isPlugin.lies.holds.rules
    rw [List.append_assoc] at there
    refine List.mem_filterMap.mpr
      ⟨_, mem_shown_iff.mpr ⟨List.concat_ne_nil _ _, there, shows_iff.mpr walkable⟩, ?_⟩
    exact (pluginModule?_eq_some_iff wellFormed isPlugin.lies.found there walkable info).mpr
      ⟨directory, rfl, file, isPlugin, part, ends⟩

/-- A scan of the plugins finds exactly the modules below the plugins directory whose rules file a
walk comes to and that have a part in reach, where the plugins directory itself counts only if its
path ends in a name. It finds them in the order of their rules files. -/
theorem scanPlugins_exact (wellFormed : tree.WellFormed) (scanner : Scanner) (pluginsDir : String) :
    ((scanner.scanPlugins tree pluginsDir).Pairwise fun first second =>
        Path.Before first.buildCsPath second.buildCsPath) ∧
      ∀ info, info ∈ scanner.scanPlugins tree pluginsDir ↔
        ∃ root upper directory, scanner.IsPlugin tree pluginsDir root upper directory info ∧
          tree.Walkable root (upper ++ [info.name ++ ".Build.cs"]) ∧
          (tree.ShowsPart directory (root ++ upper) "Public" ∨
            tree.ShowsPart directory (root ++ upper) "Private") ∧
          (upper = [] → (Path.lastName? pluginsDir).isSome = true) :=
  ⟨scanPlugins_ordered wellFormed scanner pluginsDir, mem_scanPlugins_iff wellFormed pluginsDir⟩

/-- Plugins with a module in another one. -/
def smallPlugins : FileTree := Generation.smallEngine [("P", "M"), ("P/M", "N"), ("Q", "L")]

/-- A scanner that leaves out what is called `Q`. -/
def smallPluginScanner : Scanner := ⟨"e", [], ⟨[⟨[.char 'Q']⟩]⟩⟩

theorem scanPlugins_exact_small :
    smallPlugins.WellFormed ∧
      (∀ info, info ∈ smallPluginScanner.scanPlugins smallPlugins "s" ↔
        ∃ root upper directory,
          smallPluginScanner.IsPlugin smallPlugins "s" root upper directory info ∧
          smallPlugins.Walkable root (upper ++ [info.name ++ ".Build.cs"]) ∧
          (smallPlugins.ShowsPart directory (root ++ upper) "Public" ∨
            smallPlugins.ShowsPart directory (root ++ upper) "Private") ∧
          (upper = [] → (Path.lastName? "s").isSome = true)) ∧
      (smallPluginScanner.scanPlugins smallPlugins "s").map (·.name) = ["M", "N"] := by
  have wellFormed : smallPlugins.WellFormed := Generation.smallEngine_wellFormed _
  exact ⟨wellFormed, (scanPlugins_exact wellFormed smallPluginScanner "s").2, by decide +kernel⟩

/-- Nothing is found when every file lies below the plugins directory in a directory whose parts have
paths that the system refuses. -/
theorem scanPlugins_eq_nil_of_refused (wellFormed : tree.WellFormed) (scanner : Scanner)
    {pluginsDir : String} {root : Location}
    (found : tree.lookup pluginsDir = .ok (root, .directory))
    (refused : ∀ upper fileName item, tree.at? (root ++ (upper ++ [fileName])) = some item →
      item.isFile = true → upper ≠ [] ∧ ∀ part ∈ ["Public", "Private"],
        checkPath (descend pluginsDir (upper ++ [part])) ≠ .ok ()) :
    scanner.scanPlugins tree pluginsDir = [] := by
  refine List.eq_nil_iff_forall_not_mem.mpr fun info member => ?_
  obtain ⟨place, upper, directory, isPlugin, _, part, _⟩ :=
    (mem_scanPlugins_iff wellFormed pluginsDir info).mp member
  obtain rfl : place = root :=
    (Prod.mk.inj (Except.ok.inj (isPlugin.lies.found.symm.trans found))).1
  obtain ⟨item, there, file⟩ := isPlugin.lies.holds.rules
  rw [List.append_assoc] at there
  obtain ⟨below, long⟩ := refused upper _ item there file
  have noPart : ∀ part ∈ ["Public", "Private"],
      ¬ tree.ShowsPart directory (place ++ upper) part := by
    rintro part isPart ⟨taken, _⟩
    rw [isPlugin.directory_eq wellFormed below, Headers.join_descend] at taken
    exact long part isPart taken
  exact part.elim (noPart "Public" (by simp)) (noPart "Private" (by simp))

/-- A module is overlooked when the path of the plugins directory ends in a step up to the module,
when the path of its part is too long, and when it lies in a directory that cannot be listed. -/
theorem scanPlugins_overlooks_modules :
    (Generation.engineIn "").WellFormed ∧
      LiesAmongPlugins ⟨"e", [], {}⟩ (Generation.engineIn "") "Engine/Source/A/M/Public/.." "M"
        ["Engine", "Source", "A", "M"] [] ∧
      scanPlugins ⟨"e", [], {}⟩ (Generation.engineIn "") "Engine/Source/A/M/Public/.." = [] ∧
      LiesAmongPlugins ⟨"e", [], {}⟩ (Generation.engineIn "")
        (descend Generation.longHome ["Engine"]) "M" ["Engine"] ["Source", "A", "M"] ∧
      scanPlugins ⟨"e", [], {}⟩ (Generation.engineIn "")
        (descend Generation.longHome ["Engine"]) = [] ∧
      ((Generation.engineIn "").forbid ["Engine", "Source", "A"]).WellFormed ∧
      LiesAmongPlugins ⟨"e", [], {}⟩ ((Generation.engineIn "").forbid ["Engine", "Source", "A"])
        "Engine" "M" ["Engine"] ["Source", "A", "M"] ∧
      scanPlugins ⟨"e", [], {}⟩ ((Generation.engineIn "").forbid ["Engine", "Source", "A"])
        "Engine" = [] := by
  have wellFormed := Generation.engineIn_wellFormed ""
  have facts : (Generation.engineIn "").at? ["Engine"] = some .directory ∧
      ((Generation.engineIn "").at? ["Engine", "Source", "A", "M", "M.Build.cs"]).any
        Item.isFile ∧
      (Generation.engineIn "").at? ["Engine", "Source", "A", "M", "Public"] = some .directory ∧
      scanPlugins ⟨"e", [], {}⟩ (Generation.engineIn "") "Engine/Source/A/M/Public/.." = [] ∧
      -- Whatever stands next to a file has a long path.
      ∀ found ∈ (Generation.engineIn "").contents ["Engine"], found.2.isFile = true →
        ∀ part ∈ ["Public", "Private"],
          found.1.dropLast ≠ [] ∧
            '\x00' ∉ (descend "" ("Engine" :: found.1.dropLast ++ [part])).toList ∧
            pathLimit ≤
              4082 + (descend "" ("Engine" :: found.1.dropLast ++ [part])).utf8ByteSize := by
    decide +kernel
  obtain ⟨engine, rules, isPublic, none, refused⟩ := facts
  have holds : (Generation.engineIn "").HoldsModule ["Engine", "Source", "A", "M"] "M" :=
    ⟨Option.any_eq_true _ _ |>.mp rules, Or.inl isPublic⟩
  have up : (Generation.engineIn "").lookup "Engine/Source/A/M/Public/.." =
      .ok (["Engine", "Source", "A", "M"], .directory) := by
    decide +kernel
  have forbidden : (Generation.engineIn "").at? ["Engine", "Source", "A"] = some .directory ∧
      ((Generation.engineIn "").forbid ["Engine", "Source", "A"]).lookup "Engine" =
        .ok (["Engine"], .directory) ∧
      scanPlugins ⟨"e", [], {}⟩ ((Generation.engineIn "").forbid ["Engine", "Source", "A"])
        "Engine" = [] := by
    decide +kernel
  obtain ⟨directory, foundToo, noneToo⟩ := forbidden
  have found := Generation.lookup_longHome wellFormed (Generation.engineIn_workingDirectory "")
    (Generation.mayEnter_engineIn "") (List.cons_ne_nil "Engine" []) engine (by decide)
    (by decide)
  refine ⟨wellFormed, ⟨up, rfl, nofun, holds⟩, none, ⟨found, rfl, fun _ _ => nofun, holds⟩, ?_,
    wellFormed.forbid directory, ⟨foundToo, rfl, fun _ _ => nofun, holds.forbid _⟩, noneToo⟩
  refine scanPlugins_eq_nil_of_refused wellFormed _ found fun upper fileName item there file => ?_
  have areNames : ∀ name ∈ upper, Path.IsName name :=
    fun name inner => wellFormed.isName_below there name (List.mem_append_left _ inner)
  have nearby := refused _ (mem_contents_iff.mpr ⟨List.concat_ne_nil _ _, there⟩) file
  rw [List.dropLast_concat] at nearby
  refine ⟨(nearby "Public" (by simp)).1, fun part isPart taken => ?_⟩
  obtain ⟨_, noNul, long⟩ := nearby part isPart
  have areParts : ∀ part ∈ ["Public", "Private"], Path.IsName part := by decide
  have allNames : ∀ name ∈ "Engine" :: upper ++ [part], Path.IsName name := by
    have isEngine : Path.IsName "Engine" := by decide
    simpa [or_imp, forall_and] using ⟨isEngine, areNames, areParts part isPart⟩
  rw [← Headers.descend_append, ← List.append_assoc, List.singleton_append,
    Generation.checkPath_longHome allNames (List.concat_ne_nil _ _) noNul, if_pos long] at taken
  cases taken

end Scanner

end EngineDocs
