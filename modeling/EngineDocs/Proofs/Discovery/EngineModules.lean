/-
This file says which modules a scan of the engine finds. For each category in turn it finds the
directories in that of the category which no pattern leaves out, which hold a rules file of their
own name and which have a public or a private part, in the order of the bytes of their names. There
are two exceptions. A category whose directory cannot be listed is passed over, and a module is
overlooked when its rules file is out of reach, be it that the way there leads through a closed
directory or that the path of the file is so long that the system refuses it.
-/

import EngineDocs.Proofs.Discovery.Components
import EngineDocs.Proofs.Discovery.Homes

namespace EngineDocs

open FileTree
open Headers (descend)

/-! ### What makes a module -/

namespace FileTree

/-- A regular file lies at a place. -/
def HoldsFile (tree : FileTree) (place : Location) : Prop :=
  ∃ item, tree.at? place = some item ∧ item.isFile = true

/-- At a place lies what makes it a module: a rules file and a public or a private part. -/
structure HoldsModule (tree : FileTree) (place : Location) (name : String) : Prop where
  rules : tree.HoldsFile (place ++ [name ++ ".Build.cs"])
  part : tree.at? (place ++ ["Public"]) = some .directory ∨
    tree.at? (place ++ ["Private"]) = some .directory

section Leads

variable {tree : FileTree} {path : String} {place names : Location} (leads : tree.Leads path place)
  (wellFormed : tree.WellFormed) (areNames : ∀ name ∈ names, Path.IsName name) (solid : names ≠ [])

include leads wellFormed areNames solid

theorem Leads.isDirectory_descend_iff :
    tree.isDirectory (descend path names) = true ↔
      checkPath (descend path names) = .ok () ∧ tree.Passable place names ∧
        tree.at? (place ++ names) = some .directory := by
  rw [← leads.item?_descend_eq_some_iff wellFormed areNames solid, isDirectory_eq,
    Option.any_eq_true]
  constructor
  · rintro ⟨item, there, isDirectory⟩
    cases item with
    | directory => exact there
    | _ => cases isDirectory
  · exact fun there => ⟨_, there, rfl⟩

theorem Leads.isFile_descend_iff :
    tree.isFile (descend path names) = true ↔
      checkPath (descend path names) = .ok () ∧ tree.Passable place names ∧
        tree.HoldsFile (place ++ names) := by
  rw [isFile_eq, Option.any_eq_true]
  simp only [leads.item?_descend_eq_some_iff wellFormed areNames solid, HoldsFile, and_assoc,
    exists_and_left]

end Leads

/-- The system takes a path that is not empty, has no NUL and is not too long. -/
theorem checkPath_eq_ok_iff (path : String) :
    checkPath path = .ok () ↔
      '\x00' ∉ path.toList ∧ path ≠ "" ∧ path.utf8ByteSize < pathLimit := by
  rw [checkPath, ne_eq, ← String.isEmpty_iff, ← Nat.not_le]
  split
  · rename_i nul
    rw [List.contains_iff_mem] at nul
    simp [nul]
  · rename_i silent
    rw [List.contains_iff_mem] at silent
    split
    · simp [*]
    · split <;> simp [*]

/-- A path that ends in a shorter name is taken when one that ends in a longer name is. -/
theorem checkPath_join_of_le {base long short : String} (isName : Path.IsName long)
    (isNameToo : Path.IsName short) (noNul : '\x00' ∉ short.toList)
    (le : short.utf8ByteSize ≤ long.utf8ByteSize)
    (taken : checkPath (Path.join base long) = .ok ()) :
    checkPath (Path.join base short) = .ok () := by
  have text : ∀ {name : String}, Path.IsName name →
      Path.join base name = String.ofList (Path.frontOf base) ++ name := by
    intro name isName
    rw [← String.toList_inj, String.toList_append, String.toList_ofList,
      Path.toList_join base isName.isAbsolute_eq]
  obtain ⟨silent, _, fits⟩ := (checkPath_eq_ok_iff _).mp taken
  rw [text isName, String.toList_append, List.mem_append, not_or] at silent
  rw [text isName, String.utf8ByteSize_append] at fits
  refine (checkPath_eq_ok_iff _).mpr ⟨?_, isNameToo.join_ne_empty base, ?_⟩
  · rw [text isNameToo, String.toList_append, List.mem_append]
    exact not_or.mpr ⟨silent.1, noNul⟩
  · rw [text isNameToo, String.utf8ByteSize_append]
    omega

/-! ### Directories without permissions -/

/-- The tree with a directory that may be neither entered nor listed. -/
def forbid (tree : FileTree) (place : Location) : FileTree :=
  { tree with
    restrictions := {
      closed := place :: tree.restrictions.closed
      unlisted := place :: tree.restrictions.unlisted } }

theorem WellFormed.forbid {tree : FileTree} (wellFormed : tree.WellFormed) {place : Location}
    (directory : tree.at? place = some .directory) : (tree.forbid place).WellFormed where
  parent := wellFormed.parent
  isName := wellFormed.isName
  closed := List.forall_mem_cons.mpr ⟨directory, wellFormed.closed⟩
  unlisted := List.forall_mem_cons.mpr ⟨directory, wellFormed.unlisted⟩

theorem HoldsModule.forbid {tree : FileTree} {place : Location} {name : String}
    (holds : tree.HoldsModule place name) (other : Location) :
    (tree.forbid other).HoldsModule place name := ⟨holds.rules, holds.part⟩

theorem mayList_forbid (tree : FileTree) (place : Location) :
    (tree.forbid place).mayList place = false := by
  rw [mayList, FileTree.forbid, List.contains_cons, beq_self_eq_true, Bool.true_or, Bool.not_true]

end FileTree

/-- What is known of a module in a directory: its path for display, and the paths of the parts that
it has. -/
structure ModuleInfo.Describes (info : ModuleInfo) (source directory : String)
    (hasPublic hasPrivate : Prop) : Prop where
  path : info.path = DisplayPath.ofModule directory source
  publicDir : ∀ part, info.publicDir = some part ↔ part = Path.join directory "Public" ∧ hasPublic
  privateDir : ∀ part,
    info.privateDir = some part ↔ part = Path.join directory "Private" ∧ hasPrivate

/-- No pattern of the list stands for the name. -/
def ExcludeList.Admits (list : ExcludeList) (name : String) : Prop :=
  ∀ pattern ∈ list.patterns, pattern.accepts name.toList = false

theorem ExcludeList.excludes_eq_false_iff (list : ExcludeList) (name : String) :
    list.excludes name = false ↔ list.Admits name := by
  rw [excludes, List.any_eq_false, Admits]
  simp

namespace Scanner

/-- In a directory with a part there is a module, and in any other there is none. -/
theorem moduleInfo?_eq_some_iff {scanner : Scanner} {tree : FileTree}
    {directory name category rulesPath : String} {hasPublic hasPrivate : Prop}
    (isPublic : tree.isDirectory (Path.join directory "Public") = true ↔ hasPublic)
    (isPrivate : tree.isDirectory (Path.join directory "Private") = true ↔ hasPrivate)
    (info : ModuleInfo) :
    scanner.moduleInfo? tree directory name category rulesPath = some info ↔
      info.name = name ∧ info.category = category ∧ info.buildCsPath = rulesPath ∧
        (hasPublic ∨ hasPrivate) ∧
        info.Describes scanner.sourceDir directory hasPublic hasPrivate := by
  have part_iff : ∀ (isThere : Bool) (found : Option String) (path : String),
      (if isThere = true then some path else none) = found ↔
        ∀ part, found = some part ↔ part = path ∧ isThere = true := by
    intro isThere found path
    cases isThere <;> cases found <;> simp [eq_comm]
  rw [moduleInfo?, ← isPublic, ← isPrivate]
  split
  · rename_i some
    rw [Bool.or_eq_true] at some
    obtain ⟨ownName, path, ownCategory, ownRules, publicDir, privateDir⟩ := info
    rw [Option.some_inj, ModuleInfo.mk.injEq, part_iff, part_iff]
    constructor
    · rintro ⟨rfl, rfl, rfl, rfl, atPublic, atPrivate⟩
      exact ⟨rfl, rfl, rfl, some, rfl, atPublic, atPrivate⟩
    · rintro ⟨rfl, rfl, rfl, _, shown, atPublic, atPrivate⟩
      exact ⟨rfl, shown.symm, rfl, rfl, atPublic, atPrivate⟩
  · rename_i none
    rw [Bool.or_eq_true] at none
    exact iff_of_false (Option.some_ne_none info).symm fun found => none found.2.2.2.1

end Scanner

/-! ### The modules of a category -/

namespace FileTree

theorem entries_ordered (tree : FileTree) (location : Location) :
    (tree.entries location).Pairwise fun first second =>
      Location.NameBefore first.1 second.1 := by
  refine List.Pairwise.filterMap _ (fun first second less one isOne other isOther => ?_)
    (tree.shown_ordered location)
  obtain ⟨names, item⟩ := first
  obtain ⟨others, otherItem⟩ := second
  rw [Precedes] at less
  dsimp only at less isOne isOther
  split at isOne
  · split at isOther
    · rw [← Option.some.inj isOne, ← Option.some.inj isOther, ← Location.compareNames_eq_lt_iff]
      rw [Location.compare] at less
      split at less
      · cases less
      · exact less
    · cases isOther
  · cases isOne

/-- Where a rules file is in reach the parts of the module are too, since their names are shorter. -/
theorem Leads.isDirectory_part_iff {tree : FileTree} {path name part : String} {place : Location}
    (leads : tree.Leads path place) (wellFormed : tree.WellFormed) (isName : Path.IsName name)
    (isRules : Path.IsName (name ++ ".Build.cs"))
    (taken : checkPath (Path.join (Path.join path name) (name ++ ".Build.cs")) = .ok ())
    (passable : tree.Passable place [name, name ++ ".Build.cs"])
    (listed : part ∈ ["Public", "Private"]) :
    tree.isDirectory (Path.join (Path.join path name) part) = true ↔
      tree.at? (place ++ [name] ++ [part]) = some .directory := by
  have isPart : Path.IsName part ∧ '\x00' ∉ part.toList ∧ part.utf8ByteSize ≤ 7 := by
    revert part
    decide
  have areNames : ∀ step ∈ [name, part], Path.IsName step :=
    List.forall_mem_cons.mpr ⟨isName, List.forall_mem_singleton.mpr isPart.1⟩
  have takenToo : checkPath (Path.join (Path.join path name) part) = .ok () := by
    refine checkPath_join_of_le isRules isPart.1 isPart.2.1 ?_ taken
    have ending : (".Build.cs" : String).utf8ByteSize = 9 := rfl
    rw [String.utf8ByteSize_append, ending]
    omega
  have below := leads.isDirectory_descend_iff wellFormed areNames (List.cons_ne_nil _ _)
  rw [Headers.descend_pair, ← List.singleton_append, ← List.append_assoc] at below
  refine below.trans ((and_iff_right takenToo).trans (and_iff_right ?_))
  simpa only [List.singleton_append, passable_cons_iff, passable_nil, and_true] using passable

end FileTree

namespace Scanner

/-- A module of a category lies in a directory that no pattern leaves out, right in the directory of
the category. -/
structure LiesInCategory (scanner : Scanner) (tree : FileTree) (category name : String)
    (place : Location) : Prop where
  found : tree.lookup (Path.join scanner.sourceDir category) = .ok (place, .directory)
  directory : tree.at? (place ++ [name]) = some .directory
  admitted : scanner.exclude.Admits name
  holds : tree.HoldsModule (place ++ [name]) name

/-- A scan gets at the rules file of a module: the directory of the category can be listed, those on
the way down to the file can be entered, and the system takes the path of the file. -/
structure IsInReach (tree : FileTree) (place : Location) (info : ModuleInfo) : Prop where
  listed : tree.mayList place = true
  passable : tree.Passable place [info.name, info.name ++ ".Build.cs"]
  taken : checkPath info.buildCsPath = .ok ()

/-- What there is to tell of a module of a category. -/
structure IsModuleOf (scanner : Scanner) (tree : FileTree) (category : String) (place : Location)
    (info : ModuleInfo) : Prop where
  lies : scanner.LiesInCategory tree category info.name place
  category_eq : info.category = category
  buildCsPath_eq : info.buildCsPath =
    Path.join (Path.join (Path.join scanner.sourceDir category) info.name)
      (info.name ++ ".Build.cs")
  describes : info.Describes scanner.sourceDir
    (Path.join (Path.join scanner.sourceDir category) info.name)
    (tree.at? (place ++ [info.name] ++ ["Public"]) = some .directory)
    (tree.at? (place ++ [info.name] ++ ["Private"]) = some .directory)

variable {scanner : Scanner} {tree : FileTree}

/-- Of every module that lies in a category there is something to tell. -/
theorem LiesInCategory.exists_isModuleOf {category name : String} {place : Location}
    (lies : scanner.LiesInCategory tree category name place) :
    ∃ info, scanner.IsModuleOf tree category place info := by
  have told : ∀ (isThere : Prop) [Decidable isThere] (path part : String),
      (if isThere then some path else none) = some part ↔ part = path ∧ isThere := by
    intro isThere _ path part
    split <;> simp [*, eq_comm]
  exact ⟨⟨name, DisplayPath.ofModule (Path.join (Path.join scanner.sourceDir category) name)
      scanner.sourceDir, category,
    Path.join (Path.join (Path.join scanner.sourceDir category) name) (name ++ ".Build.cs"),
    if tree.at? (place ++ [name] ++ ["Public"]) = some .directory
      then some (Path.join (Path.join (Path.join scanner.sourceDir category) name) "Public")
      else none,
    if tree.at? (place ++ [name] ++ ["Private"]) = some .directory
      then some (Path.join (Path.join (Path.join scanner.sourceDir category) name) "Private")
      else none⟩, lies, rfl, rfl, rfl, told _ _, told _ _⟩

theorem name_of_entryModule? {category categoryPath : String} {entry : String × Item}
    {info : ModuleInfo}
    (found : scanner.entryModule? tree category categoryPath entry = some info) :
    info.name = entry.1 := by
  rw [entryModule?] at found
  split at found
  · exact moduleInfo?_name found
  · cases found

/-- The modules of a category are in the order of their names. -/
theorem scanCategory_ordered (scanner : Scanner) (tree : FileTree) (category : String) :
    (scanner.scanCategory tree category).Pairwise fun first second =>
      Location.NameBefore first.name second.name := by
  unfold scanCategory
  dsimp only
  split
  · refine List.Pairwise.filterMap _ (fun first second before one isOne other isOther => ?_)
      (tree.entries_ordered _)
    rw [name_of_entryModule? isOne, name_of_entryModule? isOther]
    exact before
  · exact .nil

theorem ofList_rulesSuffix : String.ofList rulesSuffix = ".Build.cs" := String.ofList_toList

/-- The module in an entry of the directory of a category. -/
theorem entryModule?_eq_some_iff (wellFormed : tree.WellFormed) {category path name : String}
    {place : Location} (leads : tree.Leads path place) (isName : Path.IsName name) (item : Item)
    (info : ModuleInfo) :
    scanner.entryModule? tree category path (name, item) = some info ↔
      (item = .directory ∧ scanner.exclude.Admits name ∧
          tree.HoldsModule (place ++ [name]) name) ∧
        tree.Passable place [name, name ++ ".Build.cs"] ∧
        checkPath (Path.join (Path.join path name) (name ++ ".Build.cs")) = .ok () ∧
        info.name = name ∧ info.category = category ∧
        info.buildCsPath = Path.join (Path.join path name) (name ++ ".Build.cs") ∧
        info.Describes scanner.sourceDir (Path.join path name)
          (tree.at? (place ++ [name] ++ ["Public"]) = some .directory)
          (tree.at? (place ++ [name] ++ ["Private"]) = some .directory) := by
  have isRules := isName_rules isName
  rw [ofList_rulesSuffix] at isRules
  have isDirectory : item.isDirectory = true ↔ item = .directory := by
    cases item <;> simp [Item.isDirectory]
  have areNames : ∀ step ∈ [name, name ++ ".Build.cs"], Path.IsName step :=
    List.forall_mem_cons.mpr ⟨isName, List.forall_mem_singleton.mpr isRules⟩
  have isFile := leads.isFile_descend_iff wellFormed areNames (List.cons_ne_nil _ _)
  rw [Headers.descend_pair, ← List.singleton_append, ← List.append_assoc] at isFile
  rw [entryModule?, ofList_rulesSuffix]
  split
  · rename_i kept
    rw [Bool.and_eq_true, Bool.and_eq_true, isDirectory, Bool.not_eq_true',
      ExcludeList.excludes_eq_false_iff, isFile] at kept
    obtain ⟨⟨isDirectory, admitted⟩, taken, passable, rules⟩ := kept
    have part_iff : ∀ part ∈ ["Public", "Private"], _ := fun _ listed =>
      leads.isDirectory_part_iff wellFormed isName isRules taken passable listed
    rw [moduleInfo?_eq_some_iff (part_iff "Public" (by simp)) (part_iff "Private" (by simp))]
    constructor
    · rintro ⟨ownName, ownCategory, ownRules, part, described⟩
      exact ⟨⟨isDirectory, admitted, rules, part⟩, passable, taken, ownName, ownCategory, ownRules,
        described⟩
    · rintro ⟨⟨_, _, holds⟩, _, _, ownName, ownCategory, ownRules, described⟩
      exact ⟨ownName, ownCategory, ownRules, holds.part, described⟩
  · rename_i dropped
    refine iff_of_false (Option.some_ne_none info).symm fun found => dropped ?_
    obtain ⟨⟨directory, admitted, holds⟩, passable, taken, _⟩ := found
    rw [Bool.and_eq_true, Bool.and_eq_true, isDirectory, Bool.not_eq_true',
      ExcludeList.excludes_eq_false_iff, isFile]
    exact ⟨⟨directory, admitted⟩, taken, passable, holds.rules⟩

/-- The modules that are found in a category are those that lie there and are in reach. -/
theorem mem_scanCategory_iff (wellFormed : tree.WellFormed) (category : String)
    (info : ModuleInfo) :
    info ∈ scanner.scanCategory tree category ↔
      ∃ place, scanner.IsModuleOf tree category place info ∧ IsInReach tree place info := by
  have leads : ∀ {place}, tree.lookup (Path.join scanner.sourceDir category) =
      .ok (place, .directory) → tree.Leads (Path.join scanner.sourceDir category) place :=
    fun found => ((lookup_eq_ok_iff tree _ _ _).mp found).2.1
  unfold scanCategory
  dsimp only
  constructor
  · intro member
    split at member
    · rename_i place found
      obtain ⟨⟨name, item⟩, entry, kept⟩ := List.mem_filterMap.mp member
      obtain ⟨there, listed⟩ := mem_entries_iff.mp entry
      have isName := wellFormed.isName_below there name List.mem_cons_self
      obtain ⟨⟨rfl, admitted, holds⟩, passable, taken, rfl, ownCategory, ownRules, described⟩ :=
        (entryModule?_eq_some_iff wellFormed (leads found) isName item info).mp kept
      exact ⟨place, ⟨⟨found, there, admitted, holds⟩, ownCategory, ownRules, described⟩,
        listed, passable, ownRules ▸ taken⟩
    · exact absurd member List.not_mem_nil
  · rintro ⟨place, ⟨lies, ownCategory, ownRules, described⟩, listed, passable, taken⟩
    rw [lies.found]
    have isName := wellFormed.isName_below lies.directory info.name List.mem_cons_self
    refine List.mem_filterMap.mpr ⟨_, mem_entries_iff.mpr ⟨lies.directory, listed⟩, ?_⟩
    exact (entryModule?_eq_some_iff wellFormed (leads lies.found) isName _ info).mpr
      ⟨⟨rfl, lies.admitted, lies.holds⟩, passable, ownRules ▸ taken, rfl, ownCategory, ownRules,
        described⟩

/-- A scan finds, for each category in turn, exactly the modules that lie in it and that are in
reach, in the order of the bytes of their names. -/
theorem scan_exact (wellFormed : tree.WellFormed) (scanner : Scanner) :
    ∃ found : String → List ModuleInfo,
      scanner.scan tree = scanner.categories.flatMap found ∧
      ∀ category,
        ((found category).Pairwise fun first second =>
          Location.NameBefore first.name second.name) ∧
        ∀ info, info ∈ found category ↔
          ∃ place, scanner.IsModuleOf tree category place info ∧ IsInReach tree place info :=
  ⟨scanner.scanCategory tree, rfl, fun category =>
    ⟨scanner.scanCategory_ordered tree category, mem_scanCategory_iff wellFormed category⟩⟩

/-- A small engine with modules in two categories. -/
def smallTree : FileTree :=
  Generation.smallEngine [("A", "M"), ("A", "N"), ("A", "É"), ("B", "M")]

/-- A scanner that looks through one category twice and through one that is missing, and that leaves
out what is called `N`. -/
def smallScanner : Scanner := ⟨"s", ["B", "A", "C", "B"], ⟨[⟨[.char 'N']⟩]⟩⟩

theorem scan_exact_small :
    smallTree.WellFormed ∧
      (∃ found : String → List ModuleInfo,
        smallScanner.scan smallTree = ["B", "A", "C", "B"].flatMap found ∧
        ((found "A").Pairwise fun first second =>
          Location.NameBefore first.name second.name) ∧
        ∀ info, info ∈ found "A" ↔
          ∃ place, smallScanner.IsModuleOf smallTree "A" place info ∧
            IsInReach smallTree place info) ∧
      (smallScanner.scan smallTree).map (·.name) = ["M", "M", "É", "M"] := by
  have wellFormed : smallTree.WellFormed := Generation.smallEngine_wellFormed _
  obtain ⟨found, whole, each⟩ := scan_exact wellFormed smallScanner
  exact ⟨wellFormed, ⟨found, whole, each "A"⟩, by decide +kernel⟩

/-- Nothing is found in the directory of a category exactly when no module there is in reach. -/
theorem scanCategory_eq_nil_iff (scanner : Scanner) (wellFormed : tree.WellFormed)
    {category : String} {place : Location}
    (found : tree.lookup (Path.join scanner.sourceDir category) = .ok (place, .directory)) :
    scanner.scanCategory tree category = [] ↔
      ∀ info, scanner.IsModuleOf tree category place info → ¬ IsInReach tree place info := by
  simp only [List.eq_nil_iff_forall_not_mem, mem_scanCategory_iff wellFormed, not_exists, not_and]
  constructor
  · exact fun none info => none info place
  · intro none info other isModule
    obtain rfl := (Prod.mk.inj (Except.ok.inj (isModule.lies.found.symm.trans found))).1
    exact none info isModule

/-- A module is overlooked although the directory of its category is found, because the path of its
rules file is too long, and also because the directory of its category cannot be listed. -/
theorem scan_overlooks_modules :
    (Generation.smallEngine [("A", "M")]).WellFormed ∧
      (∃ place info,
        IsModuleOf ⟨descend Generation.longHome ["s"], ["A"], {}⟩
          (Generation.smallEngine [("A", "M")]) "A" place info) ∧
      scan ⟨descend Generation.longHome ["s"], ["A"], {}⟩
        (Generation.smallEngine [("A", "M")]) = [] ∧
      ((Generation.smallEngine [("A", "M")]).forbid ["s", "A"]).WellFormed ∧
      (∃ place info,
        IsModuleOf ⟨"s", ["A"], {}⟩ ((Generation.smallEngine [("A", "M")]).forbid ["s", "A"]) "A"
          place info) ∧
      scan ⟨"s", ["A"], {}⟩ ((Generation.smallEngine [("A", "M")]).forbid ["s", "A"]) = [] := by
  have wellFormed := Generation.smallEngine_wellFormed [("A", "M")]
  have grows : ({} : FileTree).Grows (Generation.smallEngine [("A", "M")]) :=
    Change.performAll_grows {} _
  have facts : (Generation.smallEngine [("A", "M")]).at? ["s", "A"] = some .directory ∧
      ((Generation.smallEngine [("A", "M")]).at? ["s", "A", "M", "M.Build.cs"]).any Item.isFile ∧
      (Generation.smallEngine [("A", "M")]).at? ["s", "A", "M", "Public"] = some .directory ∧
      (Generation.smallEngine [("A", "M")]).entries ["s", "A"] = [("M", .directory)] ∧
      ((Generation.smallEngine [("A", "M")]).forbid ["s", "A"]).lookup (Path.join "s" "A") =
        .ok (["s", "A"], .directory) := by
    decide +kernel
  obtain ⟨category, rules, isPublic, entries, foundToo⟩ := facts
  have holds : (Generation.smallEngine [("A", "M")]).HoldsModule ["s", "A", "M"] "M" :=
    ⟨Option.any_eq_true _ _ |>.mp rules, Or.inl isPublic⟩
  have directory := (mem_entries_iff.mp (entries ▸ List.mem_cons_self)).1
  have found : (Generation.smallEngine [("A", "M")]).lookup
      (Path.join (descend Generation.longHome ["s"]) "A") = .ok (["s", "A"], .directory) := by
    rw [Headers.join_descend]
    exact Generation.lookup_longHome wellFormed grows.keeps.workingDirectory
      (mayEnter_congr grows.restrictions) (List.cons_ne_nil _ _) category (by decide) (by decide)
  have refused : checkPath (Path.join (Path.join (Path.join
      (descend Generation.longHome ["s"]) "A") "M") "M.Build.cs") = .error .nameTooLong := by
    have areNames : ∀ name ∈ ["s", "A", "M", "M.Build.cs"], Path.IsName name := by decide
    rw [Headers.join_descend, Headers.join_descend, Headers.join_descend]
    refine (Generation.checkPath_longHome areNames (List.cons_ne_nil _ _) (by decide)).trans ?_
    decide
  -- The root stays closed from here on, since its text is long.
  generalize descend Generation.longHome ["s"] = root at found refused
  refine ⟨wellFormed, ⟨_, LiesInCategory.exists_isModuleOf ⟨found, directory, nofun, holds⟩⟩, ?_,
    wellFormed.forbid category,
    ⟨_, LiesInCategory.exists_isModuleOf ⟨foundToo, directory, nofun, holds.forbid _⟩⟩, ?_⟩
  · refine (List.flatMap_singleton _ _).trans
      ((scanCategory_eq_nil_iff ⟨root, ["A"], {}⟩ wellFormed found).mpr ?_)
    intro info isModule reach
    have inside := mem_entries_iff.mpr ⟨isModule.lies.directory, reach.listed⟩
    rw [entries] at inside
    have name : info.name = "M" := (Prod.mk.inj (List.mem_singleton.mp inside)).1
    have taken := reach.taken
    rw [isModule.buildCsPath_eq, name] at taken
    cases refused.symm.trans taken
  · refine (List.flatMap_singleton _ _).trans
      ((scanCategory_eq_nil_iff ⟨"s", ["A"], {}⟩ (wellFormed.forbid category) foundToo).mpr ?_)
    intro info _ reach
    cases (mayList_forbid _ _).symm.trans reach.listed

end Scanner

end EngineDocs
