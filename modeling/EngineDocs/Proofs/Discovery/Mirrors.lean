/-
This file says what a scan depends on. Paths of two trees are paired, and along each pair there is
the same to see and to show. Then the same modules are found with the same data, although the paths
at which they were found may differ.

A scan goes from pair to pair by joining names that it read in a listing, and once from a rules
file to the directory that it lies in.
-/

import EngineDocs.Proofs.Discovery.JoinedPaths
import EngineDocs.Proofs.FileTree.Listings
import EngineDocs.Proofs.Generation.Failures

namespace EngineDocs

open FileTree
open Headers (descend)

/-- Paired paths of two trees show the same, and the pairs go on along names. Modules are shown from
two source directories. -/
structure Mirrors (first second : FileTree) (source otherSource : String)
    (pair : String → String → Prop) : Prop where
  join : ∀ {path other name : String}, pair path other → Path.IsName name →
    pair (Path.join path name) (Path.join other name)
  parent : ∀ {path other name : String}, pair path other → Path.IsName name →
    ∃ outer otherOuter, Path.parent? (Path.join path name) = some outer ∧
      Path.parent? (Path.join other name) = some otherOuter ∧ pair outer otherOuter ∧
      Path.lastName? outer = Path.lastName? otherOuter
  header : ∀ {path other : String}, pair path other →
    DisplayPath.ofHeader path = DisplayPath.ofHeader other
  module : ∀ {path other : String}, pair path other →
    DisplayPath.ofModule path source = DisplayPath.ofModule other otherSource
  listing : ∀ {path other : String}, pair path other → first.listing path = second.listing other
  item? : ∀ {path other name : String}, pair path other → Path.IsName name →
    isDataName name = false →
    first.item? (Path.join path name) = second.item? (Path.join other name)

/-! ### Reading -/

section Reading

variable {first second : FileTree} {path other : String}

theorem toOption_readBytes_congr (same : first.item? path = second.item? other) :
    (first.readBytes path).toOption = (second.readBytes other).toOption := by
  have some_iff : ∀ (tree : FileTree) (path : String) (bytes : ByteArray),
      (tree.readBytes path).toOption = some bytes ↔ tree.item? path = some (.file bytes) := by
    intro tree path bytes
    rw [← readBytes_eq_ok_iff]
    cases tree.readBytes path <;> simp [Except.toOption]
  ext bytes
  rw [some_iff, some_iff, same]

theorem readDependencies_congr (same : first.item? path = second.item? other) :
    readDependencies first path = readDependencies second other := by
  have texts : ∀ text, first.readText path = .ok text ↔ second.readText other = .ok text := by
    intro text
    rw [readText_eq_ok_iff, readText_eq_ok_iff, same]
  rw [readDependencies, readDependencies]
  cases read : first.readText path with
  | ok text => rw [(texts text).mp read]
  | error fault =>
    cases readToo : second.readText other with
    | ok text => exact nomatch read.symm.trans ((texts text).mpr readToo)
    | error fault => rfl

end Reading

/-! ### Headers -/

namespace Headers

variable {first second : FileTree} {path other : String}

theorem toOption_parseFile_congr (same : first.item? path = second.item? other)
    (shown : DisplayPath.ofHeader path = DisplayPath.ofHeader other) :
    (parseFile first path).toOption = (parseFile second other).toOption := by
  have form : ∀ (tree : FileTree) (path : String), (parseFile tree path).toOption =
      (tree.readBytes path).toOption.map fun bytes =>
        Header.extractAll (Text.decodeLossy bytes) (DisplayPath.ofHeader path) := by
    intro tree path
    rw [parseFile, readLossyText]
    cases tree.readBytes path <;> rfl
  rw [form, form, toOption_readBytes_congr same, shown]

theorem declarations_add (tree : FileTree) (parsed : Parsed) (path : String) :
    (parsed.add tree path).declarations =
      match (parseFile tree path).toOption with
      | some set => parsed.declarations ++ set
      | none => parsed.declarations := by
  rw [Parsed.add]
  cases parseFile tree path <;> rfl

/-- The declarations of headers depend on what each of them gives. -/
theorem declarations_foldl_congr {headers : List Location} {root otherRoot : Location → String}
    (same : ∀ names ∈ headers, (parseFile first (root names)).toOption =
      (parseFile second (otherRoot names)).toOption)
    {parsed parsedToo : Parsed} (start : parsed.declarations = parsedToo.declarations) :
    ((headers.map root).foldl (Parsed.add first) parsed).declarations =
      ((headers.map otherRoot).foldl (Parsed.add second) parsedToo).declarations := by
  induction headers generalizing parsed parsedToo with
  | nil => exact start
  | cons names headers inductionHypothesis =>
    rw [List.map_cons, List.map_cons, List.foldl_cons, List.foldl_cons]
    refine inductionHypothesis (fun names member => same names (List.mem_cons_of_mem _ member)) ?_
    rw [declarations_add, declarations_add, same names List.mem_cons_self, start]

/-- Whether an item below a directory is a header that is read. -/
def isRead (tree : FileTree) (root : String) (names : Location) (item : Item) : Bool :=
  item.isFile && names.getLast?.any isHeader &&
    !(tree.listing (descend root names.dropLast)).isEmpty

theorem isHeader_descend (root : String) {names : List String}
    (areNames : ∀ name ∈ names, Path.IsName name) (solid : names ≠ []) :
    isHeader (descend root names) = names.getLast?.any isHeader := by
  obtain ⟨front, last, rfl, _, isName⟩ := Path.exists_concat_of_names areNames solid
  rw [descend_append, descend_singleton, Path.isHeader_join isName, List.getLast?_concat]
  rfl

/-- Headers do not end like data files. -/
theorem isDataName_of_isHeader {name : String} (isName : Path.IsName name)
    (header : isHeader name = true) : isDataName name = false := by
  rw [isHeader, Bool.and_eq_true, beq_iff_eq] at header
  obtain ⟨front, form⟩ := Path.suffix_of_extension? isName header.1
  rw [Bool.eq_false_iff]
  intro data
  have last := getLast?_of_isDataName data
  rw [← form, List.getLast?_concat] at last
  exact absurd last (by decide)

theorem isListed_iff (root : String) (names : Location) :
    isListed root names = true ↔ checkPath (descend root names.dropLast) = .ok () := by
  rw [isListed]
  cases checkPath (descend root names.dropLast) <;> simp [Except.isOk, Except.toBool]

/-- The directory that a header lies in can be listed when its listing shows something. -/
theorem isListed_eq (wellFormed : first.WellFormed) {location : Location}
    (leads : first.Leads path location) {names : Location} {item : Item}
    (member : (names, item) ∈ first.visible location) :
    isListed path names = !(first.listing (descend path names.dropLast)).isEmpty := by
  obtain ⟨solid, there, walked, seen⟩ := mem_visible_iff.mp member
  have areNames : ∀ name ∈ names.dropLast, Path.IsName name := fun name inside =>
    wellFormed.isName_below there name (List.dropLast_subset names inside)
  rw [← List.dropLast_concat_getLast solid] at there walked seen
  have walkable := shows_iff.mp walked
  have shown : ([names.getLast solid], item) ∈ first.visible (location ++ names.dropLast) := by
    refine mem_visible_iff.mpr ⟨List.cons_ne_nil _ _, ?_, shows_iff.mpr walkable.below, ?_⟩
    · rwa [List.append_assoc]
    · rwa [← isSeen_append names.dropLast (List.cons_ne_nil _ _)]
  rw [Bool.eq_iff_iff, isListed_iff, Bool.not_eq_true', List.isEmpty_eq_false_iff_exists_mem]
  constructor
  · exact fun checked => ⟨_, (leads.mem_listing_descend_iff wellFormed areNames).mpr
      ⟨checked, walkable.passable, shown⟩⟩
  · rintro ⟨entry, memberToo⟩
    exact ((leads.mem_listing_descend_iff wellFormed areNames).mp memberToo).1

/-- The headers below a directory are those that its listing shows. -/
theorem find_eq (wellFormed : first.WellFormed) (directory : first.isDirectory path = true) :
    find first path = ((first.listing path).filterMap fun (names, item) =>
      if isRead first path names item then some names else none).map (descend path) := by
  obtain ⟨location, found⟩ := (isDirectory_iff_lookup first path).mp directory
  have leads := ((lookup_eq_ok_iff first path location .directory).mp found).2.1
  have shown : first.listing path = first.visible location := by
    rw [listing, found]
  rw [find, found, shown, List.map_filterMap]
  dsimp only
  rw [filterMap_shown]
  · refine List.filterMap_congr fun entry member => ?_
    obtain ⟨names, item⟩ := entry
    obtain ⟨solid, there, _⟩ := mem_visible_iff.mp member
    rw [isHeader_descend path (wellFormed.isName_below there) solid,
      isListed_eq wellFormed leads member, isRead]
    split <;> rfl
  · intro names item member hidden
    obtain ⟨solid, there, _⟩ := mem_shown_iff.mp member
    have areNames := wellFormed.isName_below there
    rw [if_neg]
    rw [isHeader_descend path areNames solid, List.getLast?_eq_some_getLast solid, Option.any_some]
    simp only [isSeen, List.getLast?_eq_some_getLast solid, Option.any_some, Bool.not_eq_false',
      Bool.and_eq_true] at hidden
    intro read
    simp only [Bool.and_eq_true] at read
    have plain := isDataName_of_isHeader (areNames _ (List.getLast_mem solid)) read.1.2
    cases plain.symm.trans hidden.2

end Headers

namespace Mirrors

variable {first second : FileTree} {source otherSource : String} {pair : String → String → Prop}
  {path other name : String}

theorem descend (mirrors : Mirrors first second source otherSource pair) (paired : pair path other)
    {names : List String} (areNames : ∀ name ∈ names, Path.IsName name) :
    pair (Headers.descend path names) (Headers.descend other names) := by
  induction names generalizing path other with
  | nil => exact paired
  | cons name names inductionHypothesis =>
    exact inductionHypothesis (mirrors.join paired (areNames name List.mem_cons_self))
      fun name member => areNames name (List.mem_cons_of_mem _ member)

theorem isDirectory_eq (mirrors : Mirrors first second source otherSource pair)
    (paired : pair path other) (isName : Path.IsName name) (plain : isDataName name = false) :
    first.isDirectory (Path.join path name) = second.isDirectory (Path.join other name) := by
  rw [FileTree.isDirectory_eq, FileTree.isDirectory_eq, mirrors.item? paired isName plain]

theorem isRead_eq (mirrors : Mirrors first second source otherSource pair) (paired : pair path other)
    {names : List String} (areNames : ∀ name ∈ names, Path.IsName name) (item : Item) :
    Headers.isRead first path names item = Headers.isRead second other names item := by
  have above : ∀ name ∈ names.dropLast, Path.IsName name :=
    fun name member => areNames name (List.dropLast_subset names member)
  rw [Headers.isRead, Headers.isRead, mirrors.listing (mirrors.descend paired above)]

/-- The headers below paired directories have the same declarations. -/
theorem declarations_parse (mirrors : Mirrors first second source otherSource pair)
    (wellFormed : first.WellFormed) (wellFormedToo : second.WellFormed) (paired : pair path other)
    (directory : first.isDirectory path = true) (directoryToo : second.isDirectory other = true) :
    (Headers.parse first path).declarations = (Headers.parse second other).declarations := by
  rw [Headers.parse, Headers.parse, Headers.find_eq wellFormed directory,
    Headers.find_eq wellFormedToo directoryToo, ← mirrors.listing paired]
  have sameHeaders : ((first.listing path).filterMap fun (names, item) =>
        if Headers.isRead first path names item then some names else none) =
      (first.listing path).filterMap fun (names, item) =>
        if Headers.isRead second other names item then some names else none := by
    refine List.filterMap_congr fun (names, item) member => ?_
    have areNames := (wellFormed.isName_of_mem_listing member).2
    simp only [mirrors.isRead_eq paired areNames]
  rw [← sameHeaders]
  refine Headers.declarations_foldl_congr (fun names member => ?_) rfl
  obtain ⟨⟨found, item⟩, listed, kept⟩ := List.mem_filterMap.mp member
  dsimp only at kept
  split at kept
  · rename_i read
    obtain rfl := Option.some.inj kept
    obtain ⟨solid, areNames⟩ := wellFormed.isName_of_mem_listing listed
    refine Headers.toOption_parseFile_congr ?_ (mirrors.header (mirrors.descend paired areNames))
    obtain ⟨front, last, rfl, above, isName⟩ := Path.exists_concat_of_names areNames solid
    have header : Headers.isHeader last = true := by
      rw [Headers.isRead, List.getLast?_concat] at read
      simp only [Bool.and_eq_true] at read
      exact read.1.2
    rw [Headers.descend_append, Headers.descend_append]
    exact mirrors.item? (mirrors.descend paired above) isName
      (Headers.isDataName_of_isHeader isName header)
  · exact nomatch kept

end Mirrors

/-! ### Modules -/

/-- The data of a module that was found. -/
def ModuleInfo.dataIn (tree : FileTree) (info : ModuleInfo) : ModuleData := (info.process tree).data

namespace Scanner

theorem isName_rules {name : String} (isName : Path.IsName name) :
    Path.IsName (name ++ String.ofList rulesSuffix) :=
  isName.append (by decide) (by decide)

theorem isDataName_of_suffix {name : String} (rules : rulesSuffix <:+ name.toList) :
    isDataName name = false := by
  obtain ⟨front, form⟩ := rules
  rw [Bool.eq_false_iff]
  intro data
  have last := getLast?_of_isDataName data
  rw [← form, List.getLast?_append_of_ne_nil front (by decide)] at last
  exact absurd last (by decide)

theorem suffix_of_rulesName? {fileName name : String} (rules : rulesName? fileName = some name) :
    rulesSuffix <:+ fileName.toList := by
  obtain ⟨rest, found, _⟩ := Option.map_eq_some_iff.mp rules
  rw [Text.after?_eq_some_iff] at found
  rw [← List.reverse_prefix, found]
  exact List.prefix_append _ _

/-- The module of a category in an item below its directory. -/
def moduleBelow? (scanner : Scanner) (tree : FileTree) (category : String) :
    Location × Item → Option ModuleInfo
  | ([name], item) =>
    scanner.entryModule? tree category (Path.join scanner.sourceDir category) (name, item)
  | _ => none

theorem moduleBelow?_eq (scanner : Scanner) (tree : FileTree) (category : String)
    (entry : Location × Item) :
    (match entry.1 with
      | [name] => some (name, entry.2)
      | _ => none).bind
        (scanner.entryModule? tree category (Path.join scanner.sourceDir category)) =
      scanner.moduleBelow? tree category entry := by
  rcases entry with ⟨_ | ⟨name, _ | ⟨next, names⟩⟩, item⟩ <;> rfl

/-- The modules of a category are those that the listing of its directory shows. -/
theorem scanCategory_eq (scanner : Scanner) (tree : FileTree) (category : String) :
    scanner.scanCategory tree category =
      (tree.listing (Path.join scanner.sourceDir category)).filterMap
        (scanner.moduleBelow? tree category) := by
  unfold scanCategory listing
  dsimp only
  cases tree.lookup (Path.join scanner.sourceDir category) with
  | error fault => rfl
  | ok found =>
    obtain ⟨location, item⟩ := found
    cases item with
    | directory =>
      dsimp only
      rw [entries, List.filterMap_filterMap]
      refine (List.filterMap_congr fun entry _ =>
        moduleBelow?_eq scanner tree category entry).trans (filterMap_shown ?_)
      rintro (_ | ⟨name, _ | ⟨next, names⟩⟩) item _ hidden
      · rfl
      · rw [isSeen, Bool.not_eq_false', Bool.and_eq_true] at hidden
        rw [moduleBelow?, entryModule?]
        cases item with
        | directory => cases hidden.1
        | _ => rfl
      · rfl
    | _ => rfl

/-- The plugin modules are those that the listing of the plugins directory shows. -/
theorem scanPlugins_eq (scanner : Scanner) (tree : FileTree) (pluginsDir : String) :
    scanner.scanPlugins tree pluginsDir =
      (tree.listing pluginsDir).filterMap fun (names, item) =>
        scanner.pluginModule? tree pluginsDir names item := by
  rw [scanPlugins, listing]
  cases tree.lookup pluginsDir with
  | error fault => rfl
  | ok found =>
    obtain ⟨location, item⟩ := found
    cases item with
    | directory =>
      refine filterMap_shown fun names item member hidden => ?_
      obtain ⟨solid, _⟩ := mem_shown_iff.mp member
      cases rules : rulesName? (names.getLast?.getD "") with
      | none => simp only [pluginModule?, rules, Option.bind_eq_bind, Option.bind_none]
      | some name =>
        have plain := isDataName_of_suffix (suffix_of_rulesName? rules)
        rw [isSeen, List.getLast?_eq_some_getLast solid] at hidden
        rw [List.getLast?_eq_some_getLast solid] at plain
        simp only [Option.getD_some] at plain
        simp [plain] at hidden
    | _ => rfl

end Scanner

namespace Mirrors

open Scanner

variable {first second : FileTree} {scanner otherScanner : Scanner}
  {pair : String → String → Prop}
  (mirrors : Mirrors first second scanner.sourceDir otherScanner.sourceDir pair)
  (wellFormed : first.WellFormed) (wellFormedToo : second.WellFormed)

include mirrors wellFormed wellFormedToo

/-- Paired directories hold modules with the same data, or both hold none. -/
theorem dataIn_moduleInfo? {directory otherDirectory : String}
    (paired : pair directory otherDirectory) (name category : String)
    {rulesPath otherRulesPath : String}
    (rules : first.item? rulesPath = second.item? otherRulesPath) :
    (scanner.moduleInfo? first directory name category rulesPath).map (·.dataIn first) =
      (otherScanner.moduleInfo? second otherDirectory name category otherRulesPath).map
        (·.dataIn second) := by
  have isName : Path.IsName "Public" := by decide
  have isPublic := mirrors.isDirectory_eq paired isName (by decide)
  have isPrivate := mirrors.isDirectory_eq paired (by decide : Path.IsName "Private") (by decide)
  rw [moduleInfo?, moduleInfo?, isPublic, isPrivate]
  split
  · rw [Option.map_some, Option.map_some, Option.some_inj]
    simp only [ModuleInfo.dataIn, ModuleInfo.process, ModuleData.ofInfo, mirrors.module paired,
      readDependencies_congr rules]
    cases there : second.isDirectory (Path.join otherDirectory "Public") with
    | false => rfl
    | true =>
      have same := mirrors.declarations_parse wellFormed wellFormedToo
        (mirrors.join paired isName) (isPublic.trans there) there
      simp only [if_true, same]
  · rfl

/-- The modules of a category have the same data when its directories are paired. -/
theorem dataIn_scanCategory (exclude : scanner.exclude = otherScanner.exclude) {category : String}
    (paired : pair (Path.join scanner.sourceDir category)
      (Path.join otherScanner.sourceDir category)) :
    (scanner.scanCategory first category).map (·.dataIn first) =
      (otherScanner.scanCategory second category).map (·.dataIn second) := by
  rw [scanCategory_eq, scanCategory_eq, mirrors.listing paired, List.map_filterMap,
    List.map_filterMap]
  refine List.filterMap_congr fun (names, item) member => ?_
  have areNames := (wellFormedToo.isName_of_mem_listing member).2
  match names, areNames with
  | [name], areNames =>
    have isName : Path.IsName name := areNames name List.mem_cons_self
    have below := mirrors.join paired isName
    have rules := mirrors.item? below (isName_rules isName) (isDataName_of_suffix
      (by rw [String.toList_append, String.toList_ofList]; exact List.suffix_append _ _))
    simp only [moduleBelow?, entryModule?, exclude, isFile_eq, rules]
    split
    · exact mirrors.dataIn_moduleInfo? wellFormed wellFormedToo below name category rules
    · rfl
  | [], _ => rfl
  | _ :: _ :: _, _ => rfl

/-- The plugin modules have the same data when the plugins directories are paired. -/
theorem dataIn_scanPlugins (exclude : scanner.exclude = otherScanner.exclude)
    {pluginsDir otherPluginsDir : String} (paired : pair pluginsDir otherPluginsDir) :
    (scanner.scanPlugins first pluginsDir).map (·.dataIn first) =
      (otherScanner.scanPlugins second otherPluginsDir).map (·.dataIn second) := by
  rw [scanPlugins_eq, scanPlugins_eq, mirrors.listing paired, List.map_filterMap,
    List.map_filterMap]
  refine List.filterMap_congr fun (names, item) member => ?_
  obtain ⟨solid, areNames⟩ := wellFormedToo.isName_of_mem_listing member
  obtain ⟨front, last, rfl, above, isName⟩ := Path.exists_concat_of_names areNames solid
  have below := mirrors.descend paired above
  obtain ⟨outer, otherOuter, parent, otherParent, pairedOuter, sameName⟩ :=
    mirrors.parent below isName
  have here : ∀ root, Headers.descend root (front ++ [last]) =
      Path.join (Headers.descend root front) last := fun root => Headers.descend_append root _ _
  simp only [pluginModule?, here, parent, otherParent, List.getLast?_concat, Option.getD_some]
  cases rules : rulesName? last with
  | none => rfl
  | some name =>
    have sameRules := mirrors.item? below isName
      (isDataName_of_suffix (suffix_of_rulesName? rules))
    simp only [Option.bind_eq_bind, Option.bind_some, exclude, sameName]
    split
    · exact mirrors.dataIn_moduleInfo? wellFormed wellFormedToo pairedOuter name pluginsCategory
        sameRules
    · rfl

end Mirrors

/-! ### All modules of a run -/

namespace Generation

theorem processed_eq (settings : Settings) (tree : FileTree) :
    processed settings tree =
      if tree.isDirectory settings.sourceDir then
        match scanner settings with
        | .ok found => (foundModules settings tree found).map (·.dataIn tree)
        | .error _ => []
      else [] := by
  rw [processed, scanModules_eq]
  cases tree.isDirectory settings.sourceDir with
  | false => rfl
  | true =>
    rw [if_neg (by decide), if_pos rfl]
    cases scanner settings with
    | error error => rfl
    | ok found =>
      dsimp only
      split
      · rename_i found none
        split at none
        · cases none
        · rw [← Except.ok.inj none]
          rfl
      · rename_i none
        split at none
        · rename_i empty
          rw [empty]
          rfl
        · cases none

theorem scanner_eq (settings : Settings) :
    scanner settings = (ExcludeList.read settings.excludeDirs).map fun exclude =>
      ⟨settings.sourceDir, settings.moduleCategories, exclude⟩ := by
  rw [scanner, Scanner.create]
  cases ExcludeList.read settings.excludeDirs <;> rfl

theorem isOk_scanModules (settings : Settings) (tree : FileTree) :
    (scanModules settings tree).isOk = !(processed settings tree).isEmpty := by
  rw [processed, scanModules_eq]
  split
  · rfl
  · cases scanner settings with
    | error error => rfl
    | ok found =>
      dsimp only
      split
      · rfl
      · rename_i solid
        obtain ⟨info, modules, form⟩ := List.exists_cons_of_ne_nil solid
        rw [form]
        rfl

/-- Two runs read the same data when the directories that they scan are paired. -/
theorem processed_congr {first second : FileTree} {settings other : Settings}
    {pair : String → String → Prop}
    (mirrors : Mirrors first second settings.sourceDir other.sourceDir pair)
    (wellFormed : first.WellFormed) (wellFormedToo : second.WellFormed)
    (categories : settings.moduleCategories = other.moduleCategories)
    (exclude : settings.excludeDirs = other.excludeDirs)
    (source : first.isDirectory settings.sourceDir = second.isDirectory other.sourceDir)
    (engine : ∀ category ∈ settings.moduleCategories,
      pair (Path.join settings.sourceDir category) (Path.join other.sourceDir category))
    (plugins : Option.Rel pair settings.pluginsDir other.pluginsDir) :
    processed settings first = processed other second := by
  rw [processed_eq, processed_eq, source, scanner_eq, scanner_eq, exclude]
  split
  · cases ExcludeList.read other.excludeDirs with
    | error error => rfl
    | ok patterns =>
      have sameEngine := fun (category : String) (member : category ∈ settings.moduleCategories) =>
        @Mirrors.dataIn_scanCategory first second
          ⟨settings.sourceDir, settings.moduleCategories, patterns⟩
          ⟨other.sourceDir, other.moduleCategories, patterns⟩ pair mirrors wellFormed wellFormedToo
          rfl category (engine category member)
      have samePlugins := @Mirrors.dataIn_scanPlugins first second
          ⟨settings.sourceDir, settings.moduleCategories, patterns⟩
          ⟨other.sourceDir, other.moduleCategories, patterns⟩ pair mirrors wellFormed wellFormedToo
          rfl
      simp only [Except.map, foundModules, Scanner.scan, List.map_append, List.map_flatMap]
      rw [← categories] at sameEngine samePlugins ⊢
      refine congrArg₂ (· ++ ·) (List.flatMap_congr sameEngine) ?_
      generalize settings.pluginsDir = directory at plugins ⊢
      generalize other.pluginsDir = otherDirectory at plugins ⊢
      cases plugins with
      | none => rfl
      | some paired => exact samePlugins paired
  · rfl

end Generation

end EngineDocs
