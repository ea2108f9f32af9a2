/-
This file says when the path that a module shows tells where the module lies. It ends in the
category and the name of the module, with two exceptions, both for sources outside of every
directory called `Engine`: a module that is itself called `Engine` hides its category, and so does
a category that is a dot. What such a module shows is its name alone, so that modules are mixed up
exactly when they are exceptions of the same name.
-/

import EngineDocs.Proofs.Discovery.JoinedPaths
import EngineDocs.Proofs.Discovery.Names
import EngineDocs.Proofs.Generation.Stages

namespace EngineDocs

/-! ### Components of a joined path -/

namespace Path

/-- A base that is not empty keeps its components when something is joined to it. -/
theorem components_join {base part : String} (solid : base ≠ "")
    (relative : isAbsolute part = false) :
    components (join base part) =
      components base ++ (segments part).filterMap innerComponent? := by
  obtain ⟨front, form, nonempty, whole⟩ :=
    @exists_pieces_join (· == '/') rfl base solid part relative
  obtain ⟨first, rest, rfl⟩ := List.exists_cons_of_ne_nil nonempty
  have joined : segments (join base part) = first :: (rest ++ segments part) := form
  have inner : ∀ parts : List Text,
      (parts.map fun segment => (segment, innerComponent? segment)).filterMap Prod.snd =
        parts.filterMap innerComponent? := fun parts => by
    rw [List.filterMap_map]
    rfl
  have same : components base =
      (firstComponent? (isAbsolute base) first).toList ++ rest.filterMap innerComponent? := by
    rcases whole with whole | whole
    · have divided : segments base = first :: rest := whole
      rw [components, labelled_eq divided, List.filterMap_cons, inner]
      cases firstComponent? (isAbsolute base) first <;> rfl
    · have divided : segments base = first :: (rest ++ [[]]) := whole
      have silent : [([] : Text)].filterMap innerComponent? = [] := rfl
      rw [components, labelled_eq divided, List.filterMap_cons, inner, List.filterMap_append, silent,
        List.append_nil]
      cases firstComponent? (isAbsolute base) first <;> rfl
  rw [components, labelled_eq joined, isAbsolute_join relative, List.filterMap_cons, inner,
    List.filterMap_append, same]
  cases firstComponent? (isAbsolute base) first <;> rfl

theorem components_join_of_isName {base name : String} (solid : base ≠ "") (isName : IsName name) :
    components (join base name) = components base ++ [.name name.toList] := by
  rw [components_join solid isName.isAbsolute_eq, isName.segments_eq, List.filterMap_cons,
    innerComponent?_of_isName isName]
  rfl

theorem join_ne_empty (base : String) {part : String} (solid : part ≠ "")
    (relative : isAbsolute part = false) : join base part ≠ "" := by
  intro empty
  have text := toList_join base relative
  rw [empty] at text
  exact solid (String.toList_eq_nil_iff.mp (List.append_eq_nil_iff.mp text.symm).2)

theorem IsName.join_ne_empty {name : String} (isName : IsName name) (base : String) :
    join base name ≠ "" :=
  Path.join_ne_empty base isName.nonempty isName.isAbsolute_eq

end Path

/-! ### Paths of modules -/

namespace DisplayPath

/-- A text that is a single segment of a path for display. -/
structure IsSegment (name : String) : Prop where
  nonempty : name ≠ ""
  noSlash : '/' ∉ name.toList
  noBackslash : '\\' ∉ name.toList

instance (name : String) : Decidable (IsSegment name) :=
  decidable_of_iff (name ≠ "" ∧ '/' ∉ name.toList ∧ '\\' ∉ name.toList)
    ⟨fun ⟨nonempty, noSlash, noBackslash⟩ => ⟨nonempty, noSlash, noBackslash⟩,
      fun ⟨nonempty, noSlash, noBackslash⟩ => ⟨nonempty, noSlash, noBackslash⟩⟩

theorem IsSegment.stretches_eq {name : String} (isSegment : IsSegment name) :
    stretches name = [name.toList] := by
  refine Text.pieces_of_forall_not fun c member => ?_
  rw [isSeparator, Bool.or_eq_false_iff, beq_eq_false_iff_ne, beq_eq_false_iff_ne]
  constructor
  · rintro rfl
    exact isSegment.noSlash member
  · rintro rfl
    exact isSegment.noBackslash member

theorem toList_eq_dot_iff {name : String} : name.toList = ['.'] ↔ name = "." := by
  rw [← String.toList_inj]
  rfl

/-- Behind other components a segment shows as it is, unless it is a dot. -/
theorem IsSegment.text_innerComponent? {name : String} (isSegment : IsSegment name) :
    (Path.innerComponent? name.toList).toList.map Path.Component.text =
      if name = "." then [] else [name.toList] := by
  have solid : name.toList ≠ [] := mt String.toList_eq_nil_iff.mp isSegment.nonempty
  simp only [Path.innerComponent?, ← toList_eq_dot_iff, Bool.or_eq_true, List.isEmpty_iff, solid,
    beq_iff_eq, false_or]
  split
  · rfl
  · split
    · rename_i up
      rw [up]
      rfl
    · rfl

/-- As a path of its own a segment shows as it is. -/
theorem IsSegment.text_components {name : String} (isSegment : IsSegment name) :
    (Path.components name).map Path.Component.text = [name.toList] := by
  have alone := Path.segments_of_noSlash isSegment.noSlash
  have components : Path.components name = (Path.firstComponent? false name.toList).toList := by
    rw [Path.components, Path.labelled_eq alone, Path.isAbsolute_of_noSlash isSegment.noSlash,
      List.map_nil, List.filterMap_cons]
    cases Path.firstComponent? false name.toList <;> rfl
  rw [components, Path.firstComponent?, if_neg Bool.false_ne_true]
  by_cases dot : name = "."
  · rw [dot]
    rfl
  · rw [if_neg (by rwa [beq_iff_eq, toList_eq_dot_iff]), isSegment.text_innerComponent?,
      if_neg dot]

theorem IsSegment.components_join {root name : String} (isSegment : IsSegment name)
    (solid : root ≠ "") :
    Path.components (Path.join root name) =
      Path.components root ++ (Path.innerComponent? name.toList).toList := by
  rw [Path.components_join solid (Path.isAbsolute_of_noSlash isSegment.noSlash),
    Path.segments_of_noSlash isSegment.noSlash, List.filterMap_cons]
  cases Path.innerComponent? name.toList <;> rfl

/-- What two paths share is dropped altogether when one of them is the beginning of the other. -/
theorem dropShared_append (root rest : List Path.Component) :
    dropShared (root ++ rest) root = rest := by
  induction root with
  | nil => cases rest <;> rfl
  | cons component root inductionHypothesis =>
    rw [List.cons_append, dropShared, if_pos rfl]
    exact inductionHypothesis

/-- From the root of the sources a module has its category, unless it is a dot, and its name. -/
theorem dropShared_module {category name : String} (isSegment : IsSegment category)
    (isName : Path.IsName name) (root : String) :
    ((dropShared (Path.components (Path.join (Path.join root category) name))
        (Path.components root)).map Path.Component.text) =
      if category = "." ∧ root ≠ "" then [name.toList] else [category.toList, name.toList] := by
  have relative := Path.isAbsolute_of_noSlash isSegment.noSlash
  rw [Path.components_join_of_isName (Path.join_ne_empty root isSegment.nonempty relative) isName]
  by_cases empty : root = ""
  · have shown := isSegment.text_components
    have whole := dropShared_append [] (Path.components category ++ [.name name.toList])
    rw [List.nil_append] at whole
    rw [empty, Path.join_empty relative, if_neg fun both => both.2 rfl]
    refine (congrArg _ whole).trans ?_
    rw [List.map_append, shown]
    rfl
  · have shown := isSegment.text_innerComponent?
    rw [isSegment.components_join empty, List.append_assoc, dropShared_append, List.map_append,
      shown]
    by_cases dot : category = "."
    · rw [if_pos dot, if_pos ⟨dot, empty⟩]
      rfl
    · rw [if_neg dot, if_neg fun reason => dot reason.1]
      rfl

/-- The path that a module shows hides its category. -/
def Obscured (root category name : String) : Prop :=
  anchor ∉ stretches root ∧
    (name.toList = anchor ∧ category.toList ≠ anchor ∨ category = "." ∧ root ≠ "")

section Module

variable {root category name : String} (isSegment : IsSegment category)
  (isSegmentToo : IsSegment name)

include isSegment isSegmentToo

/-- The segments of the path of a module are some of the root, the category and the name. -/
theorem stretches_module (root : String) :
    ∃ front, stretches (Path.join (Path.join root category) name) =
        front ++ [category.toList, name.toList] ∧
      (anchor ∈ front ↔ anchor ∈ stretches root) := by
  obtain ⟨front, form, solid⟩ := @Path.exists_solid_pieces_join isSeparator rfl root category
    (Path.isAbsolute_of_noSlash isSegment.noSlash)
  refine ⟨front, ?_, solid anchor (by decide)⟩
  have divided := @Path.pieces_join_join isSeparator rfl root category isSegment.nonempty
    isSegment.noSlash name (Path.isAbsolute_of_noSlash isSegmentToo.noSlash)
  have ends := isSegment.stretches_eq
  have endsToo := isSegmentToo.stretches_eq
  rw [stretches] at ends endsToo ⊢
  rw [divided, form, ends, endsToo, List.append_assoc]
  rfl

/-- A module that hides its category shows its name alone. -/
theorem ofModule_of_obscured (isName : Path.IsName name) (obscured : Obscured root category name) :
    ofModule (Path.join (Path.join root category) name) root = name := by
  obtain ⟨unnamed, reason⟩ := obscured
  obtain ⟨front, form, same⟩ := stretches_module isSegment isSegmentToo root
  have before : anchor ∉ front := mt same.mp unnamed
  by_cases named : name.toList = anchor
  · have other : category.toList ≠ anchor := by
      rcases reason with ⟨_, other⟩ | ⟨rfl, _⟩
      · exact other
      · decide
    have divided : stretches (Path.join (Path.join root category) name) =
        (front ++ [category.toList]) ++ anchor :: [] := by
      rw [form, named, List.append_assoc]
      rfl
    have outside : anchor ∉ front ++ [category.toList] := by
      rw [List.mem_append, List.mem_singleton]
      exact not_or.mpr ⟨before, fun here => other here.symm⟩
    have relative := engineRelative?_of_stretches divided outside
    rw [ofModule, relative, Option.getD_some, ← String.toList_inj, String.toList_ofList, named]
    rfl
  · have dot : category = "." ∧ root ≠ "" := reason.resolve_left fun both => named both.1
    have silent : anchor ∉ stretches (Path.join (Path.join root category) name) := by
      rw [form, List.mem_append]
      refine not_or.mpr ⟨before, ?_⟩
      rw [dot.1]
      simpa using ⟨by decide, Ne.symm named⟩
    rw [ofModule, engineRelative?_eq_none silent, Option.getD_none,
      dropShared_module isSegment isName, if_pos dot]
    exact String.ofList_toList

/-- The path that any other module shows ends in its category and its name. -/
theorem segments_ofModule (isName : Path.IsName name) (clear : ¬ Obscured root category name) :
    [category.toList, name.toList] <:+
      Path.segments (ofModule (Path.join (Path.join root category) name) root) := by
  obtain ⟨front, form, same⟩ := stretches_module isSegment isSegmentToo root
  have uncut : ∀ part ∈ stretches (Path.join (Path.join root category) name), ∀ c ∈ part,
      (c == '/') = false := by
    intro part member c inside
    exact (Bool.or_eq_false_iff.mp (Text.not_cut_of_mem_pieces member c inside)).1
  -- Whatever stands before the first anchor, the category and the name are not there.
  have shown : ∀ {before rest : List Text}, anchor ∉ before →
      stretches (Path.join (Path.join root category) name) = before ++ anchor :: rest →
      [category.toList, name.toList] <:+ anchor :: rest →
      [category.toList, name.toList] <:+
        Path.segments (ofModule (Path.join (Path.join root category) name) root) := by
    intro before rest outside divided ends
    rw [ofModule, engineRelative?_of_stretches divided outside, Option.getD_some,
      Path.segments_ofList (List.cons_ne_nil _ _) fun part member => uncut part (by
        rw [divided]
        exact List.mem_append_right _ member)]
    exact ends
  by_cases named : anchor ∈ front
  · obtain ⟨before, rest, rfl, outside⟩ := List.eq_append_cons_of_mem named
    refine @shown before (rest ++ [category.toList, name.toList]) outside ?_ ?_
    · rw [form, List.append_assoc, List.cons_append]
    · exact (List.suffix_append rest _).trans (List.suffix_cons _ _)
  · have unnamed : anchor ∉ stretches root := mt same.mpr named
    by_cases here : category.toList = anchor
    · refine @shown front [name.toList] named ?_ ?_
      · rw [form, here]
      · exact ⟨[], congrArg (· :: [name.toList]) here⟩
    · have other : name.toList ≠ anchor := fun last => clear ⟨unnamed, Or.inl ⟨last, here⟩⟩
      have silent : anchor ∉ stretches (Path.join (Path.join root category) name) := by
        rw [form, List.mem_append]
        refine not_or.mpr ⟨named, ?_⟩
        simpa using ⟨Ne.symm here, Ne.symm other⟩
      have solid : ¬ (category = "." ∧ root ≠ "") := fun dot => clear ⟨unnamed, Or.inr dot⟩
      have segments : Path.segments (ofModule (Path.join (Path.join root category) name) root) =
          [category.toList, name.toList] := by
        rw [ofModule, engineRelative?_eq_none silent, Option.getD_none,
          dropShared_module isSegment isName, if_neg solid,
          Path.segments_ofList (List.cons_ne_nil _ _) fun part member => uncut part (by
            rw [form]
            exact List.mem_append_right _ member)]
      exact ⟨[], segments.symm⟩

end Module

end DisplayPath

/-! ### Modules of one root -/

namespace Scanner

variable {scanner : Scanner} {tree : FileTree} {info other : ModuleInfo}

/-- The category and the name of a module of the engine say all that is known of it. -/
theorem moduleInfo?_of_mem_scan (member : info ∈ scanner.scan tree) :
    scanner.moduleInfo? tree
      (Path.join (Path.join scanner.sourceDir info.category) info.name) info.name info.category
      (Path.join (Path.join (Path.join scanner.sourceDir info.category) info.name)
        (info.name ++ String.ofList rulesSuffix)) = some info := by
  obtain ⟨category, _, member⟩ := List.mem_flatMap.mp member
  unfold scanCategory at member
  dsimp only at member
  split at member
  · obtain ⟨⟨name, item⟩, _, kept⟩ := List.mem_filterMap.mp member
    rw [entryModule?] at kept
    split at kept
    · obtain rfl := moduleInfo?_name kept
      obtain rfl := moduleInfo?_category kept
      exact kept
    · cases kept
  · exact absurd member List.not_mem_nil

theorem path_of_mem_scan (member : info ∈ scanner.scan tree) :
    info.path = DisplayPath.ofModule
      (Path.join (Path.join scanner.sourceDir info.category) info.name) scanner.sourceDir := by
  have found := moduleInfo?_of_mem_scan member
  rw [moduleInfo?] at found
  split at found
  · exact (congrArg ModuleInfo.path (Option.some.inj found)).symm
  · cases found

theorem eq_of_mem_scan (member : info ∈ scanner.scan tree) (memberToo : other ∈ scanner.scan tree)
    (category : info.category = other.category) (name : info.name = other.name) :
    info = other := by
  have found := moduleInfo?_of_mem_scan member
  rw [category, name, moduleInfo?_of_mem_scan memberToo] at found
  exact (Option.some.inj found).symm

end Scanner

namespace ModuleInfo

/-- The path of a module ends in its category and its name. -/
def ShowsPlace (info : ModuleInfo) : Prop :=
  [info.category.toList, info.name.toList] <:+ Path.segments info.path

instance (info : ModuleInfo) : Decidable info.ShowsPlace :=
  inferInstanceAs (Decidable (_ <:+ _))

/-- The category and the name of a module are single segments. -/
structure HasPlainPlace (info : ModuleInfo) : Prop where
  category : DisplayPath.IsSegment info.category
  name : DisplayPath.IsSegment info.name

instance (info : ModuleInfo) : Decidable info.HasPlainPlace :=
  decidable_of_iff (DisplayPath.IsSegment info.category ∧ DisplayPath.IsSegment info.name)
    ⟨fun ⟨category, name⟩ => ⟨category, name⟩, fun ⟨category, name⟩ => ⟨category, name⟩⟩

end ModuleInfo

namespace Scanner

variable {scanner : Scanner} {tree : FileTree}

/-- A scan of a root shows the place of every module in its path, but for the modules that hide
their category. Two modules show the same path only when they are the same, or when both hide their
category and have the same name. -/
theorem path_shows_place_iff (wellFormed : tree.WellFormed) {info : ModuleInfo}
    (member : info ∈ scanner.scan tree) (plain : info.HasPlainPlace) :
    (info.ShowsPlace ↔ ¬ DisplayPath.Obscured scanner.sourceDir info.category info.name) ∧
      (DisplayPath.Obscured scanner.sourceDir info.category info.name → info.path = info.name) ∧
      ∀ other ∈ scanner.scan tree, other.HasPlainPlace →
        (info.path = other.path ↔ info = other ∨
          info.name = other.name ∧
            DisplayPath.Obscured scanner.sourceDir info.category info.name ∧
            DisplayPath.Obscured scanner.sourceDir other.category other.name) := by
  have shows : ∀ {info : ModuleInfo}, info ∈ scanner.scan tree → info.HasPlainPlace →
      ¬ DisplayPath.Obscured scanner.sourceDir info.category info.name → info.ShowsPlace := by
    intro info member plain clear
    rw [ModuleInfo.ShowsPlace, path_of_mem_scan member]
    exact DisplayPath.segments_ofModule plain.category plain.name
      (isName_of_mem_scan wellFormed member) clear
  have hides : ∀ {info : ModuleInfo}, info ∈ scanner.scan tree → info.HasPlainPlace →
      DisplayPath.Obscured scanner.sourceDir info.category info.name →
      info.path = info.name := by
    intro info member plain obscured
    rw [path_of_mem_scan member]
    exact DisplayPath.ofModule_of_obscured plain.category plain.name
      (isName_of_mem_scan wellFormed member) obscured
  have apart : ∀ {info other : ModuleInfo}, info.ShowsPlace → other.HasPlainPlace →
      info.path ≠ other.name := by
    intro info other shown plainOther same
    rw [ModuleInfo.ShowsPlace, same, Path.segments_of_noSlash plainOther.name.noSlash] at shown
    exact absurd shown.length_le (by simp)
  refine ⟨⟨fun shown obscured => ?_, shows member plain⟩, hides member plain,
    fun other memberToo plainToo => ⟨fun same => ?_, ?_⟩⟩
  · exact apart shown plain (hides member plain obscured)
  · by_cases obscured : DisplayPath.Obscured scanner.sourceDir info.category info.name
    · by_cases obscuredToo : DisplayPath.Obscured scanner.sourceDir other.category other.name
      · rw [hides member plain obscured, hides memberToo plainToo obscuredToo] at same
        exact Or.inr ⟨same, obscured, obscuredToo⟩
      · rw [hides member plain obscured] at same
        exact absurd same.symm (apart (shows memberToo plainToo obscuredToo) plain)
    · have shown := shows member plain obscured
      by_cases obscuredToo : DisplayPath.Obscured scanner.sourceDir other.category other.name
      · rw [hides memberToo plainToo obscuredToo] at same
        exact absurd same (apart shown plainToo)
      · have shownToo := shows memberToo plainToo obscuredToo
        rw [ModuleInfo.ShowsPlace, ← same] at shownToo
        have ends := List.suffix_of_suffix_length_le shown shownToo (by rfl)
        obtain ⟨category, last⟩ := List.cons.inj (ends.eq_of_length rfl)
        exact Or.inl (eq_of_mem_scan member memberToo (String.toList_inj.mp category)
          (String.toList_inj.mp (List.cons.inj last).1))
  · rintro (rfl | ⟨name, obscured, obscuredToo⟩)
    · rfl
    · rw [hides member plain obscured, hides memberToo plainToo obscuredToo, name]

theorem path_shows_place_small :
    (Generation.smallEngine [("A", "M"), ("B", "M")]).WellFormed ∧
      ∃ info ∈ scan ⟨"s", ["A", "B"], {}⟩ (Generation.smallEngine [("A", "M"), ("B", "M")]),
        info.HasPlainPlace ∧ info.path = "A/M" ∧ info.ShowsPlace := by
  have wellFormed := Generation.smallEngine_wellFormed [("A", "M"), ("B", "M")]
  have found : ∃ info ∈
      scan ⟨"s", ["A", "B"], {}⟩ (Generation.smallEngine [("A", "M"), ("B", "M")]),
      info.HasPlainPlace ∧ info.path = "A/M" ∧ info.category = "A" ∧ info.name = "M" := by
    decide +kernel
  obtain ⟨info, member, plain, path, category, name⟩ := found
  refine ⟨wellFormed, info, member, plain, path,
    (path_shows_place_iff wellFormed member plain).1.mpr ?_⟩
  rw [category, name]
  rintro ⟨_, ⟨named, _⟩ | ⟨dot, _⟩⟩
  · exact absurd named (by decide)
  · exact absurd dot (by decide)

/-- Outside of every directory called `Engine`, two modules of that name show the same path, and the
path of a module in a category that is a dot does not show the category. -/
theorem modules_hide_categories :
    (Generation.smallEngine [("A", "Engine"), ("B", "Engine")]).WellFormed ∧
      (∃ info ∈
          scan ⟨"s", ["A", "B"], {}⟩ (Generation.smallEngine [("A", "Engine"), ("B", "Engine")]),
        ∃ other ∈
            scan ⟨"s", ["A", "B"], {}⟩ (Generation.smallEngine [("A", "Engine"), ("B", "Engine")]),
          info.HasPlainPlace ∧ other.HasPlainPlace ∧ info ≠ other ∧ info.path = other.path ∧
            ¬ info.ShowsPlace ∧ ¬ other.ShowsPlace) ∧
      ∃ info ∈ scan ⟨"s/A", ["."], {}⟩ (Generation.smallEngine [("A", "M")]),
        info.HasPlainPlace ∧ ¬ info.ShowsPlace := by
  refine ⟨Generation.smallEngine_wellFormed _, ?_⟩
  decide +kernel

end Scanner

end EngineDocs
