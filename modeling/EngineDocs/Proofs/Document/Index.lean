/-
This file shows that the index lists every module once. Its sections divide the modules by their
categories, so nothing is dropped or repeated as long as no category has two sections. Inside a
section two modules can only change places when they have the same name, and then their entries are
the same; so the text of the index is the only one that lists the modules in this way.
-/

import EngineDocs.Document.Index
import EngineDocs.Proofs.Grouping
import EngineDocs.Proofs.Text.ByteOrder

namespace EngineDocs.Index

open Location (NameBefore compareNames compareNames_eq_lt_iff)
open Std

/-! ### The order of names -/

/-- The lower-case form of a name. -/
def lowerName (name : String) : String := String.ofList (Text.lower name.toList)

/-- A name may be listed before another one: its lower-case form comes first byte by byte, or the
forms are the same and the name itself does not come later. -/
def MayPrecede (first second : String) : Prop :=
  NameBefore (lowerName first) (lowerName second) ∨
    lowerName first = lowerName second ∧ ¬NameBefore second first

/-- Names compared by their lower-case forms, and then by themselves. -/
def compareListed : String → String → Ordering :=
  compareLex (fun first second => compareNames (lowerName first) (lowerName second)) compareNames

instance : TransCmp fun first second => compareNames (lowerName first) (lowerName second) where
  eq_swap {first second} :=
    @OrientedCmp.eq_swap _ compareNames _ (lowerName first) (lowerName second)
  isLE_trans {first second third} := @TransCmp.isLE_trans _ compareNames _ (lowerName first)
    (lowerName second) (lowerName third)

instance : TransCmp compareListed := inferInstanceAs (TransCmp (compareLex _ _))

theorem listedBefore_eq (first second : ModuleData) :
    listedBefore first second = (compareListed first.name second.name).isLE := by
  have forms : compareNames (lowerName first.name) (lowerName second.name) =
      Text.compare (Text.lower first.name.toList) (Text.lower second.name.toList) := by
    rw [compareNames, lowerName, lowerName, String.toList_ofList, String.toList_ofList]
  rw [listedBefore, compareListed, compareLex, forms]
  cases Text.compare (Text.lower first.name.toList) (Text.lower second.name.toList) with
  | lt => rfl
  | gt => rfl
  | eq =>
    show _ = (Text.compare first.name.toList second.name.toList).isLE
    cases Text.compare first.name.toList second.name.toList <;> rfl

theorem isLE_compareListed_iff (first second : String) :
    (compareListed first second).isLE = true ↔ MayPrecede first second := by
  rw [compareListed, compareLex, Ordering.isLE_then_iff_or, compareNames_eq_lt_iff,
    LawfulEqCmp.compare_eq_iff_eq, Ordering.isLE_iff_ne_gt, OrientedCmp.gt_iff_lt,
    compareNames_eq_lt_iff, MayPrecede]

instance (first second : String) : Decidable (MayPrecede first second) :=
  decidable_of_iff _ (isLE_compareListed_iff first second)

/-- Only a name itself may be listed both before and behind it. -/
theorem MayPrecede.antisymm {first second : String} (before : MayPrecede first second)
    (behind : MayPrecede second first) : first = second := by
  have same := OrientedCmp.isLE_antisymm ((isLE_compareListed_iff _ _).mpr before)
    ((isLE_compareListed_iff _ _).mpr behind)
  rw [compareListed, compareLex, Ordering.then_eq_eq] at same
  exact LawfulEqCmp.eq_of_compare same.2

/-! ### Sections -/

/-- A section of the index: a category, and the modules whose entries stand in it. -/
structure Section where
  category : String
  members : List ModuleData

/-- The heading of a section and its entries. -/
def Section.text (part : Section) : String :=
  "\n### " ++ part.category ++ " Modules\n\n" ++ String.join (part.members.map entry)

/-- The sections list every module once, in the section of its category and in the order of the
names. The categories have their sections in order, and that of the plugins, if a module is in it,
comes last. -/
structure IsListing (categories : List String) (modules : List ModuleData)
    (sections : List Section) : Prop where
  complete : (sections.flatMap Section.members).Perm modules
  own : ∀ part ∈ sections, ∀ data ∈ part.members, data.category = part.category
  ordered : sections.map Section.category =
    categories ++
      if ∃ data ∈ modules, data.category = pluginsCategory then [pluginsCategory] else []
  sorted : ∀ part ∈ sections,
    part.members.Pairwise fun first second => MayPrecede first.name second.name

section Listings

variable {categories : List String} {modules : List ModuleData}

theorem sectionCategories_eq (categories : List String) (modules : List ModuleData) :
    sectionCategories categories modules = categories ++
      if ∃ data ∈ modules, data.category = pluginsCategory then [pluginsCategory] else [] := by
  simp only [sectionCategories, List.any_eq_true, beq_iff_eq]

theorem nodup_sectionCategories (distinct : categories.Nodup)
    (noPlugins : pluginsCategory ∉ categories) (modules : List ModuleData) :
    (sectionCategories categories modules).Nodup := by
  rw [sectionCategories_eq]
  exact nodup_append_if distinct _ fun _ => noPlugins

theorem mem_sectionCategories
    (covered : ∀ data ∈ modules, data.category ∈ categories ∨ data.category = pluginsCategory)
    {data : ModuleData} (member : data ∈ modules) :
    data.category ∈ sectionCategories categories modules := by
  rw [sectionCategories_eq]
  exact mem_append_if.mpr <| (covered data member).imp_right fun plugin =>
    ⟨⟨data, member, plugin⟩, plugin⟩

theorem listed_perm (category : String) (modules : List ModuleData) :
    (listed category modules).Perm (modules.filter (·.category == category)) :=
  List.mergeSort_perm _ _

theorem pairwise_listed (category : String) (modules : List ModuleData) :
    (listed category modules).Pairwise fun first second => MayPrecede first.name second.name := by
  have transitive : ∀ a b c : ModuleData, listedBefore a b = true → listedBefore b c = true →
      listedBefore a c = true := by
    intro a b c
    rw [listedBefore_eq, listedBefore_eq, listedBefore_eq]
    exact TransCmp.isLE_trans
  have total : ∀ a b : ModuleData, (listedBefore a b || listedBefore b a) = true := by
    intro a b
    rw [listedBefore_eq, listedBefore_eq, @OrientedCmp.eq_swap _ compareListed _ b.name]
    cases compareListed a.name b.name <;> rfl
  refine (List.pairwise_mergeSort transitive total _).imp fun {first second} inOrder => ?_
  rwa [listedBefore_eq, isLE_compareListed_iff] at inOrder

/-- The sections that are written list the modules. -/
theorem isListing_listed (distinct : categories.Nodup) (noPlugins : pluginsCategory ∉ categories)
    (covered : ∀ data ∈ modules, data.category ∈ categories ∨ data.category = pluginsCategory) :
    IsListing categories modules
      ((sectionCategories categories modules).map fun category =>
        ⟨category, listed category modules⟩) where
  complete := by
    have groups := flatMap_filter_perm_of_forall ModuleData.category
      (nodup_sectionCategories distinct noPlugins modules)
      fun data member => mem_sectionCategories covered member
    rw [List.flatMap_map]
    exact (List.Perm.flatMap_left _ fun category _ => listed_perm category modules).trans groups
  own := by
    rintro part listedPart data member
    obtain ⟨category, _, rfl⟩ := List.mem_map.mp listedPart
    have inGroup := (listed_perm category modules).subset member
    exact beq_iff_eq.mp (List.mem_filter.mp inGroup).2
  ordered := by
    rw [List.map_map, ← sectionCategories_eq]
    exact List.map_id _
  sorted := by
    rintro part listedPart
    obtain ⟨category, _, rfl⟩ := List.mem_map.mp listedPart
    exact pairwise_listed category modules

/-- The modules of a category stand in its section, and in no other one. -/
theorem filter_flatMap_members {parts : List Section} {part : Section}
    (own : ∀ other ∈ parts, ∀ data ∈ other.members, data.category = other.category)
    (distinct : (parts.map Section.category).Nodup) (member : part ∈ parts) :
    (parts.flatMap Section.members).filter (·.category == part.category) = part.members := by
  induction parts with
  | nil => exact absurd member List.not_mem_nil
  | cons first parts inductionHypothesis =>
    obtain ⟨ownFirst, ownLater⟩ := List.forall_mem_cons.mp own
    obtain ⟨new, distinct⟩ := List.nodup_cons.mp distinct
    rw [List.flatMap_cons, List.filter_append]
    rcases List.mem_cons.mp member with rfl | later
    · have whole : part.members.filter (·.category == part.category) = part.members :=
        List.filter_eq_self.mpr fun data inside => beq_iff_eq.mpr (ownFirst data inside)
      have none : (parts.flatMap Section.members).filter (·.category == part.category) = [] := by
        refine List.filter_eq_nil_iff.mpr fun data inside same => new ?_
        obtain ⟨other, listed, inOther⟩ := List.mem_flatMap.mp inside
        rw [← beq_iff_eq.mp same, ownLater other listed data inOther]
        exact List.mem_map_of_mem listed
      rw [whole, none, List.append_nil]
    · have none : first.members.filter (·.category == part.category) = [] := by
        refine List.filter_eq_nil_iff.mpr fun data inside same => new ?_
        rw [← ownFirst data inside, beq_iff_eq.mp same]
        exact List.mem_map_of_mem later
      rw [none, List.nil_append, inductionHypothesis ownLater distinct later]

/-- The names in a section are those of the modules of its category, in the only order there is. -/
theorem IsListing.map_name_eq {sections : List Section}
    (isListing : IsListing categories modules sections) (distinct : categories.Nodup)
    (noPlugins : pluginsCategory ∉ categories) {part : Section} (member : part ∈ sections) :
    part.members.map ModuleData.name = (listed part.category modules).map ModuleData.name := by
  have different : (sections.map Section.category).Nodup := by
    rw [isListing.ordered, ← sectionCategories_eq]
    exact nodup_sectionCategories distinct noPlugins modules
  have group := isListing.complete.filter (·.category == part.category)
  rw [filter_flatMap_members isListing.own different member] at group
  have same := (group.trans (listed_perm part.category modules).symm).map ModuleData.name
  refine same.eq_of_pairwise (fun _ _ _ _ => MayPrecede.antisymm) ?_ ?_
  · exact List.pairwise_map.mpr (isListing.sorted part member)
  · exact List.pairwise_map.mpr (pairwise_listed part.category modules)

theorem map_entry_eq {first second : List ModuleData}
    (same : first.map ModuleData.name = second.map ModuleData.name) :
    first.map entry = second.map entry := by
  have byName : entry = (fun name => "- [" ++ name ++ "](modules/" ++ name ++ "/overview.md)\n") ∘
      ModuleData.name := rfl
  rw [byName, ← List.map_map, ← List.map_map, same]

/-- Sections that list the modules have the texts that are written. -/
theorem IsListing.map_text_eq {sections : List Section}
    (isListing : IsListing categories modules sections) (distinct : categories.Nodup)
    (noPlugins : pluginsCategory ∉ categories) :
    sections.map Section.text =
      (sectionCategories categories modules).map (sectionText modules) := by
  rw [sectionCategories_eq, ← isListing.ordered, List.map_map]
  refine List.map_congr_left fun part member => ?_
  rw [Section.text, Function.comp_apply, sectionText,
    map_entry_eq (isListing.map_name_eq distinct noPlugins member)]

end Listings

/-! ### The text of the index -/

/-- What the index begins with: the edition and the number of modules. -/
def heading (edition : Edition) (count : Nat) : String :=
  "# UE" ++ edition.version ++ " Engine API Index\n\n" ++
  "## Overview\n\n" ++
  "Top-level index of the generated engine API documentation. Every module " ++
  "has an API reference, class listing, best practices and usage examples.\n\n" ++
  "- **Engine Version**: " ++ edition.version ++ "\n" ++
  "- **Generated**: " ++ edition.moment.displayText ++ "\n" ++
  "- **Modules**: " ++ Text.number count ++ "\n\n" ++
  "## Modules\n"

/-- The sections stand between the heading and a text that is always the same. -/
theorem exists_text_eq : ∃ guide : String, ∀ edition categories modules,
    text edition categories modules = heading edition modules.length ++
      String.join ((sectionCategories categories modules).map (sectionText modules)) ++ guide := by
  apply Exists.intro
  intro edition categories modules
  delta text heading
  simp only [String.append_assoc]
  rfl

/-- The index is the text in which the sections list every module once. -/
theorem text_lists_modules : ∃ guide : String, ∀ (edition : Edition) (categories : List String)
    (modules : List ModuleData), categories.Nodup → pluginsCategory ∉ categories →
    (∀ data ∈ modules, data.category ∈ categories ∨ data.category = pluginsCategory) →
      ∀ content, content = text edition categories modules ↔
        ∃ sections, IsListing categories modules sections ∧
          content = heading edition modules.length ++
            String.join (sections.map Section.text) ++ guide := by
  obtain ⟨guide, form⟩ := exists_text_eq
  refine ⟨guide, fun edition categories modules distinct noPlugins covered content => ?_⟩
  rw [form]
  constructor
  · rintro rfl
    have isListing := isListing_listed distinct noPlugins covered
    exact ⟨_, isListing, by rw [isListing.map_text_eq distinct noPlugins]⟩
  · rintro ⟨sections, isListing, rfl⟩
    rw [isListing.map_text_eq distinct noPlugins]

/-- A module with a name and a category, of which nothing else is known. -/
def bareModule (name category : String) : ModuleData :=
  ⟨name, "", category, {}, [], [], [], [], none⟩

/-- Names that differ in case only, a repeated name, a category without modules, and a plugin. -/
theorem text_lists_modules_mixed :
    ["Runtime", "Editor"].Nodup ∧ pluginsCategory ∉ ["Runtime", "Editor"] ∧
      (∀ data ∈ [bareModule "zlib" "Runtime", bareModule "core" "Runtime",
          bareModule "Chat" "Plugins", bareModule "Core" "Runtime", bareModule "core" "Runtime"],
        data.category ∈ ["Runtime", "Editor"] ∨ data.category = pluginsCategory) ∧
      ∃ guide, text ⟨"5.1", ⟨0⟩⟩ ["Runtime", "Editor"]
          [bareModule "zlib" "Runtime", bareModule "core" "Runtime",
            bareModule "Chat" "Plugins", bareModule "Core" "Runtime",
            bareModule "core" "Runtime"] =
        heading ⟨"5.1", ⟨0⟩⟩ 5 ++
          ("\n### Runtime Modules\n\n" ++
            "- [Core](modules/Core/overview.md)\n" ++
            "- [core](modules/core/overview.md)\n" ++
            "- [core](modules/core/overview.md)\n" ++
            "- [zlib](modules/zlib/overview.md)\n" ++
            "\n### Editor Modules\n\n" ++
            "\n### Plugins Modules\n\n" ++
            "- [Chat](modules/Chat/overview.md)\n") ++ guide := by
  have covered : ∀ data ∈ [bareModule "zlib" "Runtime", bareModule "core" "Runtime",
      bareModule "Chat" "Plugins", bareModule "Core" "Runtime", bareModule "core" "Runtime"],
      data.category ∈ ["Runtime", "Editor"] ∨ data.category = pluginsCategory := by decide
  obtain ⟨guide, all⟩ := text_lists_modules
  refine ⟨by decide, by decide, covered, guide, ?_⟩
  refine ((all _ _ _ (by decide) (by decide) covered _).mpr ⟨[
    ⟨"Runtime", [bareModule "Core" "Runtime", bareModule "core" "Runtime",
      bareModule "core" "Runtime", bareModule "zlib" "Runtime"]⟩,
    ⟨"Editor", []⟩, ⟨"Plugins", [bareModule "Chat" "Plugins"]⟩], ⟨?_, ?_, ?_, ?_⟩, ?_⟩).symm
  · decide
  · decide
  · decide
  · decide +kernel
  · exact congrArg (heading ⟨"5.1", ⟨0⟩⟩ 5 ++ · ++ guide) (by decide +kernel)

end EngineDocs.Index
