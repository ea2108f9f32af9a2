/-
This file says what the components of a path tell. A path that descends along names has them behind
the components of its root, so that such paths are in the order of the names. The parent of a path
has all components but the last one. And when the last component is a name, it is the name of the
place that the path leads to.
-/

import EngineDocs.Proofs.Discovery.ModulePaths
import EngineDocs.Proofs.FileTree.Places
import EngineDocs.Proofs.Text.ByteOrder

namespace EngineDocs

open Headers (descend)

namespace Path

/-! ### The order of paths -/

/-- A path comes before another one component by component. -/
def Before (path other : String) : Prop :=
  Location.Before ((components path).map fun component => String.ofList component.text)
    ((components other).map fun component => String.ofList component.text)

theorem components_descend {root : String} (solid : root ≠ "") {names : List String}
    (areNames : ∀ name ∈ names, IsName name) :
    components (descend root names) =
      components root ++ names.map fun name => .name name.toList := by
  induction names generalizing root with
  | nil => exact (List.append_nil _).symm
  | cons name names inductionHypothesis =>
    have isName := areNames name List.mem_cons_self
    show components (descend (join root name) names) = _
    rw [inductionHypothesis (isName.join_ne_empty root)
        fun name member => areNames name (List.mem_cons_of_mem _ member),
      components_join_of_isName solid isName, List.append_assoc, List.singleton_append,
      List.map_cons]

/-- Paths that descend from one root are in the order of the names on the way. -/
theorem before_descend {root : String} (solid : root ≠ "") {first second : Location}
    (areNames : ∀ name ∈ first, IsName name) (areNamesToo : ∀ name ∈ second, IsName name)
    (before : Location.Before first second) :
    Before (descend root first) (descend root second) := by
  have shown : ∀ names : Location,
      (names.map fun name => Component.name name.toList).map
        (fun component => String.ofList component.text) = names := by
    intro names
    rw [List.map_map]
    exact List.map_id'' (fun _ => String.ofList_toList) names
  rw [Before, components_descend solid areNames, components_descend solid areNamesToo,
    List.map_append, List.map_append, shown, shown]
  exact before.append_left _ _

theorem descend_ne_empty {root : String} (solid : root ≠ "") {names : List String}
    (areNames : ∀ name ∈ names, IsName name) : descend root names ≠ "" := by
  by_cases none : names = []
  · rw [none]
    exact solid
  · obtain ⟨base, last, isName, _, joined⟩ := exists_join_of_descend root areNames none
    rw [joined]
    exact isName.join_ne_empty base

/-! ### The parent of a path -/

/-- The parent has all components but the last one. -/
theorem components_of_parent? {path outer : String} (ends : EndsInComponent path)
    (parent : parent? path = some outer) : components outer = (components path).dropLast := by
  obtain ⟨front, segment, component, form⟩ := ends
  obtain ⟨kept, dots, rfl, dropped, silent, spoken⟩ := exists_kept front
  rw [parent?_of_labelled form dropped] at parent
  obtain rfl := Option.some.inj parent
  have none : dots.filterMap Prod.snd = [] := List.filterMap_eq_nil_iff.mpr silent
  have whole : (components path).dropLast = kept.filterMap Prod.snd := by
    rw [components, form, List.filterMap_append, List.filterMap_append, none, List.append_nil]
    exact List.dropLast_concat
  rw [whole]
  by_cases empty : kept = []
  · rw [empty]
    rfl
  by_cases root : kept.map Prod.fst = [[]]
  · obtain ⟨⟨part, label⟩, rfl⟩ := List.map_eq_singleton_iff.mp root |>.imp fun _ same => same.1
    have member : (part, label) ∈ labelled path := by
      rw [form]
      exact List.mem_cons_self
    have blank : part = [] := (List.cons.inj root).1
    subst blank
    rcases mem_labelled member with inner | dot | ⟨_, same⟩
    · exact absurd inner (spoken _ rfl)
    · cases dot
    · rw [(Prod.mk.inj same).2]
      rfl
  · rw [List.append_assoc] at form
    rw [components, (labelled_ofReversed form empty (by simp) root).2.1]

/-- What is joined to a path lies in a path with the same last name. -/
theorem lastName?_of_parent?_join {base name outer : String} (solid : base ≠ "")
    (isName : IsName name) (parent : parent? (join base name) = some outer) :
    lastName? outer = lastName? base := by
  have components := components_of_parent? (endsInComponent_join isName) parent
  rw [components_join_of_isName solid isName, List.dropLast_concat] at components
  rw [lastName?, lastName?, components]

/-! ### The last name of a path -/

/-- A path whose last component is a name takes a step to it and then goes nowhere. -/
theorem steps_of_lastName? {path name : String} (last : lastName? path = some name.toList) :
    ∃ front dots, (∀ dot ∈ dots, dot = ".") ∧ FileTree.steps path = front ++ name :: dots := by
  have component : (components path).getLast? = some (.name name.toList) := by
    rw [lastName?] at last
    split at last
    · rename_i found
      rw [found, Option.some.inj last]
    · cases last
  rw [components, List.getLast?_filterMap, List.findSome?_eq_some_iff] at component
  obtain ⟨back, ⟨segment, label⟩, front, form, rfl, silent⟩ := component
  have labels : labelled path =
      front.reverse ++ (segment, some (.name name.toList)) :: back.reverse := by
    rw [← List.reverse_reverse (labelled path), form]
    simp
  have isMember : (segment, some (.name name.toList)) ∈ labelled path := by
    rw [labels]
    exact List.mem_append_right _ List.mem_cons_self
  have same : segment = name.toList := by
    rcases mem_labelled isMember with inner | dot | ⟨_, root⟩
    · exact (innerComponent?_eq_name inner.symm).1
    · cases dot
    · cases root
  have isName := isName_of_lastName? last
  refine ⟨((front.reverse.map Prod.fst).filter (!·.isEmpty)).map String.ofList,
    ((back.reverse.map Prod.fst).filter (!·.isEmpty)).map String.ofList, ?_, ?_⟩
  · intro dot member
    obtain ⟨part, listed, rfl⟩ := List.mem_map.mp member
    obtain ⟨inside, solid⟩ := List.mem_filter.mp listed
    obtain ⟨pair, found, rfl⟩ := List.mem_map.mp inside
    have pairMember : pair ∈ labelled path := by
      rw [labels]
      exact List.mem_append_right _ (List.mem_cons_of_mem _ found)
    rw [eq_dot_of_mem_labelled pairMember (silent pair (List.mem_reverse.mp found))
      (by simpa using solid)]
  · rw [FileTree.steps, ← map_fst_labelled, labels, same]
    simp [isName.nonempty]

end Path

namespace FileTree

/-- The last component of a path, when it is a name, is the name of the place that the path leads
to. -/
theorem Leads.getLast?_eq {tree : FileTree} {path name : String} {place : Location}
    (leads : tree.Leads path place) (last : Path.lastName? path = some name.toList) :
    place.getLast? = some name := by
  obtain ⟨front, dots, areDots, form⟩ := Path.steps_of_lastName? last
  rw [leads.eq_place, FileTree.place, placeAfter, form, List.foldl_append, List.foldl_cons,
    foldl_advance_dots areDots, advance_of_isName (Path.isName_of_lastName? last),
    List.getLast?_concat]

theorem ne_empty_of_lookup {tree : FileTree} {path : String} {reached : Location × Item}
    (found : tree.lookup path = .ok reached) : path ≠ "" := by
  rintro rfl
  exact absurd ((lookup_eq_ok_iff tree _ _ _).mp found).1 (by decide)

/-- The paths to what a walk shows are in order. -/
theorem WellFormed.descend_ordered {tree : FileTree} (wellFormed : tree.WellFormed) {root : String}
    (solid : root ≠ "") (location : Location) :
    (tree.shown location).Pairwise fun first second =>
      Path.Before (descend root first.1) (descend root second.1) := by
  have areNames : ∀ found ∈ tree.shown location, ∀ name ∈ found.1, Path.IsName name :=
    fun _ member => wellFormed.isName_below (mem_shown_iff.mp member).2.1
  refine (tree.shown_ordered location).imp_of_mem fun member memberToo precedes => ?_
  exact Path.before_descend solid (areNames _ member) (areNames _ memberToo)
    ((Location.compare_eq_lt_iff _ _).mp precedes)

end FileTree

end EngineDocs
