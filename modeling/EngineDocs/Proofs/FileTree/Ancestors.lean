/-
This file says how the paths that a path lies in hang together. Each of them is reached from the one
outside it by a single step, apart from single dots that lead nowhere, and the outermost one is the
empty path or the root. So whoever makes directories from the outside in never finds one missing
on the way to the next.
-/

import EngineDocs.Proofs.Path
import Mathlib.Data.List.DropRight

namespace EngineDocs

/-! ### Paths from their segments -/

namespace Path

theorem segments_ne_nil (path : String) : segments path ≠ [] := Text.pieces_ne_nil _ _

theorem joinWith_segments (path : String) : Text.joinWith ['/'] (segments path) = path.toList :=
  Text.joinWith_pieces '/' path.toList

/-- The path with some segments. -/
theorem segments_ofList {parts : List Text} (nonempty : parts ≠ [])
    (uncut : ∀ part ∈ parts, ∀ c ∈ part, (c == '/') = false) :
    segments (String.ofList (Text.joinWith ['/'] parts)) = parts := by
  rw [segments, String.toList_ofList]
  exact Text.pieces_joinWith nonempty uncut

theorem isAbsolute_iff {path : String} {first : Text} {rest : List Text}
    (form : segments path = first :: rest) : isAbsolute path = true ↔ first = [] ∧ rest ≠ [] := by
  have text := joinWith_segments path
  have uncut : ∀ c ∈ first, (c == '/') = false :=
    Text.not_cut_of_mem_pieces (form ▸ List.mem_cons_self : first ∈ segments path)
  rw [form] at text
  rw [isAbsolute, ← text]
  cases first with
  | nil => cases rest <;> simp [Text.joinWith]
  | cons c first =>
    have notSlash := uncut c List.mem_cons_self
    cases rest <;> simpa [Text.joinWith] using notSlash

/-- Whether a segment is the first one matters for its component only. -/
theorem labelled_eq {path : String} {first : Text} {rest : List Text}
    (form : segments path = first :: rest) :
    labelled path = (first, firstComponent? (isAbsolute path) first) ::
      rest.map fun segment => (segment, innerComponent? segment) := by
  rw [labelled, form]

theorem map_fst_labelled (path : String) : (labelled path).map Prod.fst = segments path := by
  obtain ⟨first, rest, form⟩ := List.exists_cons_of_ne_nil (segments_ne_nil path)
  rw [labelled_eq form, form, List.map_cons, List.map_map]
  exact congrArg (first :: ·) (List.map_id rest)

theorem innerComponent?_ne_root (segment : Text) : innerComponent? segment ≠ some .root := by
  rw [innerComponent?]
  split
  · exact nofun
  · split <;> exact nofun

/-- What stands for no component and is not empty is a dot. -/
theorem eq_dot_of_innerComponent?_eq_none {segment : Text} (silent : innerComponent? segment = none)
    (nonempty : segment ≠ []) : segment = ['.'] := by
  rw [innerComponent?] at silent
  split at silent
  · rename_i reason
    simpa [nonempty] using reason
  · split at silent <;> exact nomatch silent

theorem ne_nil_of_innerComponent?_eq_some {segment : Text} {component : Component}
    (spoken : innerComponent? segment = some component) : segment ≠ [] := by
  rintro rfl
  exact nomatch spoken

end Path

/-! ### One path in another -/

namespace FileTree

/-- A path is reached from another one by one more step, apart from dots that lead nowhere. -/
structure Encloses (outer path : String) : Prop where
  isAbsolute_eq : Path.isAbsolute outer = Path.isAbsolute path
  steps_eq : ∃ dots last, (∀ dot ∈ dots, dot = ".") ∧ steps path = steps outer ++ (dots ++ [last])
  isBeginning : outer.toList <+: path.toList

/-- Paths of which each is reached from the next one, with the empty path or the root as the last
one. -/
inductive Chain : List String → Prop where
  | empty : Chain [""]
  | root : Chain ["/"]
  | cons {outer path : String} {paths : List String} (encloses : Encloses outer path)
      (chain : Chain (outer :: paths)) : Chain (path :: outer :: paths)

end FileTree

namespace Path

open FileTree (Encloses Chain steps)

/-- The last segment of a path stands for a component. -/
def EndsInComponent (path : String) : Prop :=
  ∃ front segment component, labelled path = front ++ [(segment, some component)]

/-- A list without the components at its end that stand for none. -/
theorem exists_kept (front : List (Text × Option Component)) :
    ∃ kept dots, front = kept ++ dots ∧
      front.reverse.dropWhile (·.2.isNone) = kept.reverse ∧
      (∀ pair ∈ dots, pair.2 = none) ∧ ∀ pair, kept.getLast? = some pair → pair.2 ≠ none := by
  refine ⟨(front.reverse.dropWhile (·.2.isNone)).reverse,
    (front.reverse.takeWhile (·.2.isNone)).reverse, ?_, (List.reverse_reverse _).symm, ?_, ?_⟩
  · rw [← List.reverse_append, List.takeWhile_append_dropWhile, List.reverse_reverse]
  · intro pair member
    have silent := List.mem_takeWhile_imp (List.mem_reverse.mp member)
    exact Option.isNone_iff_eq_none.mp silent
  · intro pair last
    rw [List.getLast?_reverse] at last
    have spoken := List.head?_dropWhile_not (·.2.isNone) front.reverse
    rw [last] at spoken
    simpa [Option.isSome_iff_ne_none] using spoken

theorem mem_labelled {path : String} {pair : Text × Option Component}
    (member : pair ∈ labelled path) :
    pair.2 = innerComponent? pair.1 ∨ pair = (['.'], some .current) ∨
      isAbsolute path = true ∧ pair = ([], some .root) := by
  obtain ⟨first, rest, form⟩ := List.exists_cons_of_ne_nil (segments_ne_nil path)
  rw [labelled_eq form] at member
  rcases List.mem_cons.mp member with rfl | later
  · rw [firstComponent?]
    split
    · rename_i absolute
      obtain ⟨rfl, _⟩ := (isAbsolute_iff form).mp absolute
      exact Or.inr (Or.inr ⟨absolute, rfl⟩)
    · split
      · rename_i dot
        exact Or.inr (Or.inl (by rw [beq_iff_eq.mp dot]))
      · exact Or.inl rfl
  · obtain ⟨segment, _, rfl⟩ := List.mem_map.mp later
    exact Or.inl rfl

theorem eq_dot_of_mem_labelled {path : String} {pair : Text × Option Component}
    (member : pair ∈ labelled path) (silent : pair.2 = none) (nonempty : pair.1 ≠ []) :
    pair.1 = ['.'] := by
  rcases mem_labelled member with inner | rfl | ⟨_, rfl⟩
  · exact eq_dot_of_innerComponent?_eq_none (inner.symm.trans silent) nonempty
  · rfl
  · exact nomatch silent

theorem ne_nil_of_mem_labelled {path : String} {segment : Text} {component : Component}
    (member : (segment, some component) ∈ labelled path) (inner : component ≠ .root) :
    segment ≠ [] := by
  rcases mem_labelled member with same | same | ⟨_, same⟩
  · exact ne_nil_of_innerComponent?_eq_some same.symm
  · rw [(Prod.mk.inj same).1]
    exact List.cons_ne_nil _ _
  · exact absurd (Option.some.inj (Prod.mk.inj same).2) inner

theorem labelled_of_isAbsolute {path : String} (absolute : isAbsolute path = true) :
    ∃ rest, rest ≠ [] ∧ labelled path = ([], some .root) :: rest := by
  obtain ⟨first, rest, form⟩ := List.exists_cons_of_ne_nil (segments_ne_nil path)
  obtain ⟨rfl, more⟩ := (isAbsolute_iff form).mp absolute
  refine ⟨rest.map fun segment => (segment, innerComponent? segment),
    fun none => more (List.map_eq_nil_iff.mp none), ?_⟩
  rw [labelled_eq form, absolute]
  rfl

/-- The root is never what the last segment stands for: a path starts with it, and a segment
follows. -/
theorem ne_root_of_labelled {path : String} {front : List (Text × Option Component)}
    {segment : Text} {component : Component}
    (form : labelled path = front ++ [(segment, some component)]) : component ≠ .root := by
  rintro rfl
  obtain ⟨first, rest, parts⟩ := List.exists_cons_of_ne_nil (segments_ne_nil path)
  cases front with
  | nil =>
    have member : (segment, some Component.root) ∈ labelled path := by
      rw [form]
      exact List.mem_cons_self
    rcases mem_labelled member with inner | other | ⟨absolute, _⟩
    · exact innerComponent?_ne_root segment inner.symm
    · exact nomatch (Prod.mk.inj other).2
    · obtain ⟨more, solid, whole⟩ := labelled_of_isAbsolute absolute
      exact solid (List.cons.inj (whole.symm.trans form)).2
  | cons pair front =>
    rw [labelled_eq parts, List.cons_append] at form
    have member : (segment, some Component.root) ∈
        rest.map fun segment => (segment, innerComponent? segment) := by
      rw [(List.cons.inj form).2]
      exact List.mem_append_right _ List.mem_cons_self
    obtain ⟨other, _, same⟩ := List.mem_map.mp member
    exact innerComponent?_ne_root other (Prod.mk.inj same).2

theorem parent?_of_labelled {path : String} {kept dots : List (Text × Option Component)}
    {segment : Text} {component : Component}
    (form : labelled path = (kept ++ dots) ++ [(segment, some component)])
    (dropped : (kept ++ dots).reverse.dropWhile (·.2.isNone) = kept.reverse) :
    parent? path = some (ofReversed (kept.map Prod.fst).reverse) := by
  rw [← List.map_reverse, parent?, form, List.reverse_append, List.reverse_singleton,
    List.singleton_append, List.dropWhile_cons_of_neg (by simp)]
  cases component with
  | root => exact absurd rfl (ne_root_of_labelled form)
  | _ => exact congrArg (fun pairs => some (ofReversed (pairs.map Prod.fst))) dropped

/-- The steps of a path are those up to its last component, which the parent has too, dots, and the
last one. -/
theorem steps_of_labelled {path : String} {kept dots : List (Text × Option Component)}
    {segment : Text} {component : Component}
    (form : labelled path = (kept ++ dots) ++ [(segment, some component)])
    (silent : ∀ pair ∈ dots, pair.2 = none) :
    ∃ back last, (∀ dot ∈ back, dot = ".") ∧
      steps path = ((kept.map Prod.fst).filter (!·.isEmpty)).map String.ofList ++
        (back ++ [last]) := by
  have segmentsEq := map_fst_labelled path
  have whole : ∀ pair ∈ (kept ++ dots) ++ [(segment, some component)], pair ∈ labelled path :=
    fun pair member => form ▸ member
  have solid : segment ≠ [] :=
    ne_nil_of_mem_labelled (whole _ (List.mem_append_right _ List.mem_cons_self))
      (ne_root_of_labelled form)
  rw [form, List.map_append, List.map_append] at segmentsEq
  refine ⟨((dots.map Prod.fst).filter (!·.isEmpty)).map String.ofList, String.ofList segment,
    ?_, ?_⟩
  · intro dot member
    obtain ⟨part, kept, rfl⟩ := List.mem_map.mp member
    obtain ⟨listed, nonempty⟩ := List.mem_filter.mp kept
    obtain ⟨pair, inside, rfl⟩ := List.mem_map.mp listed
    rw [eq_dot_of_mem_labelled
      (whole pair (List.mem_append_left _ (List.mem_append_right _ inside))) (silent pair inside)
      (by simpa using nonempty)]
  · rw [steps, ← segmentsEq]
    simp [solid]

/-- A path without a parent component is a relative one. -/
theorem isAbsolute_of_kept_nil {path : String} {dots : List (Text × Option Component)}
    {segment : Text} {component : Component}
    (form : labelled path = dots ++ [(segment, some component)])
    (silent : ∀ pair ∈ dots, pair.2 = none) : isAbsolute path = false := by
  by_contra absolute
  rw [Bool.not_eq_false] at absolute
  obtain ⟨rest, more, same⟩ := labelled_of_isAbsolute absolute
  rw [form] at same
  cases dots with
  | nil => exact more (List.cons.inj same).2.symm
  | cons pair dots =>
    have impossible := silent pair List.mem_cons_self
    rw [(List.cons.inj same).1] at impossible
    exact nomatch impossible

theorem isAbsolute_of_kept_empty {path : String} {pair : Text × Option Component}
    (member : pair ∈ labelled path) (empty : pair.1 = []) (spoken : pair.2 ≠ none) :
    isAbsolute path = true := by
  rcases mem_labelled member with inner | rfl | ⟨absolute, _⟩
  · rw [empty] at inner
    exact absurd inner spoken
  · exact nomatch empty
  · exact absolute

/-- The text of some segments of a path, from the first one on, has these segments and their
components. -/
theorem labelled_ofReversed {path : String} {kept rest : List (Text × Option Component)}
    (form : labelled path = kept ++ rest) (solid : kept ≠ []) (more : rest ≠ [])
    (notRoot : kept.map Prod.fst ≠ [[]]) :
    isAbsolute (ofReversed (kept.map Prod.fst).reverse) = isAbsolute path ∧
      labelled (ofReversed (kept.map Prod.fst).reverse) = kept ∧
      (ofReversed (kept.map Prod.fst).reverse).toList <+: path.toList := by
  have text : ofReversed (kept.map Prod.fst).reverse =
      String.ofList (Text.joinWith ['/'] (kept.map Prod.fst)) := by
    unfold ofReversed
    split
    · rename_i same
      exact absurd (List.reverse_eq_iff.mp same) notRoot
    · rw [List.reverse_reverse]
  have segmentsEq : segments path = kept.map Prod.fst ++ rest.map Prod.fst := by
    rw [← map_fst_labelled, form, List.map_append]
  have own : segments (ofReversed (kept.map Prod.fst).reverse) = kept.map Prod.fst := by
    rw [text]
    refine segments_ofList (by simpa using solid) fun part member =>
      Text.not_cut_of_mem_pieces (?_ : part ∈ segments path)
    rw [segmentsEq]
    exact List.mem_append_left _ member
  obtain ⟨⟨first, label⟩, kept, rfl⟩ := List.exists_cons_of_ne_nil solid
  rw [List.map_cons] at own
  rw [List.map_cons, List.cons_append] at segmentsEq
  have sameRoot : isAbsolute (ofReversed (first :: kept.map Prod.fst).reverse) =
      isAbsolute path := by
    rw [Bool.eq_iff_iff, isAbsolute_iff own, isAbsolute_iff segmentsEq]
    refine and_congr_right fun empty => iff_of_true ?_ (by simp [more])
    rintro alone
    exact notRoot (by rw [List.map_cons, alone, show first = [] from empty])
  refine ⟨sameRoot, ?_, ?_⟩
  · rw [List.map_cons, labelled_eq own, sameRoot]
    rw [labelled_eq segmentsEq, List.cons_append, List.map_append] at form
    obtain ⟨head, tail⟩ := List.cons.inj form
    rw [head, (List.append_inj' tail (by simp)).1]
  · rw [text, String.toList_ofList, ← joinWith_segments path, segmentsEq, List.map_cons,
      ← List.cons_append]
    exact Text.joinWith_append_prefix _ _ _

/-- A path that ends in a component lies in its parent, which is empty, or the root, or ends in a
component too. -/
theorem encloses_parent {path : String} (ends : EndsInComponent path) :
    ∃ outer, parent? path = some outer ∧ Encloses outer path ∧
      (outer = "" ∨ outer = "/" ∨
        EndsInComponent outer ∧ (segments outer).length < (segments path).length) := by
  obtain ⟨front, segment, component, form⟩ := ends
  obtain ⟨kept, dots, rfl, dropped, silent, spoken⟩ := exists_kept front
  have parent := parent?_of_labelled form dropped
  obtain ⟨back, last, areDots, stepsEq⟩ := steps_of_labelled form silent
  rw [List.append_assoc] at form
  refine ⟨_, parent, ?_⟩
  -- The empty path and the root have no segment that stands for a step, so they end the chain.
  by_cases none : kept = []
  · subst none
    have relative := isAbsolute_of_kept_nil form silent
    exact ⟨⟨relative.symm, ⟨back, last, areDots, stepsEq⟩, List.nil_prefix⟩, Or.inl rfl⟩
  by_cases root : kept.map Prod.fst = [[]]
  · obtain ⟨pair, rfl⟩ := List.map_eq_singleton_iff.mp root |>.imp fun _ h => h.1
    have empty : pair.1 = [] := (List.cons.inj root).1
    have member : pair ∈ labelled path := by
      rw [form]
      exact List.mem_cons_self
    have absolute := isAbsolute_of_kept_empty member empty (spoken pair rfl)
    rw [root] at stepsEq ⊢
    obtain ⟨text, start⟩ := List.head?_eq_some_iff.mp (beq_iff_eq.mp absolute)
    refine ⟨⟨absolute.symm, ⟨back, last, areDots, stepsEq⟩, ?_⟩, Or.inr (Or.inl rfl)⟩
    rw [start]
    exact List.prefix_append ['/'] text
  · obtain ⟨sameRoot, labels, beginning⟩ := labelled_ofReversed form none (by simp) root
    have segmentsEq := map_fst_labelled (ofReversed (kept.map Prod.fst).reverse)
    rw [labels] at segmentsEq
    have endsToo : EndsInComponent (ofReversed (kept.map Prod.fst).reverse) := by
      obtain ⟨front, ⟨part, label⟩, whole⟩ := (List.eq_nil_or_concat kept).resolve_left none
      rw [List.concat_eq_append] at whole
      cases label with
      | none => exact absurd rfl (spoken (part, .none) (by rw [whole, List.getLast?_concat]))
      | some component => exact ⟨front, part, component, labels.trans whole⟩
    refine ⟨⟨sameRoot, ⟨back, last, areDots, ?_⟩, beginning⟩, Or.inr (Or.inr ⟨endsToo, ?_⟩)⟩
    · rw [stepsEq, steps, ← segmentsEq]
    · rw [← segmentsEq, ← map_fst_labelled path, form]
      simp

/-! ### All that a path lies in -/

theorem chain_ancestorsWithin {path : String} (ends : EndsInComponent path) {count : Nat}
    (enough : (segments path).length ≤ count) : Chain (ancestorsWithin count path) := by
  induction count generalizing path with
  | zero => exact absurd (List.length_eq_zero_iff.mp (Nat.le_zero.mp enough)) (segments_ne_nil path)
  | succ count inductionHypothesis =>
    obtain ⟨outer, parent, encloses, kind⟩ := encloses_parent ends
    rw [ancestorsWithin, parent]
    have outermost : ∀ outer, parent? outer = none → ancestorsWithin count outer = [outer] := by
      intro outer none
      cases count with
      | zero => rfl
      | succ count => rw [ancestorsWithin, none]
    rcases kind with rfl | rfl | ⟨endsToo, shorter⟩
    · simp only [outermost "" rfl]
      exact .cons encloses .empty
    · simp only [outermost "/" rfl]
      exact .cons encloses .root
    · have chain := inductionHypothesis endsToo (by omega)
      cases count with
      | zero => exact .cons encloses chain
      | succ count => exact .cons encloses chain

theorem ancestors_eq_cons (path : String) : ∃ outer, ancestors path = path :: outer := by
  rw [ancestors]
  cases (segments path).length <;> exact ⟨_, rfl⟩

/-- The paths that a path lies in are reached from one another, from the outermost one on. -/
theorem chain_ancestors {path : String} (ends : EndsInComponent path) : Chain (ancestors path) :=
  chain_ancestorsWithin ends (Nat.le_refl _)

/-! ### Descending -/

section Join

variable {base name : String}

theorem innerComponent?_of_isName (isName : IsName name) :
    innerComponent? name.toList = some (.name name.toList) := by
  have notHere : name.toList ≠ ['.'] := fun same => isName.notHere (String.toList_inj.mp same)
  have notUp : name.toList ≠ ['.', '.'] := fun same => isName.notUp (String.toList_inj.mp same)
  simp [innerComponent?, isName.nonempty, notHere, notUp]

theorem labelled_join (isName : IsName name) :
    ∃ front, labelled (join base name) =
      front ++ [(name.toList, some (.name name.toList))] := by
  obtain ⟨front, form, _⟩ := segments_join base isName.isAbsolute_eq
  rw [isName.segments_eq] at form
  cases front with
  | nil =>
    have relative : isAbsolute (join base name) = false := by
      rw [Bool.eq_false_iff, ne_eq, isAbsolute_iff form]
      exact fun impossible => impossible.2 rfl
    have notHere : name.toList ≠ ['.'] := fun same => isName.notHere (String.toList_inj.mp same)
    refine ⟨[], ?_⟩
    rw [labelled_eq form, relative, firstComponent?]
    simp [notHere, innerComponent?_of_isName isName]
  | cons first front =>
    rw [List.cons_append] at form
    refine ⟨(first, firstComponent? (isAbsolute (join base name)) first) ::
      front.map fun segment => (segment, innerComponent? segment), ?_⟩
    rw [labelled_eq form, List.map_append, List.map_singleton, innerComponent?_of_isName isName]
    rfl

/-- A path to a name ends in it. -/
theorem endsInComponent_join (isName : IsName name) : EndsInComponent (join base name) := by
  obtain ⟨front, form⟩ := @labelled_join base name isName
  exact ⟨front, name.toList, .name name.toList, form⟩

/-- A directory encloses what a name in it leads to. -/
theorem encloses_join (isName : IsName name) : Encloses base (join base name) where
  isAbsolute_eq := (isAbsolute_join isName.isAbsolute_eq).symm
  steps_eq := by
    refine ⟨[], name, nofun, ?_⟩
    rw [FileTree.steps_join isName.isAbsolute_eq, FileTree.steps_of_isName isName, List.nil_append]
  isBeginning := by
    rw [join, isName.isAbsolute_eq, Bool.false_or]
    split
    · rename_i empty
      rw [String.isEmpty_iff.mp empty]
      exact List.nil_prefix
    · split
      · rw [String.toList_append]
        exact List.prefix_append _ _
      · rw [String.toList_append, String.toList_append, List.append_assoc]
        exact List.prefix_append _ _

end Join

end Path

end EngineDocs
