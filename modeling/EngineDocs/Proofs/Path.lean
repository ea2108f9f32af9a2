/-
This file says which steps a joined path takes: those of its base and then those of what was joined
to it. A plain name is one step, so a path that descends from a base along names takes the steps of
the base and then the names themselves.
-/

import EngineDocs.Discovery.Headers
import EngineDocs.Proofs.Text.Pieces

namespace EngineDocs

/-! ### Names -/

namespace Path

/-- A text that can be the name of something in a directory. -/
structure IsName (name : String) : Prop where
  nonempty : name ≠ ""
  noSlash : '/' ∉ name.toList
  notHere : name ≠ "."
  notUp : name ≠ ".."

theorem segments_of_noSlash {part : String} (noSlash : '/' ∉ part.toList) :
    segments part = [part.toList] := by
  refine Text.pieces_of_forall_not fun c member => ?_
  rw [beq_eq_false_iff_ne]
  rintro rfl
  exact noSlash member

theorem isAbsolute_of_noSlash {part : String} (noSlash : '/' ∉ part.toList) :
    isAbsolute part = false := by
  rw [isAbsolute, beq_eq_false_iff_ne]
  exact fun slash => noSlash (List.mem_of_head? slash)

namespace IsName

variable {name : String}

theorem segments_eq (isName : IsName name) : segments name = [name.toList] :=
  segments_of_noSlash isName.noSlash

theorem isAbsolute_eq (isName : IsName name) : isAbsolute name = false :=
  isAbsolute_of_noSlash isName.noSlash

instance (name : String) : Decidable (IsName name) :=
  decidable_of_iff (name ≠ "" ∧ '/' ∉ name.toList ∧ name ≠ "." ∧ name ≠ "..")
    ⟨fun ⟨nonempty, noSlash, notHere, notUp⟩ => ⟨nonempty, noSlash, notHere, notUp⟩,
      fun ⟨nonempty, noSlash, notHere, notUp⟩ => ⟨nonempty, noSlash, notHere, notUp⟩⟩

/-- A name stays a name with an ending that is longer than the names of moves. -/
theorem append (isName : IsName name) {ending : String} (noSlash : '/' ∉ ending.toList)
    (long : 2 < ending.length) : IsName (name ++ ending) := by
  have longer : ∀ other : String, other.length ≤ 2 → name ++ ending ≠ other := by
    rintro other short rfl
    rw [String.length_append] at short
    omega
  refine ⟨longer _ (by decide), ?_, longer _ (by decide), longer _ (by decide)⟩
  rw [String.toList_append, List.mem_append]
  rintro (slash | slash)
  · exact isName.noSlash slash
  · exact noSlash slash

/-- A name stays a name with the ending of data files. -/
theorem append_json (isName : IsName name) : IsName (name ++ ".json") :=
  isName.append (by decide) (by decide)

end IsName

/-- Names that there are have a last one. -/
theorem exists_concat_of_names {names : List String} (areNames : ∀ name ∈ names, IsName name)
    (solid : names ≠ []) :
    ∃ front last, names = front ++ [last] ∧ (∀ name ∈ front, IsName name) ∧ IsName last :=
  ⟨names.dropLast, names.getLast solid, (List.dropLast_concat_getLast solid).symm,
    fun name member => areNames name (List.dropLast_subset names member),
    areNames _ (List.getLast_mem solid)⟩

/-! ### Joining -/

theorem segments_join (base : String) {part : String} (relative : isAbsolute part = false) :
    ∃ front, segments (join base part) = front ++ segments part ∧
      front.filter (!·.isEmpty) = (segments base).filter (!·.isEmpty) := by
  rw [join, relative, Bool.false_or]
  by_cases empty : base.isEmpty = true
  · rw [if_pos empty]
    refine ⟨[], rfl, ?_⟩
    rw [String.isEmpty_iff.mp empty]
    rfl
  · rw [if_neg empty]
    by_cases slash : (base.toList.getLast? == some '/') = true
    · rw [if_pos slash]
      obtain ⟨front, form⟩ := List.getLast?_eq_some_iff.mp (beq_iff_eq.mp slash)
      refine ⟨Text.pieces (· == '/') front, ?_, ?_⟩
      · rw [segments, String.toList_append, form, List.append_assoc, List.singleton_append]
        exact Text.pieces_append_cons rfl front part.toList
      · have divided : segments base = Text.pieces (· == '/') front ++ [[]] := by
          rw [segments, form]
          exact Text.pieces_append_cons rfl front []
        rw [divided, List.filter_append]
        exact (List.append_nil _).symm
    · rw [if_neg slash]
      refine ⟨segments base, ?_, rfl⟩
      rw [segments, String.toList_append, String.toList_append, List.append_assoc]
      exact Text.pieces_append_cons rfl base.toList part.toList

theorem isAbsolute_join {base part : String} (relative : isAbsolute part = false) :
    isAbsolute (join base part) = isAbsolute base := by
  rw [join, relative, Bool.false_or]
  by_cases empty : base.isEmpty = true
  · rw [if_pos empty, String.isEmpty_iff.mp empty]
    exact relative
  · rw [if_neg empty]
    have nonempty : base.toList ≠ [] := fun none =>
      empty (String.isEmpty_iff.mpr (String.toList_eq_nil_iff.mp none))
    obtain ⟨c, text, form⟩ := List.exists_cons_of_ne_nil nonempty
    split <;> simp [isAbsolute, form]

end Path

namespace FileTree

theorem steps_join {base part : String} (relative : Path.isAbsolute part = false) :
    steps (Path.join base part) = steps base ++ steps part := by
  obtain ⟨front, form, same⟩ := Path.segments_join base relative
  rw [steps, form, List.filter_append, same, List.map_append]
  rfl

theorem steps_of_isName {name : String} (isName : Path.IsName name) : steps name = [name] := by
  rw [steps, isName.segments_eq]
  simp [isName.nonempty]

theorem start_join (tree : FileTree) {base part : String} (relative : Path.isAbsolute part = false) :
    tree.start (Path.join base part) = tree.start base := by
  rw [start, start, Path.isAbsolute_join relative]

theorem meansDirectory_join {base name : String} (isName : Path.IsName name) :
    meansDirectory (Path.join base name) = false := by
  obtain ⟨front, form, _⟩ := Path.segments_join base isName.isAbsolute_eq
  rw [meansDirectory, form, isName.segments_eq, List.getLast?_append, List.getLast?_singleton]
  have notHere : name.toList ≠ ['.'] := fun same =>
    isName.notHere (String.toList_inj.mp same)
  have notUp : name.toList ≠ ['.', '.'] := fun same =>
    isName.notUp (String.toList_inj.mp same)
  simp [isName.nonempty, notHere, notUp]

/-- The steps of a path are names, apart from those that go nowhere or up. -/
theorem isName_of_mem_steps {path step : String} (member : step ∈ steps path)
    (notHere : step ≠ ".") (notUp : step ≠ "..") : Path.IsName step := by
  obtain ⟨segment, kept, rfl⟩ := List.mem_map.mp member
  obtain ⟨inside, solid⟩ := List.mem_filter.mp kept
  refine ⟨?_, ?_, notHere, notUp⟩
  · intro empty
    rw [← String.toList_eq_nil_iff, String.toList_ofList] at empty
    rw [empty] at solid
    exact absurd solid (by decide)
  · rw [String.toList_ofList]
    intro slash
    exact absurd (Text.not_cut_of_mem_pieces inside '/' slash) (by decide)

end FileTree

/-! ### Descending -/

namespace Headers

open FileTree

variable {names : List String}

theorem descend_append (root : String) (upper lower : List String) :
    descend root (upper ++ lower) = descend (descend root upper) lower :=
  List.foldl_append

theorem steps_descend (root : String) (areNames : ∀ name ∈ names, Path.IsName name) :
    steps (descend root names) = steps root ++ names := by
  induction names generalizing root with
  | nil => exact (List.append_nil _).symm
  | cons name names inductionHypothesis =>
    have isName := areNames name List.mem_cons_self
    show steps (descend (Path.join root name) names) = _
    rw [inductionHypothesis _ fun name member => areNames name (List.mem_cons_of_mem _ member),
      steps_join isName.isAbsolute_eq, steps_of_isName isName, List.append_assoc,
      List.singleton_append]

theorem descend_inj {root : String} {first second : List String}
    (areNames : ∀ name ∈ first, Path.IsName name) (areNamesToo : ∀ name ∈ second, Path.IsName name)
    (same : descend root first = descend root second) : first = second := by
  have steps := congrArg steps same
  rw [steps_descend root areNames, steps_descend root areNamesToo] at steps
  exact List.append_cancel_left steps

theorem start_descend (tree : FileTree) (root : String)
    (areNames : ∀ name ∈ names, Path.IsName name) :
    tree.start (descend root names) = tree.start root := by
  induction names generalizing root with
  | nil => rfl
  | cons name names inductionHypothesis =>
    show tree.start (descend (Path.join root name) names) = _
    rw [inductionHypothesis _ fun name member => areNames name (List.mem_cons_of_mem _ member),
      start_join tree (areNames name List.mem_cons_self).isAbsolute_eq]

theorem meansDirectory_descend (root : String) (areNames : ∀ name ∈ names, Path.IsName name)
    (nonempty : names ≠ []) : meansDirectory (descend root names) = false := by
  obtain ⟨front, last, rfl, _, isName⟩ := Path.exists_concat_of_names areNames nonempty
  rw [descend_append]
  exact meansDirectory_join isName

end Headers

end EngineDocs
