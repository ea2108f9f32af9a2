/-
This file says how a path looks once names are joined to it. From its end it shows the last name,
with its extension, and before that the path that it lies in. From its beginning it shows the
stretches of the base and then those of the names, whatever separators it is cut at.
-/

import EngineDocs.Proofs.FileTree.Ancestors

namespace EngineDocs

namespace Path

/-! ### The end of a joined path -/

section Join

variable {base upper name : String}

/-- The last name of a path is the one that was joined to it last. -/
theorem lastName?_join (isName : IsName name) : lastName? (join base name) = some name.toList := by
  obtain ⟨front, form⟩ := @labelled_join base _ isName
  rw [lastName?, components, form, List.filterMap_append]
  simp

theorem join_empty (relative : isAbsolute name = false) : join "" name = name := by
  rw [join, relative]
  rfl

theorem lastName?_of_isName (isName : IsName name) : lastName? name = some name.toList := by
  have joined := @lastName?_join "" name isName
  rw [join_empty isName.isAbsolute_eq] at joined
  exact joined

theorem isHeader_join (isName : IsName name) :
    Headers.isHeader (join base name) = Headers.isHeader name := by
  simp only [Headers.isHeader, extension?, lastName?_join isName, lastName?_of_isName isName]

/-- An extension stands at the end of a name. -/
theorem suffix_of_extension? (isName : IsName name) {extension : Text}
    (extended : extension? name = some extension) : extension <:+ name.toList := by
  rw [extension?, lastName?_of_isName isName, Option.bind_some] at extended
  dsimp only at extended
  split at extended
  · rw [← Option.some.inj extended, ← List.reverse_prefix, List.reverse_reverse]
    exact List.takeWhile_prefix _
  · exact nomatch extended

/-! ### The beginning of a joined path -/

/-- What a path puts in front of a relative one that is joined to it. -/
def frontOf (base : String) : Text :=
  if base.isEmpty then []
  else if base.toList.getLast? == some '/' then base.toList
  else base.toList ++ ['/']

theorem toList_join (base : String) {part : String} (relative : isAbsolute part = false) :
    (join base part).toList = frontOf base ++ part.toList := by
  rw [join, relative, Bool.false_or, frontOf]
  split
  · rfl
  · split
    · rw [String.toList_append]
    · rw [String.toList_append, String.toList_append]
      rfl

/-- What follows a path that ends in a segment is set off from it by a slash. -/
theorem frontOf_join (solid : name ≠ "") (noSlash : '/' ∉ name.toList) :
    frontOf (join base name) = (join base name).toList ++ ['/'] := by
  have text := toList_join base (isAbsolute_of_noSlash noSlash)
  have letters : name.toList ≠ [] := mt String.toList_eq_nil_iff.mp solid
  have notSlash : name.toList.getLast? ≠ some '/' := fun slash =>
    noSlash (List.mem_of_getLast? slash)
  have nonempty : (join base name).isEmpty = false := by
    rw [Bool.eq_false_iff, ne_eq, String.isEmpty_iff, ← String.toList_eq_nil_iff, text]
    exact fun empty => letters (List.append_eq_nil_iff.mp empty).2
  rw [frontOf, nonempty, text, List.getLast?_append_of_ne_nil _ letters]
  simp [notSlash]

/-- What a path puts in front is the path itself without the slash at its end, and then a slash. -/
theorem exists_frontOf (solid : base ≠ "") : ∃ front,
    frontOf base = front ++ ['/'] ∧ (base.toList = front ∨ base.toList = front ++ ['/']) := by
  have nonempty : base.isEmpty = false := by
    rw [Bool.eq_false_iff, ne_eq, String.isEmpty_iff]
    exact solid
  rw [frontOf, nonempty, if_neg nofun]
  split
  · rename_i ends
    obtain ⟨front, form⟩ := List.getLast?_eq_some_iff.mp (beq_iff_eq.mp ends)
    exact ⟨front, form, Or.inr form⟩
  · exact ⟨base.toList, rfl, Or.inl rfl⟩

/-- A path that ends in two names lies in the one that ends in the first of them. -/
theorem parent?_join_join (isNameUpper : IsName upper) (isName : IsName name) :
    parent? (join (join base upper) name) = some (join base upper) := by
  obtain ⟨front, labels⟩ := @labelled_join base _ isNameUpper
  have text : (join (join base upper) name).toList =
      (join base upper).toList ++ '/' :: name.toList := by
    rw [toList_join _ isName.isAbsolute_eq, frontOf_join isNameUpper.nonempty
      isNameUpper.noSlash, List.append_assoc]
    rfl
  have parts : segments (join (join base upper) name) =
      segments (join base upper) ++ [name.toList] := by
    rw [segments, text, Text.pieces_append_cons rfl]
    exact congrArg (segments (join base upper) ++ ·) isName.segments_eq
  have form : labelled (join (join base upper) name) =
      (labelled (join base upper) ++ []) ++ [(name.toList, some (.name name.toList))] := by
    obtain ⟨first, rest, whole⟩ := List.exists_cons_of_ne_nil (segments_ne_nil (join base upper))
    rw [whole, List.cons_append] at parts
    rw [labelled_eq parts, labelled_eq whole, isAbsolute_join isName.isAbsolute_eq,
      List.map_append, List.map_singleton, innerComponent?_of_isName isName, List.append_nil]
    rfl
  rw [parent?_of_labelled form]
  · have notRoot : (labelled (join base upper)).map Prod.fst ≠ [[]] := by
      rw [labels, List.map_append]
      intro root
      have last := congrArg List.getLast? root
      rw [List.map_singleton, List.getLast?_concat] at last
      exact isNameUpper.nonempty (String.toList_eq_nil_iff.mp (Option.some.inj last))
    rw [map_fst_labelled] at notRoot ⊢
    unfold ofReversed
    split
    · rename_i same
      exact absurd (List.reverse_eq_iff.mp same) notRoot
    · rw [List.reverse_reverse, joinWith_segments, String.ofList_toList]
  · rw [List.append_nil, labels, List.reverse_append, List.reverse_singleton,
      List.singleton_append, List.dropWhile_cons_of_neg (by simp)]

end Join

/-! ### Cutting a joined path -/

section Pieces

variable {cut : Char → Bool} (slash : cut '/' = true) {base name : String}

include slash

/-- The pieces of a joined path are those of its base, but for the empty one behind a slash at the
end, and then those of what was joined. -/
theorem exists_pieces_join (solid : base ≠ "") {part : String}
    (relative : isAbsolute part = false) :
    ∃ front, Text.pieces cut (join base part).toList = front ++ Text.pieces cut part.toList ∧
      front ≠ [] ∧
      (Text.pieces cut base.toList = front ∨ Text.pieces cut base.toList = front ++ [[]]) := by
  obtain ⟨front, set, form⟩ := exists_frontOf solid
  refine ⟨Text.pieces cut front, ?_, Text.pieces_ne_nil cut front, ?_⟩
  · rw [toList_join base relative, set, List.append_assoc, List.singleton_append,
      Text.pieces_append_cons slash]
  · refine form.imp (fun same => by rw [same]) fun ends => ?_
    rw [ends, Text.pieces_append_cons slash]
    rfl

/-- In front of what was joined to a base stand the solid pieces of the base. -/
theorem exists_solid_pieces_join (base : String) {part : String}
    (relative : isAbsolute part = false) :
    ∃ front, Text.pieces cut (join base part).toList = front ++ Text.pieces cut part.toList ∧
      ∀ piece, piece ≠ [] → (piece ∈ front ↔ piece ∈ Text.pieces cut base.toList) := by
  by_cases empty : base = ""
  · refine ⟨[], by rw [empty, join_empty relative]; rfl, fun piece solid => ?_⟩
    rw [empty]
    exact iff_of_false nofun fun member => solid (List.mem_singleton.mp member)
  · obtain ⟨front, form, _, whole⟩ := exists_pieces_join slash empty relative
    refine ⟨front, form, fun piece solid => ?_⟩
    rcases whole with same | ends
    · rw [same]
    · rw [ends, List.mem_append, List.mem_singleton, or_iff_left solid]

theorem pieces_join_join {upper : String} (solid : upper ≠ "") (noSlash : '/' ∉ upper.toList)
    {part : String} (relative : isAbsolute part = false) :
    Text.pieces cut (join (join base upper) part).toList =
      Text.pieces cut (join base upper).toList ++ Text.pieces cut part.toList := by
  rw [toList_join _ relative, frontOf_join solid noSlash, List.append_assoc, List.singleton_append,
    Text.pieces_append_cons slash]

end Pieces

/-- A path that descends along names from a base ends in the last of them. -/
theorem exists_join_of_descend (root : String) {names : List String}
    (areNames : ∀ name ∈ names, IsName name) (solid : names ≠ []) :
    ∃ base upper, IsName upper ∧ names.getLast? = some upper ∧
      Headers.descend root names = join base upper := by
  obtain ⟨front, last, rfl, _, isName⟩ := exists_concat_of_names areNames solid
  refine ⟨Headers.descend root front, last, isName, List.getLast?_concat, ?_⟩
  exact Headers.descend_append root front [last]

theorem joinWith_concat (separator : Text) {parts : List Text} (solid : parts ≠ []) (last : Text) :
    Text.joinWith separator (parts ++ [last]) = Text.joinWith separator parts ++ separator ++ last := by
  induction parts with
  | nil => exact absurd rfl solid
  | cons part parts inductionHypothesis =>
    cases parts with
    | nil => rfl
    | cons next parts =>
      rw [List.cons_append, List.cons_append, Text.joinWith_cons_cons, Text.joinWith_cons_cons,
        ← List.cons_append, inductionHypothesis (List.cons_ne_nil _ _)]
      simp only [List.append_assoc]

/-- The text of a path that descends along names. -/
theorem toList_descend (root : String) {names : List String}
    (areNames : ∀ name ∈ names, IsName name) (solid : names ≠ []) :
    (Headers.descend root names).toList =
      frontOf root ++ Text.joinWith ['/'] (names.map String.toList) := by
  induction names using List.reverseRecOn with
  | nil => exact absurd rfl solid
  | append_singleton names name inductionHypothesis =>
    have isName := areNames name (List.mem_append_right _ List.mem_cons_self)
    have above : ∀ name ∈ names, IsName name :=
      fun name member => areNames name (List.mem_append_left _ member)
    rw [Headers.descend_append]
    by_cases alone : names = []
    · rw [alone]
      exact toList_join root isName.isAbsolute_eq
    · obtain ⟨base, upper, isNameUpper, _, joined⟩ := exists_join_of_descend root above alone
      have front := @frontOf_join base upper isNameUpper.nonempty isNameUpper.noSlash
      rw [← joined, inductionHypothesis above alone] at front
      have parts : names.map String.toList ≠ [] := fun none => alone (List.map_eq_nil_iff.mp none)
      have whole := toList_join (Headers.descend root names) isName.isAbsolute_eq
      rw [List.map_append, List.map_singleton, joinWith_concat _ parts, ← List.append_assoc,
        ← List.append_assoc, ← front]
      exact whole

theorem parent?_join_descend (root : String) {names : List String}
    (areNames : ∀ name ∈ names, IsName name) (solid : names ≠ []) {name : String}
    (isName : IsName name) :
    parent? (join (Headers.descend root names) name) = some (Headers.descend root names) := by
  obtain ⟨base, upper, isNameUpper, _, joined⟩ := exists_join_of_descend root areNames solid
  rw [joined]
  exact parent?_join_join isNameUpper isName

theorem lastName?_descend (root : String) {names : List String}
    (areNames : ∀ name ∈ names, IsName name) (solid : names ≠ []) :
    lastName? (Headers.descend root names) = names.getLast?.map String.toList := by
  obtain ⟨base, upper, isNameUpper, last, joined⟩ := exists_join_of_descend root areNames solid
  rw [joined, last]
  exact lastName?_join isNameUpper

end Path

/-! ### Paths for display -/

namespace DisplayPath

/-- Whether a character separates the segments of a path for display. -/
def isSeparator (c : Char) : Bool := c == '/' || c == '\\'

/-- The segments of a path for display. -/
def stretches (path : String) : List Text := Text.pieces isSeparator path.toList

theorem engineRelative?_eq (path : String) :
    engineRelative? path =
      match (stretches path).dropWhile (· != anchor) with
      | [] => none
      | segments => some (String.ofList (Text.joinWith ['/'] segments)) := rfl

/-- A path shows what stands from the first segment called as the anchor on. -/
theorem engineRelative?_of_stretches {path : String} {front rest : List Text}
    (form : stretches path = front ++ anchor :: rest) (unnamed : anchor ∉ front) :
    engineRelative? path = some (String.ofList (Text.joinWith ['/'] (anchor :: rest))) := by
  have passed : ∀ segment ∈ front, (segment != anchor) = true := by
    intro segment member
    rw [bne_iff_ne]
    rintro rfl
    exact unnamed member
  rw [engineRelative?_eq, form, List.dropWhile_append_of_pos passed,
    List.dropWhile_cons_of_neg (by simp)]

theorem engineRelative?_eq_none {path : String} (unnamed : anchor ∉ stretches path) :
    engineRelative? path = none := by
  have passed : ∀ segment ∈ stretches path, (segment != anchor) = true := by
    intro segment member
    rw [bne_iff_ne]
    rintro rfl
    exact unnamed member
  rw [engineRelative?_eq, List.dropWhile_eq_nil_iff.mpr passed]

end DisplayPath

end EngineDocs
