/-
This file shows that a page loses nothing of a parameter list. Parameters are shown as their types
with their names behind them, and reading the list that is shown gives them back. A comma inside a
type does no harm as long as it stands in angle brackets, because the brackets of each type close
again before the next parameter begins; and a parameter without a name is not taken for one with a
name unless its type alone could be.
-/

import EngineDocs.Document.Page
import EngineDocs.Proofs.Header.Parameter

namespace EngineDocs

namespace Header

/-! ### Deciding about types -/

instance (depth : Int) (part : Text) : Decidable (Uncut depth part) :=
  decidable_of_iff (∀ front ∈ part.inits, front ++ [','] <+: part → depthBehind depth front ≠ 0) <| by
    constructor
    · rintro all front back rfl
      refine all front (List.mem_inits _ _ |>.mpr (List.prefix_append _ _)) ⟨back, ?_⟩
      rw [List.append_assoc, List.singleton_append]
    · rintro uncut front - ⟨back, same⟩
      refine uncut front back ?_
      rw [← same, List.append_assoc, List.singleton_append]

instance (part : Text) : Decidable (IsClosed part) :=
  decidable_of_iff (part.count '<' = part.count '>' ∧ Uncut 0 part)
    ⟨fun both => ⟨both.1, both.2⟩, fun isClosed => ⟨isClosed.balanced, isClosed.uncut⟩⟩

/-- The text ends in an identifier with a space before it. -/
def EndsInName (text : Text) : Prop :=
  ∃ front name, text = front ++ ' ' :: name ∧ name ≠ [] ∧ ∀ c ∈ name, Text.isWord c = true

instance (text : Text) : Decidable (EndsInName text) :=
  decidable_of_iff (∃ tail ∈ text.tails, tail.head? = some ' ' ∧ tail.tail ≠ [] ∧
      ∀ c ∈ tail.tail, Text.isWord c = true) <| by
    constructor
    · rintro ⟨tail, listed, head, solid, word⟩
      obtain ⟨front, rfl⟩ := (List.mem_tails _ _).mp listed
      obtain ⟨name, rfl⟩ := List.head?_eq_some_iff.mp head
      exact ⟨front, name, rfl, solid, word⟩
    · rintro ⟨front, name, rfl, solid, word⟩
      exact ⟨' ' :: name, (List.mem_tails _ _).mpr (List.suffix_append _ _), rfl, solid, word⟩

/-- A text with single spaces only is divided into a type and a name when it ends in a name. -/
theorem endsInName_of_typeAndName? {text type name : Text} (isSpaced : Text.IsSpaced text)
    (read : typeAndName? text = some (type, name)) : EndsInName text := by
  obtain ⟨gap, rfl, division⟩ := typeAndName?_eq_some_iff.mp read
  obtain ⟨front, c, rfl⟩ := List.eq_nil_or_concat' gap |>.resolve_left division.gap_ne_nil
  have blank : Text.isBlank c = true :=
    division.gap_blank c (List.mem_append_right _ (List.mem_singleton_self c))
  have space : c = ' ' := isSpaced.blank c (by simp) blank
  refine ⟨type ++ front, name, ?_, division.name_ne_nil, division.name_word⟩
  rw [space, List.append_assoc, List.append_assoc, List.singleton_append]

end Header

namespace Page

open Header

/-! ### One parameter -/

/-- The characters of a parameter as shown. -/
def parameterText (parameter : Parameter) : Text :=
  parameter.type.toList ++ ([' '] ++ parameter.name.toList)

theorem displayParameters_toList (parameters : List Parameter) :
    (displayParameters parameters).toList =
      Text.joinWith [',', ' '] (parameters.map parameterText) := by
  have each : (String.toList ∘ fun parameter : Parameter =>
      parameter.type ++ " " ++ parameter.name) = parameterText := by
    funext parameter
    rw [Function.comp_apply, String.toList_append, String.toList_append, List.append_assoc]
    rfl
  rw [displayParameters, Text.toList_intercalate, List.map_map, each]
  rfl

/-- A parameter that can be told from what is shown of it: its type is written with single spaces
and has no default value, the commas of the type stand in angle brackets, and where there is no
name the end of the type does not look like one. -/
structure IsShown (parameter : Parameter) : Prop where
  type_ne_empty : parameter.type ≠ ""
  type_spaced : Text.IsSpaced parameter.type.toList
  type_noDefault : '=' ∉ parameter.type.toList
  type_closed : IsClosed parameter.type.toList
  name_word : ∀ c ∈ parameter.name.toList, Text.isWord c = true
  name_apart : parameter.name = "" → ¬EndsInName parameter.type.toList

instance (parameter : Parameter) : Decidable (IsShown parameter) :=
  decidable_of_iff (parameter.type ≠ "" ∧ Text.IsSpaced parameter.type.toList ∧
      '=' ∉ parameter.type.toList ∧ IsClosed parameter.type.toList ∧
      (∀ c ∈ parameter.name.toList, Text.isWord c = true) ∧
      (parameter.name = "" → ¬EndsInName parameter.type.toList))
    ⟨fun ⟨solid, spaced, noDefault, closed, word, apart⟩ =>
      ⟨solid, spaced, noDefault, closed, word, apart⟩,
    fun ⟨solid, spaced, noDefault, closed, word, apart⟩ =>
      ⟨solid, spaced, noDefault, closed, word, apart⟩⟩

namespace IsShown

variable {parameter : Parameter}

theorem type_ne_nil (isShown : IsShown parameter) : parameter.type.toList ≠ [] :=
  mt String.toList_eq_nil_iff.mp isShown.type_ne_empty

theorem isClosed (isShown : IsShown parameter) : IsClosed (parameterText parameter) := by
  have space : IsClosed [' '] := isClosed_of_not_mem (by decide)
  have foreign : ∀ c ∈ [',', '<', '>'], Text.isWord c = false := by decide
  have name : IsClosed parameter.name.toList := isClosed_of_not_mem fun c listed =>
    Text.not_mem_of_isWord isShown.name_word (foreign c listed)
  exact isShown.type_closed.append (space.append name)

theorem isDivision (isShown : IsShown parameter) (named : parameter.name ≠ "") :
    IsDivision parameter.type.toList [' '] parameter.name.toList where
  type_ne_nil := isShown.type_ne_nil
  type_ends := isShown.type_spaced.isTrimmed.stop
  type_line member := absurd (isShown.type_spaced.blank '\n' member rfl) (by decide)
  gap_ne_nil := List.cons_ne_nil _ _
  gap_blank := List.forall_mem_singleton.mpr rfl
  name_ne_nil := mt String.toList_eq_nil_iff.mp named
  name_word := isShown.name_word

theorem trim_parameterText (isShown : IsShown parameter) :
    Text.trim (parameterText parameter) =
      if parameter.name = "" then parameter.type.toList else parameterText parameter := by
  split
  · rename_i unnamed
    rw [parameterText, unnamed]
    exact isShown.type_spaced.isTrimmed.trim_append_blanks isShown.type_ne_nil (by decide)
  · rename_i named
    exact ((isShown.isDivision named).isTrimmed isShown.type_spaced.isTrimmed.start).trim_eq

theorem parseParameter_eq (isShown : IsShown parameter) :
    parseParameter (Text.trim (parameterText parameter)) = some parameter := by
  obtain ⟨name, type⟩ := parameter
  rw [isShown.trim_parameterText]
  split
  · rename_i unnamed
    have undivided : typeAndName? type.toList = none := by
      refine Option.eq_none_iff_forall_ne_some.mpr fun divided read => ?_
      exact isShown.name_apart unnamed (endsInName_of_typeAndName? isShown.type_spaced read)
    dsimp only at unnamed
    have solid : ¬type.toList.isEmpty = true := mt List.isEmpty_iff.mp isShown.type_ne_nil
    rw [parseParameter, beforeDefault_of_not_mem isShown.type_noDefault,
      isShown.type_spaced.isTrimmed.trim_eq]
    simp only [undivided, if_neg solid, String.ofList_toList, unnamed]
  · rename_i named
    have read := (isShown.isDivision named).parseParameter_eq isShown.type_spaced.isTrimmed.start
      isShown.type_spaced.collapseBlanks_eq isShown.type_noDefault
    rw [String.ofList_toList, String.ofList_toList] at read
    exact read

end IsShown

/-! ### Whole lists -/

/-- The parameters of a function are read back from the list in which they are shown. -/
theorem parseParameters_displayParameters (parameters : List Parameter)
    (shown : ∀ parameter ∈ parameters, IsShown parameter) :
    parseParameters (displayParameters parameters).toList = parameters := by
  have closed : ∀ part ∈ parameters.map parameterText, IsClosed part :=
    List.forall_mem_map.mpr fun parameter member => (shown parameter member).isClosed
  have each : ∀ parameter ∈ parameters,
      ((parseParameter ∘ Text.trim) ∘ parameterText) parameter = some parameter := by
    intro parameter member
    rw [Function.comp_apply, Function.comp_apply, (shown parameter member).parseParameter_eq]
  rw [displayParameters_toList, parseParameters_joinWith closed, List.filterMap_map,
    List.filterMap_congr each, List.filterMap_some]

/-- A type with a comma in brackets, one with brackets that close before they open, and one without
a name behind it. -/
theorem parseParameters_displayParameters_map :
    (∀ parameter ∈ [⟨"Map", "const TMap<FName, TArray<int32>> &"⟩, ⟨"Less", "bool (*)(A >, B<)"⟩,
        ⟨"", "const FString &"⟩], IsShown parameter) ∧
      parseParameters (displayParameters [⟨"Map", "const TMap<FName, TArray<int32>> &"⟩,
          ⟨"Less", "bool (*)(A >, B<)"⟩, ⟨"", "const FString &"⟩]).toList =
        [⟨"Map", "const TMap<FName, TArray<int32>> &"⟩, ⟨"Less", "bool (*)(A >, B<)"⟩,
          ⟨"", "const FString &"⟩] := by
  have shown : ∀ parameter ∈ [⟨"Map", "const TMap<FName, TArray<int32>> &"⟩,
      ⟨"Less", "bool (*)(A >, B<)"⟩, ⟨"", "const FString &"⟩], IsShown parameter := by
    decide
  exact ⟨shown, parseParameters_displayParameters _ shown⟩

end Page

end EngineDocs
