/-
This file says what one parameter is read as without saying how it is read. What counts is the text
before the first default value, trimmed. Where it ends in an identifier with blanks before it, and
what stands before the blanks is on one line, the identifier is the name and the rest is the type,
with its blanks collapsed; otherwise the whole text is a type. Each text has one such reading, and
it is the one that is found.
-/

import EngineDocs.Proofs.Header.Parameter
import EngineDocs.Proofs.Text.Collapse

namespace EngineDocs.Header

/-! ### The text before a default value -/

/-- An equality sign with a default value behind it: behind some of the blanks that follow the sign
the text has no line feed. -/
def BeginsDefault (text : Text) : Prop :=
  ∃ blanks value, text = '=' :: (blanks ++ value) ∧ (∀ c ∈ blanks, Text.isBlank c = true) ∧
    '\n' ∉ value

theorem isDefaultValue_iff {text : Text} :
    isDefaultValue text = true ↔ BeginsDefault ('=' :: text) := by
  rw [isDefaultValue, Bool.not_eq_true', ← Bool.not_eq_true, List.contains_iff_mem]
  constructor
  · intro oneLine
    exact ⟨Text.leadingBlanks text, Text.skipBlanks text,
      by rw [Text.leadingBlanks_append_skipBlanks], fun c => Text.isBlank_of_mem_leadingBlanks,
      oneLine⟩
  · rintro ⟨blanks, value, same, blank, oneLine⟩ member
    obtain ⟨_, rfl⟩ := List.cons.inj same
    rw [Text.skipBlanks, List.dropWhile_append_of_pos blank] at member
    exact oneLine ((List.dropWhile_suffix _).subset member)

/-- The part of a text before its first default value; the whole text when it has none. -/
structure IsBeforeDefault (text before : Text) : Prop where
  stops : ∃ rest, text = before ++ rest ∧ (rest = [] ∨ BeginsDefault rest)
  first : ∀ front back, text = front ++ back → front.length < before.length → ¬BeginsDefault back

theorem beforeDefault_stops_iff {c : Char} {text : Text} :
    (c == '=' && isDefaultValue text) = true ↔ BeginsDefault (c :: text) := by
  rw [Bool.and_eq_true, beq_iff_eq]
  constructor
  · rintro ⟨rfl, isDefault⟩
    exact isDefaultValue_iff.mp isDefault
  · intro begins
    obtain rfl : c = '=' := by
      obtain ⟨_, _, opened, _⟩ := begins
      exact (List.cons.inj opened).1
    exact ⟨rfl, isDefaultValue_iff.mpr begins⟩

theorem isBeforeDefault_beforeDefault (text : Text) :
    IsBeforeDefault text (beforeDefault text) := by
  induction text with
  | nil => exact ⟨⟨[], rfl, .inl rfl⟩, fun _ _ _ short => absurd short (Nat.not_lt_zero _)⟩
  | cons c text inductionHypothesis =>
    rw [beforeDefault]
    split
    · rename_i here
      exact ⟨⟨_, rfl, .inr (beforeDefault_stops_iff.mp here)⟩,
        fun _ _ _ short => absurd short (Nat.not_lt_zero _)⟩
    · rename_i other
      obtain ⟨⟨rest, same, stops⟩, first⟩ := inductionHypothesis
      refine ⟨⟨rest, congrArg (c :: ·) same, stops⟩, fun front back divided short => ?_⟩
      cases front with
      | nil =>
        rw [List.nil_append] at divided
        exact divided ▸ mt beforeDefault_stops_iff.mpr other
      | cons head front =>
        exact first front back (List.cons.inj divided).2 (Nat.lt_of_succ_lt_succ short)

theorem IsBeforeDefault.length_le {text before other : Text}
    (isBefore : IsBeforeDefault text before) (isOther : IsBeforeDefault text other) :
    before.length ≤ other.length := by
  refine Nat.not_lt.mp fun short => ?_
  obtain ⟨rest, same, empty | begins⟩ := isOther.stops
  · obtain ⟨left, whole, _⟩ := isBefore.stops
    have longer := congrArg List.length (whole.symm.trans same)
    rw [empty, List.length_append, List.length_append, List.length_nil] at longer
    omega
  · exact isBefore.first other rest same short begins

theorem beforeDefault_eq_iff {text before : Text} :
    beforeDefault text = before ↔ IsBeforeDefault text before := by
  constructor
  · rintro rfl
    exact isBeforeDefault_beforeDefault text
  · intro isBefore
    have found := isBeforeDefault_beforeDefault text
    obtain ⟨_, same, _⟩ := isBefore.stops
    obtain ⟨_, same', _⟩ := found.stops
    exact List.append_inj_left (same'.symm.trans same)
      (Nat.le_antisymm (found.length_le isBefore) (isBefore.length_le found))

/-- What is declared in a text: the part before its first default value without the blanks at its
two ends. -/
def Declares (text declared : Text) : Prop :=
  ∃ lead trail, IsBeforeDefault text (lead ++ (declared ++ trail)) ∧
    (∀ c ∈ lead, Text.isBlank c = true) ∧ (∀ c ∈ trail, Text.isBlank c = true) ∧
    Text.IsTrimmed declared

theorem trim_beforeDefault_eq_iff {text declared : Text} :
    Text.trim (beforeDefault text) = declared ↔ Declares text declared := by
  rw [Text.trim_eq_iff]
  refine exists_congr fun lead => exists_congr fun trail => and_congr_left fun _ => ?_
  exact beforeDefault_eq_iff

/-! ### Types and names -/

/-- The identifier at the end of a text, the blanks before it, and what stands before the blanks.
There is some of each, and the blanks are all that there are, as are the characters of the
identifier because a blank stands before them. -/
structure IsTypeAndName (type gap name : Text) : Prop where
  name_ne_nil : name ≠ []
  name_word : ∀ c ∈ name, Text.isWord c = true
  gap_ne_nil : gap ≠ []
  gap_blank : ∀ c ∈ gap, Text.isBlank c = true
  type_ne_nil : type ≠ []
  type_ends : Text.Ends Text.isBlank type.reverse

/-- A text is divided into a type and a name only where the type is on one line. -/
theorem isDivision_iff {type gap name : Text} :
    IsDivision type gap name ↔ IsTypeAndName type gap name ∧ '\n' ∉ type := by
  constructor
  · intro division
    exact ⟨⟨division.name_ne_nil, division.name_word, division.gap_ne_nil, division.gap_blank,
      division.type_ne_nil, division.type_ends⟩, division.type_line⟩
  · rintro ⟨isTypeAndName, oneLine⟩
    exact ⟨isTypeAndName.type_ne_nil, isTypeAndName.type_ends, oneLine, isTypeAndName.gap_ne_nil,
      isTypeAndName.gap_blank, isTypeAndName.name_ne_nil, isTypeAndName.name_word⟩

/-! ### Reading what is declared -/

/-- What a declared text is read as. -/
inductive ReadsAs (declared : Text) : Option Parameter → Prop
  | nothing : declared = [] → ReadsAs declared none
  | named {type gap name collapsed : Text} : declared = type ++ (gap ++ name) →
      IsTypeAndName type gap name → '\n' ∉ type → Text.IsCollapse type collapsed →
      ReadsAs declared (some ⟨String.ofList name, String.ofList collapsed⟩)
  | unnamed : declared ≠ [] →
      (∀ type gap name, declared = type ++ (gap ++ name) → IsTypeAndName type gap name →
        '\n' ∈ type) →
      ReadsAs declared (some ⟨"", String.ofList declared⟩)

/-- The reading of what is declared, as it is found. -/
def readDeclared (declared : Text) : Option Parameter :=
  match typeAndName? declared with
  | some (type, name) =>
    some ⟨String.ofList name, String.ofList (Text.collapseBlanks (Text.trim type))⟩
  | none => if declared.isEmpty then none else some ⟨"", String.ofList declared⟩

theorem parseParameter_eq_readDeclared (raw : Text) :
    parseParameter raw = readDeclared (Text.trim (beforeDefault raw)) := rfl

theorem typeAndName?_eq_none {declared : Text}
    (undivided : ∀ type gap name, declared = type ++ (gap ++ name) →
      IsTypeAndName type gap name → '\n' ∈ type) : typeAndName? declared = none := by
  refine Option.eq_none_iff_forall_ne_some.mpr fun parts read => ?_
  obtain ⟨gap, same, division⟩ := typeAndName?_eq_some_iff.mp read
  obtain ⟨isTypeAndName, oneLine⟩ := isDivision_iff.mp division
  exact oneLine (undivided _ gap _ same isTypeAndName)

theorem readDeclared_of_named {type gap name : Text}
    (isTrimmed : Text.IsTrimmed (type ++ (gap ++ name)))
    (isTypeAndName : IsTypeAndName type gap name) (oneLine : '\n' ∉ type) :
    readDeclared (type ++ (gap ++ name)) =
      some ⟨String.ofList name, String.ofList (Text.collapseBlanks type)⟩ := by
  have typeTrimmed : Text.IsTrimmed type :=
    ⟨isTrimmed.start.of_isPrefix (List.prefix_append _ _), isTypeAndName.type_ends⟩
  have division := isDivision_iff.mpr ⟨isTypeAndName, oneLine⟩
  rw [readDeclared, division.typeAndName?_eq]
  dsimp only
  rw [typeTrimmed.trim_eq]

theorem readDeclared_of_unnamed {declared : Text} (solid : declared ≠ [])
    (undivided : ∀ type gap name, declared = type ++ (gap ++ name) →
      IsTypeAndName type gap name → '\n' ∈ type) :
    readDeclared declared = some ⟨"", String.ofList declared⟩ := by
  rw [readDeclared, typeAndName?_eq_none undivided]
  exact if_neg fun empty => solid (List.isEmpty_iff.mp empty)

/-- A trimmed text is read in the one way in which it may be. -/
theorem readDeclared_eq_iff {declared : Text} (isTrimmed : Text.IsTrimmed declared)
    {read : Option Parameter} : readDeclared declared = read ↔ ReadsAs declared read := by
  constructor
  · rintro rfl
    by_cases empty : declared = []
    · rw [empty]
      exact .nothing rfl
    · by_cases divided : ∃ type gap name, declared = type ++ (gap ++ name) ∧
          IsTypeAndName type gap name ∧ '\n' ∉ type
      · obtain ⟨type, gap, name, rfl, isTypeAndName, oneLine⟩ := divided
        rw [readDeclared_of_named isTrimmed isTypeAndName oneLine]
        exact .named rfl isTypeAndName oneLine (Text.isCollapse_collapseBlanks type)
      · have undivided : ∀ type gap name, declared = type ++ (gap ++ name) →
            IsTypeAndName type gap name → '\n' ∈ type := fun type gap name same isTypeAndName =>
          by_contra fun oneLine => divided ⟨type, gap, name, same, isTypeAndName, oneLine⟩
        rw [readDeclared_of_unnamed empty undivided]
        exact .unnamed empty undivided
  · intro readsAs
    cases readsAs with
    | nothing empty =>
      rw [empty]
      rfl
    | named same isTypeAndName oneLine isCollapse =>
      subst same
      rw [readDeclared_of_named isTrimmed isTypeAndName oneLine,
        Text.collapseBlanks_eq_iff.mpr isCollapse]
    | unnamed solid undivided => exact readDeclared_of_unnamed solid undivided

/-- A parameter is read from what is declared in a text, and from every text in one way. -/
theorem parseParameter_eq_iff (raw : Text) (read : Option Parameter) :
    parseParameter raw = read ↔ ∃ declared, Declares raw declared ∧ ReadsAs declared read := by
  rw [parseParameter_eq_readDeclared]
  constructor
  · intro found
    have declares := trim_beforeDefault_eq_iff.mp (rfl : Text.trim (beforeDefault raw) = _)
    exact ⟨_, declares, (readDeclared_eq_iff (Text.isTrimmed_trim _)).mp found⟩
  · rintro ⟨declared, declares, readsAs⟩
    obtain rfl := trim_beforeDefault_eq_iff.mpr declares
    exact (readDeclared_eq_iff (Text.isTrimmed_trim _)).mpr readsAs

/-- An equality sign with a line feed behind its value is no default value, and the one behind it
is. -/
example : parseParameter "int\t Limit = A\n = 5".toList = some ⟨"A", "int Limit ="⟩ := by decide

end EngineDocs.Header
