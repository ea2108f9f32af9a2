/-
This file says exactly which texts are read as statements of a rules file. A shape is read where the
text begins with one, because in the shapes that are used a run of blanks is always followed by a
character that is not blank, so nothing depends on how far the run is read. A statement begins with
the field of its kind, and up to its parenthesis it consists of words, points and blanks. From this
it follows which parts of a rules file the search for statements passes over.
-/

import EngineDocs.Proofs.Search
import EngineDocs.Rules

namespace EngineDocs.Rules

open Recognizer

/-! ### Shapes -/

/-- The texts of a shape. -/
def IsShape : List Part → Text → Prop
  | [], shape => shape = []
  | .literal literal :: parts, shape =>
    ∃ rest, shape = literal.toList ++ rest ∧ IsShape parts rest
  | .blanks :: parts, shape =>
    ∃ blanks rest, shape = blanks ++ rest ∧ (∀ c ∈ blanks, Text.isBlank c = true) ∧
      IsShape parts rest
  | .someBlanks :: parts, shape =>
    ∃ blanks rest, shape = blanks ++ rest ∧ blanks ≠ [] ∧
      (∀ c ∈ blanks, Text.isBlank c = true) ∧ IsShape parts rest

namespace IsShape

variable {parts : List Part} {rest : Text}

theorem nil : IsShape [] [] := rfl

theorem literal {literal : String} (isShape : IsShape parts rest) :
    IsShape (.literal literal :: parts) (literal.toList ++ rest) :=
  ⟨rest, rfl, isShape⟩

theorem blanks {blanks : Text} (blank : ∀ c ∈ blanks, Text.isBlank c = true)
    (isShape : IsShape parts rest) : IsShape (.blanks :: parts) (blanks ++ rest) :=
  ⟨blanks, rest, rfl, blank, isShape⟩

theorem someBlanks {blanks : Text} (some : blanks ≠ [])
    (blank : ∀ c ∈ blanks, Text.isBlank c = true) (isShape : IsShape parts rest) :
    IsShape (.someBlanks :: parts) (blanks ++ rest) :=
  ⟨blanks, rest, rfl, some, blank, isShape⟩

end IsShape

/-- The shape begins with a character that is not blank. -/
def beginsSolid : List Part → Bool
  | .literal literal :: _ => literal.toList.head?.any fun c => !Text.isBlank c
  | _ => false

/-- Behind blanks the shape goes on with a character that is not blank. -/
def isClear : List Part → Bool
  | [] => true
  | .literal _ :: parts => isClear parts
  | _ :: parts => beginsSolid parts && isClear parts

theorem ends_of_beginsSolid {parts : List Part} (solid : beginsSolid parts = true) {shape : Text}
    (isShape : IsShape parts shape) (rest : Text) : Text.Ends Text.isBlank (shape ++ rest) := by
  unfold beginsSolid at solid
  split at solid
  · rename_i literal parts
    obtain ⟨more, rfl, _⟩ := isShape
    cases first : literal.toList with
    | nil =>
      rw [first] at solid
      exact nomatch solid
    | cons c text =>
      rw [first, List.head?_cons, Option.any_some, Bool.not_eq_true'] at solid
      exact Text.ends_cons.mpr solid
  · exact nomatch solid

theorem IsShape.of_readShape? {parts : List Part} {text shape rest : Text}
    (read : readShape? parts text = some (shape, rest)) :
    text = shape ++ rest ∧ IsShape parts shape := by
  induction parts generalizing text shape with
  | nil =>
    obtain ⟨rfl, rfl⟩ := Prod.mk.inj (Option.some.inj read)
    exact ⟨rfl, rfl⟩
  | cons part parts inductionHypothesis =>
    have blank : ∀ c ∈ Text.leadingBlanks text, Text.isBlank c = true := fun c =>
      Text.isBlank_of_mem_leadingBlanks
    have behindBlanks : ∀ {more}, readShape? parts (Text.skipBlanks text) = some (more, rest) →
        text = Text.leadingBlanks text ++ more ++ rest ∧ IsShape parts more := by
      intro more later
      obtain ⟨divided, isShape⟩ := inductionHypothesis later
      refine ⟨?_, isShape⟩
      rw [List.append_assoc, ← divided, Text.leadingBlanks_append_skipBlanks]
    cases part with
    | literal literal =>
      obtain ⟨behind, begun, read⟩ := Option.bind_eq_some_iff.mp read
      obtain ⟨⟨more, left⟩, later, same⟩ := Option.map_eq_some_iff.mp read
      obtain ⟨rfl, rfl⟩ := Prod.mk.inj same
      obtain ⟨rfl, isShape⟩ := inductionHypothesis later
      refine ⟨?_, .literal isShape⟩
      rw [Text.after?_eq_some_iff.mp begun, List.append_assoc]
    | blanks =>
      obtain ⟨⟨more, left⟩, later, same⟩ := Option.map_eq_some_iff.mp read
      obtain ⟨rfl, rfl⟩ := Prod.mk.inj same
      obtain ⟨divided, isShape⟩ := behindBlanks later
      exact ⟨divided, .blanks blank isShape⟩
    | someBlanks =>
      rw [readShape?] at read
      by_cases empty : (Text.leadingBlanks text).isEmpty = true
      · rw [if_pos empty] at read
        exact nomatch read
      · rw [if_neg empty] at read
        obtain ⟨⟨more, left⟩, later, same⟩ := Option.map_eq_some_iff.mp read
        obtain ⟨rfl, rfl⟩ := Prod.mk.inj same
        obtain ⟨divided, isShape⟩ := behindBlanks later
        exact ⟨divided, .someBlanks (mt List.isEmpty_iff.mpr empty) blank isShape⟩

theorem IsShape.readShape?_append {parts : List Part} (clear : isClear parts = true) {shape : Text}
    (isShape : IsShape parts shape) (rest : Text) :
    readShape? parts (shape ++ rest) = some (shape, rest) := by
  induction parts generalizing shape with
  | nil =>
    rw [isShape]
    rfl
  | cons part parts inductionHypothesis =>
    have divided : ∀ {blanks more : Text}, (∀ c ∈ blanks, Text.isBlank c = true) →
        beginsSolid parts = true → IsShape parts more →
        Text.leadingBlanks (blanks ++ (more ++ rest)) = blanks ∧
          Text.skipBlanks (blanks ++ (more ++ rest)) = more ++ rest := by
      intro blanks more blank solid isShape
      have stop := ends_of_beginsSolid solid isShape rest
      exact ⟨Text.takeWhile_append_of_ends blank stop, Text.dropWhile_append_of_ends blank stop⟩
    cases part with
    | literal literal =>
      obtain ⟨more, rfl, isShape⟩ := isShape
      have begun : Text.after? literal.toList (literal.toList ++ more ++ rest) =
          some (more ++ rest) := Text.after?_eq_some_iff.mpr (List.append_assoc _ _ _)
      rw [readShape?, begun, Option.bind_some, inductionHypothesis clear isShape]
      rfl
    | blanks =>
      obtain ⟨blanks, more, rfl, blank, isShape⟩ := isShape
      obtain ⟨solid, clear⟩ := Bool.and_eq_true_iff.mp clear
      obtain ⟨leading, behind⟩ := divided blank solid isShape
      rw [readShape?, List.append_assoc, leading, behind, inductionHypothesis clear isShape]
      rfl
    | someBlanks =>
      obtain ⟨blanks, more, rfl, some, blank, isShape⟩ := isShape
      obtain ⟨solid, clear⟩ := Bool.and_eq_true_iff.mp clear
      obtain ⟨leading, behind⟩ := divided blank solid isShape
      rw [readShape?, List.append_assoc, leading, behind, if_neg (mt List.isEmpty_iff.mp some),
        inductionHypothesis clear isShape]
      rfl

/-- A clear shape is read exactly where the text begins with one. -/
theorem readShape?_eq_some_iff {parts : List Part} (clear : isClear parts = true)
    {text shape rest : Text} :
    readShape? parts text = some (shape, rest) ↔ text = shape ++ rest ∧ IsShape parts shape := by
  constructor
  · exact IsShape.of_readShape?
  · rintro ⟨rfl, isShape⟩
    exact isShape.readShape?_append clear rest

namespace Statement

/-! ### Statements -/

/-- What stands before an initializer. -/
def rangeOpening (field : String) : List Part :=
  [.literal field, .literal ".AddRange", .blanks, .literal "(", .blanks, .literal "new",
    .someBlanks, .literal "string[]", .blanks, .literal "\x7b"]

/-- What stands before a single name. -/
def singleOpening (field : String) : List Part :=
  [.literal field, .literal ".Add", .blanks, .literal "(", .blanks, .literal "\""]

/-- What stands behind a single name. -/
def singleClosing : List Part := [.literal "\"", .blanks, .literal ")"]

/-- A call with an initializer is read exactly where the text begins with one that has characters
and a closing brace. -/
theorem readRange?_eq_some_iff {field : String} {text : Text} {statement : Statement} :
    readRange? field text = some statement ↔
      ∃ opening initializer rest, text = opening ++ (initializer ++ '}' :: rest) ∧
        IsShape (rangeOpening field) opening ∧ initializer ≠ [] ∧ '}' ∉ initializer ∧
        statement = ⟨opening, .range initializer, ['}']⟩ := by
  constructor
  · intro read
    obtain ⟨⟨opening, behind⟩, begun, added⟩ := Option.bind_eq_some_iff.mp read
    obtain ⟨rfl, isShape⟩ := IsShape.of_readShape? begun
    dsimp only at added
    split at added
    · rename_i rest solid closed
      rw [Text.drop_length_takeWhile] at closed
      refine ⟨opening, behind.takeWhile (· != '}'), rest, ?_, isShape, ?_, ?_,
        (Option.some.inj added).symm⟩
      · rw [← closed, List.takeWhile_append_dropWhile]
      · rw [solid]
        exact List.cons_ne_nil _ _
      · exact Text.not_mem_takeWhile '}' behind
    · exact nomatch added
  · rintro ⟨opening, initializer, rest, rfl, isShape, solid, unclosed, rfl⟩
    have begun : readShape? (rangeOpening field) (opening ++ (initializer ++ '}' :: rest)) =
        some (opening, initializer ++ '}' :: rest) := isShape.readShape?_append rfl _
    show (readShape? (rangeOpening field) _).bind _ = _
    rw [begun, Option.bind_some]
    simp only [Text.takeWhile_append_mark unclosed, List.drop_left]
    cases initializer with
    | nil => exact absurd rfl solid
    | cons c initializer => rfl

/-- A call with one name is read exactly where the text begins with one. -/
theorem readSingle?_eq_some_iff {field : String} {text : Text} {statement : Statement} :
    readSingle? field text = some statement ↔
      ∃ opening name closing rest, text = opening ++ (name ++ (closing ++ rest)) ∧
        IsShape (singleOpening field) opening ∧ name ≠ [] ∧ '"' ∉ name ∧
        IsShape singleClosing closing ∧ statement = ⟨opening, .single name, closing⟩ := by
  constructor
  · intro read
    obtain ⟨⟨opening, behind⟩, begun, added⟩ := Option.bind_eq_some_iff.mp read
    obtain ⟨rfl, isShape⟩ := IsShape.of_readShape? begun
    dsimp only at added
    split at added
    · exact nomatch added
    · rename_i solid
      obtain ⟨⟨closing, rest⟩, closed, same⟩ := Option.bind_eq_some_iff.mp added
      obtain ⟨left, isClosing⟩ := IsShape.of_readShape? closed
      rw [Text.drop_length_takeWhile] at left
      refine ⟨opening, behind.takeWhile (· != '"'), closing, rest, ?_, isShape, solid, ?_,
        isClosing, (Option.some.inj same).symm⟩
      · rw [← left, List.takeWhile_append_dropWhile]
      · exact Text.not_mem_takeWhile '"' behind
  · rintro ⟨opening, name, closing, rest, rfl, isShape, solid, unquoted, isClosing, rfl⟩
    have begun : readShape? (singleOpening field) (opening ++ (name ++ (closing ++ rest))) =
        some (opening, name ++ (closing ++ rest)) := isShape.readShape?_append rfl _
    have closed : readShape? singleClosing (closing ++ rest) = some (closing, rest) :=
      isClosing.readShape?_append rfl rest
    have upToQuote : (name ++ (closing ++ rest)).takeWhile (· != '"') = name := by
      obtain ⟨more, rfl, _⟩ := isClosing
      exact Text.takeWhile_append_mark unquoted _
    show (readShape? (singleOpening field) _).bind _ = _
    rw [begun, Option.bind_some]
    simp only [upToQuote, List.drop_left]
    show (readShape? singleClosing (closing ++ rest)).bind _ = _
    rw [closed, Option.bind_some]

/-! ### Searching for statements -/

theorem recognizer_read?_of_range {kind : DependencyKind} {opening initializer : Text}
    (isShape : IsShape (rangeOpening kind.rulesField) opening) (solid : initializer ≠ [])
    (unclosed : '}' ∉ initializer) (rest : Text) :
    (recognizer kind).read? (opening ++ (initializer ++ '}' :: rest)) =
      some ⟨opening, .range initializer, ['}']⟩ := by
  have read : readRange? kind.rulesField (opening ++ (initializer ++ '}' :: rest)) =
      some ⟨opening, .range initializer, ['}']⟩ :=
    readRange?_eq_some_iff.mpr ⟨_, _, rest, rfl, isShape, solid, unclosed, rfl⟩
  show (readRange? _ _).or _ = _
  rw [read, Option.some_or]

/-- What is read for a kind begins with its field, and a call follows up to its parenthesis. -/
theorem begins_of_read? {kind : DependencyKind} {text : Text} {statement : Statement}
    (read : (recognizer kind).read? text = some statement) :
    ∃ call ∈ [".AddRange".toList, ".Add".toList], ∃ blanks rest,
      (∀ c ∈ blanks, Text.isBlank c = true) ∧
        text = kind.rulesField.toList ++ (call ++ (blanks ++ '(' :: rest)) := by
  rcases Option.or_eq_some_iff.mp read with range | ⟨_, single⟩
  · obtain ⟨_, initializer, rest, rfl, ⟨_, rfl, _, rfl, blanks, _, rfl, blank, more, rfl, _⟩, _⟩ :=
      readRange?_eq_some_iff.mp range
    refine ⟨_, List.mem_cons_self, blanks, more ++ (initializer ++ '}' :: rest), blank, ?_⟩
    simp only [List.append_assoc]
    rfl
  · obtain ⟨_, name, closing, rest, rfl, ⟨_, rfl, _, rfl, blanks, _, rfl, blank, more, rfl, _⟩, _⟩ :=
      readSingle?_eq_some_iff.mp single
    refine ⟨_, List.mem_cons_of_mem _ List.mem_cons_self, blanks,
      more ++ (name ++ (closing ++ rest)), blank, ?_⟩
    simp only [List.append_assoc]
    rfl

/-- A call that adds one name is not one that adds a list. -/
theorem add_ne_addRange {field blanks rest more : Text}
    (blank : ∀ c ∈ blanks, Text.isBlank c = true) :
    field ++ (".Add".toList ++ (blanks ++ '(' :: rest)) ≠ field ++ (".AddRange".toList ++ more) := by
  intro same
  have call : ".AddRange".toList = ".Add".toList ++ "Range".toList := rfl
  rw [call, List.append_assoc] at same
  have behind := List.append_cancel_left (List.append_cancel_left same)
  cases blanks with
  | nil => exact absurd (List.cons.inj behind).1 (by decide)
  | cons c blanks =>
    have first := blank c List.mem_cons_self
    rw [(List.cons.inj behind).1] at first
    exact absurd first (by decide)

theorem readRange?_eq_none {field : String} {opening : Text}
    (isShape : IsShape (singleOpening field) opening) (rest : Text) :
    readRange? field (opening ++ rest) = none := by
  refine Option.eq_none_iff_forall_ne_some.mpr fun statement read => ?_
  obtain ⟨_, rfl, _, rfl, blanks, _, rfl, blank, more, rfl, _⟩ := isShape
  obtain ⟨_, _, _, same, ⟨_, rfl, _, rfl, _⟩, _⟩ := readRange?_eq_some_iff.mp read
  simp only [List.append_assoc] at same
  exact add_ne_addRange blank same

/-- An initializer without characters is not read. -/
theorem recognizer_read?_of_empty {kind : DependencyKind} {opening : Text}
    (isShape : IsShape (rangeOpening kind.rulesField) opening) (rest : Text) :
    (recognizer kind).read? (opening ++ '}' :: rest) = none := by
  have unread : readRange? kind.rulesField (opening ++ '}' :: rest) = none := by
    refine Option.eq_none_iff_forall_ne_some.mpr fun statement read => ?_
    obtain ⟨other, initializer, _, same, isOther, solid, unclosed, _⟩ :=
      readRange?_eq_some_iff.mp read
    have once := isShape.readShape?_append rfl ('}' :: rest)
    rw [same, isOther.readShape?_append rfl] at once
    have behind := (Prod.mk.inj (Option.some.inj once)).2
    cases initializer with
    | nil => exact solid rfl
    | cons c initializer =>
      rw [(List.cons.inj behind).1] at unclosed
      exact unclosed List.mem_cons_self
  show (readRange? _ _).or (readSingle? _ _) = _
  rw [unread, Option.none_or]
  refine Option.eq_none_iff_forall_ne_some.mpr fun statement read => ?_
  obtain ⟨_, rfl, _, rfl, _⟩ := isShape
  obtain ⟨_, _, _, _, same, ⟨_, rfl, _, rfl, blanks, _, rfl, blank, _, rfl, _⟩, _⟩ :=
    readSingle?_eq_some_iff.mp read
  simp only [List.append_assoc] at same
  exact add_ne_addRange blank same.symm

theorem recognizer_read?_of_single {kind : DependencyKind} {opening name closing : Text}
    (isShape : IsShape (singleOpening kind.rulesField) opening) (solid : name ≠ [])
    (unquoted : '"' ∉ name) (isClosing : IsShape singleClosing closing) (rest : Text) :
    (recognizer kind).read? (opening ++ (name ++ (closing ++ rest))) =
      some ⟨opening, .single name, closing⟩ := by
  have read : readSingle? kind.rulesField (opening ++ (name ++ (closing ++ rest))) =
      some ⟨opening, .single name, closing⟩ :=
    readSingle?_eq_some_iff.mpr ⟨_, _, _, rest, rfl, isShape, solid, unquoted, isClosing, rfl⟩
  show (readRange? _ _).or (readSingle? _ _) = _
  rw [readRange?_eq_none isShape, Option.none_or, read]

/-- Up to its parenthesis a statement consists of words, points and blanks. -/
theorem recognizer_markedBy (kind : DependencyKind) :
    (recognizer kind).MarkedBy (fun c => Text.isWord c || c == '.' || Text.isBlank c) '(' where
  stride _ := rfl
  begins read := by
    obtain ⟨call, listed, blanks, rest, blank, rfl⟩ := begins_of_read? read
    refine ⟨kind.rulesField.toList ++ (call ++ blanks), rest, ?_, ?_⟩
    · rw [List.append_assoc, List.append_assoc]
    · have letters : ∀ c ∈ kind.rulesField.toList,
          (Text.isWord c || c == '.' || Text.isBlank c) = true := by
        cases kind <;> decide
      have calls : ∀ call ∈ [".AddRange".toList, ".Add".toList], ∀ c ∈ call,
          (Text.isWord c || c == '.' || Text.isBlank c) = true := by
        decide
      refine List.forall_mem_append.mpr ⟨letters, List.forall_mem_append.mpr
        ⟨calls call listed, fun c member => ?_⟩⟩
      rw [blank c member, Bool.or_true]

/-- No field begins with any other character. -/
def isInitial (c : Char) : Bool := c == 'P' || c == 'D'

theorem passes_of_forall (kind : DependencyKind) {part : Text}
    (inside : ∀ c ∈ part, isInitial c = false) : (recognizer kind).Passes part := by
  refine passes_of_singletons fun c member rest => ?_
  refine items_cons rfl (Option.eq_none_iff_forall_ne_some.mpr fun statement read => ?_)
  obtain ⟨call, _, blanks, behind, _, same⟩ := begins_of_read? read
  have letter : (kind.rulesField.toList ++ (call ++ (blanks ++ '(' :: behind))).head?.any
      isInitial = true := by
    cases kind <;> rfl
  rw [← same] at letter
  exact Bool.false_ne_true ((inside c member).symm.trans letter)

theorem isInitial_eq_false_of_isBlank {c : Char} (blank : Text.isBlank c = true) :
    isInitial c = false := by
  rw [isInitial, Bool.or_eq_false_iff, beq_eq_false_iff_ne, beq_eq_false_iff_ne]
  constructor <;> rintro rfl <;> exact absurd blank (by decide)

theorem passes_blanks (kind : DependencyKind) {blanks : Text}
    (blank : ∀ c ∈ blanks, Text.isBlank c = true) : (recognizer kind).Passes blanks :=
  passes_of_forall kind fun c member => isInitial_eq_false_of_isBlank (blank c member)

/-- The content of a literal is passed over with its closing quote, unless it opens a call. -/
theorem passes_quoted (kind : DependencyKind) {content : Text} (unopened : '(' ∉ content) :
    (recognizer kind).Passes (content ++ ['"']) :=
  (recognizer_markedBy kind).passes unopened rfl (by decide)

/-- A field begins nowhere in a field but at its start. -/
theorem eq_of_prefix_of_suffix {kind other : DependencyKind} {part : Text}
    (suffix : part <:+ other.rulesField.toList) (begins : kind.rulesField.toList <+: part) :
    kind = other ∧ part = other.rulesField.toList := by
  have all : ∀ part ∈ other.rulesField.toList.tails, kind.rulesField.toList <+: part →
      kind = other ∧ part = other.rulesField.toList := by
    cases kind <;> cases other <;> decide
  exact all part ((List.mem_tails _ _).mpr suffix) begins

/-- The end of a field is passed over with the point behind it, unless it is the whole field of the
kind itself. -/
theorem passes_field {kind other : DependencyKind} {part : Text}
    (suffix : part <:+ other.rulesField.toList)
    (unlike : kind = other → part ≠ other.rulesField.toList) :
    (recognizer kind).Passes (part ++ ['.']) := by
  have undotted : '.' ∉ kind.rulesField.toList := by
    cases kind <;> decide
  have dot : isInitial '.' = false := rfl
  induction part with
  | nil => exact passes_of_forall kind (List.forall_mem_singleton.mpr dot)
  | cons c part inductionHypothesis =>
    intro rest
    have missing : (recognizer kind).read? (c :: part ++ ['.'] ++ rest) = none := by
      refine Option.eq_none_iff_forall_ne_some.mpr fun statement read => ?_
      obtain ⟨call, _, blanks, behind, _, same⟩ := begins_of_read? read
      rw [List.append_assoc, List.singleton_append] at same
      have begins := (Text.prefix_append_stop undotted).mp ⟨_, same.symm⟩
      obtain ⟨own, whole⟩ := eq_of_prefix_of_suffix suffix begins
      exact unlike own whole
    have shorter := suffix.length_le
    have later := inductionHypothesis ((List.suffix_cons c part).trans suffix) fun _ whole => by
      rw [← whole, List.length_cons] at shorter
      omega
    exact (items_cons rfl missing).trans (later rest)

end Statement

end EngineDocs.Rules
