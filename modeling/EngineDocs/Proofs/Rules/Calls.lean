/-
This file shows that the dependency lists of a rules file are read exactly. The calls that add to the
lists are given as data with all the blanks that may stand in them, so every value of these types is
a sequence of calls as it can be written, and the names that it adds are known. A search for the calls
of one kind finds a call of its kind and passes over a call of another kind, and what it finds in a
sequence follows from that call by call.
-/

import EngineDocs.Proofs.Rules.Collecting

namespace EngineDocs.Rules

open Recognizer

/-! ### Calls as they are written -/

/-- Any number of blanks. -/
structure Blanks where
  text : Text := []
  isBlank : ∀ c ∈ text, Text.isBlank c = true := by decide

/-- A name that can stand in a call: it ends neither its literal nor the initializer, and it does not
open a call. -/
structure AddedName where
  text : Text
  ne_nil : text ≠ [] := by decide
  unquoted : '"' ∉ text := by decide
  unclosed : '}' ∉ text := by decide
  unopened : '(' ∉ text := by decide

/-- A name in quotes, with the blanks around it. -/
structure Entry where
  front : Blanks := {}
  name : AddedName
  back : Blanks := {}

/-- The characters of an entry. -/
def Entry.text (entry : Entry) : Text :=
  entry.front.text ++ ('"' :: (entry.name.text ++ '"' :: entry.back.text))

/-- A list of names as an argument. -/
structure NameArray where
  beforeNew : Blanks := {}
  beforeType : Blanks := { text := [' '] }
  beforeType_ne_nil : beforeType.text ≠ [] := by decide
  beforeBrace : Blanks := {}
  front : Blanks := {}
  entries : List Entry
  /-- The comma behind the last entry is followed by these blanks. -/
  trailing : Option Blanks := none
  behindBrace : Blanks := {}

namespace NameArray

/-- The comma behind the last entry. -/
def trailingText (array : NameArray) : Text :=
  match array.trailing with
  | none => []
  | some blanks => ',' :: blanks.text

/-- The characters between the braces. -/
def initializer (array : NameArray) : Text :=
  array.front.text ++ (Text.joinWith [','] (array.entries.map Entry.text) ++ array.trailingText)

/-- The characters up to the opening brace. -/
def creation (array : NameArray) : Text :=
  array.beforeNew.text ++ ("new".toList ++ (array.beforeType.text ++
    ("string[]".toList ++ (array.beforeBrace.text ++ ['{']))))

end NameArray

/-- What a call adds. -/
inductive Argument where
  | single (entry : Entry)
  | array (names : NameArray)

namespace Argument

/-- The method that takes the argument. -/
def method : Argument → Text
  | single _ => "Add".toList
  | array _ => "AddRange".toList

/-- The characters between the parentheses. -/
def text : Argument → Text
  | single entry => entry.text
  | array names => names.creation ++ (names.initializer ++ '}' :: names.behindBrace.text)

/-- The names in the argument. -/
def names : Argument → List Text
  | single entry => [entry.name.text]
  | array names => names.entries.map fun entry => entry.name.text

end Argument

/-- A call that adds to the list of a kind. -/
structure Call where
  kind : DependencyKind
  beforeParenthesis : Blanks := {}
  argument : Argument

namespace Call

/-- The characters behind the field and the point. -/
def methodText (call : Call) : Text :=
  call.argument.method ++ (call.beforeParenthesis.text ++ ('(' :: (call.argument.text ++ [')'])))

/-- The characters of a call. -/
def text (call : Call) : Text := call.kind.rulesField.toList ++ '.' :: call.methodText

/-- The names that a call adds to the list of a kind. -/
def names (call : Call) (kind : DependencyKind) : List Text :=
  if call.kind = kind then call.argument.names else []

end Call

/-- What stands before, between and behind calls. -/
structure Separator where
  text : Text := [';', '\n']
  isSeparator : ∀ c ∈ text, c = ';' ∨ Text.isBlank c = true := by decide

/-- The characters of a sequence of calls, each with the separator behind it. -/
def callsText (front : Separator) (calls : List (Call × Separator)) : Text :=
  front.text ++ calls.flatMap fun (call, separator) => call.text ++ separator.text

/-! ### What is passed over -/

theorem Blanks.unquoted (blanks : Blanks) : '"' ∉ blanks.text :=
  Text.not_mem_of_isBlank blanks.isBlank rfl

theorem Blanks.unclosed (blanks : Blanks) : '}' ∉ blanks.text :=
  Text.not_mem_of_isBlank blanks.isBlank rfl

theorem Entry.unclosed (entry : Entry) : '}' ∉ entry.text := by
  simp only [Entry.text, List.mem_append, List.mem_cons, not_or]
  exact ⟨entry.front.unclosed, by decide, entry.name.unclosed, by decide, entry.back.unclosed⟩

theorem NameArray.unclosed (array : NameArray) : '}' ∉ array.initializer := by
  have entries : '}' ∉ Text.joinWith [','] (array.entries.map Entry.text) := by
    intro member
    rcases Text.mem_joinWith member with comma | ⟨_, listed, inside⟩
    · exact absurd comma (by decide)
    · obtain ⟨entry, _, rfl⟩ := List.mem_map.mp listed
      exact entry.unclosed inside
  have trailing : '}' ∉ array.trailingText := by
    unfold NameArray.trailingText
    split
    · exact List.not_mem_nil
    · rename_i blanks _
      exact List.not_mem_cons_of_ne_of_not_mem (by decide) blanks.unclosed
  simp only [NameArray.initializer, List.mem_append, not_or]
  exact ⟨array.front.unclosed, entries, trailing⟩

section Passing

variable (kind : DependencyKind)

theorem Blanks.passes (blanks : Blanks) : (Statement.recognizer kind).Passes blanks.text :=
  Statement.passes_blanks kind blanks.isBlank

theorem Separator.passes (separator : Separator) :
    (Statement.recognizer kind).Passes separator.text := by
  refine Statement.passes_of_forall kind fun c member => ?_
  rcases separator.isSeparator c member with rfl | blank
  · rfl
  · exact Statement.isInitial_eq_false_of_isBlank blank

/-- The fixed parts of calls. -/
def fixedParts : List Text :=
  ["Add".toList, "AddRange".toList, "new".toList, "string[]".toList, ['('], [')'], ['{'], ['}'],
   ['"'], [',']]

theorem passes_fixed {part : Text} (fixed : part ∈ fixedParts) :
    (Statement.recognizer kind).Passes part := by
  have inside : ∀ part ∈ fixedParts, ∀ c ∈ part, Statement.isInitial c = false := by
    decide
  exact Statement.passes_of_forall kind (inside part fixed)

theorem Entry.passes (entry : Entry) : (Statement.recognizer kind).Passes entry.text := by
  have quote := @passes_fixed kind ['"'] (by decide)
  have named := Statement.passes_quoted kind entry.name.unopened
  rw [Entry.text, List.append_cons entry.name.text]
  exact (entry.front.passes kind).append (quote.append (named.append (entry.back.passes kind)))

theorem NameArray.passes_initializer (array : NameArray) :
    (Statement.recognizer kind).Passes array.initializer := by
  have comma := @passes_fixed kind [','] (by decide)
  have entries : ∀ part ∈ array.entries.map Entry.text, (Statement.recognizer kind).Passes part := by
    rintro _ member
    obtain ⟨entry, _, rfl⟩ := List.mem_map.mp member
    exact entry.passes kind
  have trailing : (Statement.recognizer kind).Passes array.trailingText := by
    unfold NameArray.trailingText
    split
    · exact passes_nil
    · rename_i blanks _
      exact comma.append (blanks.passes kind)
  exact (array.front.passes kind).append ((passes_joinWith comma entries).append trailing)

theorem NameArray.passes_creation (array : NameArray) :
    (Statement.recognizer kind).Passes array.creation :=
  (array.beforeNew.passes kind).append ((passes_fixed kind (by decide)).append
    ((array.beforeType.passes kind).append ((passes_fixed kind (by decide)).append
      ((array.beforeBrace.passes kind).append (passes_fixed kind (by decide))))))

theorem Argument.passes_method (argument : Argument) :
    (Statement.recognizer kind).Passes argument.method := by
  cases argument
  · exact passes_fixed kind List.mem_cons_self
  · exact passes_fixed kind (List.mem_cons_of_mem _ List.mem_cons_self)

theorem Argument.passes_text (argument : Argument) :
    (Statement.recognizer kind).Passes argument.text := by
  cases argument with
  | single entry => exact entry.passes kind
  | array names =>
    have closing := @passes_fixed kind ['}'] (by decide)
    exact (names.passes_creation kind).append ((names.passes_initializer kind).append
      (closing.append (names.behindBrace.passes kind)))

theorem Call.passes_methodText (call : Call) :
    (Statement.recognizer kind).Passes call.methodText := by
  have opening := @passes_fixed kind ['('] (by decide)
  have closing := @passes_fixed kind [')'] (by decide)
  exact (call.argument.passes_method kind).append ((call.beforeParenthesis.passes kind).append
    (opening.append ((call.argument.passes_text kind).append closing)))

/-- A call of another kind is passed over. -/
theorem Call.passes_of_ne (call : Call) (apart : kind ≠ call.kind) :
    (Statement.recognizer kind).Passes call.text := by
  have field := @Statement.passes_field kind _ _ List.suffix_rfl fun same => absurd same apart
  rw [Call.text, List.append_cons]
  exact field.append (call.passes_methodText kind)

end Passing

/-! ### What is found -/

theorem Entry.items_append (entry : Entry) (rest : Text) :
    literals.items (entry.text ++ rest) = entry.name.text :: literals.items rest := by
  have front := literals_passes entry.front.unquoted
  have back := literals_passes entry.back.unquoted
  have found := items_literal entry.name.ne_nil entry.name.unquoted (entry.back.text ++ rest)
  rw [Entry.text, List.append_assoc, front, List.cons_append, List.append_assoc, List.cons_append,
    found, back]

/-- The literals in an initializer are its names. -/
theorem NameArray.items_initializer (array : NameArray) :
    literals.items array.initializer = array.entries.map fun entry => entry.name.text := by
  have comma : literals.Passes [','] := literals_passes (by decide)
  have each : ∀ (entries : List Entry) (rest : Text),
      literals.items (entries.flatMap (fun entry => ',' :: entry.text) ++ rest) =
        entries.map (fun entry => entry.name.text) ++ literals.items rest := by
    intro entries rest
    induction entries with
    | nil => rfl
    | cons entry entries inductionHypothesis =>
      have found := entry.items_append
        (entries.flatMap (fun entry => ',' :: entry.text) ++ rest)
      rw [List.flatMap_cons, List.append_assoc, List.cons_append, List.map_cons]
      exact (comma _).trans (found.trans (congrArg _ inductionHypothesis))
  have trailing : literals.items array.trailingText = [] := by
    unfold NameArray.trailingText
    split
    · rfl
    · rename_i blanks _
      have passes := literals_passes blanks.unquoted
      rw [← List.append_nil (',' :: blanks.text)]
      exact (comma _).trans (passes [])
  rw [NameArray.initializer, literals_passes array.front.unquoted]
  cases array.entries with
  | nil => exact trailing
  | cons entry entries =>
    rw [List.map_cons, Text.joinWith_cons, List.append_assoc, entry.items_append, List.flatMap_map]
    exact congrArg _ ((each entries _).trans (by rw [trailing, List.append_nil]))

namespace Call

variable {kind : DependencyKind} (before : Blanks)

theorem addedNames_single (entry : Entry) (rest : Text) :
    addedNames ((Call.mk kind before (.single entry)).text ++ rest) kind =
      String.ofList entry.name.text :: addedNames rest kind := by
  have isOpening : IsShape (Statement.singleOpening kind.rulesField)
      (kind.rulesField.toList ++ (".Add".toList ++ (before.text ++
        ("(".toList ++ (entry.front.text ++ "\"".toList))))) :=
    .literal (.literal (.blanks before.isBlank (.literal (.blanks entry.front.isBlank
      (.literal .nil)))))
  have isClosing : IsShape Statement.singleClosing
      ("\"".toList ++ (entry.back.text ++ ")".toList)) :=
    .literal (.blanks entry.back.isBlank (.literal .nil))
  rw [← Rules.addedNames_single isOpening entry.name.ne_nil entry.name.unquoted isClosing rest]
  have add : ".Add".toList = '.' :: "Add".toList := by decide
  show addedNames (kind.rulesField.toList ++ '.' :: ("Add".toList ++ (before.text ++ '(' ::
    (entry.front.text ++ '"' :: (entry.name.text ++ '"' :: entry.back.text) ++ [')']))) ++ rest)
      kind = _
  rw [add]
  generalize "Add".toList = method
  simp only [List.append_assoc, List.cons_append]
  rfl

section

variable (array : NameArray) (rest : Text)

theorem isShape_array : IsShape (Statement.rangeOpening kind.rulesField)
    (kind.rulesField.toList ++ (".AddRange".toList ++ (before.text ++ ("(".toList ++
      array.creation)))) :=
  .literal (.literal (.blanks before.isBlank (.literal (.blanks array.beforeNew.isBlank
    (.literal (.someBlanks array.beforeType_ne_nil array.beforeType.isBlank
      (.literal (.blanks array.beforeBrace.isBlank (.literal .nil)))))))))

theorem text_array_append : (Call.mk kind before (.array array)).text ++ rest =
    kind.rulesField.toList ++ (".AddRange".toList ++ (before.text ++ ("(".toList ++
      array.creation))) ++ (array.initializer ++ '}' :: (array.behindBrace.text ++ [')'] ++ rest)) := by
  have addRange : ".AddRange".toList = '.' :: "AddRange".toList := by decide
  show kind.rulesField.toList ++ '.' :: ("AddRange".toList ++ (before.text ++ '(' ::
    (array.creation ++ (array.initializer ++ '}' :: array.behindBrace.text) ++ [')']))) ++
      rest = _
  rw [addRange]
  generalize "AddRange".toList = method
  simp only [List.append_assoc, List.cons_append]
  rfl

/-- A list without characters between its braces is not read, and nothing else in its call is. -/
theorem passes_of_empty (empty : array.initializer = []) :
    (Statement.recognizer kind).Passes (Call.mk kind before (.array array)).text := by
  intro rest
  have missing : (Statement.recognizer kind).read?
      ((Call.mk kind before (.array array)).text ++ rest) = none := by
    rw [text_array_append, empty]
    exact Statement.recognizer_read?_of_empty (isShape_array before array) _
  obtain ⟨c, tail, field⟩ : ∃ c tail, kind.rulesField.toList = c :: tail := by
    cases kind <;> exact ⟨_, _, rfl⟩
  have shorter : tail ≠ kind.rulesField.toList := by
    rw [field]
    exact List.ne_cons_self
  have suffix : tail <:+ kind.rulesField.toList := field ▸ List.suffix_cons c tail
  have behind := (Statement.passes_field suffix fun _ => shorter).append
    ((Call.mk kind before (.array array)).passes_methodText kind)
  rw [List.append_assoc, List.singleton_append] at behind
  rw [Call.text, field] at missing ⊢
  exact (items_cons rfl missing).trans (behind rest)

theorem addedNames_array :
    addedNames ((Call.mk kind before (.array array)).text ++ rest) kind =
      (array.entries.map fun entry => String.ofList entry.name.text) ++ addedNames rest kind := by
  have names : (literals.items array.initializer).map String.ofList =
      array.entries.map fun entry => String.ofList entry.name.text := by
    rw [array.items_initializer, List.map_map]
    rfl
  rw [← names]
  by_cases empty : array.initializer = []
  · rw [addedNames_append_of_passes (passes_of_empty before array empty), empty]
    rfl
  · have closing := @passes_fixed kind [')'] (by decide)
    rw [text_array_append, addedNames_range (isShape_array before array) empty array.unclosed,
      addedNames_append_of_passes ((array.behindBrace.passes kind).append closing)]

end

/-- A call adds its names to the list of its kind and nothing to another list. -/
theorem addedNames_append (call : Call) (kind : DependencyKind) (rest : Text) :
    addedNames (call.text ++ rest) kind =
      (call.names kind).map String.ofList ++ addedNames rest kind := by
  unfold names
  split
  · rename_i own
    obtain ⟨_, before, argument⟩ := call
    subst own
    cases argument with
    | single entry => exact addedNames_single before entry rest
    | array array =>
      rw [addedNames_array, Argument.names, List.map_map]
      rfl
  · rename_i apart
    exact addedNames_append_of_passes (call.passes_of_ne kind (Ne.symm apart)) rest

end Call

/-- What a sequence of calls adds to the list of a kind, in the order of the calls. -/
theorem addedNames_callsText (front : Separator) (calls : List (Call × Separator))
    (kind : DependencyKind) :
    addedNames (callsText front calls) kind =
      (calls.flatMap fun (call, _) => call.names kind).map String.ofList := by
  rw [callsText, addedNames_append_of_passes (front.passes kind)]
  induction calls with
  | nil => rfl
  | cons first calls inductionHypothesis =>
    obtain ⟨call, separator⟩ := first
    rw [List.flatMap_cons, List.append_assoc, call.addedNames_append,
      addedNames_append_of_passes (separator.passes kind), inductionHypothesis, List.flatMap_cons,
      List.map_append]

/-- From a sequence of calls each list gets the names that the calls give to it, in their order and
without those that it has already. -/
theorem get_parse_callsText (front : Separator) (calls : List (Call × Separator))
    (kind : DependencyKind) :
    (parse (String.ofList (callsText front calls))).get kind =
      ((calls.flatMap fun (call, _) => call.names kind).map String.ofList).eraseDups := by
  rw [get_parse, String.toList_ofList, addedNames_callsText]

example : (Call.mk .dynamic { text := [' '] } (.array
      { front := { text := ['\n'] }
        entries := [{ name := { text := "Slate".toList } }, { name := { text := "Json".toList } }]
        trailing := some { text := ['\n'] } })).text =
    "DynamicallyLoadedModuleNames.AddRange (new string[]\x7b\n\"Slate\",\"Json\",\n\x7d)".toList := by
  decide

end EngineDocs.Rules
