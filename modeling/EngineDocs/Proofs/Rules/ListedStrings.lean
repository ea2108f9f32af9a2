/-
This file says what is read from a call that adds a list of strings, some of which may be empty. The
strings in front of the first empty one are added. The two quotes of the empty one are not taken for a
literal, so the second of them is taken for an opening quote, and from there on what is added is the
text between the strings. The same text is added to another list where one string ends like the start
of a call that adds a name to that list and the next string begins like the end of one. These are the
only ways in which a name comes to be added that is not in the list.
-/

import EngineDocs.Proofs.Rules.Collecting

namespace EngineDocs.Rules

open Recognizer

/-! ### Calls with a list of strings -/

/-- The characters that end a string or an initializer. -/
def reserved : Text := ['"', '{', '}']

/-- A list of strings without quotes and braces. -/
structure StringList where
  strings : List Text
  isPlain : ∀ string ∈ strings, ∀ c ∈ reserved, c ∉ string := by decide

/-- A string between quotes. -/
def quoted (string : Text) : Text := '"' :: (string ++ ['"'])

/-- A call that adds strings to the list of a kind. -/
def rangeText (kind : DependencyKind) (strings : List Text) : Text :=
  kind.rulesField.toList ++ (".AddRange(new string[] \x7b".toList ++ (' ' ::
    (Text.joinWith [',', ' '] (strings.map quoted) ++ " \x7d)".toList)))

/-- The strings with a comma and a space before each of them. -/
def listing (strings : List Text) : Text :=
  strings.flatMap fun string => [',', ' '] ++ quoted string

theorem listing_cons_append (string : Text) (strings : List Text) (rest : Text) :
    listing (string :: strings) ++ rest =
      [',', ' '] ++ '"' :: (string ++ '"' :: (listing strings ++ rest)) := by
  simp only [listing, List.flatMap_cons, quoted, List.append_assoc, List.cons_append,
    List.nil_append]

theorem listing_cons (string : Text) (strings : List Text) : listing (string :: strings) =
    [',', ' '] ++ Text.joinWith [',', ' '] ((string :: strings).map quoted) := by
  rw [List.map_cons, Text.joinWith_cons, List.flatMap_map, listing, List.flatMap_cons,
    List.append_assoc]

theorem not_mem_listing {strings : List Text} {c : Char} (foreign : c ∉ [',', ' ', '"'])
    (absent : ∀ string ∈ strings, c ∉ string) : c ∉ listing strings := by
  intro member
  obtain ⟨string, listed, inside⟩ := List.mem_flatMap.mp member
  rcases List.mem_append.mp inside with between | inside
  · exact foreign (List.mem_append_left ['"'] between)
  · rcases List.mem_cons.mp inside with rfl | inside
    · exact foreign (by decide)
    · rcases List.mem_append.mp inside with inside | quote
      · exact absent string listed inside
      · exact foreign (List.mem_append_right [',', ' '] quote)

theorem not_mem_joinWith_quoted {strings : List Text} {c : Char} (foreign : c ∉ [',', ' ', '"'])
    (absent : ∀ string ∈ strings, c ∉ string) :
    c ∉ Text.joinWith [',', ' '] (strings.map quoted) := by
  cases strings with
  | nil => exact List.not_mem_nil
  | cons string strings =>
    have listed := not_mem_listing foreign absent
    rw [listing_cons] at listed
    exact mt (List.mem_append_right _) listed

/-- A search that passes over commas and spaces finds the same whether or not they stand before the
first string. -/
theorem items_joinWith_quoted {α : Type} {recognizer : Recognizer α}
    (between : recognizer.Passes [',', ' ']) (strings : List Text) (rest : Text) :
    recognizer.items (Text.joinWith [',', ' '] (strings.map quoted) ++ rest) =
      recognizer.items (listing strings ++ rest) := by
  cases strings with
  | nil => rfl
  | cons string strings => rw [listing_cons, List.append_assoc, between]

/-! ### The literals of a list -/

/-- The strings in front of the first empty one. -/
def beforeEmpty (strings : List Text) : List Text := strings.takeWhile (!·.isEmpty)

/-- The strings behind the first empty one. -/
def behindEmpty (strings : List Text) : List Text := (strings.dropWhile (!·.isEmpty)).tail

theorem items_slipped {strings : List Text} (unquoted : ∀ string ∈ strings, '"' ∉ string) :
    literals.items ('"' :: (listing strings ++ [' '])) =
      List.replicate strings.length [',', ' '] := by
  induction strings with
  | nil => exact items_last_quote (by decide)
  | cons string strings inductionHypothesis =>
    obtain ⟨here, later⟩ := List.forall_mem_cons.mp unquoted
    have between := @items_literal [',', ' '] (by decide) (by decide)
      (string ++ '"' :: (listing strings ++ [' ']))
    rw [listing_cons_append, between, literals_passes here, inductionHypothesis later]
    rfl

/-- Up to the first empty string the literals are the strings, and behind it they are what stands
between the strings. -/
theorem items_listing {strings : List Text} (unquoted : ∀ string ∈ strings, '"' ∉ string) :
    literals.items (listing strings ++ [' ']) =
      beforeEmpty strings ++ List.replicate (behindEmpty strings).length [',', ' '] := by
  have between : literals.Passes [',', ' '] := literals_passes (by decide)
  induction strings with
  | nil => exact items_cons rfl rfl
  | cons string strings inductionHypothesis =>
    obtain ⟨here, later⟩ := List.forall_mem_cons.mp unquoted
    rw [listing_cons_append, between]
    cases string with
    | nil => exact (items_empty_literal _).trans (items_slipped later)
    | cons c string => rw [items_literal (List.cons_ne_nil _ _) here, inductionHypothesis later]; rfl

theorem isShape_rangeOpening (kind : DependencyKind) :
    IsShape (Statement.rangeOpening kind.rulesField)
      (kind.rulesField.toList ++ ".AddRange(new string[] \x7b".toList) := by
  have pieces : ".AddRange(new string[] \x7b".toList = ".AddRange".toList ++ ([] ++ ("(".toList ++
      ([] ++ ("new".toList ++ ([' '] ++ ("string[]".toList ++ ([' '] ++ "\x7b".toList))))))) := by
    decide
  have none : ∀ c ∈ ([] : Text), Text.isBlank c = true := by decide
  have one : ∀ c ∈ [' '], Text.isBlank c = true := by decide
  rw [pieces]
  exact .literal (.literal (.blanks none (.literal (.blanks none (.literal
    (.someBlanks (List.cons_ne_nil _ _) one (.literal (.blanks one (.literal .nil)))))))))

/-- What a call adds to its own list. -/
theorem addedNames_rangeText (kind : DependencyKind) (list : StringList) :
    addedNames (rangeText kind list.strings) kind =
      (beforeEmpty list.strings ++
        List.replicate (behindEmpty list.strings).length [',', ' ']).map String.ofList := by
  have unquoted : ∀ string ∈ list.strings, '"' ∉ string := fun string member =>
    list.isPlain string member '"' (by decide)
  have unclosed : '}' ∉ ' ' :: (Text.joinWith [',', ' '] (list.strings.map quoted) ++ [' ']) := by
    have strings := not_mem_joinWith_quoted (by decide) fun string member =>
      list.isPlain string member '}' (by decide)
    simp only [List.mem_cons, List.mem_append, not_or]
    exact ⟨by decide, strings, by decide, List.not_mem_nil⟩
  have added := addedNames_range (isShape_rangeOpening kind) (List.cons_ne_nil _ _) unclosed [')']
  have same : rangeText kind list.strings =
      kind.rulesField.toList ++ ".AddRange(new string[] \x7b".toList ++
        (' ' :: (Text.joinWith [',', ' '] (list.strings.map quoted) ++ [' ']) ++ '}' :: [')']) := by
    have closing : " \x7d)".toList = [' '] ++ '}' :: [')'] := by decide
    rw [rangeText, closing, ← List.append_assoc (Text.joinWith _ _), ← List.append_assoc]
    rfl
  have blank : literals.Passes [' '] := literals_passes (by decide)
  have between : literals.Passes [',', ' '] := literals_passes (by decide)
  have parenthesis : (Statement.recognizer kind).Passes [')'] :=
    Statement.passes_of_forall kind (by decide)
  have rest : addedNames [')'] kind = [] := addedNames_append_of_passes parenthesis []
  have found := (blank _).trans ((items_joinWith_quoted between _ _).trans (items_listing unquoted))
  rw [same, added, rest, List.append_nil, ← found]
  rfl

/-! ### Calls between two strings -/

/-- With a quote behind it the text is all that stands before the name in a call. -/
def IsCallStart (kind : DependencyKind) (text : Text) : Prop :=
  IsShape (Statement.singleOpening kind.rulesField) (text ++ ['"'])

/-- The string ends with all that stands before the quote in a call. -/
def EndsInCall (kind : DependencyKind) (string : Text) : Prop :=
  ∃ tail, tail <:+ string ∧ IsCallStart kind tail

/-- The string begins with what stands behind the quote in a call. -/
def ClosesCall (string : Text) : Prop := (Text.skipBlanks string).head? = some ')'

theorem closesCall_iff {string : Text} : ClosesCall string ↔
    ∃ blanks rest, (∀ c ∈ blanks, Text.isBlank c = true) ∧ string = blanks ++ ')' :: rest := by
  rw [ClosesCall, List.head?_eq_some_iff]
  constructor
  · rintro ⟨rest, behind⟩
    refine ⟨Text.leadingBlanks string, rest, fun c => Text.isBlank_of_mem_leadingBlanks, ?_⟩
    rw [← behind, Text.leadingBlanks_append_skipBlanks]
  · rintro ⟨blanks, rest, blank, rfl⟩
    exact ⟨rest, Text.dropWhile_append_of_ends blank (Text.ends_cons.mpr rfl)⟩

instance (kind : DependencyKind) (text : Text) : Decidable (IsCallStart kind text) :=
  decidable_of_iff (readShape? (Statement.singleOpening kind.rulesField) (text ++ ['"']) =
      some (text ++ ['"'], [])) <| by
    rw [readShape?_eq_some_iff rfl, List.append_nil]
    exact and_iff_right rfl

instance (kind : DependencyKind) (string : Text) : Decidable (EndsInCall kind string) :=
  decidable_of_iff (∃ tail ∈ string.tails, IsCallStart kind tail) <| by
    simp only [List.mem_tails, EndsInCall]

instance (string : Text) : Decidable (ClosesCall string) :=
  inferInstanceAs (Decidable (_ = _))

/-- The number of neighbours among a text and the strings behind it of which the first one ends with
the start of a call and the second one begins with its end. -/
def cutsBehind (kind : DependencyKind) (text : Text) : List Text → Nat
  | [] => 0
  | string :: strings =>
    (if EndsInCall kind text ∧ ClosesCall string then 1 else 0) + cutsBehind kind string strings

/-- The same among the strings of a list. -/
def cuts (kind : DependencyKind) : List Text → Nat
  | [] => 0
  | string :: strings => cutsBehind kind string strings

section Cuts

variable {kind : DependencyKind} {text : Text} {strings : List Text}

/-- The quote of a call is the first one in it, and its parenthesis is not closed before. -/
theorem exists_eq_append_quote {opening : Text}
    (isOpening : IsShape (Statement.singleOpening kind.rulesField) opening) :
    ∃ front, opening = front ++ ['"'] ∧ '"' ∉ front ∧ ')' ∉ front := by
  obtain ⟨_, rfl, _, rfl, before, _, rfl, blankBefore, _, rfl, behind, _, rfl, blankBehind,
    _, rfl, rfl⟩ := isOpening
  have absent : ∀ c ∈ ['"', ')'],
      c ∉ kind.rulesField.toList ++ (".Add".toList ++ (before ++ ("(".toList ++ behind))) := by
    intro c listed
    have fixed : ∀ c ∈ ['"', ')'], c ∉ kind.rulesField.toList ∧ c ∉ ".Add".toList ∧
        c ∉ "(".toList ∧ Text.isBlank c = false := by
      cases kind <;> decide
    obtain ⟨field, method, parenthesis, solid⟩ := fixed c listed
    simp only [List.mem_append, not_or]
    exact ⟨field, method, Text.not_mem_of_isBlank blankBefore solid, parenthesis,
      Text.not_mem_of_isBlank blankBehind solid⟩
  refine ⟨_, ?_, absent '"' (by decide), absent ')' (by decide)⟩
  simp only [List.append_assoc]
  rfl

/-- What is read between the quotes of a string goes on into the next one. -/
theorem cuts_of_read? {statement : Statement} (plain : ∀ c ∈ reserved, c ∉ text)
    (plains : ∀ string ∈ strings, ∀ c ∈ reserved, c ∉ string)
    (read : (Statement.recognizer kind).read?
      (text ++ '"' :: (listing strings ++ " \x7d)".toList)) = some statement) :
    IsCallStart kind text ∧ ∃ string ∈ strings.head?, ClosesCall string := by
  rcases Option.or_eq_some_iff.mp read with range | ⟨_, single⟩
  · -- There is no brace that could open an initializer.
    obtain ⟨opening, _, _, same, isOpening, _⟩ := Statement.readRange?_eq_some_iff.mp range
    have brace : '{' ∈ opening := by
      obtain ⟨_, rfl, _, rfl, _, _, rfl, _, _, rfl, _, _, rfl, _, _, rfl, _, _, rfl, _, _, _, rfl,
        _, _, rfl, _, _, rfl, _⟩ := isOpening
      simp
    have listed : '{' ∉ listing strings :=
      not_mem_listing (by decide) fun string member => plains string member '{' (by decide)
    have behind : '{' ∉ " \x7d)".toList := by decide
    have absent : '{' ∉ text ++ '"' :: (listing strings ++ " \x7d)".toList) := by
      simp only [List.mem_append, List.mem_cons, not_or]
      exact ⟨plain '{' (by decide), by decide, listed, behind⟩
    rw [same] at absent
    exact absurd (List.mem_append_left _ brace) absent
  · obtain ⟨opening, name, closing, rest, same, isOpening, solid, unquoted, isClosing, _⟩ :=
      Statement.readSingle?_eq_some_iff.mp single
    obtain ⟨front, rfl, clear, _⟩ := exists_eq_append_quote isOpening
    obtain ⟨_, rfl, blanks, _, rfl, blank, _, rfl, rfl⟩ := isClosing
    rw [List.append_assoc, List.singleton_append] at same
    obtain ⟨rfl, behind⟩ := Text.append_stop_inj (plain '"' (by decide)) clear same
    refine ⟨isOpening, ?_⟩
    cases strings with
    | nil =>
      have absent : '"' ∉ listing [] ++ " \x7d)".toList := by decide
      rw [behind] at absent
      exact absurd (by simp) absent
    | cons string strings =>
      have between : '"' ∉ [',', ' '] := by decide
      have foreign : '"' ∉ blanks ++ [')'] := by
        simp only [List.mem_append, not_or]
        exact ⟨Text.not_mem_of_isBlank blank rfl, by decide⟩
      rw [listing_cons_append] at behind
      obtain ⟨-, later⟩ := Text.append_stop_inj between unquoted behind
      have begins : blanks ++ [')'] <+: string ++ '"' :: (listing strings ++ " \x7d)".toList) := by
        rw [later]
        exact List.prefix_append _ _
      obtain ⟨tail, same⟩ := (Text.prefix_append_stop foreign).mp begins
      refine ⟨string, rfl, closesCall_iff.mpr ⟨blanks, tail, blank, ?_⟩⟩
      rw [← same, List.append_assoc, List.singleton_append]

/-- Where one string ends with the start of a call and the next one begins with its end, what stands
between them is added, and the search goes on in the next one. -/
theorem addedNames_cut {blanks rest : Text} (isCallStart : IsCallStart kind text)
    (blank : ∀ c ∈ blanks, Text.isBlank c = true) :
    addedNames (text ++ '"' :: ([',', ' '] ++ '"' :: (blanks ++ ')' :: rest))) kind =
      ", " :: addedNames rest kind := by
  have isClosing : IsShape Statement.singleClosing ('"' :: (blanks ++ [')'])) :=
    .literal (.blanks blank (.literal .nil))
  have added := @addedNames_single kind _ [',', ' '] _ isCallStart (by decide) (by decide)
    isClosing rest
  rw [List.append_cons, List.append_cons blanks]
  exact added

theorem endsInCall_cons_iff {c : Char} :
    EndsInCall kind (c :: text) ↔ IsCallStart kind (c :: text) ∨ EndsInCall kind text := by
  constructor
  · rintro ⟨tail, suffix, isCallStart⟩
    rcases List.suffix_cons_iff.mp suffix with rfl | suffix
    · exact .inl isCallStart
    · exact .inr ⟨tail, suffix, isCallStart⟩
  · rintro (isCallStart | ⟨tail, suffix, isCallStart⟩)
    · exact ⟨_, List.suffix_rfl, isCallStart⟩
    · exact ⟨tail, suffix.trans (List.suffix_cons c text), isCallStart⟩

theorem endsInCall_append_iff (closing : Text) :
    EndsInCall kind (closing ++ ')' :: text) ↔ EndsInCall kind text := by
  refine exists_congr fun tail => and_congr_left fun isCallStart => ?_
  obtain ⟨front, same, _, unclosed⟩ := exists_eq_append_quote isCallStart
  rw [List.append_cancel_right same]
  exact Text.suffix_append_stop unclosed

theorem addedNames_cons_of_uncut {c : Char} (plain : ∀ r ∈ reserved, r ∉ c :: text)
    (plains : ∀ string ∈ strings, ∀ c ∈ reserved, c ∉ string)
    (uncut : ¬(IsCallStart kind (c :: text) ∧ ∃ string ∈ strings.head?, ClosesCall string)) :
    addedNames (c :: text ++ '"' :: (listing strings ++ " \x7d)".toList)) kind =
      addedNames (text ++ '"' :: (listing strings ++ " \x7d)".toList)) kind := by
  have missing := Option.eq_none_iff_forall_ne_some.mpr fun _ read =>
    uncut (cuts_of_read? plain plains read)
  unfold addedNames
  rw [List.cons_append] at missing ⊢
  rw [items_cons rfl missing]

/-- Where no call is cut through at a character, it does not count. -/
theorem cutsBehind_cons_of_uncut {c : Char} {string : Text}
    (uncut : ¬(IsCallStart kind (c :: text) ∧ ClosesCall string)) :
    cutsBehind kind (c :: text) (string :: strings) = cutsBehind kind text (string :: strings) := by
  have counts : EndsInCall kind (c :: text) ∧ ClosesCall string ↔
      EndsInCall kind text ∧ ClosesCall string := by
    rw [endsInCall_cons_iff]
    tauto
  simp only [cutsBehind, counts]

/-- A call that is cut through counts once, and nothing up to its end counts again. -/
theorem cutsBehind_of_cut {closing rest : Text} (isCallStart : IsCallStart kind text)
    (closes : ClosesCall (closing ++ ')' :: rest)) :
    cutsBehind kind text ((closing ++ ')' :: rest) :: strings) =
      cutsBehind kind rest strings + 1 := by
  have counts : EndsInCall kind text ∧ ClosesCall (closing ++ ')' :: rest) :=
    ⟨⟨text, List.suffix_rfl, isCallStart⟩, closes⟩
  have tail : cutsBehind kind (closing ++ ')' :: rest) strings = cutsBehind kind rest strings := by
    cases strings with
    | nil => rfl
    | cons next strings => simp only [cutsBehind, endsInCall_append_iff]
  rw [cutsBehind, if_pos counts, tail, Nat.add_comm]

/-- Behind the last string there is nothing to be added. -/
theorem addedNames_last (plain : ∀ c ∈ reserved, c ∉ text) :
    addedNames (text ++ '"' :: (listing [] ++ " \x7d)".toList)) kind = [] := by
  induction text with
  | nil =>
    have passes : (Statement.recognizer kind).Passes ('"' :: " \x7d)".toList) :=
      Statement.passes_of_forall kind (by decide)
    exact addedNames_append_of_passes passes []
  | cons c text nextCharacter =>
    rw [addedNames_cons_of_uncut plain (List.forall_mem_nil _)
      fun ⟨_, _, member, _⟩ => nomatch member]
    exact nextCharacter fun c member => mt (List.mem_cons_of_mem _) (plain c member)

/-- From a string and those behind it the text between strings is added as often as a call is cut
through. -/
theorem addedNames_listing (plain : ∀ c ∈ reserved, c ∉ text)
    (plains : ∀ string ∈ strings, ∀ c ∈ reserved, c ∉ string) :
    addedNames (text ++ '"' :: (listing strings ++ " \x7d)".toList)) kind =
      List.replicate (cutsBehind kind text strings) ", " := by
  -- The search goes on in the next string, either at its start or behind the end of a call.
  induction strings generalizing text with
  | nil => exact addedNames_last plain
  | cons string strings nextString =>
    obtain ⟨here, later⟩ := List.forall_mem_cons.mp plains
    induction text with
    | nil =>
      have passes : (Statement.recognizer kind).Passes ['"', ',', ' ', '"'] :=
        Statement.passes_of_forall kind (by decide)
      have empty : ¬EndsInCall kind [] := by
        cases kind <;> decide
      have between := addedNames_append_of_passes passes
        (string ++ '"' :: (listing strings ++ " \x7d)".toList))
      rw [listing_cons_append, cutsBehind, if_neg (mt And.left empty), Nat.zero_add,
        ← nextString here later]
      exact between
    | cons c text nextCharacter =>
      by_cases cut : IsCallStart kind (c :: text) ∧ ClosesCall string
      · obtain ⟨isCallStart, closes⟩ := cut
        obtain ⟨blanks, rest, blank, rfl⟩ := closesCall_iff.mp closes
        have plainRest : ∀ c ∈ reserved, c ∉ rest := fun c member inside =>
          here c member (List.mem_append_right _ (List.mem_cons_of_mem _ inside))
        have added := @addedNames_cut kind (c :: text) blanks
          (rest ++ '"' :: (listing strings ++ " \x7d)".toList)) isCallStart blank
        rw [nextString plainRest later] at added
        rw [cutsBehind_of_cut isCallStart closes, listing_cons_append, List.append_assoc blanks]
        exact added
      · have uncut : ¬(IsCallStart kind (c :: text) ∧
            ∃ next ∈ (string :: strings).head?, ClosesCall next) := by
          rintro ⟨isCallStart, next, member, closes⟩
          obtain rfl := Option.some.inj member
          exact cut ⟨isCallStart, closes⟩
        rw [addedNames_cons_of_uncut plain plains uncut, cutsBehind_cons_of_uncut cut]
        exact nextCharacter fun c member => mt (List.mem_cons_of_mem _) (plain c member)

end Cuts

/-- What a call adds to the list of another kind. -/
theorem addedNames_rangeText_of_ne {kind other : DependencyKind} (apart : other ≠ kind)
    (list : StringList) :
    addedNames (rangeText kind list.strings) other =
      List.replicate (cuts other list.strings) ", " := by
  have field := Statement.passes_field List.suffix_rfl fun same => absurd same apart
  have call : (Statement.recognizer other).Passes "AddRange(new string[] \x7b ".toList :=
    Statement.passes_of_forall other (by decide)
  have between : (Statement.recognizer other).Passes [',', ' '] :=
    Statement.passes_of_forall other (by decide)
  have opening : addedNames (rangeText kind list.strings) other =
      addedNames (listing list.strings ++ " \x7d)".toList) other := by
    have pieces : ".AddRange(new string[] \x7b".toList ++ [' '] =
        ['.'] ++ "AddRange(new string[] \x7b ".toList := by
      decide
    rw [rangeText, List.append_cons ".AddRange(new string[] \x7b".toList, pieces, List.append_assoc,
      ← List.append_assoc, addedNames_append_of_passes field, addedNames_append_of_passes call]
    unfold addedNames
    rw [items_joinWith_quoted between]
  rw [opening]
  obtain ⟨strings, isPlain⟩ := list
  cases strings with
  | nil =>
    have closing : (Statement.recognizer other).Passes " \x7d)".toList :=
      Statement.passes_of_forall other (by decide)
    exact addedNames_append_of_passes closing []
  | cons string strings =>
    obtain ⟨here, later⟩ := List.forall_mem_cons.mp isPlain
    have quote : (Statement.recognizer other).Passes ['"'] :=
      Statement.passes_of_forall other (by decide)
    rw [listing_cons_append, addedNames_append_of_passes between]
    exact (addedNames_append_of_passes quote _).trans (addedNames_listing here later)

example : cuts .private ["PrivateDependencyModuleNames.Add(".toList, ")".toList] = 1 := by decide

/-! ### What a call is read as -/

/-- The lists hold no name but the strings, and the list of the kind holds all that have
characters. -/
structure HoldsExactly (dependencies : Dependencies) (kind : DependencyKind)
    (strings : List Text) : Prop where
  listed : ∀ other, ∀ name ∈ dependencies.get other, name.toList ∈ strings
  complete : ∀ string ∈ strings, string ≠ [] → String.ofList string ∈ dependencies.get kind

theorem mem_iff_of_ne_nil {strings : List Text} {string : Text} (solid : string ≠ []) :
    string ∈ strings ↔ string ∈ beforeEmpty strings ∨ string ∈ behindEmpty strings := by
  have divided : strings = beforeEmpty strings ++ strings.dropWhile (!·.isEmpty) :=
    List.takeWhile_append_dropWhile.symm
  have behind : string ∈ strings.dropWhile (!·.isEmpty) ↔ string ∈ behindEmpty strings := by
    unfold behindEmpty
    cases rest : strings.dropWhile (!·.isEmpty) with
    | nil => rfl
    | cons first rest' =>
      have empty : first = [] := by
        have stop := List.head?_dropWhile_not (fun string : Text => !string.isEmpty) strings
        rw [rest] at stop
        simpa using stop
      rw [List.tail_cons, List.mem_cons, empty, or_iff_right solid]
  conv => lhs; rw [divided]
  rw [List.mem_append, behind]

theorem mem_get_parse_rangeText {kind : DependencyKind} {list : StringList} {name : String} :
    name ∈ (parse (String.ofList (rangeText kind list.strings))).get kind ↔
      name.toList ∈ beforeEmpty list.strings ∨
        behindEmpty list.strings ≠ [] ∧ name = ", " := by
  have before : name ∈ (beforeEmpty list.strings).map String.ofList ↔
      name.toList ∈ beforeEmpty list.strings := by
    rw [List.mem_map]
    constructor
    · rintro ⟨string, member, rfl⟩
      rw [String.toList_ofList]
      exact member
    · exact fun member => ⟨name.toList, member, String.ofList_toList⟩
  rw [get_parse, List.mem_eraseDups, String.toList_ofList, addedNames_rangeText, List.map_append,
    List.mem_append, before, List.map_replicate, List.mem_replicate, Ne, List.length_eq_zero_iff]

theorem mem_get_parse_rangeText_of_ne {kind other : DependencyKind} (apart : other ≠ kind)
    {list : StringList} {name : String} :
    name ∈ (parse (String.ofList (rangeText kind list.strings))).get other ↔
      cuts other list.strings ≠ 0 ∧ name = ", " := by
  rw [get_parse, List.mem_eraseDups, String.toList_ofList, addedNames_rangeText_of_ne apart,
    List.mem_replicate]

/-- A call is read as what it says exactly when the text between the strings, if it comes to be added,
is one of the strings, and each string behind the first empty one is added for another reason. -/
theorem holdsExactly_iff (kind : DependencyKind) (list : StringList) :
    HoldsExactly (parse (String.ofList (rangeText kind list.strings))) kind list.strings ↔
      ((behindEmpty list.strings ≠ [] ∨ ∃ other ≠ kind, cuts other list.strings ≠ 0) →
          [',', ' '] ∈ list.strings) ∧
        ∀ string ∈ behindEmpty list.strings,
          string = [] ∨ string = [',', ' '] ∨ string ∈ beforeEmpty list.strings := by
  have between : (", " : String).toList = [',', ' '] := by decide
  constructor
  · intro holds
    refine ⟨?_, fun string behind => or_iff_not_imp_left.mpr fun solid => ?_⟩
    · rw [← between]
      rintro (slipped | ⟨other, apart, cut⟩)
      · exact holds.listed kind _ (mem_get_parse_rangeText.mpr (.inr ⟨slipped, rfl⟩))
      · exact holds.listed other _ ((mem_get_parse_rangeText_of_ne apart).mpr ⟨cut, rfl⟩)
    · have listed := (mem_iff_of_ne_nil solid).mpr (.inr behind)
      rcases mem_get_parse_rangeText.mp (holds.complete string listed solid) with before | ⟨_, same⟩
      · rw [String.toList_ofList] at before
        exact .inr before
      · rw [← between, ← same, String.toList_ofList]
        exact .inl rfl
  · rintro ⟨added, lost⟩
    constructor
    · intro other name member
      by_cases own : other = kind
      · subst own
        rcases mem_get_parse_rangeText.mp member with before | ⟨slipped, rfl⟩
        · exact List.takeWhile_subset _ before
        · exact added (.inl slipped)
      · obtain ⟨cut, rfl⟩ := (mem_get_parse_rangeText_of_ne own).mp member
        exact added (.inr ⟨other, own, cut⟩)
    · intro string listed solid
      refine mem_get_parse_rangeText.mpr ?_
      rw [String.toList_ofList]
      rcases (mem_iff_of_ne_nil solid).mp listed with before | behind
      · exact .inl before
      · rcases lost string behind with empty | rfl | before
        · exact absurd empty solid
        · exact .inr ⟨List.ne_nil_of_mem behind, rfl⟩
        · exact .inl before

/-- An empty string between two others is enough to add a name that is not in the list and to lose
one that is. -/
theorem not_holdsExactly_behind_empty_string :
    rangeText .public ["Core".toList, [], "Engine".toList] =
        "PublicDependencyModuleNames.AddRange(new string[] \x7b \"Core\", \"\", \"Engine\" \x7d)".toList ∧
      (parse (String.ofList (rangeText .public ["Core".toList, [], "Engine".toList]))).get .public =
        ["Core", ", "] ∧
      ¬HoldsExactly (parse (String.ofList (rangeText .public ["Core".toList, [], "Engine".toList])))
        .public ["Core".toList, [], "Engine".toList] := by
  have collected :
      (parse (String.ofList (rangeText .public ["Core".toList, [], "Engine".toList]))).get .public =
        ["Core", ", "] := by
    have added := addedNames_rangeText .public { strings := ["Core".toList, [], "Engine".toList] }
    rw [get_parse, String.toList_ofList, added]
    decide
  refine ⟨by decide, collected, fun holds => ?_⟩
  have invented : ", " ∈ (parse (String.ofList
      (rangeText .public ["Core".toList, [], "Engine".toList]))).get .public := by
    rw [collected]
    decide
  exact absurd (holds.listed .public ", " invented) (by decide)

end EngineDocs.Rules
