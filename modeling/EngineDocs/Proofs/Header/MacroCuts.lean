/-
This file shows when an export macro is stripped that is only a part of a word. A declaration does
not have to leave a blank between its macro and what follows, so a beginning of a word is read as
the macro whenever it looks like one and the rest can be read: the name of a class or a struct, and
the return type of a function, then starts in the middle of an identifier. The condition is exact,
and it is stated about the word that stands where a macro is looked for and about what follows that
word.
-/

import EngineDocs.Proofs.Header.Function
import EngineDocs.Proofs.Header.Keyword
import EngineDocs.Proofs.Search
import EngineDocs.Proofs.Text.Blanks

namespace EngineDocs

/-! ### The character before a place -/

namespace Text

/-- Whether the last character of a text belongs to an identifier. -/
def endsInWord (text : Text) : Bool := text.getLast?.any isWord

/-- Whether the character before the one with the given index belongs to an identifier. -/
def isBehindWord (text : Text) (index : Nat) : Bool := endsInWord (text.take index)

theorem isBehindWord_append_length (front rest : Text) :
    isBehindWord (front ++ rest) front.length = endsInWord front := by
  rw [isBehindWord, List.take_left]

theorem endsInWord_append {front back : Text} (solid : back ≠ []) :
    endsInWord (front ++ back) = endsInWord back := by
  rw [endsInWord, List.getLast?_append_of_ne_nil _ solid]
  rfl

theorem endsInWord_of_forall {text : Text} {answer : Bool} (solid : text ≠ [])
    (same : ∀ c ∈ text, isWord c = answer) : endsInWord text = answer := by
  rw [endsInWord, List.getLast?_eq_some_getLast solid, Option.any_some]
  exact same _ (List.getLast_mem solid)

theorem endsInWord_append_blanks {front blanks : Text} (blank : ∀ c ∈ blanks, isBlank c = true)
    (outside : blanks = [] → endsInWord front = false) :
    endsInWord (front ++ blanks) = false := by
  by_cases empty : blanks = []
  · rw [empty, List.append_nil]
    exact outside empty
  · rw [endsInWord_append empty]
    exact endsInWord_of_forall empty fun c member => isWord_eq_false_of_isBlank (blank c member)

end Text

namespace Header

/-! ### Words that go on behind a macro -/

/-- A word has an export macro known by name before its last characters. -/
def GoesOnBehindKnown (word : Text) : Prop :=
  ∃ known ∈ knownExportMacros, known <+: word ∧ known ≠ word

/-- A word has an export macro of any name before its last characters. -/
def GoesOnBehindMacro (word : Text) : Prop :=
  ∃ exportMacro, isExportMacro exportMacro = true ∧ exportMacro <+: word ∧ exportMacro ≠ word

/-- Only a part of the word is stripped, in a declaration that can be read behind a part of it;
`whole` says that it can be read behind the whole word as well. -/
def IsCut (word : Text) (whole : Prop) : Prop :=
  GoesOnBehindKnown word ∨ GoesOnBehindMacro word ∧ ¬(isExportMacro word = true ∧ whole)

theorem GoesOnBehindKnown.goesOnBehindMacro {word : Text} (goesOn : GoesOnBehindKnown word) :
    GoesOnBehindMacro word := by
  obtain ⟨known, listed, isPrefix, other⟩ := goesOn
  exact ⟨known, isExportMacro_of_known listed, isPrefix, other⟩

theorem not_goesOnBehindMacro_nil : ¬GoesOnBehindMacro [] := by
  rintro ⟨exportMacro, _, isPrefix, other⟩
  exact other (List.prefix_nil.mp isPrefix)

theorem IsCut.goesOnBehindMacro {word : Text} {whole : Prop} (cut : IsCut word whole) :
    GoesOnBehindMacro word := by
  rcases cut with goesOn | ⟨goesOn, _⟩
  · exact goesOn.goesOnBehindMacro
  · exact goesOn

theorem length_lt_of_isPrefix {front word : Text} (isPrefix : front <+: word)
    (other : front ≠ word) :
    front.length < word.length :=
  Nat.lt_of_le_of_ne isPrefix.length_le fun same => other (isPrefix.eq_of_length same)

/-- No macro known by name goes on behind another one. -/
theorem not_goesOnBehindKnown_of_known {known : Text} (member : known ∈ knownExportMacros) :
    ¬GoesOnBehindKnown known := by
  have apart : ∀ first ∈ knownExportMacros, ∀ second ∈ knownExportMacros,
      Text.startsWith first second = true → first = second := by decide
  rintro ⟨first, listed, isPrefix, other⟩
  exact other (apart first listed known member (Text.startsWith_iff.mpr isPrefix))

/-! ### The choice among the candidates -/

section Choice

variable {β : Type} {read : Nat → Option β} {able : Prop} {text : Text}

theorem exists_known_of_findSome? {value : β}
    (found : ((knownExportMacros.filter fun known =>
      Text.startsWith known (Text.leadingWord text)).map List.length).findSome? read = some value) :
    ∃ known ∈ knownExportMacros, known <+: Text.leadingWord text ∧
      read known.length = some value := by
  obtain ⟨length, member, here⟩ := List.exists_of_findSome?_eq_some found
  obtain ⟨known, kept, rfl⟩ := List.mem_map.mp member
  obtain ⟨listed, starts⟩ := List.mem_filter.mp kept
  exact ⟨known, listed, Text.startsWith_iff.mp starts, here⟩

/-- The candidates of any name are tried from the longest to the shortest, so a part of the word is
taken only where nothing can be read behind the whole word. -/
theorem exists_longest_of_findSome? {word : Text} {value : β}
    (inside : ∀ c ∈ word, Text.isWord c = true)
    (found : (exportLengthsFrom word.length word.reverse).findSome? read = some value) :
    ∃ front, isExportMacro front = true ∧ front <+: word ∧ read front.length = some value ∧
      (front ≠ word → ¬(isExportMacro word = true ∧ (read word.length).isSome = true)) := by
  obtain ⟨before, chosen, behind, divided, here, earlier⟩ := List.findSome?_eq_some_iff.mp found
  have decreasing := exportLengthsFrom_pairwise word.reverse
  have candidates : ∀ length, length ∈ before ++ chosen :: behind ↔
      ∃ front, front <+: word ∧ exportSuffix.length < front.length ∧ exportSuffix <:+ front ∧
        front.length = length := by
    intro length
    have fromEnd := @mem_exportLengthsFrom_iff word.reverse length
    rwa [List.length_reverse, List.reverse_reverse, divided] at fromEnd
  rw [List.length_reverse, divided] at decreasing
  obtain ⟨front, isPrefix, longer, ends, rfl⟩ :=
    (candidates chosen).mp (List.mem_append_right before List.mem_cons_self)
  refine ⟨front, isExportMacro_iff.mpr ⟨longer, ends, fun c member =>
    inside c (isPrefix.subset member)⟩, isPrefix, here, fun other => ?_⟩
  rintro ⟨wordIsMacro, readable⟩
  -- The whole word is the longest candidate, so it was tried before.
  obtain ⟨wordLonger, wordEnds, _⟩ := isExportMacro_iff.mp wordIsMacro
  have listed : word.length ∈ before ++ front.length :: behind :=
    (candidates word.length).mpr ⟨word, List.prefix_rfl, wordLonger, wordEnds, rfl⟩
  have short := length_lt_of_isPrefix isPrefix other
  rcases List.mem_append.mp listed with tried | later
  · rw [earlier _ tried] at readable
    exact nomatch readable
  · obtain ⟨_, below, _⟩ := List.pairwise_append.mp decreasing
    rcases List.mem_cons.mp later with same | after
    · exact absurd same (Nat.ne_of_gt short)
    · exact absurd (List.rel_of_pairwise_cons below after) (Nat.not_lt.mpr (Nat.le_of_lt short))

/-- What is taken: a macro known by name where one can be read, else the longest beginning that can.
A part of the word is taken only where the word is cut, and the whole word only where no macro known
by name comes before it. -/
theorem exists_choice_of_findSome?_exportMacroLengths {value : β}
    (inside : ∀ length < (Text.leadingWord text).length, (read length).isSome = true ↔ able)
    (found : (exportMacroLengths text).findSome? read = some value) :
    ∃ front, isExportMacro front = true ∧ front <+: Text.leadingWord text ∧
      read front.length = some value ∧
      (front ≠ Text.leadingWord text → IsCut (Text.leadingWord text)
        ((read (Text.leadingWord text).length).isSome = true)) ∧
      (front = Text.leadingWord text → able → ¬GoesOnBehindKnown (Text.leadingWord text)) := by
  rw [exportMacroLengths, List.findSome?_append] at found
  rcases Option.or_eq_some_iff.mp found with byName | ⟨noName, longest⟩
  · obtain ⟨known, listed, isPrefix, here⟩ := exists_known_of_findSome? byName
    exact ⟨known, isExportMacro_of_known listed, isPrefix, here,
      fun other => Or.inl ⟨known, listed, isPrefix, other⟩,
      fun whole _ => whole ▸ not_goesOnBehindKnown_of_known listed⟩
  · obtain ⟨front, isMacro, isPrefix, here, noWhole⟩ :=
      exists_longest_of_findSome? (fun _ => Text.isWord_of_mem_leadingWord) longest
    refine ⟨front, isMacro, isPrefix, here,
      fun other => Or.inr ⟨⟨front, isMacro, isPrefix, other⟩, noWhole other⟩, fun _ ability => ?_⟩
    rintro ⟨known, listed, begins, other⟩
    have missing := List.findSome?_eq_none_iff.mp noName known.length
      (List.mem_map_of_mem (List.mem_filter.mpr ⟨listed, Text.startsWith_iff.mpr begins⟩))
    have present := (inside _ (length_lt_of_isPrefix begins other)).mpr ability
    rw [missing] at present
    exact absurd present Bool.false_ne_true

/-- Where what can be read behind a proper part of the leading word does not depend on the part, the
choice falls on such a part exactly when the word is cut. -/
theorem exists_of_findSome?_exportMacroLengths {value : β}
    (inside : ∀ length < (Text.leadingWord text).length, (read length).isSome = true ↔ able)
    (found : (exportMacroLengths text).findSome? read = some value) :
    ∃ length ∈ exportMacroLengths text, read length = some value ∧
      (length < (Text.leadingWord text).length ↔
        able ∧ IsCut (Text.leadingWord text)
          ((read (Text.leadingWord text).length).isSome = true)) := by
  obtain ⟨front, isMacro, isPrefix, here, isCut, noKnown⟩ :=
    exists_choice_of_findSome?_exportMacroLengths inside found
  have readable : (read front.length).isSome = true := Option.isSome_of_eq_some here
  refine ⟨front.length, mem_exportMacroLengths_iff.mpr ⟨front, isPrefix, isMacro, rfl⟩, here, ?_⟩
  by_cases whole : front = Text.leadingWord text
  · refine iff_of_false (by rw [whole]; exact Nat.lt_irrefl _) ?_
    rintro ⟨ability, goesOn | ⟨_, notWhole⟩⟩
    · exact noKnown whole ability goesOn
    · exact notWhole (whole ▸ ⟨isMacro, readable⟩)
  · have short := length_lt_of_isPrefix isPrefix whole
    exact iff_of_true short ⟨(inside _ short).mp readable, isCut whole⟩

/-- Where nothing can be read behind any candidate, no part of the word is stripped. -/
theorem not_goesOnBehindMacro_of_findSome?_eq_none
    (inside : ∀ length < (Text.leadingWord text).length, (read length).isSome = true ↔ able)
    (missing : (exportMacroLengths text).findSome? read = none) :
    (able → ¬GoesOnBehindMacro (Text.leadingWord text)) ∧
      (isExportMacro (Text.leadingWord text) = true →
        read (Text.leadingWord text).length = none) := by
  have none : ∀ front, front <+: Text.leadingWord text → isExportMacro front = true →
      read front.length = none := fun front isPrefix isMacro =>
    List.findSome?_eq_none_iff.mp missing _
      (mem_exportMacroLengths_iff.mpr ⟨front, isPrefix, isMacro, rfl⟩)
  refine ⟨?_, fun isMacro => none _ List.prefix_rfl isMacro⟩
  rintro ability ⟨front, isMacro, isPrefix, other⟩
  have present := (inside _ (length_lt_of_isPrefix isPrefix other)).mpr ability
  rw [none front isPrefix isMacro] at present
  exact nomatch present

end Choice

/-! ### Names -/

section Names

variable {β : Type}

/-- The name follows its export macro at once exactly when the word is cut. -/
theorem innerGap_eq_nil_iff {finish : Text → Text → Text → Text → Option β} {body : Text}
    {value : β} {able : Prop}
    (inside : ∀ exportMacro name,
      (finish exportMacro [] name (Text.skipWord body)).isSome = true ↔ able)
    (found : (exportMacroLengths body ++ [0]).findSome? (nameBehind? finish body) = some value) :
    ∃ exportMacro innerGap name behind, finish exportMacro innerGap name behind = some value ∧
      (exportMacro ≠ [] ∧ innerGap = [] ↔
        able ∧ IsCut (Text.leadingWord body)
          ((nameBehind? finish body (Text.leadingWord body).length).isSome = true)) := by
  have insideWord : ∀ length < (Text.leadingWord body).length,
      (nameBehind? finish body length).isSome = true ↔ able := by
    intro length short
    rw [nameBehind?_of_lt short]
    exact inside _ _
  rw [List.findSome?_append] at found
  rcases Option.or_eq_some_iff.mp found with withMacro | ⟨noMacro, plain⟩
  · obtain ⟨length, member, here, chosen⟩ :=
      exists_of_findSome?_exportMacroLengths insideWord withMacro
    by_cases short : length < (Text.leadingWord body).length
    · rw [nameBehind?_of_lt short] at here
      refine ⟨_, _, _, _, here, iff_of_true ⟨fun empty => ?_, rfl⟩ (chosen.mp short)⟩
      have isMacro := isExportMacro_take member
      rw [empty] at isMacro
      exact nomatch isMacro
    · obtain ⟨front, isPrefix, _, rfl⟩ := mem_exportMacroLengths_iff.mp member
      have whole : front.length = (Text.leadingWord body).length :=
        Nat.le_antisymm isPrefix.length_le (Nat.not_lt.mp short)
      obtain ⟨innerGap, name, behind, divided, _, solid, word, _, finished⟩ :=
        nameBehind?_eq_some here
      refine ⟨_, innerGap, name, behind, finished, iff_of_false ?_ (mt chosen.mpr short)⟩
      rintro ⟨_, rfl⟩
      -- Behind the whole word no word begins at once.
      rw [whole, Text.drop_length_leadingWord, List.nil_append] at divided
      have ends : Text.Ends Text.isWord (name ++ behind) := divided ▸ Text.ends_dropWhile _ _
      cases name with
      | nil => exact solid rfl
      | cons c name =>
        exact absurd (word c List.mem_cons_self) (by rw [Text.ends_cons.mp ends]; decide)
  · obtain ⟨length, zero, here⟩ := List.exists_of_findSome?_eq_some plain
    obtain rfl := List.mem_singleton.mp zero
    obtain ⟨innerGap, name, behind, _, _, _, _, _, finished⟩ := nameBehind?_eq_some here
    refine ⟨_, innerGap, name, behind, finished, iff_of_false (fun both => both.1 rfl) ?_⟩
    rintro ⟨ability, cut⟩
    exact (not_goesOnBehindMacro_of_findSome?_eq_none insideWord noMacro).1 ability
      cut.goesOnBehindMacro

theorem endsInWord_append_macro {front exportMacro blanks : Text}
    (outside : Text.endsInWord front = false)
    (isMacro : exportMacro = [] ∨ isExportMacro exportMacro = true)
    (blank : ∀ c ∈ blanks, Text.isBlank c = true) :
    Text.endsInWord (front ++ exportMacro ++ blanks) = true ↔ exportMacro ≠ [] ∧ blanks = [] := by
  by_cases missing : exportMacro = []
  · rw [missing, List.append_nil, Text.endsInWord_append_blanks blank fun _ => outside]
    exact iff_of_false Bool.false_ne_true fun both => both.1 rfl
  · have word := (isExportMacro_iff.mp (isMacro.resolve_left missing)).2.2
    by_cases empty : blanks = []
    · rw [empty, List.append_nil, Text.endsInWord_append missing,
        Text.endsInWord_of_forall missing word]
      exact iff_of_true rfl ⟨missing, rfl⟩
    · rw [Text.endsInWord_append_blanks blank fun none => absurd none empty]
      exact iff_of_false Bool.false_ne_true fun both => empty both.2

/-- The name of a declaration starts behind a character of an identifier exactly when it follows
its export macro at once. -/
theorem IsHead.isBehindWord_iff {gap exportMacro innerGap name behind : Text}
    (isHead : IsHead gap exportMacro innerGap name behind) (before keyword : Text) :
    Text.isBehindWord (before ++ (keyword ++ gap ++ exportMacro ++ innerGap ++ name ++ behind))
        (before.length + (keyword ++ gap ++ exportMacro ++ innerGap).length) = true ↔
      exportMacro ≠ [] ∧ innerGap = [] := by
  have outside : Text.endsInWord (before ++ keyword ++ gap) = false :=
    Text.endsInWord_append_blanks isHead.gap_blank fun empty => absurd empty isHead.gap_ne_nil
  have whole : before ++ (keyword ++ gap ++ exportMacro ++ innerGap ++ name ++ behind) =
      (before ++ keyword ++ gap ++ exportMacro ++ innerGap) ++ (name ++ behind) := by
    simp only [List.append_assoc]
  have index : before.length + (keyword ++ gap ++ exportMacro ++ innerGap).length =
      (before ++ keyword ++ gap ++ exportMacro ++ innerGap).length := by
    simp only [List.length_append, Nat.add_assoc]
  rw [whole, index, Text.isBehindWord_append_length]
  exact endsInWord_append_macro outside isHead.exportMacro isHead.innerGap_blank

end Names

/-! ### Classes and structs -/

/-- The text behind a keyword and the blanks there: where an export macro is looked for. -/
def behindKeyword (keyword text : Text) : Text := Text.skipBlanks (text.drop keyword.length)

/-- The word that follows the leading word of a text behind blanks; empty when there is none. -/
def secondWord (text : Text) : Text := Text.leadingWord (Text.skipBlanks (Text.skipWord text))

theorem behindKeyword_append {keyword gap body : Text} (blank : ∀ c ∈ gap, Text.isBlank c = true)
    (ends : Text.Ends Text.isBlank body) :
    behindKeyword keyword (keyword ++ (gap ++ body)) = body := by
  rw [behindKeyword, List.drop_left, Text.skipBlanks, Text.dropWhile_append_of_ends blank ends]

namespace ClassDeclaration

/-- The number of characters of a declaration before its name. -/
def nameOffset (declaration : ClassDeclaration) : Nat :=
  (keyword ++ declaration.gap ++ declaration.exportMacro ++ declaration.innerGap).length

theorem innerGap_eq_nil_iff {text : Text} {declaration : ClassDeclaration}
    (read : read? text = some declaration) :
    declaration.exportMacro ≠ [] ∧ declaration.innerGap = [] ↔
      IsCut (Text.leadingWord (behindKeyword keyword text))
        (secondWord (behindKeyword keyword text) ≠ []) := by
  rw [read?_eq] at read
  obtain ⟨gap, body, rfl, _, blank, ends, found⟩ := findSome?_of_readHeaded? read
  rw [behindKeyword_append blank ends]
  have always : ∀ exportMacro name,
      (ofParts gap exportMacro [] name (Text.skipWord body)).isSome = true ↔ True := fun _ _ =>
    iff_of_true rfl trivial
  obtain ⟨exportMacro, innerGap, name, behind, finished, cut⟩ :=
    Header.innerGap_eq_nil_iff always found
  have named : (nameBehind? (ofParts gap) body (Text.leadingWord body).length).isSome = true ↔
      secondWord body ≠ [] := by
    rw [nameBehind?, Text.drop_length_leadingWord]
    split
    · exact iff_of_false Bool.false_ne_true fun solid => solid ‹_›
    · exact iff_of_true rfl ‹_›
  rw [← Option.some.inj finished, cut, true_and, named]

end ClassDeclaration

namespace StructDeclaration

/-- The number of characters of a definition before its name. -/
def nameOffset (declaration : StructDeclaration) : Nat :=
  (keyword ++ declaration.gap ++ declaration.exportMacro ++ declaration.innerGap).length

/-- No body opens where a word follows. -/
theorem readOpening?_of_word {text : Text} (named : Text.leadingWord (Text.skipBlanks text) ≠ []) :
    readOpening? text = none := by
  rw [readOpening?]
  split
  · rename_i brace
    rw [brace] at named
    exact absurd rfl named
  · rename_i colon
    rw [colon] at named
    exact absurd rfl named
  · rfl

theorem innerGap_eq_nil_iff {text : Text} {declaration : StructDeclaration}
    (read : read? text = some declaration) :
    declaration.exportMacro ≠ [] ∧ declaration.innerGap = [] ↔
      GoesOnBehindMacro (Text.leadingWord (behindKeyword keyword text)) ∧
        secondWord (behindKeyword keyword text) = [] := by
  rw [read?_eq] at read
  obtain ⟨gap, body, rfl, _, blank, ends, found⟩ := findSome?_of_readHeaded? read
  rw [behindKeyword_append blank ends]
  have opens : ∀ exportMacro name,
      (ofParts gap exportMacro [] name (Text.skipWord body)).isSome = true ↔
        (readOpening? (Text.skipWord body)).isSome = true := fun _ _ => by
    rw [ofParts, Option.isSome_map]
  obtain ⟨exportMacro, innerGap, name, behind, finished, cut⟩ :=
    Header.innerGap_eq_nil_iff opens found
  obtain ⟨opening, opened, rfl⟩ := Option.map_eq_some_iff.mp finished
  rw [cut]
  constructor
  · rintro ⟨able, isCut⟩
    refine ⟨isCut.goesOnBehindMacro, by_contra fun named => ?_⟩
    rw [readOpening?_of_word named] at able
    exact nomatch able
  · rintro ⟨goesOn, unnamed⟩
    have whole : nameBehind? (ofParts gap) body (Text.leadingWord body).length = none := by
      rw [nameBehind?, Text.drop_length_leadingWord]
      split
      · rfl
      · exact absurd unnamed ‹_›
    refine ⟨?_, Or.inr ⟨goesOn, fun both => ?_⟩⟩
    · -- Something was read, and it was not read behind the whole word.
      obtain ⟨length, candidate, here⟩ := List.exists_of_findSome?_eq_some found
      have short : length < (Text.leadingWord body).length := by
        refine Nat.lt_of_le_of_ne ?_ fun same => ?_
        · rcases List.mem_append.mp candidate with member | zero
          · obtain ⟨front, isPrefix, _, rfl⟩ := mem_exportMacroLengths_iff.mp member
            exact isPrefix.length_le
          · rw [List.mem_singleton.mp zero]
            exact Nat.zero_le _
        · rw [same, whole] at here
          exact absurd here.symm (Option.some_ne_none _)
      rw [nameBehind?_of_lt short] at here
      exact (opens _ _).mp (Option.isSome_of_mem here)
    · rw [whole] at both
      exact absurd both.2 Bool.false_ne_true

end StructDeclaration

/-! ### Return types -/

/-- A return type that is not blank can be read without the blanks before it. -/
theorem hasType_of_not_blank {blanks rest type : Text} {signature : Signature}
    (blank : ∀ c ∈ blanks, Text.isBlank c = true)
    (read : readReturnType? (blanks ++ rest) = some (type, signature))
    (visible : ∃ c ∈ type, Text.isBlank c = false) : hasType rest = true := by
  obtain ⟨c, member, solid⟩ := visible
  obtain ⟨left, divided, _, inside, signed⟩ := readReturnType?_eq_some read
  have outside : c ∉ blanks := fun listed => by
    rw [blank c listed] at solid
    exact nomatch solid
  rcases List.append_eq_append_iff.mp divided with ⟨more, rfl, rfl⟩ | ⟨more, rfl, _⟩
  · have stays : more ≠ [] := by
      rintro rfl
      exact outside (List.append_nil blanks ▸ member)
    exact readReturnType?_isSome stays
      (fun d listed => inside d (List.mem_append_right _ listed)) (Option.isSome_of_mem signed)
  · exact absurd (List.mem_append_left _ member) outside

section Types

variable {β : Type}

/-- Reads a return type behind the first `length` characters of a text. -/
def typeBehind? (finish : Nat → Text × Signature → β) (text : Text) (length : Nat) : Option β :=
  (readReturnType? (text.drop length)).map (finish length)

theorem isSome_typeBehind? (finish : Nat → Text × Signature → β) (text : Text) (length : Nat) :
    (typeBehind? finish text length).isSome = hasType (text.drop length) := by
  rw [typeBehind?, Option.isSome_map, hasType]

theorem typeBehind?_add (finish : Nat → Text × Signature → β) (text : Text) (first : Nat) :
    (typeBehind? finish text ∘ fun count => first + count) =
      typeBehind? (fun count => finish (first + count)) (text.drop first) := by
  funext count
  rw [Function.comp_apply, typeBehind?, typeBehind?, List.drop_drop]

theorem mem_passedBlanks_self (least blanks : Nat) : blanks ∈ passedBlanks least blanks := by
  rw [passedBlanks]
  split <;> exact List.mem_cons_self

theorem isSome_findSome?_passedBlanks (finish : Nat → Text × Signature → β) (least : Nat)
    {text : Text} (typed : hasType (Text.skipBlanks text) = true) :
    ((passedBlanks least (Text.leadingBlanks text).length).findSome?
      (typeBehind? finish text)).isSome = true := by
  refine List.findSome?_isSome_iff.mpr ⟨_, mem_passedBlanks_self _ _, ?_⟩
  rw [isSome_typeBehind?, Text.leadingBlanks, Text.drop_length_takeWhile]
  exact typed

/-- A return type that is not blank is read behind all blanks before it. -/
theorem exists_of_findSome?_passedBlanks {finish : Nat → Text × Signature → β} {least : Nat}
    {text : Text} {value : β}
    (found : (passedBlanks least (Text.leadingBlanks text).length).findSome?
      (typeBehind? finish text) = some value) :
    ∃ count type signature, readReturnType? (text.drop count) = some (type, signature) ∧
      finish count (type, signature) = value ∧ ((∃ c ∈ type, Text.isBlank c = false) →
        count = (Text.leadingBlanks text).length ∧ Text.leadingBlanks type = []) := by
  obtain ⟨before, count, behind, divided, here, earlier⟩ := List.findSome?_eq_some_iff.mp found
  obtain ⟨⟨type, signature⟩, read, finished⟩ := Option.map_eq_some_iff.mp here
  refine ⟨count, type, signature, read, finished, fun visible => ?_⟩
  have all : count = (Text.leadingBlanks text).length := by
    rw [passedBlanks] at divided
    split at divided
    · cases before with
      | nil => exact (List.cons.inj divided).1.symm
      | cons first before =>
        -- Had fewer blanks been passed over, nothing could be read behind all of them.
        obtain ⟨rfl, listed⟩ := List.cons.inj divided
        have missing := earlier _ List.mem_cons_self
        have short : count ≤ (Text.leadingBlanks text).length := by
          have member : count ∈ [(Text.leadingBlanks text).length - 2] :=
            listed ▸ List.mem_append_right _ List.mem_cons_self
          rw [List.mem_singleton.mp member]
          exact Nat.sub_le _ _
        rw [← Text.leadingBlanks_append_skipBlanks text,
          List.drop_append_of_le_length short] at read
        have typed := hasType_of_not_blank
          (fun c member => Text.isBlank_of_mem_leadingBlanks (List.mem_of_mem_drop member))
          read visible
        rw [← Option.isNone_iff_eq_none, ← Option.not_isSome, isSome_typeBehind?,
          Text.leadingBlanks, Text.drop_length_takeWhile] at missing
        rw [Text.skipBlanks] at typed
        rw [typed] at missing
        exact absurd missing Bool.false_ne_true
    · have member : count ∈ [(Text.leadingBlanks text).length] :=
        divided ▸ List.mem_append_right _ List.mem_cons_self
      exact List.mem_singleton.mp member
  refine ⟨all, ?_⟩
  rw [all, Text.leadingBlanks, Text.drop_length_takeWhile] at read
  obtain ⟨left, same, _⟩ := readReturnType?_eq_some read
  exact Text.takeWhile_of_ends ((Text.ends_dropWhile _ _).of_isPrefix ⟨left, same.symm⟩)

theorem findSome?_flatMap {α γ : Type} (list : List α) (expand : α → List γ)
    (choose : γ → Option β) :
    (list.flatMap expand).findSome? choose =
      list.findSome? fun item => (expand item).findSome? choose := by
  induction list with
  | nil => rfl
  | cons item list inductionHypothesis =>
    rw [List.flatMap_cons, List.findSome?_append, inductionHypothesis, List.findSome?_cons]
    cases (expand item).findSome? choose <;> rfl

theorem findSome?_macroLeads (finish : Nat → Text × Signature → β) (text : Text) :
    (macroLeads text).findSome? (typeBehind? finish text) =
      (exportMacroLengths text).findSome? fun length =>
        (passedBlanks 0 (Text.leadingBlanks (text.drop length)).length).findSome?
          (typeBehind? (fun count => finish (length + count)) (text.drop length)) := by
  rw [macroLeads, findSome?_flatMap]
  congr 1
  funext length
  rw [List.findSome?_map, typeBehind?_add]

/-- The return type looked for in a text starts behind a character of an identifier: a part of the
leading word is stripped, or the whole word and the type follows it at once. -/
def CutsType (text : Text) : Prop :=
  IsCut (Text.leadingWord text) (hasType (Text.skipBlanks (Text.skipWord text)) = true) ∨
    isExportMacro (Text.leadingWord text) = true ∧ Text.Ends Text.isBlank (Text.skipWord text) ∧
      hasType (Text.skipWord text) = true

theorem IsCut.mono {word : Text} {first second : Prop} (implies : second → first)
    (cut : IsCut word first) : IsCut word second := by
  rcases cut with goesOn | ⟨goesOn, notWhole⟩
  · exact Or.inl goesOn
  · exact Or.inr ⟨goesOn, fun both => notWhole ⟨both.1, implies both.2⟩⟩

theorem not_cutsType_of_leadingWord_eq_nil {text : Text} (none : Text.leadingWord text = []) :
    ¬CutsType text := by
  rw [CutsType, none]
  rintro (cut | ⟨isMacro, _⟩)
  · exact not_goesOnBehindMacro_nil cut.goesOnBehindMacro
  · exact nomatch isMacro

/-- What can be read behind a proper part of the leading word does not depend on the part. -/
theorem isSome_findSome?_of_lt (finish : Nat → Text × Signature → β) {text : Text} {length : Nat}
    (short : length < (Text.leadingWord text).length) :
    ((passedBlanks 0 (Text.leadingBlanks (text.drop length)).length).findSome?
        (typeBehind? finish (text.drop length))).isSome = true ↔
      (Signature.read? (Text.skipWord text)).isSome = true ∨
        hasType (Text.skipWord text) = true := by
  obtain ⟨divided, solid, inside⟩ := Text.drop_leadingWord short
  have notBlank : Text.Ends Text.isBlank (text.drop length) := by
    rw [divided]
    exact Text.ends_isBlank_of_isWord solid inside
  rw [Text.leadingBlanks, Text.takeWhile_of_ends notBlank, ← hasType_word_append solid inside,
    ← divided]
  have here := isSome_typeBehind? finish (text.drop length) 0
  rw [List.drop_zero] at here
  rw [← here, List.findSome?_isSome_iff]
  constructor
  · rintro ⟨count, member, read⟩
    obtain rfl : count = 0 := List.mem_singleton.mp member
    exact read
  · exact fun read => ⟨0, List.mem_singleton_self 0, read⟩

theorem hasType_of_skipBlanks {text : Text} (typed : hasType (Text.skipBlanks text) = true) :
    hasType text = true := by
  rw [← Text.leadingBlanks_append_skipBlanks text]
  exact hasType_append
    (fun c member => isTypeChar_of_isBlank (Text.isBlank_of_mem_leadingBlanks member)) typed

/-- A return type behind a whole word follows it at once exactly when the word is cut. -/
theorem leadingBlanks_skipWord_eq_nil_iff {text : Text}
    (isMacro : isExportMacro (Text.leadingWord text) = true)
    (typed : hasType (Text.skipBlanks (Text.skipWord text)) = true)
    (notCut : ¬IsCut (Text.leadingWord text)
      (hasType (Text.skipBlanks (Text.skipWord text)) = true)) :
    Text.leadingBlanks (Text.skipWord text) = [] ↔ CutsType text := by
  rw [CutsType, or_iff_right notCut, Text.leadingBlanks_eq_nil_iff]
  exact ⟨fun ends => ⟨isMacro, ends, hasType_of_skipBlanks typed⟩, fun both => both.2.1⟩

/-- A return type behind an export macro starts behind a character of an identifier exactly when
the word is cut. -/
theorem endsInWord_take_iff {finish : Nat → Text × Signature → β} {text : Text} {value : β}
    (found : (macroLeads text).findSome? (typeBehind? finish text) = some value) :
    ∃ length type signature, readReturnType? (text.drop length) = some (type, signature) ∧
      finish length (type, signature) = value ∧ text.take length ≠ [] ∧
      ((∃ c ∈ type, Text.isBlank c = false) → Text.leadingBlanks type = [] ∧
        (Text.endsInWord (text.take length) = true ↔ CutsType text)) := by
  rw [findSome?_macroLeads] at found
  obtain ⟨length, member, here, chosen⟩ := exists_of_findSome?_exportMacroLengths
    (fun length short => isSome_findSome?_of_lt (fun count => finish (length + count)) short) found
  obtain ⟨count, type, signature, read, finished, visibly⟩ := exists_of_findSome?_passedBlanks here
  have isMacro := isExportMacro_take member
  have solid : text.take length ≠ [] := by
    intro empty
    rw [empty] at isMacro
    exact nomatch isMacro
  rw [List.drop_drop] at read
  refine ⟨length + count, type, signature, read, finished, ?_, fun visible => ?_⟩
  · rw [List.take_add]
    exact List.append_ne_nil_of_left_ne_nil solid _
  · obtain ⟨rfl, tight⟩ := visibly visible
    refine ⟨tight, ?_⟩
    have cutAt : text.take (length + (Text.leadingBlanks (text.drop length)).length) =
        [] ++ text.take length ++ Text.leadingBlanks (text.drop length) := by
      rw [List.take_add, take_leadingBlanks (Nat.le_refl _), List.take_length, List.nil_append]
    rw [cutAt, endsInWord_append_macro rfl (Or.inr isMacro)
      (fun c => Text.isBlank_of_mem_leadingBlanks), iff_true_intro solid, true_and]
    have behind := Text.drop_length_leadingWord text
    by_cases short : length < (Text.leadingWord text).length
    · obtain ⟨divided, left, inside⟩ := Text.drop_leadingWord short
      have notBlank : Text.Ends Text.isBlank (text.drop length) := by
        rw [divided]
        exact Text.ends_isBlank_of_isWord left inside
      refine iff_of_true (Text.takeWhile_of_ends notBlank)
        (Or.inl ((chosen.mp short).2.mono fun typed => ?_))
      rw [behind]
      exact isSome_findSome?_passedBlanks _ 0 typed
    · obtain ⟨front, isPrefix, wordIsMacro, rfl⟩ := mem_exportMacroLengths_iff.mp member
      obtain rfl : front = Text.leadingWord text :=
        isPrefix.eq_of_length (Nat.le_antisymm isPrefix.length_le (Nat.not_lt.mp short))
      rw [behind] at read chosen here ⊢
      have typed : hasType (Text.skipBlanks (Text.skipWord text)) = true := by
        rw [← List.drop_drop, behind, Text.leadingBlanks, Text.drop_length_takeWhile] at read
        exact Option.isSome_of_mem read
      -- Had the word been cut, a part of it would have been stripped.
      refine leadingBlanks_skipWord_eq_nil_iff wordIsMacro typed fun cut => short (chosen.mpr ?_)
      exact ⟨Or.inr (hasType_of_skipBlanks typed), cut.mono fun _ => typed⟩

theorem not_cutsType_of_findSome?_eq_none {finish : Nat → Text × Signature → β} {text : Text}
    (typed : hasType text = true)
    (missing : (macroLeads text).findSome? (typeBehind? finish text) = none) :
    ¬CutsType text := by
  by_cases noWord : Text.leadingWord text = []
  · exact not_cutsType_of_leadingWord_eq_nil noWord
  · rw [findSome?_macroLeads] at missing
    obtain ⟨noPart, notWhole⟩ := not_goesOnBehindMacro_of_findSome?_eq_none
      (fun length short => isSome_findSome?_of_lt (fun count => finish (length + count)) short)
      missing
    have able := (hasType_word_append noWord fun c => Text.isWord_of_mem_leadingWord).mp
      ((Text.leadingWord_append_skipWord text).symm ▸ typed)
    rintro (cut | ⟨isMacro, ends, typedAtOnce⟩)
    · exact noPart able cut.goesOnBehindMacro
    · have none := notWhole isMacro
      rw [Text.drop_length_leadingWord, ← Option.isNone_iff_eq_none, ← Option.not_isSome,
        isSome_findSome?_passedBlanks] at none
      · exact nomatch none
      · rw [Text.skipBlanks, Text.dropWhile_of_ends ends]
        exact typedAtOnce

theorem hasType_of_findSome?_macroLeads {finish : Nat → Text × Signature → β} {text : Text}
    {value : β} (found : (macroLeads text).findSome? (typeBehind? finish text) = some value) :
    hasType text = true := by
  obtain ⟨length, member, read⟩ := List.exists_of_findSome?_eq_some found
  obtain ⟨_, exportMacro, blanks, divided, isMacro, blank⟩ := isLead_of_mem_macroLeads member
  rw [← List.take_append_drop length text]
  refine hasType_append ?_ ((isSome_typeBehind? finish text length).symm.trans
    (Option.isSome_of_mem read))
  have isLead : IsLead [] exportMacro blanks := ⟨Or.inl rfl, Or.inr isMacro, blank⟩
  exact divided ▸ isLead.isTypeChar

end Types

/-! ### Functions -/

/-- The text behind a qualifier and the blanks there, when a return type can be read in it. -/
def behindQualifier? (text qualifier : Text) : Option Text :=
  (Text.after? qualifier text).bind fun behind =>
    if (Text.leadingBlanks behind).isEmpty || !hasType (Text.skipBlanks behind) then none
    else some (Text.skipBlanks behind)

/-- Where an export macro is looked for in a function declaration: behind its qualifier, if it has
one that is not itself the return type. -/
def behindQualifiers (text : Text) : Text :=
  (qualifiers.findSome? (behindQualifier? text)).getD text

theorem behindQualifier?_eq_some_iff {text qualifier behind : Text} :
    behindQualifier? text qualifier = some behind ↔
      ∃ gap, gap ≠ [] ∧ (∀ c ∈ gap, Text.isBlank c = true) ∧ Text.Ends Text.isBlank behind ∧
        text = qualifier ++ (gap ++ behind) ∧ hasType behind = true := by
  rw [behindQualifier?, Option.bind_eq_some_iff]
  constructor
  · rintro ⟨rest, opened, found⟩
    obtain rfl := Text.after?_eq_some_iff.mp opened
    split at found
    · exact nomatch found
    · rename_i both
      simp only [Bool.or_eq_true, List.isEmpty_iff, Bool.not_eq_true', not_or,
        Bool.not_eq_false] at both
      obtain rfl := Option.some.inj found
      exact ⟨_, both.1, fun c => Text.isBlank_of_mem_leadingBlanks, Text.ends_dropWhile _ _,
        by rw [Text.leadingBlanks_append_skipBlanks], both.2⟩
  · rintro ⟨gap, solid, blank, ends, rfl, typed⟩
    refine ⟨gap ++ behind, Text.after?_eq_some_iff.mpr rfl, ?_⟩
    rw [Text.leadingBlanks, Text.skipBlanks, Text.takeWhile_append_of_ends blank ends,
      Text.dropWhile_append_of_ends blank ends, typed, List.isEmpty_eq_false_iff.mpr solid]
    rfl

theorem behindQualifiers_eq {text qualifier behind : Text} (listed : qualifier ∈ qualifiers)
    (found : behindQualifier? text qualifier = some behind) : behindQualifiers text = behind := by
  have apart : ∀ first ∈ qualifiers, ∀ second ∈ qualifiers,
      Text.startsWith first second = true → first = second := by decide
  have some : (qualifiers.findSome? (behindQualifier? text)).isSome = true :=
    List.findSome?_isSome_iff.mpr ⟨qualifier, listed, Option.isSome_of_mem found⟩
  obtain ⟨other, first⟩ := Option.isSome_iff_exists.mp some
  obtain ⟨second, secondListed, secondFound⟩ := List.exists_of_findSome?_eq_some first
  have begins : ∀ {word rest : Text}, behindQualifier? text word = .some rest → word <+: text := by
    intro word rest here
    obtain ⟨gap, _, _, _, same, _⟩ := behindQualifier?_eq_some_iff.mp here
    exact ⟨_, same.symm⟩
  have same : qualifier = second := by
    rcases List.prefix_or_prefix_of_prefix (begins found) (begins secondFound) with shorter | longer
    · exact apart _ listed _ secondListed (Text.startsWith_iff.mpr shorter)
    · exact (apart _ secondListed _ listed (Text.startsWith_iff.mpr longer)).symm
  rw [behindQualifiers, first, Option.getD_some]
  rw [same, secondFound] at found
  exact Option.some.inj found

/-- Where nothing is read behind a qualifier, an export macro is looked for at the very start. -/
theorem behindQualifiers_eq_self {β : Type} {finish : Nat → Text × Signature → β} {text : Text}
    (missing : (qualifiers.flatMap (qualifiedLeads text)).findSome? (typeBehind? finish text) =
      none) : behindQualifiers text = text := by
  have none : qualifiers.findSome? (behindQualifier? text) = none := by
    refine List.findSome?_eq_none_iff.mpr fun qualifier listed => ?_
    refine Option.eq_none_iff_forall_ne_some.mpr fun behind found => ?_
    obtain ⟨gap, solid, blank, ends, rfl, typed⟩ := behindQualifier?_eq_some_iff.mp found
    have member : qualifier.length + gap.length ∈
        qualifiers.flatMap (qualifiedLeads (qualifier ++ (gap ++ behind))) := by
      refine List.mem_flatMap.mpr ⟨qualifier, listed, ?_⟩
      rw [qualifiedLeads_append solid blank ends]
      exact List.mem_append_right _ (List.mem_map_of_mem (mem_passedBlanks_self _ _))
    have nothing := List.findSome?_eq_none_iff.mp missing _ member
    rw [← Option.isNone_iff_eq_none, ← Option.not_isSome, isSome_typeBehind?, ← List.append_assoc,
      ← List.length_append, List.drop_left, typed] at nothing
    exact nomatch nothing
  rw [behindQualifiers, none, Option.getD_none]

namespace FunctionDeclaration

/-- The declaration whose lead are the first `length` characters of the text. -/
def withLead (text : Text) (length : Nat) (parts : Text × Signature) : FunctionDeclaration :=
  ⟨text.take length, parts.1, parts.2⟩

theorem read?_eq (text : Text) :
    read? text = (leads text).findSome? (typeBehind? (withLead text) text) := rfl

theorem endsInWord_lead_iff_of_qualified {before text qualifier : Text}
    {declaration : FunctionDeclaration} (listed : qualifier ∈ qualifiers)
    (read : (qualifiedLeads text qualifier).findSome? (typeBehind? (withLead text) text) =
      some declaration)
    (visible : ∃ c ∈ declaration.returnType, Text.isBlank c = false) :
    Text.leadingBlanks declaration.returnType = [] ∧
      (Text.endsInWord (before ++ declaration.lead) = true ↔ CutsType (behindQualifiers text)) := by
  obtain ⟨gap, behind, solid, blank, ends, rfl⟩ : ∃ gap behind, gap ≠ [] ∧
      (∀ c ∈ gap, Text.isBlank c = true) ∧ Text.Ends Text.isBlank behind ∧
      text = qualifier ++ (gap ++ behind) := by
    by_contra missing
    rw [qualifiedLeads_eq_nil missing] at read
    exact nomatch read
  have entry : hasType behind = true → behindQualifiers (qualifier ++ (gap ++ behind)) = behind :=
    fun typed => behindQualifiers_eq listed
      (behindQualifier?_eq_some_iff.mpr ⟨gap, solid, blank, ends, rfl, typed⟩)
  have dropped : (qualifier ++ (gap ++ behind)).drop (qualifier.length + gap.length) = behind := by
    rw [← List.append_assoc, ← List.length_append, List.drop_left]
  have taken : ∀ count,
      (qualifier ++ (gap ++ behind)).take (qualifier.length + gap.length + count) =
        qualifier ++ gap ++ behind.take count := by
    intro count
    rw [← List.append_assoc, ← List.length_append, List.take_length_add_append]
  rw [qualifiedLeads_append solid blank ends, List.findSome?_append, List.findSome?_map,
    List.findSome?_map, typeBehind?_add, typeBehind?_add, dropped, List.drop_left] at read
  rcases Option.or_eq_some_iff.mp read with withMacro | ⟨noMacro, plain⟩
  · rw [entry (hasType_of_findSome?_macroLeads withMacro)]
    obtain ⟨length, type, signature, _, rfl, stripped, visibly⟩ := endsInWord_take_iff withMacro
    obtain ⟨tight, cut⟩ := visibly visible
    refine ⟨tight, ?_⟩
    rw [← cut, withLead, taken, ← List.append_assoc, Text.endsInWord_append stripped]
  · have counted : gap.length = (Text.leadingBlanks (gap ++ behind)).length := by
      rw [Text.leadingBlanks, Text.takeWhile_append_of_ends blank ends]
    rw [counted] at plain
    obtain ⟨count, type, signature, typed, rfl, visibly⟩ := exists_of_findSome?_passedBlanks plain
    obtain ⟨rfl, tight⟩ := visibly visible
    rw [← counted, List.drop_left] at typed
    have hasOne : hasType behind = true := Option.isSome_of_mem typed
    refine ⟨tight, ?_⟩
    have lead := taken 0
    rw [Nat.add_zero, List.take_zero, List.append_nil] at lead
    rw [entry hasOne, ← counted, withLead, lead, ← List.append_assoc,
      Text.endsInWord_append_blanks blank fun empty => absurd empty solid]
    exact iff_of_false Bool.false_ne_true (not_cutsType_of_findSome?_eq_none hasOne noMacro)

/-- The return type of a declaration that follows no character of an identifier starts behind one
exactly when an export macro is cut out of a word, or follows no blank. -/
theorem endsInWord_lead_iff {before text : Text} {declaration : FunctionDeclaration}
    (outside : Text.endsInWord before = false) (read : read? text = some declaration)
    (visible : ∃ c ∈ declaration.returnType, Text.isBlank c = false) :
    Text.leadingBlanks declaration.returnType = [] ∧
      (Text.endsInWord (before ++ declaration.lead) = true ↔ CutsType (behindQualifiers text)) := by
  rw [read?_eq, leads, List.findSome?_append] at read
  rcases Option.or_eq_some_iff.mp read with found | ⟨noMacro, blank⟩
  · rw [List.findSome?_append] at found
    rcases Option.or_eq_some_iff.mp found with qualified | ⟨noQualifier, withMacro⟩
    · rw [findSome?_flatMap] at qualified
      obtain ⟨qualifier, listed, here⟩ := List.exists_of_findSome?_eq_some qualified
      exact endsInWord_lead_iff_of_qualified listed here visible
    · obtain ⟨length, type, signature, _, rfl, solid, visibly⟩ := endsInWord_take_iff withMacro
      rw [behindQualifiers_eq_self noQualifier]
      obtain ⟨tight, cut⟩ := visibly visible
      exact ⟨tight, by rw [← cut, withLead, Text.endsInWord_append solid]⟩
  · obtain ⟨noQualifier, noMacro⟩ := Option.or_eq_none_iff.mp (List.findSome?_append ▸ noMacro)
    obtain ⟨count, type, signature, typed, rfl, visibly⟩ := exists_of_findSome?_passedBlanks blank
    obtain ⟨rfl, tight⟩ := visibly visible
    have notCut : ¬CutsType text := by
      by_cases start : Text.Ends Text.isBlank text
      · rw [Text.leadingBlanks, Text.takeWhile_of_ends start] at typed
        exact not_cutsType_of_findSome?_eq_none (Option.isSome_of_mem typed) noMacro
      · refine not_cutsType_of_leadingWord_eq_nil (Text.takeWhile_of_ends ?_)
        rw [← Text.leadingBlanks_eq_nil_iff] at start
        rw [← Text.leadingBlanks_append_skipBlanks text]
        exact Text.ends_isWord_append start fun c => Text.isBlank_of_mem_leadingBlanks
    refine ⟨tight, ?_⟩
    rw [behindQualifiers_eq_self noQualifier, withLead, take_leadingBlanks (Nat.le_refl _),
      List.take_length, Text.endsInWord_append_blanks
        (fun c => Text.isBlank_of_mem_leadingBlanks) fun _ => outside]
    exact iff_of_false Bool.false_ne_true notCut

/-- The number of characters of a declaration before the first one of its return type that is not
blank. -/
def typeOffset (declaration : FunctionDeclaration) : Nat :=
  declaration.lead.length + (Text.leadingBlanks declaration.returnType).length

theorem endsInWord_text (declaration : FunctionDeclaration) :
    Text.endsInWord declaration.text = false := by
  rw [FunctionDeclaration.text, Signature.text, ← List.append_assoc, ← List.append_assoc,
    Text.endsInWord_append (List.cons_ne_nil _ _)]
  rfl

/-- Where no declaration begins, the search passes over the characters of a type, or over one
character of none. -/
theorem drop_advance_or {text : Text} (missing : recognizer.read? text = none) (more : text ≠ []) :
    Text.Ends isTypeChar (text.drop (recognizer.advance text)) ∨
      Text.endsInWord (text.take (recognizer.advance text)) = false := by
  rw [Recognizer.advance_of_read?_eq_none missing]
  cases text with
  | nil => exact absurd rfl more
  | cons c text =>
    show Text.Ends isTypeChar
        ((c :: text).drop (max 1 ((c :: text).takeWhile isTypeChar).length)) ∨
      Text.endsInWord
        ((c :: text).take (max 1 ((c :: text).takeWhile isTypeChar).length)) = false
    by_cases typical : isTypeChar c = true
    · left
      have run : 1 ≤ ((c :: text).takeWhile isTypeChar).length := by
        rw [List.takeWhile_cons_of_pos typical, List.length_cons]
        exact Nat.succ_pos _
      rw [Nat.max_eq_right run, Text.drop_length_takeWhile]
      exact Text.ends_dropWhile _ _
    · right
      rw [List.takeWhile_cons_of_neg typical]
      refine Text.endsInWord_of_forall (List.cons_ne_nil _ _) (List.forall_mem_singleton.mpr ?_)
      exact Bool.eq_false_iff.mpr fun word => typical (isTypeChar_of_isWord word)

/-- The search for functions comes to stand behind a character of an identifier only where no
declaration begins. -/
theorem endsInWord_of_reaches {text before rest : Text}
    (reaches : recognizer.Reaches text before rest) :
    Text.endsInWord before = false ∨ Text.Ends isTypeChar rest := by
  induction reaches with
  | start => exact Or.inl rfl
  | @step before rest _ more _ =>
    have solid : rest.take (recognizer.advance rest) ≠ [] := by
      rw [ne_eq, List.take_eq_nil_iff, not_or]
      exact ⟨Nat.pos_iff_ne_zero.mp (recognizer.advance_pos rest), more⟩
    rw [Text.endsInWord_append solid]
    cases found : recognizer.read? rest with
    | some declaration =>
      obtain ⟨left, rfl⟩ := text_of_read? found
      have length : recognizer.advance (declaration.text ++ left) = declaration.text.length :=
        (Recognizer.advance_of_read? found).trans
          (Nat.max_eq_right (List.length_pos_iff.mpr declaration.text_ne_nil))
      rw [length, List.take_left]
      exact Or.inl declaration.endsInWord_text
    | none => exact (drop_advance_or found more).symm

end FunctionDeclaration

/-! ### All finds -/

/-- A name, or a return type, starts in the middle of an identifier exactly when a proper part of a
word is stripped as an export macro. For a class, the part is stripped if it is known by name, or if
the whole word is no export macro with a name behind it; for a struct, if no other word follows; for
a function, as for a class, and also when a whole macro has a return type right behind it. -/
theorem starts_in_identifier_iff (text : Text) :
    (∀ find ∈ ClassDeclaration.recognizer.search text,
      Text.isBehindWord text (find.start + find.value.nameOffset) = true ↔
        IsCut (Text.leadingWord (behindKeyword ClassDeclaration.keyword (text.drop find.start)))
          (secondWord (behindKeyword ClassDeclaration.keyword (text.drop find.start)) ≠ [])) ∧
    (∀ find ∈ StructDeclaration.recognizer.search text,
      Text.isBehindWord text (find.start + find.value.nameOffset) = true ↔
        GoesOnBehindMacro
            (Text.leadingWord (behindKeyword StructDeclaration.keyword (text.drop find.start))) ∧
          secondWord (behindKeyword StructDeclaration.keyword (text.drop find.start)) = []) ∧
    (∀ find ∈ FunctionDeclaration.recognizer.search text,
      (∃ c ∈ find.value.returnType, Text.isBlank c = false) →
        (Text.isBehindWord text (find.start + find.value.typeOffset) = true ↔
          CutsType (behindQualifiers (text.drop find.start)))) := by
  refine ⟨fun find member => ?_, fun find member => ?_, fun find member visible => ?_⟩
  · obtain ⟨before, rest, reaches, start, read⟩ := Recognizer.reaches_of_mem_search member
    rw [reaches.eq, ← start, List.drop_left, ← ClassDeclaration.innerGap_eq_nil_iff read]
    obtain ⟨behind, rfl, isHead, _⟩ := ClassDeclaration.read?_eq_some read
    exact isHead.isBehindWord_iff before ClassDeclaration.keyword
  · obtain ⟨before, rest, reaches, start, read⟩ := Recognizer.reaches_of_mem_search member
    rw [reaches.eq, ← start, List.drop_left, ← StructDeclaration.innerGap_eq_nil_iff read]
    obtain ⟨behind, rfl, isHead, _⟩ := StructDeclaration.read?_eq_some read
    exact isHead.isBehindWord_iff before StructDeclaration.keyword
  · obtain ⟨before, rest, reaches, start, read⟩ := Recognizer.reaches_of_mem_search member
    have outside : Text.endsInWord before = false := by
      refine (FunctionDeclaration.endsInWord_of_reaches reaches).resolve_right fun ends => ?_
      have opened := FunctionDeclaration.parenthesis_mem_of_read? read
      rw [Text.takeWhile_of_ends ends] at opened
      exact absurd opened List.not_mem_nil
    obtain ⟨tight, cut⟩ := FunctionDeclaration.endsInWord_lead_iff outside read visible
    rw [reaches.eq, ← start, List.drop_left, ← cut, FunctionDeclaration.typeOffset, tight,
      List.length_nil, Nat.add_zero]
    obtain ⟨behind, rfl, _⟩ := FunctionDeclaration.read?_eq_some read
    rw [List.append_assoc, ← List.append_assoc, ← List.length_append,
      Text.isBehindWord_append_length]

/-- One find of each kind: two for which a word is cut and one for which a whole word is
stripped. -/
theorem starts_in_identifier_iff_manager :
    (Text.isBehindWord "class MY_API_Manager;".toList 12 = true ↔
        IsCut "MY_API_Manager".toList ([] ≠ ([] : Text))) ∧
      (Text.isBehindWord "struct MY_API Manager \x7b".toList 14 = true ↔
        GoesOnBehindMacro "MY_API".toList ∧ "Manager".toList = []) ∧
      (Text.isBehindWord "inline MY_APIint Size();".toList 13 = true ↔
        CutsType "MY_APIint Size();".toList) :=
  ⟨(starts_in_identifier_iff "class MY_API_Manager;".toList).1
      ⟨0, ⟨" ".toList, "MY_API".toList, [], "_Manager".toList, none⟩⟩ (by decide +kernel),
    (starts_in_identifier_iff "struct MY_API Manager \x7b".toList).2.1
      ⟨0, ⟨" ".toList, "MY_API".toList, " ".toList, "Manager".toList, " \x7b".toList⟩⟩
      (by decide +kernel),
    (starts_in_identifier_iff "inline MY_APIint Size();".toList).2.2
      ⟨0, ⟨"inline MY_API".toList, "int".toList, ⟨" ".toList, "Size".toList, [], [], []⟩⟩⟩
      (by decide +kernel) ⟨'i', by decide, rfl⟩⟩

/-- The names of a class and a struct and the return type of a function that start in the middle of
an identifier. -/
theorem name_starts_in_identifier :
    (∃ find ∈ ClassDeclaration.recognizer.search "class MY_API_Manager;".toList,
      find.value.name = "_Manager".toList ∧
        Text.isBehindWord "class MY_API_Manager;".toList
          (find.start + find.value.nameOffset) = true) ∧
    (∃ find ∈ StructDeclaration.recognizer.search "struct MY_API_Manager \x7b".toList,
      find.value.name = "_Manager".toList ∧
        Text.isBehindWord "struct MY_API_Manager \x7b".toList
          (find.start + find.value.nameOffset) = true) ∧
    (∃ find ∈ FunctionDeclaration.recognizer.search "MY_APIManager Find();".toList,
      find.value.returnType = "Manager".toList ∧
        Text.isBehindWord "MY_APIManager Find();".toList
          (find.start + find.value.typeOffset) = true) := by
  decide +kernel

end Header

end EngineDocs
