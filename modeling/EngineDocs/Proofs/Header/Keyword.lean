/-
This file shows what is read of the declarations that open with a keyword. Classes and structs are
read alike up to the end of their names, so this part has one description for both: a keyword,
blanks, an export macro or none, blanks and a whole remainder of a word as the name. What is read
stands at the start of the text, character by character.
-/

import EngineDocs.Header.Enum
import EngineDocs.Header.Struct
import EngineDocs.Proofs.Header.ExportMacro

namespace EngineDocs.Header

/-! ### Keyword, export macro and name -/

section Headed

variable {β : Type}

/-- Reads the name behind the first `length` characters of `body` and the blanks there. The macro,
the blanks, the name and the text behind it go to `finish`, which may refuse them. -/
def nameBehind? (finish : (exportMacro innerGap name behind : Text) → Option β) (body : Text)
    (length : Nat) : Option β :=
  match Text.leadingWord (Text.skipBlanks (body.drop length)) with
  | [] => none
  | name =>
    finish (body.take length) (Text.leadingBlanks (body.drop length)) name
      (Text.skipWord (Text.skipBlanks (body.drop length)))

/-- Reads a keyword, blanks, and a name behind the first export macro with which the rest can be
read, or behind none. -/
def readHeaded? (keyword : Text)
    (finish : (gap exportMacro innerGap name behind : Text) → Option β) (text : Text) : Option β :=
  (Text.after? keyword text).bind fun rest =>
    if (Text.leadingBlanks rest).isEmpty then none
    else (exportMacroLengths (Text.skipBlanks rest) ++ [0]).findSome?
      (nameBehind? (finish (Text.leadingBlanks rest)) (Text.skipBlanks rest))

/-- The parts of a declaration up to the text behind its name. -/
structure IsHead (gap exportMacro innerGap name behind : Text) : Prop where
  gap_ne_nil : gap ≠ []
  gap_blank : ∀ c ∈ gap, Text.isBlank c = true
  exportMacro : exportMacro = [] ∨ isExportMacro exportMacro = true
  innerGap_blank : ∀ c ∈ innerGap, Text.isBlank c = true
  name_ne_nil : name ≠ []
  name_word : ∀ c ∈ name, Text.isWord c = true
  ends : Text.Ends Text.isWord behind

theorem nameBehind?_eq_some {finish : Text → Text → Text → Text → Option β} {body : Text}
    {length : Nat} {value : β} (read : nameBehind? finish body length = some value) :
    ∃ innerGap name behind, body.drop length = innerGap ++ name ++ behind ∧
      (∀ c ∈ innerGap, Text.isBlank c = true) ∧ name ≠ [] ∧
      (∀ c ∈ name, Text.isWord c = true) ∧ Text.Ends Text.isWord behind ∧
      finish (body.take length) innerGap name behind = some value := by
  rw [nameBehind?] at read
  split at read
  · exact nomatch read
  · rename_i solid
    refine ⟨_, _, Text.skipWord (Text.skipBlanks (body.drop length)), ?_,
      fun c => Text.isBlank_of_mem_leadingBlanks, solid, fun c => Text.isWord_of_mem_leadingWord,
      Text.ends_dropWhile _ _, read⟩
    rw [List.append_assoc, Text.leadingWord_append_skipWord, Text.leadingBlanks_append_skipBlanks]

theorem findSome?_of_readHeaded? {keyword text : Text}
    {finish : Text → Text → Text → Text → Text → Option β} {value : β}
    (read : readHeaded? keyword finish text = some value) :
    ∃ gap body, text = keyword ++ (gap ++ body) ∧ gap ≠ [] ∧
      (∀ c ∈ gap, Text.isBlank c = true) ∧ Text.Ends Text.isBlank body ∧
      (exportMacroLengths body ++ [0]).findSome? (nameBehind? (finish gap) body) = some value := by
  obtain ⟨rest, opened, named⟩ := Option.bind_eq_some_iff.mp read
  obtain rfl := Text.after?_eq_some_iff.mp opened
  split at named
  · exact nomatch named
  · rename_i gap
    exact ⟨Text.leadingBlanks rest, Text.skipBlanks rest,
      by rw [Text.leadingBlanks_append_skipBlanks], fun empty => gap (List.isEmpty_iff.mpr empty),
      fun c => Text.isBlank_of_mem_leadingBlanks, Text.ends_dropWhile _ _, named⟩

theorem readHeaded?_eq_some {keyword text : Text}
    {finish : Text → Text → Text → Text → Text → Option β} {value : β}
    (read : readHeaded? keyword finish text = some value) :
    ∃ gap exportMacro innerGap name behind,
      text = keyword ++ gap ++ exportMacro ++ innerGap ++ name ++ behind ∧
        IsHead gap exportMacro innerGap name behind ∧
        finish gap exportMacro innerGap name behind = some value := by
  obtain ⟨gap, body, rfl, gapSolid, gapBlank, _, named⟩ := findSome?_of_readHeaded? read
  obtain ⟨length, candidate, found⟩ := List.exists_of_findSome?_eq_some named
  obtain ⟨innerGap, name, behind, divided, innerBlank, solid, inside, ends, finished⟩ :=
    nameBehind?_eq_some found
  refine ⟨gap, body.take length, innerGap, name, behind, ?_,
    ⟨gapSolid, gapBlank, ?_, innerBlank, solid, inside, ends⟩, finished⟩
  · simp only [List.append_assoc] at divided ⊢
    rw [← divided, List.take_append_drop]
  · rcases List.mem_append.mp candidate with member | zero
    · exact Or.inr (isExportMacro_take member)
    · rw [List.mem_singleton.mp zero]
      exact Or.inl rfl

/-- Behind a proper part of the leading word, what is left of the word is the name. -/
theorem nameBehind?_of_lt {finish : Text → Text → Text → Text → Option β} {body : Text}
    {length : Nat} (short : length < (Text.leadingWord body).length) :
    nameBehind? finish body length =
      finish (body.take length) [] ((Text.leadingWord body).drop length) (Text.skipWord body) := by
  obtain ⟨divided, solid, inside⟩ := Text.drop_leadingWord short
  have notBlank : Text.Ends Text.isBlank (body.drop length) := by
    rw [divided]
    exact Text.ends_isBlank_of_isWord solid inside
  have ends : Text.Ends Text.isWord (Text.skipWord body) := Text.ends_dropWhile _ _
  rw [nameBehind?, Text.skipBlanks, Text.dropWhile_of_ends notBlank, Text.leadingBlanks,
    Text.takeWhile_of_ends notBlank, divided, Text.leadingWord,
    Text.takeWhile_append_of_ends inside ends, Text.skipWord,
    Text.dropWhile_append_of_ends inside ends]
  split
  · exact absurd ‹_› solid
  · rfl

/-- A name that has no export macro in it is read as a whole. -/
theorem readHeaded?_append {keyword gap name behind : Text}
    (finish : Text → Text → Text → Text → Text → Option β) (gapSolid : gap ≠ [])
    (gapBlank : ∀ c ∈ gap, Text.isBlank c = true) (solid : name ≠ [])
    (inside : ∀ c ∈ name, Text.isWord c = true) (noMacro : ¬exportSuffix <:+: name)
    (ends : Text.Ends Text.isWord behind) :
    readHeaded? keyword finish (keyword ++ (gap ++ (name ++ behind))) =
      finish gap [] [] name behind := by
  have opened : Text.after? keyword (keyword ++ (gap ++ (name ++ behind))) =
      some (gap ++ (name ++ behind)) := Text.after?_eq_some_iff.mpr rfl
  have notBlank : Text.Ends Text.isBlank (name ++ behind) :=
    Text.ends_isBlank_of_isWord solid inside
  have word : Text.leadingWord (name ++ behind) = name :=
    Text.takeWhile_append_of_ends inside ends
  have plain : exportMacroLengths (name ++ behind) = [] :=
    exportMacroLengths_eq_nil (word.symm ▸ noMacro)
  have short : 0 < (Text.leadingWord (name ++ behind)).length := by
    rw [word]
    exact List.length_pos_iff.mpr solid
  rw [readHeaded?, opened, Option.bind_some, Text.leadingBlanks, Text.skipBlanks,
    Text.takeWhile_append_of_ends gapBlank notBlank,
    Text.dropWhile_append_of_ends gapBlank notBlank,
    if_neg (by rw [List.isEmpty_iff]; exact gapSolid), plain, List.nil_append, List.findSome?_cons,
    nameBehind?_of_lt short, word, Text.skipWord, Text.dropWhile_append_of_ends inside ends,
    List.take_zero, List.drop_zero]
  cases finish gap [] [] name behind <;> rfl

end Headed

/-! ### Classes -/

namespace BaseClause

/-- The clause with the given blanks before its colon. -/
def behindColon? (blanks afterColon : Text) : Option BaseClause :=
  accessSpecifiers.findSome? fun specifier =>
    (Text.after? specifier (Text.skipBlanks afterColon)).bind fun rest =>
      (divide? rest).bind fun (gap, list) =>
        some ⟨blanks ++ ':' :: Text.leadingBlanks afterColon ++ specifier ++ gap, list⟩

theorem read?_eq (text : Text) :
    read? text = (Text.after? [':'] (Text.skipBlanks text)).bind
      (behindColon? (Text.leadingBlanks text)) := by
  rw [read?]
  split
  · rename_i afterColon colon
    rw [colon]
    rfl
  · rename_i other
    cases opened : Text.after? [':'] (Text.skipBlanks text) with
    | none => rfl
    | some afterColon => exact absurd (Text.after?_eq_some_iff.mp opened) (other afterColon)

theorem divide?_eq_some {text blanks list : Text} (divided : divide? text = some (blanks, list)) :
    blanks ++ list <+: text := by
  rw [divide?] at divided
  split at divided
  · exact nomatch divided
  · rename_i read _
    obtain ⟨rfl, rfl⟩ := Prod.mk.inj (Option.some.inj divided)
    rw [← read]
    conv => rhs; rw [← Text.leadingBlanks_append_skipBlanks text]
    exact (List.prefix_append_right_inj _).mpr (List.takeWhile_prefix _)
  · exact nomatch divided
  · obtain ⟨rfl, rfl⟩ := Prod.mk.inj (Option.some.inj divided)
    rw [List.dropLast_eq_take, List.take_append_drop]
    exact List.takeWhile_prefix _

theorem text_of_read? {text : Text} {clause : BaseClause} (read : read? text = some clause) :
    clause.text <+: text := by
  rw [read?] at read
  split at read
  · rename_i afterColon colon
    obtain ⟨specifier, _, read⟩ := List.exists_of_findSome?_eq_some read
    obtain ⟨rest, specified, read⟩ := Option.bind_eq_some_iff.mp read
    obtain ⟨⟨blanks, list⟩, divided, same⟩ := Option.bind_eq_some_iff.mp read
    obtain rfl := Option.some.inj same
    have behind : Text.skipBlanks afterColon = specifier ++ rest :=
      Text.after?_eq_some_iff.mp specified
    obtain ⟨left, rfl⟩ := divide?_eq_some divided
    refine ⟨left, ?_⟩
    conv => rhs; rw [← Text.leadingBlanks_append_skipBlanks text, colon,
      ← Text.leadingBlanks_append_skipBlanks afterColon, behind]
    simp only [BaseClause.text, List.append_assoc, List.cons_append]
  · exact nomatch read

end BaseClause

namespace ClassDeclaration

/-- The declaration with the given parts, and with the base clause behind its name if there is
one. -/
def ofParts (gap exportMacro innerGap name behind : Text) : Option ClassDeclaration :=
  some { gap, exportMacro, innerGap, name, bases := BaseClause.read? behind }

theorem read?_eq (text : Text) : read? text = readHeaded? keyword ofParts text := rfl

theorem read?_eq_some {text : Text} {declaration : ClassDeclaration}
    (read : read? text = some declaration) :
    ∃ behind, text = declaration.headText ++ behind ∧
      IsHead declaration.gap declaration.exportMacro declaration.innerGap declaration.name behind ∧
      declaration.bases = BaseClause.read? behind := by
  rw [read?_eq] at read
  obtain ⟨gap, exportMacro, innerGap, name, behind, rfl, isHead, finished⟩ :=
    readHeaded?_eq_some read
  obtain rfl := Option.some.inj finished
  exact ⟨behind, rfl, isHead, rfl⟩

theorem text_of_read? {text : Text} {declaration : ClassDeclaration}
    (read : read? text = some declaration) : declaration.text <+: text := by
  obtain ⟨behind, rfl, _, bases⟩ := read?_eq_some read
  refine (List.prefix_append_right_inj _).mpr ?_
  rw [bases]
  cases clause : BaseClause.read? behind with
  | none => exact List.nil_prefix
  | some clause => exact BaseClause.text_of_read? ‹_›

end ClassDeclaration

/-! ### Structs -/

namespace StructDeclaration

/-- What may stand between the name of a struct and its body, the brace included. -/
structure IsOpening (blanks bases : Text) : Prop where
  blanks : ∀ c ∈ blanks, Text.isBlank c = true
  bases : bases = [] ∨ ∃ list, list ≠ [] ∧ (∀ c ∈ list, isBaseListChar c = true) ∧
    bases = ':' :: list

theorem isOpening_of_readOpening? {text opening : Text} (read : readOpening? text = some opening) :
    (∃ blanks bases, opening = blanks ++ bases ++ ['{'] ∧ IsOpening blanks bases) ∧
      opening <+: text := by
  have whole := Text.leadingBlanks_append_skipBlanks text
  have blank : ∀ c ∈ Text.leadingBlanks text, Text.isBlank c = true := fun c =>
    Text.isBlank_of_mem_leadingBlanks
  rw [readOpening?] at read
  split at read
  · rename_i rest brace
    rw [← Option.some.inj read]
    refine ⟨⟨_, [], by rw [List.append_nil], blank, Or.inl rfl⟩, rest, ?_⟩
    rw [List.append_assoc, List.singleton_append, ← brace, whole]
  · rename_i rest colon
    dsimp only at read
    split at read
    · rename_i left solid behind
      rw [← Option.some.inj read]
      refine ⟨⟨_, _, rfl, blank, Or.inr ⟨rest.takeWhile isBaseListChar, ?_,
        fun c => List.mem_takeWhile_imp, rfl⟩⟩, left, ?_⟩
      · exact solid ▸ List.cons_ne_nil _ _
      · rw [Text.drop_length_takeWhile] at behind
        rw [List.append_assoc, List.singleton_append, ← behind, List.append_assoc,
          List.cons_append, List.takeWhile_append_dropWhile, ← colon, whole]
    · exact nomatch read
  · exact nomatch read

theorem readOpening?_append {blanks bases : Text} (isOpening : IsOpening blanks bases)
    (rest : Text) :
    readOpening? (blanks ++ bases ++ '{' :: rest) = some (blanks ++ bases ++ ['{']) := by
  have brace : Text.Ends Text.isBlank ('{' :: rest) := Text.ends_cons.mpr rfl
  have colon : ∀ more, Text.Ends Text.isBlank (':' :: more) := fun _ => Text.ends_cons.mpr rfl
  rcases isOpening.bases with rfl | ⟨list, solid, inside, rfl⟩
  · simp only [readOpening?, List.append_nil, Text.leadingBlanks, Text.skipBlanks,
      Text.takeWhile_append_of_ends isOpening.blanks brace,
      Text.dropWhile_append_of_ends isOpening.blanks brace]
  · have stop : Text.Ends isBaseListChar ('{' :: rest) := Text.ends_cons.mpr rfl
    simp only [readOpening?, List.append_assoc, List.cons_append, Text.leadingBlanks,
      Text.skipBlanks, Text.takeWhile_append_of_ends isOpening.blanks (colon _),
      Text.dropWhile_append_of_ends isOpening.blanks (colon _),
      Text.takeWhile_append_of_ends inside stop, List.drop_left]
    cases list with
    | nil => exact absurd rfl solid
    | cons c list => rfl

/-- An opening is read exactly when the text begins with it. -/
theorem readOpening?_eq_some_iff {text opening : Text} :
    readOpening? text = some opening ↔
      (∃ blanks bases, opening = blanks ++ bases ++ ['{'] ∧ IsOpening blanks bases) ∧
        opening <+: text := by
  constructor
  · exact isOpening_of_readOpening?
  · rintro ⟨⟨blanks, bases, rfl, isOpening⟩, rest, rfl⟩
    rw [List.append_assoc, List.singleton_append]
    exact readOpening?_append isOpening rest

/-- The definition with the given parts, when its body opens behind its name. -/
def ofParts (gap exportMacro innerGap name behind : Text) : Option StructDeclaration :=
  (readOpening? behind).map fun opening => { gap, exportMacro, innerGap, name, opening }

theorem read?_eq (text : Text) : read? text = readHeaded? keyword ofParts text := rfl

theorem read?_eq_some {text : Text} {declaration : StructDeclaration}
    (read : read? text = some declaration) :
    ∃ behind, text = keyword ++ declaration.gap ++ declaration.exportMacro ++
        declaration.innerGap ++ declaration.name ++ behind ∧
      IsHead declaration.gap declaration.exportMacro declaration.innerGap declaration.name behind ∧
      readOpening? behind = some declaration.opening := by
  rw [read?_eq] at read
  obtain ⟨gap, exportMacro, innerGap, name, behind, rfl, isHead, finished⟩ :=
    readHeaded?_eq_some read
  obtain ⟨opening, opened, rfl⟩ := Option.map_eq_some_iff.mp finished
  exact ⟨behind, rfl, isHead, opened⟩

theorem text_of_read? {text : Text} {declaration : StructDeclaration}
    (read : read? text = some declaration) : declaration.text <+: text := by
  obtain ⟨behind, rfl, _, opened⟩ := read?_eq_some read
  exact (List.prefix_append_right_inj _).mpr (isOpening_of_readOpening? opened).2

end StructDeclaration

/-! ### Enumerations -/

namespace EnumDeclaration

/-- The characters of an enumeration behind its lead. -/
def namedText (declaration : EnumDeclaration) : Text :=
  declaration.name ++ declaration.gap ++ '{' :: declaration.body ++ ['}']

theorem text_eq (declaration : EnumDeclaration) :
    declaration.text = keyword ++ declaration.lead ++ declaration.namedText := by
  simp only [EnumDeclaration.text, namedText, List.append_assoc]

/-- The parts of an enumeration behind its lead, as far as each is determined by itself. -/
structure WellFormed (declaration : EnumDeclaration) : Prop where
  name_ne_nil : declaration.name ≠ []
  name_word : ∀ c ∈ declaration.name, Text.isWord c = true
  gap_blank : ∀ c ∈ declaration.gap, Text.isBlank c = true
  body_ne_nil : declaration.body ≠ []
  body_open : '}' ∉ declaration.body

theorem wellFormed_of_readNamed? {lead text : Text} {declaration : EnumDeclaration}
    (read : readNamed? lead text = some declaration) :
    declaration.lead = lead ∧ declaration.WellFormed ∧ declaration.namedText <+: text := by
  rw [readNamed?] at read
  split at read
  · exact nomatch read
  · rename_i name
    dsimp only at read
    split at read
    · rename_i inside brace
      split at read
      · rename_i left body closed
        obtain rfl := Option.some.inj read
        refine ⟨rfl, ⟨name, fun c => Text.isWord_of_mem_leadingWord,
          fun c => Text.isBlank_of_mem_leadingBlanks, ?_, ?_⟩, left, ?_⟩
        · exact body ▸ List.cons_ne_nil _ _
        · exact Text.not_mem_takeWhile '}' inside
        · rw [Text.drop_length_takeWhile] at closed
          have word := Text.leadingWord_append_skipWord text
          rw [← Text.leadingBlanks_append_skipBlanks (Text.skipWord text), brace,
            ← @List.takeWhile_append_dropWhile _ (· != '}') inside, closed] at word
          conv => rhs; rw [← word]
          simp only [namedText, List.append_assoc, List.cons_append, List.nil_append]
      · exact nomatch read
    · exact nomatch read

theorem readNamed?_namedText_append {declaration : EnumDeclaration}
    (wellFormed : declaration.WellFormed) (rest : Text) :
    readNamed? declaration.lead (declaration.namedText ++ rest) = some declaration := by
  obtain ⟨lead, name, gap, body⟩ := declaration
  obtain ⟨nameSolid, nameWord, gapBlank, bodySolid, openBody⟩ := wellFormed
  dsimp only at nameSolid nameWord gapBlank bodySolid openBody
  have brace : ∀ more, Text.Ends Text.isBlank ('{' :: more) := fun _ => Text.ends_cons.mpr rfl
  have word : ∀ more, Text.Ends Text.isWord (gap ++ '{' :: more) := fun _ =>
    Text.ends_isWord_of_isBlank gapBlank (Text.ends_cons.mpr rfl)
  have whole : (⟨lead, name, gap, body⟩ : EnumDeclaration).namedText ++ rest =
      name ++ (gap ++ '{' :: (body ++ '}' :: rest)) := by
    simp only [namedText, List.append_assoc, List.cons_append, List.nil_append]
  rw [whole, readNamed?]
  simp only [Text.leadingBlanks, Text.skipBlanks, Text.leadingWord, Text.skipWord,
    Text.takeWhile_append_of_ends nameWord (word _),
    Text.dropWhile_append_of_ends nameWord (word _),
    Text.takeWhile_append_of_ends gapBlank (brace _),
    Text.dropWhile_append_of_ends gapBlank (brace _),
    Text.takeWhile_append_mark openBody, List.drop_left]
  cases body with
  | nil => exact absurd rfl bodySolid
  | cons c body => rfl

/-- A name and a body are read exactly when the text begins with them. -/
theorem readNamed?_eq_some_iff {lead text : Text} {declaration : EnumDeclaration} :
    readNamed? lead text = some declaration ↔
      declaration.lead = lead ∧ declaration.WellFormed ∧ declaration.namedText <+: text := by
  constructor
  · exact wellFormed_of_readNamed?
  · rintro ⟨rfl, wellFormed, rest, rfl⟩
    exact readNamed?_namedText_append wellFormed rest

theorem scope?_eq_some {text scope : Text} (read : scope? text = some scope) :
    ∃ blanks behind, scope = "class".toList ++ blanks ∧ text = scope ++ behind ∧ blanks ≠ [] ∧
      (∀ c ∈ blanks, Text.isBlank c = true) ∧ Text.Ends Text.isBlank behind := by
  obtain ⟨rest, opened, found⟩ := Option.bind_eq_some_iff.mp read
  obtain rfl := Text.after?_eq_some_iff.mp opened
  split at found
  · exact nomatch found
  · rename_i some
    obtain rfl := Option.some.inj found
    refine ⟨_, Text.skipBlanks rest, rfl, ?_, some, fun c => Text.isBlank_of_mem_leadingBlanks,
      Text.ends_dropWhile _ _⟩
    rw [List.append_assoc, Text.leadingBlanks_append_skipBlanks]

/-- What is read of an enumeration, with the blanks behind its keyword and what stands between
these and its name. -/
theorem read?_eq_some {text : Text} {declaration : EnumDeclaration}
    (read : read? text = some declaration) :
    ∃ gap scope behind, text = keyword ++ (gap ++ (scope ++ behind)) ∧ gap ≠ [] ∧
      (∀ c ∈ gap, Text.isBlank c = true) ∧
      (∀ c ∈ scope, Text.isWord c = true ∨ Text.isBlank c = true) ∧
      declaration.lead = gap ++ scope ∧ declaration.WellFormed ∧
      declaration.namedText <+: behind := by
  obtain ⟨rest, opened, found⟩ := Option.bind_eq_some_iff.mp read
  obtain rfl := Text.after?_eq_some_iff.mp opened
  have whole := Text.leadingBlanks_append_skipBlanks rest
  dsimp only at found
  split at found
  · exact nomatch found
  · rename_i gap
    have solid : Text.leadingBlanks rest ≠ [] := fun empty => gap (List.isEmpty_iff.mpr empty)
    have blank : ∀ c ∈ Text.leadingBlanks rest, Text.isBlank c = true := fun c =>
      Text.isBlank_of_mem_leadingBlanks
    rcases Option.or_eq_some_iff.mp found with withScope | ⟨_, plain⟩
    · obtain ⟨scope, isScope, named⟩ := Option.bind_eq_some_iff.mp withScope
      obtain ⟨blanks, behind, form, same, _, spaced, _⟩ := scope?_eq_some isScope
      rw [same, List.drop_left] at named
      refine ⟨_, scope, behind, by rw [← same, whole], solid, blank, fun c member => ?_,
        wellFormed_of_readNamed? named⟩
      rw [form] at member
      rcases List.mem_append.mp member with word | space
      · have letters : ∀ c ∈ "class".toList, Text.isWord c = true := by decide
        exact Or.inl (letters c word)
      · exact Or.inr (spaced c space)
    · refine ⟨_, [], Text.skipBlanks rest, by rw [List.nil_append, whole], solid, blank, nofun, ?_⟩
      rw [List.append_nil]
      exact wellFormed_of_readNamed? plain

theorem text_of_read? {text : Text} {declaration : EnumDeclaration}
    (read : read? text = some declaration) : declaration.text <+: text := by
  obtain ⟨gap, scope, behind, rfl, _, _, _, lead, _, begins⟩ := read?_eq_some read
  rw [text_eq, lead, List.append_assoc, List.append_assoc]
  exact (List.prefix_append_right_inj _).mpr
    ((List.prefix_append_right_inj _).mpr ((List.prefix_append_right_inj _).mpr begins))

/-- An enumeration that is not scoped is read whatever follows it. Where its name is the word `class`
the search for a scope finds this word, but no name is left behind it. -/
theorem read?_text_append {declaration : EnumDeclaration} (wellFormed : declaration.WellFormed)
    (solid : declaration.lead ≠ []) (blank : ∀ c ∈ declaration.lead, Text.isBlank c = true)
    (rest : Text) : read? (declaration.text ++ rest) = some declaration := by
  have opened : Text.after? keyword
      (keyword ++ (declaration.lead ++ (declaration.namedText ++ rest))) =
      some (declaration.lead ++ (declaration.namedText ++ rest)) := Text.after?_eq_some_iff.mpr rfl
  have named : declaration.namedText ++ rest = declaration.name ++
      (declaration.gap ++ '{' :: (declaration.body ++ '}' :: rest)) := by
    simp only [namedText, List.append_assoc, List.cons_append, List.nil_append]
  have brace : Text.Ends Text.isBlank ('{' :: (declaration.body ++ '}' :: rest)) :=
    Text.ends_cons.mpr rfl
  have ends : Text.Ends Text.isWord (declaration.gap ++ '{' :: (declaration.body ++ '}' :: rest)) :=
    Text.ends_isWord_of_isBlank wellFormed.gap_blank (Text.ends_cons.mpr rfl)
  have start : Text.Ends Text.isBlank (declaration.namedText ++ rest) := by
    rw [named]
    exact Text.ends_isBlank_of_isWord wellFormed.name_ne_nil wellFormed.name_word
  have unscoped : ((scope? (declaration.namedText ++ rest)).bind fun scope =>
      readNamed? (declaration.lead ++ scope)
        ((declaration.namedText ++ rest).drop scope.length)) = none := by
    refine Option.bind_eq_none_iff.mpr fun scope found => ?_
    obtain ⟨blanks, behind, rfl, same, some, spaced, stop⟩ := scope?_eq_some found
    have letters : ∀ c ∈ "class".toList, Text.isWord c = true := by decide
    have word : Text.skipWord (declaration.namedText ++ rest) = blanks ++ behind := by
      rw [same, List.append_assoc]
      exact Text.dropWhile_append_of_ends letters (Text.ends_isWord_append some spaced)
    have left : Text.skipBlanks (blanks ++ behind) = behind :=
      Text.dropWhile_append_of_ends spaced stop
    -- Behind the scope stands what stands behind the name and its gap: the brace.
    rw [same, List.drop_left, ← left, ← word, named, Text.skipWord,
      Text.dropWhile_append_of_ends wellFormed.name_word ends, Text.skipBlanks,
      Text.dropWhile_append_of_ends wellFormed.gap_blank brace]
    rfl
  rw [text_eq, List.append_assoc, List.append_assoc, read?, opened]
  simp only [Option.bind_eq_bind, Option.bind_some, Text.leadingBlanks, Text.skipBlanks,
    Text.takeWhile_append_of_ends blank start, Text.dropWhile_append_of_ends blank start, unscoped,
    Option.none_or, readNamed?_namedText_append wellFormed rest]
  exact if_neg fun empty => solid (List.isEmpty_iff.mp empty)

end EnumDeclaration

end EngineDocs.Header
