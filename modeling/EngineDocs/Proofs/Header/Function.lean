/-
This file shows what is read of a function declaration. A signature is read exactly when the text
begins with one, and a return type exactly when a signature follows it somewhere behind characters
of a type. All characters before the parameter list may belong to a type, those of the lead
included, so every declaration has its opening parenthesis in the first run of such characters.
-/

import EngineDocs.Header.Function
import EngineDocs.Proofs.Header.ExportMacro

namespace EngineDocs.Header

/-! ### Signatures -/

namespace Signature

/-- The parts of a signature, as far as each of them is determined by itself. -/
structure WellFormed (signature : Signature) : Prop where
  gap_ne_nil : signature.gap ≠ []
  gap_blank : ∀ c ∈ signature.gap, Text.isBlank c = true
  name_ne_nil : signature.name ≠ []
  name_word : ∀ c ∈ signature.name, Text.isWord c = true
  innerGap_blank : ∀ c ∈ signature.innerGap, Text.isBlank c = true
  parameters_open : ')' ∉ signature.parameters
  closingGap_blank : ∀ c ∈ signature.closingGap, Text.isBlank c = true

theorem wellFormed_of_read? {text : Text} {signature : Signature}
    (read : read? text = some signature) : signature.WellFormed ∧ signature.text <+: text := by
  rw [read?] at read
  split at read
  · exact nomatch read
  · rename_i gap
    dsimp only at read
    split at read
    · exact nomatch read
    · rename_i name
      split at read
      · rename_i inside opened
        split at read
        · rename_i closing closed
          split at read
          · rename_i rest ended
            obtain rfl := Option.some.inj read
            refine ⟨⟨gap, fun c => Text.isBlank_of_mem_leadingBlanks, name,
              fun c => Text.isWord_of_mem_leadingWord,
              fun c => Text.isBlank_of_mem_leadingBlanks, ?_,
              fun c => Text.isBlank_of_mem_leadingBlanks⟩, rest, ?_⟩
            · exact Text.not_mem_takeWhile ')' inside
            · rw [Text.drop_length_takeWhile] at closed
              have whole := Text.leadingBlanks_append_skipBlanks text
              rw [← Text.leadingWord_append_skipWord (Text.skipBlanks text),
                ← Text.leadingBlanks_append_skipBlanks (Text.skipWord (Text.skipBlanks text)),
                opened, ← @List.takeWhile_append_dropWhile _ (· != ')') inside, closed,
                ← Text.leadingBlanks_append_skipBlanks closing, ended] at whole
              conv => rhs; rw [← whole]
              simp only [Signature.text, List.append_assoc, List.cons_append, List.nil_append]
          · exact nomatch read
        · exact nomatch read
      · exact nomatch read

theorem read?_text_append {signature : Signature} (wellFormed : signature.WellFormed)
    (rest : Text) : read? (signature.text ++ rest) = some signature := by
  obtain ⟨gap, name, innerGap, parameters, closingGap⟩ := signature
  obtain ⟨gapSolid, gapBlank, nameSolid, nameWord, innerBlank, openParameters, closingBlank⟩ :=
    wellFormed
  dsimp only at gapSolid gapBlank nameSolid nameWord innerBlank openParameters closingBlank
  have semicolon : Text.Ends Text.isBlank (';' :: rest) := Text.ends_cons.mpr rfl
  have parenthesis : ∀ more, Text.Ends Text.isBlank ('(' :: more) := fun _ =>
    Text.ends_cons.mpr rfl
  have word : ∀ more, Text.Ends Text.isWord (innerGap ++ '(' :: more) := fun _ =>
    Text.ends_isWord_of_isBlank innerBlank (Text.ends_cons.mpr rfl)
  have named : ∀ more, Text.Ends Text.isBlank (name ++ more) := fun _ =>
    Text.ends_isBlank_of_isWord nameSolid nameWord
  have whole : (⟨gap, name, innerGap, parameters, closingGap⟩ : Signature).text ++ rest =
      gap ++ (name ++ (innerGap ++ '(' :: (parameters ++ ')' :: (closingGap ++ ';' :: rest)))) := by
    simp only [Signature.text, List.append_assoc, List.cons_append, List.nil_append]
  rw [whole, read?]
  simp only [Text.leadingBlanks, Text.skipBlanks, Text.leadingWord, Text.skipWord,
    Text.takeWhile_append_of_ends gapBlank (named _),
    Text.dropWhile_append_of_ends gapBlank (named _),
    Text.takeWhile_append_of_ends nameWord (word _),
    Text.dropWhile_append_of_ends nameWord (word _),
    Text.takeWhile_append_of_ends innerBlank (parenthesis _),
    Text.dropWhile_append_of_ends innerBlank (parenthesis _),
    Text.takeWhile_append_mark openParameters, List.drop_left,
    Text.takeWhile_append_of_ends closingBlank semicolon,
    Text.dropWhile_append_of_ends closingBlank semicolon]

/-- A signature is read exactly when the text begins with it. -/
theorem read?_eq_some_iff {text : Text} {signature : Signature} :
    read? text = some signature ↔ signature.WellFormed ∧ signature.text <+: text := by
  constructor
  · exact wellFormed_of_read?
  · rintro ⟨wellFormed, rest, rfl⟩
    exact read?_text_append wellFormed rest

theorem read?_eq_none_of_ends {text : Text} (ends : Text.Ends Text.isBlank text) :
    read? text = none := by
  rw [read?, Text.leadingBlanks, Text.takeWhile_of_ends ends]

end Signature

/-! ### Return types -/

theorem isTypeChar_of_isWord {c : Char} (word : Text.isWord c = true) : isTypeChar c = true := by
  simp only [isTypeChar, word, Bool.true_or]

theorem isTypeChar_of_isBlank {c : Char} (blank : Text.isBlank c = true) :
    isTypeChar c = true := by
  simp only [isTypeChar, blank, Bool.or_true, Bool.true_or]

theorem Signature.parenthesis_mem_of_read? {text : Text} {signature : Signature}
    (read : Signature.read? text = some signature) : '(' ∈ text.takeWhile isTypeChar := by
  obtain ⟨wellFormed, left, rfl⟩ := wellFormed_of_read? read
  have typical : ∀ c ∈ signature.gap ++ signature.name ++ signature.innerGap,
      isTypeChar c = true := by
    simp only [List.forall_mem_append]
    exact ⟨⟨fun c member => isTypeChar_of_isBlank (wellFormed.gap_blank c member),
      fun c member => isTypeChar_of_isWord (wellFormed.name_word c member)⟩,
      fun c member => isTypeChar_of_isBlank (wellFormed.innerGap_blank c member)⟩
  have whole : signature.text ++ left = signature.gap ++ signature.name ++ signature.innerGap ++
      '(' :: (signature.parameters ++ ')' :: signature.closingGap ++ [';'] ++ left) := by
    simp only [Signature.text, List.append_assoc, List.cons_append, List.nil_append]
  rw [whole, List.takeWhile_append_of_pos typical, List.takeWhile_cons_of_pos rfl]
  exact List.mem_append_right _ List.mem_cons_self

theorem readReturnType?_eq_some {text type : Text} {signature : Signature}
    (read : readReturnType? text = some (type, signature)) :
    ∃ rest, text = type ++ rest ∧ type ≠ [] ∧ (∀ c ∈ type, isTypeChar c = true) ∧
      Signature.read? rest = some signature := by
  induction text generalizing type with
  | nil => exact nomatch read
  | cons c text inductionHypothesis =>
    rw [readReturnType?] at read
    split at read
    · rename_i typical
      split at read
      · rename_i found
        obtain ⟨rfl, rfl⟩ := Prod.mk.inj (Option.some.inj read)
        exact ⟨text, rfl, List.cons_ne_nil _ _, List.forall_mem_singleton.mpr typical, found⟩
      · obtain ⟨⟨shorter, same⟩, later, equal⟩ := Option.map_eq_some_iff.mp read
        obtain ⟨rfl, rfl⟩ := Prod.mk.inj equal
        obtain ⟨rest, rfl, _, inside, found⟩ := inductionHypothesis later
        exact ⟨rest, rfl, List.cons_ne_nil _ _, List.forall_mem_cons.mpr ⟨typical, inside⟩, found⟩
    · exact nomatch read

theorem readReturnType?_isSome {type rest : Text} (solid : type ≠ [])
    (inside : ∀ c ∈ type, isTypeChar c = true) (found : (Signature.read? rest).isSome = true) :
    (readReturnType? (type ++ rest)).isSome = true := by
  induction type with
  | nil => exact absurd rfl solid
  | cons c type inductionHypothesis =>
    obtain ⟨typical, inside⟩ := List.forall_mem_cons.mp inside
    rw [List.cons_append, readReturnType?, if_pos typical]
    split
    · rfl
    · rename_i missing
      rw [Option.isSome_map]
      refine inductionHypothesis ?_ inside
      rintro rfl
      rw [List.nil_append] at missing
      rw [missing] at found
      exact nomatch found

/-- The shortest return type is read: behind a type without blanks, a signature that follows at
once is the one that is read. -/
theorem readReturnType?_append {type rest : Text} {signature : Signature} (solid : type ≠ [])
    (inside : ∀ c ∈ type, isTypeChar c = true ∧ Text.isBlank c = false)
    (found : Signature.read? rest = some signature) :
    readReturnType? (type ++ rest) = some (type, signature) := by
  induction type with
  | nil => exact absurd rfl solid
  | cons c type inductionHypothesis =>
    obtain ⟨⟨typical, _⟩, inside⟩ := List.forall_mem_cons.mp inside
    rw [List.cons_append, readReturnType?, if_pos typical]
    cases type with
    | nil => rw [List.nil_append, found]
    | cons next type =>
      have stop : Text.Ends Text.isBlank (next :: type ++ rest) :=
        Text.ends_cons.mpr (inside next List.mem_cons_self).2
      rw [Signature.read?_eq_none_of_ends stop,
        inductionHypothesis (List.cons_ne_nil _ _) inside]
      rfl

/-- Whether a return type and a signature behind it can be read at the start of a text. -/
def hasType (text : Text) : Bool := (readReturnType? text).isSome

theorem hasType_cons {c : Char} {text : Text} :
    hasType (c :: text) = true ↔
      isTypeChar c = true ∧ ((Signature.read? text).isSome = true ∨ hasType text = true) := by
  rw [hasType, readReturnType?]
  split
  · rename_i typical
    rw [iff_true_intro typical, true_and]
    split
    · rename_i signature found
      exact iff_of_true rfl (Or.inl (Option.isSome_of_mem found))
    · rename_i missing
      rw [Option.isSome_map, missing]
      exact (or_iff_right Bool.false_ne_true).symm
  · rename_i other
    exact iff_of_false Bool.false_ne_true fun both => other both.1

/-- What can be read behind a word at its place does not depend on the word. -/
theorem hasType_word_append {word rest : Text} (solid : word ≠ [])
    (inside : ∀ c ∈ word, Text.isWord c = true) :
    hasType (word ++ rest) = true ↔
      (Signature.read? rest).isSome = true ∨ hasType rest = true := by
  induction word with
  | nil => exact absurd rfl solid
  | cons c word inductionHypothesis =>
    obtain ⟨isWord, inside⟩ := List.forall_mem_cons.mp inside
    rw [List.cons_append, hasType_cons, iff_true_intro (isTypeChar_of_isWord isWord), true_and]
    by_cases empty : word = []
    · rw [empty, List.nil_append]
    · rw [inductionHypothesis empty inside,
        Signature.read?_eq_none_of_ends (Text.ends_isBlank_of_isWord empty inside)]
      exact or_iff_right Bool.false_ne_true

theorem hasType_append {front rest : Text} (inside : ∀ c ∈ front, isTypeChar c = true)
    (typed : hasType rest = true) : hasType (front ++ rest) = true := by
  induction front with
  | nil => exact typed
  | cons c front inductionHypothesis =>
    obtain ⟨typical, inside⟩ := List.forall_mem_cons.mp inside
    exact hasType_cons.mpr ⟨typical, Or.inr (inductionHypothesis inside)⟩

/-- A return type cannot be read where no parenthesis opens among the characters of a type. -/
theorem parenthesis_mem_of_hasType {text : Text} (typed : hasType text = true) :
    '(' ∈ text.takeWhile isTypeChar := by
  obtain ⟨⟨type, signature⟩, read⟩ := Option.isSome_iff_exists.mp typed
  obtain ⟨rest, rfl, _, inside, signed⟩ := readReturnType?_eq_some read
  rw [List.takeWhile_append_of_pos inside]
  exact List.mem_append_right _ (Signature.parenthesis_mem_of_read? signed)

/-! ### Leads -/

/-- What may stand before a return type: a qualifier with blanks, an export macro and blanks, each
of which may be missing. -/
structure IsLead (qualification exportMacro blanks : Text) : Prop where
  qualification : qualification = [] ∨ ∃ qualifier ∈ qualifiers, ∃ gap, gap ≠ [] ∧
    (∀ c ∈ gap, Text.isBlank c = true) ∧ qualification = qualifier ++ gap
  exportMacro : exportMacro = [] ∨ isExportMacro exportMacro = true
  blanks : ∀ c ∈ blanks, Text.isBlank c = true

theorem IsLead.isTypeChar {qualification exportMacro blanks : Text}
    (isLead : IsLead qualification exportMacro blanks) :
    ∀ c ∈ qualification ++ exportMacro ++ blanks, isTypeChar c = true := by
  have words : ∀ qualifier ∈ qualifiers, ∀ c ∈ qualifier, Text.isWord c = true := by decide
  simp only [List.forall_mem_append]
  refine ⟨⟨?_, ?_⟩, fun c member => isTypeChar_of_isBlank (isLead.blanks c member)⟩
  · rcases isLead.qualification with none | ⟨qualifier, listed, gap, _, blank, same⟩
    · rw [none]
      exact nofun
    · rw [same]
      exact List.forall_mem_append.mpr
        ⟨fun c member => isTypeChar_of_isWord (words qualifier listed c member),
          fun c member => isTypeChar_of_isBlank (blank c member)⟩
  · rcases isLead.exportMacro with none | isMacro
    · rw [none]
      exact nofun
    · exact fun c member => isTypeChar_of_isWord ((isExportMacro_iff.mp isMacro).2.2 c member)

theorem le_of_mem_passedBlanks {least blanks count : Nat}
    (member : count ∈ passedBlanks least blanks)
    (enough : least ≤ blanks) : least ≤ count ∧ count ≤ blanks := by
  rw [passedBlanks] at member
  split at member
  · rcases List.mem_cons.mp member with rfl | member
    · omega
    · obtain rfl := List.mem_singleton.mp member
      omega
  · obtain rfl := List.mem_singleton.mp member
    omega

theorem take_leadingBlanks {text : Text} {count : Nat}
    (few : count ≤ (Text.leadingBlanks text).length) :
    text.take count = (Text.leadingBlanks text).take count := by
  conv => lhs; rw [← Text.leadingBlanks_append_skipBlanks text]
  exact List.take_append_of_le_length few

theorem isLead_of_mem_macroLeads {text : Text} {length : Nat} (member : length ∈ macroLeads text) :
    length ≤ text.length ∧ ∃ exportMacro blanks, text.take length = exportMacro ++ blanks ∧
      isExportMacro exportMacro = true ∧ ∀ c ∈ blanks, Text.isBlank c = true := by
  obtain ⟨size, candidate, passed⟩ := List.mem_flatMap.mp member
  obtain ⟨count, counted, rfl⟩ := List.mem_map.mp passed
  obtain ⟨_, few⟩ := le_of_mem_passedBlanks counted (Nat.zero_le _)
  have short := le_of_mem_exportMacroLengths candidate
  have inside : (Text.leadingBlanks (text.drop size)).length ≤ (text.drop size).length :=
    (List.takeWhile_prefix _).length_le
  rw [List.length_drop] at inside
  refine ⟨by omega, text.take size, (text.drop size).take count, List.take_add,
    isExportMacro_take candidate, ?_⟩
  intro c listed
  rw [take_leadingBlanks few] at listed
  exact Text.isBlank_of_mem_leadingBlanks (List.mem_of_mem_take listed)

theorem isLead_of_mem_qualifiedLeads {text qualifier : Text} {length : Nat}
    (listed : qualifier ∈ qualifiers) (member : length ∈ qualifiedLeads text qualifier) :
    length ≤ text.length ∧ ∃ qualification exportMacro blanks,
      text.take length = qualification ++ exportMacro ++ blanks ∧
        IsLead qualification exportMacro blanks := by
  rw [qualifiedLeads] at member
  split at member
  · exact absurd member List.not_mem_nil
  · rename_i behind opened
    obtain rfl := Text.after?_eq_some_iff.mp opened
    dsimp only at member
    split at member
    · exact absurd member List.not_mem_nil
    · rename_i some
      have gap : 0 < (Text.leadingBlanks behind).length := by
        rw [beq_iff_eq] at some
        omega
      have inside : (Text.leadingBlanks behind).length ≤ behind.length :=
        (List.takeWhile_prefix _).length_le
      rw [List.length_append]
      rcases List.mem_append.mp member with withMacro | withoutMacro
      · obtain ⟨size, listedSize, rfl⟩ := List.mem_map.mp withMacro
        obtain ⟨short, exportMacro, blanks, same, isMacro, blank⟩ :=
          isLead_of_mem_macroLeads listedSize
        have entry : (qualifier ++ behind).take
            (qualifier.length + (Text.leadingBlanks behind).length) =
              qualifier ++ Text.leadingBlanks behind := by
          rw [List.take_length_add_append, take_leadingBlanks (Nat.le_refl _), List.take_length]
        rw [List.length_drop, List.length_append] at short
        refine ⟨by omega, qualifier ++ Text.leadingBlanks behind, exportMacro, blanks, ?_, ?_⟩
        · rw [List.take_add, entry, same, List.append_assoc (qualifier ++ _)]
        · exact ⟨Or.inr ⟨qualifier, listed, _, List.length_pos_iff.mp gap,
            fun c => Text.isBlank_of_mem_leadingBlanks, rfl⟩, Or.inr isMacro, blank⟩
      · obtain ⟨count, counted, rfl⟩ := List.mem_map.mp withoutMacro
        obtain ⟨least, few⟩ := le_of_mem_passedBlanks counted gap
        refine ⟨by omega, qualifier ++ (Text.leadingBlanks behind).take count, [], [], ?_, ?_⟩
        · rw [List.take_length_add_append, take_leadingBlanks few, List.append_nil,
            List.append_nil]
        · refine ⟨Or.inr ⟨qualifier, listed, _, ?_, fun c member =>
            Text.isBlank_of_mem_leadingBlanks (List.mem_of_mem_take member), rfl⟩,
            Or.inl rfl, nofun⟩
          rw [← List.length_pos_iff, List.length_take]
          omega

/-- Every lead that is tried is one, and lies within the text. -/
theorem isLead_of_mem_leads {text : Text} {length : Nat} (member : length ∈ leads text) :
    length ≤ text.length ∧ ∃ qualification exportMacro blanks,
      text.take length = qualification ++ exportMacro ++ blanks ∧
        IsLead qualification exportMacro blanks := by
  rw [leads, List.mem_append, List.mem_append] at member
  rcases member with (qualified | plain) | blank
  · obtain ⟨qualifier, listed, member⟩ := List.mem_flatMap.mp qualified
    exact isLead_of_mem_qualifiedLeads listed member
  · obtain ⟨short, exportMacro, blanks, same, isMacro, blank⟩ := isLead_of_mem_macroLeads plain
    exact ⟨short, [], exportMacro, blanks, same, Or.inl rfl, Or.inr isMacro, blank⟩
  · obtain ⟨_, few⟩ := le_of_mem_passedBlanks blank (Nat.zero_le _)
    refine ⟨few.trans (List.takeWhile_prefix _).length_le, [], [], text.take length, rfl,
      Or.inl rfl, Or.inl rfl, ?_⟩
    intro c listed
    rw [take_leadingBlanks few] at listed
    exact Text.isBlank_of_mem_leadingBlanks (List.mem_of_mem_take listed)

theorem qualifiedLeads_append {qualifier gap behind : Text} (solid : gap ≠ [])
    (blank : ∀ c ∈ gap, Text.isBlank c = true) (ends : Text.Ends Text.isBlank behind) :
    qualifiedLeads (qualifier ++ (gap ++ behind)) qualifier =
      (macroLeads behind).map (qualifier.length + gap.length + ·) ++
        (passedBlanks 1 gap.length).map (qualifier.length + ·) := by
  have opened : Text.after? qualifier (qualifier ++ (gap ++ behind)) = some (gap ++ behind) :=
    Text.after?_eq_some_iff.mpr rfl
  have some : ¬(gap.length == 0) = true := by
    rw [beq_iff_eq, List.length_eq_zero_iff]
    exact solid
  have dropped : (qualifier ++ (gap ++ behind)).drop (qualifier.length + gap.length) = behind := by
    rw [← List.append_assoc, ← List.length_append, List.drop_left]
  simp only [qualifiedLeads, opened, Text.leadingBlanks, Text.takeWhile_append_of_ends blank ends,
    dropped]
  exact if_neg some

theorem qualifiedLeads_eq_nil {text qualifier : Text} (missing : ¬∃ gap behind, gap ≠ [] ∧
      (∀ c ∈ gap, Text.isBlank c = true) ∧ Text.Ends Text.isBlank behind ∧
      text = qualifier ++ (gap ++ behind)) : qualifiedLeads text qualifier = [] := by
  rw [qualifiedLeads]
  split
  · rfl
  · rename_i behind opened
    dsimp only
    split
    · rfl
    · rename_i some
      rw [beq_iff_eq, List.length_eq_zero_iff] at some
      refine absurd ⟨_, _, some, fun c => Text.isBlank_of_mem_leadingBlanks,
        Text.ends_dropWhile Text.isBlank behind, ?_⟩ missing
      rw [← Text.skipBlanks, Text.leadingBlanks_append_skipBlanks]
      exact Text.after?_eq_some_iff.mp opened

/-! ### Declarations -/

namespace FunctionDeclaration

/-- What is read of a function declaration, part by part. -/
theorem read?_eq_some {text : Text} {declaration : FunctionDeclaration}
    (read : read? text = some declaration) :
    ∃ rest, text = declaration.lead ++ declaration.returnType ++ rest ∧
      (∃ qualification exportMacro blanks,
        declaration.lead = qualification ++ exportMacro ++ blanks ∧
          IsLead qualification exportMacro blanks) ∧
      declaration.returnType ≠ [] ∧ (∀ c ∈ declaration.returnType, isTypeChar c = true) ∧
      Signature.read? rest = some declaration.signature := by
  obtain ⟨length, candidate, found⟩ := List.exists_of_findSome?_eq_some read
  obtain ⟨⟨returnType, signature⟩, typed, rfl⟩ := Option.map_eq_some_iff.mp found
  obtain ⟨rest, divided, solid, inside, signed⟩ := readReturnType?_eq_some typed
  refine ⟨rest, ?_, (isLead_of_mem_leads candidate).2, solid, inside, signed⟩
  rw [List.append_assoc, ← divided, List.take_append_drop]

theorem text_ne_nil (declaration : FunctionDeclaration) : declaration.text ≠ [] :=
  List.append_ne_nil_of_right_ne_nil _ (List.append_ne_nil_of_right_ne_nil _ (List.cons_ne_nil _ _))

theorem text_of_read? {text : Text} {declaration : FunctionDeclaration}
    (read : read? text = some declaration) : declaration.text <+: text := by
  obtain ⟨rest, rfl, _, _, _, signed⟩ := read?_eq_some read
  exact (List.prefix_append_right_inj _).mpr (Signature.wellFormed_of_read? signed).2

/-- The opening parenthesis of a declaration stands in the first run of characters of a type. -/
theorem parenthesis_mem_of_read? {text : Text} {declaration : FunctionDeclaration}
    (read : read? text = some declaration) : '(' ∈ text.takeWhile isTypeChar := by
  obtain ⟨rest, rfl, ⟨_, _, _, lead, isLead⟩, _, inside, signed⟩ := read?_eq_some read
  have typical : ∀ c ∈ declaration.lead ++ declaration.returnType, isTypeChar c = true :=
    List.forall_mem_append.mpr ⟨lead ▸ isLead.isTypeChar, inside⟩
  rw [List.takeWhile_append_of_pos typical]
  exact List.mem_append_right _ (Signature.parenthesis_mem_of_read? signed)

end FunctionDeclaration

end EngineDocs.Header
