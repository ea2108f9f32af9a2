/-
This file shows that recognition is local: no declaration runs across the end of another one. A
semicolon belongs to no class and to no part of a struct that is read, a closing brace ends an
enumeration, and a closing parenthesis with a semicolon ends a function. What is read before such
a boundary is therefore the same whatever stands behind it, and the search goes on behind the
boundary as it would at the start of a text.
-/

import EngineDocs.Header
import EngineDocs.Proofs.Header.Function
import EngineDocs.Proofs.Header.Keyword
import EngineDocs.Proofs.Search

namespace EngineDocs

theorem findSome?_congr_of_mem {α β : Type} {list : List α} {first second : α → Option β}
    (same : ∀ item ∈ list, first item = second item) :
    list.findSome? first = list.findSome? second := by
  induction list with
  | nil => rfl
  | cons item list inductionHypothesis =>
    obtain ⟨here, later⟩ := List.forall_mem_cons.mp same
    rw [List.findSome?_cons, List.findSome?_cons, here, inductionHypothesis later]

namespace Header

/-! ### Classes and structs -/

section Headed

variable {β : Type} {c : Char}

theorem nameBehind?_append_stop (notWord : Text.isWord c = false)
    (notBlank : Text.isBlank c = false)
    {finish : Text → Text → Text → Text → Option β} {rest : Text}
    (independent : ∀ exportMacro innerGap name behind,
      finish exportMacro innerGap name (behind ++ c :: rest) =
        finish exportMacro innerGap name behind)
    {body : Text} {length : Nat} (inside : length ≤ body.length) :
    nameBehind? finish (body ++ c :: rest) length = nameBehind? finish body length := by
  rw [nameBehind?, nameBehind?, List.drop_append_of_le_length inside,
    List.take_append_of_le_length inside, Text.skipBlanks, Text.leadingBlanks,
    Text.dropWhile_append_stop notBlank, Text.takeWhile_append_stop notBlank, Text.leadingWord,
    Text.takeWhile_append_stop notWord, Text.skipWord, Text.dropWhile_append_stop notWord]
  simp only [independent]
  rfl

/-- A character that belongs to none of the parts bounds what is read up to the name. -/
theorem readHeaded?_append_stop {keyword : Text} (foreign : c ∉ keyword)
    (notWord : Text.isWord c = false) (notBlank : Text.isBlank c = false)
    {finish : Text → Text → Text → Text → Text → Option β} {rest : Text}
    (independent : ∀ gap exportMacro innerGap name behind,
      finish gap exportMacro innerGap name (behind ++ c :: rest) =
        finish gap exportMacro innerGap name behind)
    (text : Text) :
    readHeaded? keyword finish (text ++ c :: rest) = readHeaded? keyword finish text := by
  rw [readHeaded?, readHeaded?, Text.after?_append_stop foreign, Option.bind_map]
  refine congrArg (Option.bind _) (funext fun behind => ?_)
  rw [Function.comp_apply, Text.leadingBlanks, Text.takeWhile_append_stop notBlank,
    Text.skipBlanks, Text.dropWhile_append_stop notBlank, exportMacroLengths_append_stop notWord]
  refine if_congr Iff.rfl rfl (findSome?_congr_of_mem fun length member => ?_)
  refine nameBehind?_append_stop notWord notBlank (independent _) ?_
  rcases List.mem_append.mp member with candidate | zero
  · exact le_of_mem_exportMacroLengths candidate
  · rw [List.mem_singleton.mp zero]
    exact Nat.zero_le _

end Headed

namespace BaseClause

theorem divide?_append_semicolon (text rest : Text) :
    divide? (text ++ ';' :: rest) = divide? text := by
  rw [divide?, divide?, Text.leadingBlanks, Text.skipBlanks, Text.takeWhile_append_stop rfl,
    Text.dropWhile_append_stop rfl, Text.takeWhile_append_stop rfl]
  rfl

theorem read?_append_semicolon (text rest : Text) :
    read? (text ++ ';' :: rest) = read? text := by
  have clean : ∀ specifier ∈ accessSpecifiers, ';' ∉ specifier := by decide
  rw [read?_eq, read?_eq, Text.skipBlanks, Text.dropWhile_append_stop rfl, Text.leadingBlanks,
    Text.takeWhile_append_stop rfl, Text.after?_append_stop (by decide), Option.bind_map]
  refine congrArg (Option.bind _) (funext fun afterColon => ?_)
  refine findSome?_congr_of_mem fun specifier member => ?_
  dsimp only [Function.comp_apply]
  rw [Text.skipBlanks, Text.dropWhile_append_stop rfl, Text.leadingBlanks,
    Text.takeWhile_append_stop rfl, Text.after?_append_stop (clean specifier member),
    Option.bind_map]
  refine congrArg (Option.bind _) (funext fun behind => ?_)
  rw [Function.comp_apply, divide?_append_semicolon]
  rfl

end BaseClause

theorem ClassDeclaration.read?_append_semicolon (text rest : Text) :
    ClassDeclaration.read? (text ++ ';' :: rest) = ClassDeclaration.read? text := by
  rw [read?_eq, read?_eq]
  refine readHeaded?_append_stop (by decide) rfl rfl (fun _ _ _ _ behind => ?_) text
  rw [ofParts, ofParts, BaseClause.read?_append_semicolon]

namespace StructDeclaration

theorem readOpening?_append_semicolon (text rest : Text) :
    readOpening? (text ++ ';' :: rest) = readOpening? text := by
  refine Option.ext fun opening => ?_
  rw [readOpening?_eq_some_iff, readOpening?_eq_some_iff]
  refine and_congr_right ?_
  rintro ⟨blanks, bases, rfl, isOpening⟩
  refine Text.prefix_append_stop ?_
  simp only [List.mem_append, List.mem_singleton, not_or]
  refine ⟨⟨Text.not_mem_of_isBlank isOpening.blanks rfl, ?_⟩, by decide⟩
  rcases isOpening.bases with rfl | ⟨list, _, inside, rfl⟩
  · exact List.not_mem_nil
  · rw [List.mem_cons, not_or]
    exact ⟨by decide, fun member => absurd (inside _ member) (by decide)⟩

end StructDeclaration

theorem StructDeclaration.read?_append_semicolon (text rest : Text) :
    StructDeclaration.read? (text ++ ';' :: rest) = StructDeclaration.read? text := by
  rw [read?_eq, read?_eq]
  refine readHeaded?_append_stop (by decide) rfl rfl (fun _ _ _ _ behind => ?_) text
  rw [ofParts, ofParts, readOpening?_append_semicolon]

/-! ### Enumerations -/

namespace EnumDeclaration

theorem readNamed?_append_brace (lead text rest : Text) :
    readNamed? lead (text ++ '}' :: rest) = readNamed? lead (text ++ ['}']) := by
  refine Option.ext fun declaration => ?_
  rw [readNamed?_eq_some_iff, readNamed?_eq_some_iff]
  refine and_congr_right fun _ => and_congr_right fun wellFormed => ?_
  refine Text.concat_prefix_append_stop ?_
  simp only [List.mem_append, List.mem_cons, not_or]
  exact ⟨⟨Text.not_mem_of_isWord wellFormed.name_word rfl,
    Text.not_mem_of_isBlank wellFormed.gap_blank rfl⟩, by decide,
    wellFormed.body_open⟩

theorem scope?_append_brace (text rest : Text) : scope? (text ++ '}' :: rest) = scope? text := by
  have blanks : ∀ behind, Text.leadingBlanks (behind ++ '}' :: rest) = Text.leadingBlanks behind :=
    fun behind => Text.takeWhile_append_stop rfl behind rest
  rw [scope?, scope?, Text.after?_append_stop (by decide)]
  cases Text.after? "class".toList text with
  | none => rfl
  | some behind =>
    dsimp only [Option.map_some, Option.bind_eq_bind, Option.bind_some]
    rw [blanks]

theorem read?_append_brace (text rest : Text) :
    read? (text ++ '}' :: rest) = read? (text ++ ['}']) := by
  have leading : ∀ behind more,
      Text.leadingBlanks (behind ++ '}' :: more) = Text.leadingBlanks behind :=
    fun behind more => Text.takeWhile_append_stop rfl behind more
  have skipped : ∀ behind more,
      Text.skipBlanks (behind ++ '}' :: more) = Text.skipBlanks behind ++ '}' :: more :=
    fun behind more => Text.dropWhile_append_stop rfl behind more
  rw [read?, read?, Text.after?_append_stop (by decide), Text.after?_append_stop (by decide)]
  cases Text.after? keyword text with
  | none => rfl
  | some behind =>
    dsimp only [Option.map_some, Option.bind_eq_bind, Option.bind_some]
    rw [leading, leading, skipped, skipped, scope?_append_brace, scope?_append_brace,
      readNamed?_append_brace]
    refine if_congr Iff.rfl rfl (congrArg (Option.or · _) ?_)
    cases found : scope? (Text.skipBlanks behind) with
    | none => rfl
    | some scope =>
      obtain ⟨_, behind, _, same, _⟩ := scope?_eq_some found
      have inside := (List.prefix_append scope behind).length_le
      rw [← same] at inside
      rw [Option.bind_some, Option.bind_some, List.drop_append_of_le_length inside,
        List.drop_append_of_le_length inside, readNamed?_append_brace]

end EnumDeclaration

/-! ### Functions -/

namespace Signature

/-- Only blanks stand between the closing parenthesis and the semicolon. So the end of a signature
that is read in front of a parenthesis with a semicolon is read there without what follows. -/
theorem ending_prefix {signature : Signature} (wellFormed : signature.WellFormed)
    {text rest : Text}
    (isPrefix : ')' :: (signature.closingGap ++ [';']) <+: text ++ ')' :: ';' :: rest) :
    ')' :: (signature.closingGap ++ [';']) <+: text ++ [')', ';'] := by
  cases text with
  | nil =>
    -- The semicolon follows at once, so no blank stands before it.
    have gap : signature.closingGap = [] := by
      cases blanks : signature.closingGap with
      | nil => rfl
      | cons c closingGap =>
        rw [blanks] at isPrefix
        obtain ⟨rfl, _⟩ := List.cons_prefix_cons.mp (List.cons_prefix_cons.mp isPrefix).2
        exact absurd (wellFormed.closingGap_blank ';' (blanks ▸ List.mem_cons_self)) (by decide)
    rw [gap]
    exact List.prefix_rfl
  | cons c text =>
    have back : ')' ∉ signature.closingGap ++ [';'] := by
      simp only [List.mem_append, List.mem_singleton, not_or]
      exact ⟨Text.not_mem_of_isBlank wellFormed.closingGap_blank rfl, by decide⟩
    obtain ⟨rfl, behind⟩ := List.cons_prefix_cons.mp isPrefix
    have inside : signature.closingGap ++ [';'] <+: text := (Text.prefix_append_stop back).mp behind
    exact (List.prefix_cons_inj _).mpr (inside.trans (List.prefix_append _ _))

/-- A signature has one closing parenthesis, and only blanks stand between it and the semicolon. So
it ends with the first closing parenthesis that a semicolon follows. -/
theorem text_prefix_append_iff {signature : Signature} (wellFormed : signature.WellFormed)
    {text rest : Text} :
    signature.text <+: text ++ ')' :: ';' :: rest ↔ signature.text <+: text ++ [')', ';'] := by
  constructor
  · intro isPrefix
    have front : ')' ∉ signature.gap ++ signature.name ++ signature.innerGap ++
        '(' :: signature.parameters := by
      simp only [List.mem_append, List.mem_cons, not_or]
      exact ⟨⟨⟨Text.not_mem_of_isBlank wellFormed.gap_blank rfl,
        Text.not_mem_of_isWord wellFormed.name_word rfl⟩,
        Text.not_mem_of_isBlank wellFormed.innerGap_blank rfl⟩, by decide,
        wellFormed.parameters_open⟩
    have divided : signature.text = signature.gap ++ signature.name ++ signature.innerGap ++
        '(' :: signature.parameters ++ ')' :: (signature.closingGap ++ [';']) := by
      simp only [Signature.text, List.append_assoc, List.cons_append]
    rw [divided] at isPrefix ⊢
    generalize signature.gap ++ signature.name ++ signature.innerGap ++
      '(' :: signature.parameters = opening at front isPrefix ⊢
    have reached := (List.prefix_append _ _).trans isPrefix
    obtain ⟨middle, rfl⟩ := (Text.prefix_append_stop front).mp reached
    rw [List.append_assoc, List.prefix_append_right_inj] at isPrefix ⊢
    exact ending_prefix wellFormed isPrefix
  · intro isPrefix
    refine isPrefix.trans ⟨rest, ?_⟩
    rw [List.append_assoc]
    rfl

theorem read?_append_end (text rest : Text) :
    read? (text ++ ')' :: ';' :: rest) = read? (text ++ [')', ';']) := by
  refine Option.ext fun signature => ?_
  rw [read?_eq_some_iff, read?_eq_some_iff]
  exact and_congr_right fun wellFormed => text_prefix_append_iff wellFormed

end Signature

theorem readReturnType?_append_end (text rest : Text) :
    readReturnType? (text ++ ')' :: ';' :: rest) = readReturnType? (text ++ [')', ';']) := by
  induction text with
  | nil =>
    have missing : ∀ more, Signature.read? (';' :: more) = none := fun _ =>
      Signature.read?_eq_none_of_ends (Text.ends_cons.mpr rfl)
    have ended : ∀ more, readReturnType? (')' :: ';' :: more) = none := by
      intro more
      rw [readReturnType?, missing, readReturnType?, if_neg (by decide : ¬isTypeChar ';' = true)]
      exact if_pos rfl
    rw [List.nil_append, List.nil_append, ended, ended]
  | cons c text inductionHypothesis =>
    rw [List.cons_append, List.cons_append, readReturnType?, readReturnType?,
      Signature.read?_append_end, inductionHypothesis]

section Leads

variable {c : Char}

theorem macroLeads_append_stop (notWord : Text.isWord c = false) (notBlank : Text.isBlank c = false)
    (text rest : Text) : macroLeads (text ++ c :: rest) = macroLeads text := by
  rw [macroLeads, macroLeads, exportMacroLengths_append_stop notWord]
  refine List.flatMap_congr fun length member => ?_
  rw [List.drop_append_of_le_length (le_of_mem_exportMacroLengths member), Text.leadingBlanks,
    Text.takeWhile_append_stop notBlank]
  rfl

theorem qualifiedLeads_append_stop (notWord : Text.isWord c = false)
    (notBlank : Text.isBlank c = false) {qualifier : Text} (foreign : c ∉ qualifier)
    (text rest : Text) :
    qualifiedLeads (text ++ c :: rest) qualifier = qualifiedLeads text qualifier := by
  rw [qualifiedLeads, qualifiedLeads, Text.after?_append_stop foreign]
  cases opened : Text.after? qualifier text with
  | none => rfl
  | some behind =>
    obtain rfl := Text.after?_eq_some_iff.mp opened
    have blanks : Text.leadingBlanks (behind ++ c :: rest) = Text.leadingBlanks behind :=
      Text.takeWhile_append_stop notBlank behind rest
    have inside : qualifier.length + (Text.leadingBlanks behind).length ≤
        (qualifier ++ behind).length := by
      rw [List.length_append]
      exact Nat.add_le_add_left (List.takeWhile_prefix _).length_le _
    dsimp only [Option.map_some]
    rw [blanks, List.drop_append_of_le_length inside, macroLeads_append_stop notWord notBlank]

theorem leads_append_stop (notWord : Text.isWord c = false) (notBlank : Text.isBlank c = false)
    (foreign : ∀ qualifier ∈ qualifiers, c ∉ qualifier) (text rest : Text) :
    leads (text ++ c :: rest) = leads text := by
  have qualified : qualifiers.flatMap (qualifiedLeads (text ++ c :: rest)) =
      qualifiers.flatMap (qualifiedLeads text) :=
    List.flatMap_congr fun qualifier member =>
      qualifiedLeads_append_stop notWord notBlank (foreign qualifier member) text rest
  rw [leads, leads, qualified, macroLeads_append_stop notWord notBlank, Text.leadingBlanks,
    Text.takeWhile_append_stop notBlank]
  rfl

end Leads

theorem FunctionDeclaration.read?_append_end (text rest : Text) :
    FunctionDeclaration.read? (text ++ ')' :: ';' :: rest) =
      FunctionDeclaration.read? (text ++ [')', ';']) := by
  have bounded : ∀ more, leads (text ++ ')' :: more) = leads text :=
    leads_append_stop rfl rfl (by decide) text
  rw [read?, read?, bounded, bounded]
  refine findSome?_congr_of_mem fun length member => ?_
  have inside := (isLead_of_mem_leads member).1
  rw [List.drop_append_of_le_length inside, List.drop_append_of_le_length inside,
    List.take_append_of_le_length inside, List.take_append_of_le_length inside,
    readReturnType?_append_end]

/-! ### Searching across a boundary -/

section Boundaries

variable {α : Type} {recognizer : Recognizer α} {c : Char}

/-- A search that looks at every place by itself is divided by a character that no item has. -/
theorem items_append_stop (everywhere : ∀ text, recognizer.stride text = 1)
    (begins : ∀ text value, recognizer.read? text = some value → recognizer.text value <+: text)
    (independent : ∀ text rest, recognizer.read? (text ++ c :: rest) = recognizer.read? text)
    (nothing : recognizer.read? [] = none) (text rest : Text) :
    recognizer.items (text ++ c :: rest) = recognizer.items text ++ recognizer.items rest := by
  have passed : recognizer.items (c :: rest) = recognizer.items rest := by
    have missing : recognizer.read? (c :: rest) = none := (independent [] rest).trans nothing
    rw [Recognizer.items_of_read?_eq_none missing (List.cons_ne_nil _ _), everywhere]
    rfl
  rw [← passed]
  refine Recognizer.items_append fun tail _ more => ⟨independent tail rest, ?_, ?_, ?_⟩
  · exact fun value read => (begins tail value read).length_le
  · rw [everywhere, everywhere]
  · rw [everywhere]
    exact List.length_pos_iff.mpr more

/-- The same for a character with which every item ends that has it. -/
theorem items_append_end (everywhere : ∀ text, recognizer.stride text = 1)
    (begins : ∀ text value, recognizer.read? text = some value → recognizer.text value <+: text)
    (independent : ∀ text rest,
      recognizer.read? (text ++ c :: rest) = recognizer.read? (text ++ [c]))
    (text rest : Text) :
    recognizer.items (text ++ c :: rest) =
      recognizer.items (text ++ [c]) ++ recognizer.items rest := by
  rw [List.append_cons]
  refine Recognizer.items_append fun tail suffix more => ?_
  obtain ⟨front, rfl, _⟩ := (List.suffix_concat_iff.mp suffix).resolve_left more
  refine ⟨?_, fun value read => (begins _ value read).length_le, ?_, ?_⟩
  · rw [← List.append_cons]
    exact independent front rest
  · rw [everywhere, everywhere]
  · rw [everywhere]
    exact List.length_pos_iff.mpr more

end Boundaries

theorem ClassDeclaration.items_append_semicolon (text rest : Text) :
    recognizer.items (text ++ ';' :: rest) = recognizer.items text ++ recognizer.items rest :=
  items_append_stop (fun _ => rfl) (fun _ _ => text_of_read?) read?_append_semicolon rfl text rest

theorem StructDeclaration.items_append_semicolon (text rest : Text) :
    recognizer.items (text ++ ';' :: rest) = recognizer.items text ++ recognizer.items rest :=
  items_append_stop (fun _ => rfl) (fun _ _ => text_of_read?) read?_append_semicolon rfl text rest

theorem EnumDeclaration.items_append_brace (text rest : Text) :
    recognizer.items (text ++ '}' :: rest) =
      recognizer.items (text ++ ['}']) ++ recognizer.items rest :=
  items_append_end (fun _ => rfl) (fun _ _ => text_of_read?) read?_append_brace text rest

namespace FunctionDeclaration

theorem read?_semicolon (rest : Text) : read? (';' :: rest) = none := by
  refine Option.eq_none_iff_forall_ne_some.mpr fun declaration read => ?_
  exact absurd (parenthesis_mem_of_read? read) List.not_mem_nil

theorem items_append_end (text rest : Text) :
    recognizer.items (text ++ [')', ';'] ++ rest) =
      recognizer.items (text ++ [')', ';']) ++ recognizer.items rest := by
  refine Recognizer.items_append fun tail suffix more => ?_
  rw [List.append_cons] at suffix
  obtain ⟨front, rfl, frontSuffix⟩ := (List.suffix_concat_iff.mp suffix).resolve_left more
  have stride : ∀ behind, recognizer.stride (front ++ ';' :: behind) =
      (front.takeWhile isTypeChar).length := fun behind =>
    congrArg List.length (Text.takeWhile_append_stop rfl front behind)
  refine ⟨?_, fun value read => (text_of_read? read).length_le, ?_, ?_⟩
  · rw [← List.append_cons]
    rcases List.suffix_concat_iff.mp frontSuffix with rfl | ⟨inner, rfl, _⟩
    · exact (read?_semicolon rest).trans (read?_semicolon []).symm
    · rw [← List.append_cons, ← List.append_cons]
      exact read?_append_end inner rest
  · rw [← List.append_cons, stride, stride]
  · rw [stride, List.length_append]
    exact (List.takeWhile_prefix _).length_le.trans (Nat.le_add_right _ _)

end FunctionDeclaration

/-- No declaration runs across a boundary: classes and structs are found before and behind a
semicolon, enumerations up to a closing brace and behind it, and functions up to a closing
parenthesis with a semicolon and behind it. -/
theorem recognize_append (before behind : Text) (filePath : String) :
    recognizeClasses (before ++ [';'] ++ behind) filePath =
        recognizeClasses before filePath ++ recognizeClasses behind filePath ∧
      recognizeStructs (before ++ [';'] ++ behind) filePath =
        recognizeStructs before filePath ++ recognizeStructs behind filePath ∧
      recognizeEnums (before ++ ['}'] ++ behind) filePath =
        recognizeEnums (before ++ ['}']) filePath ++ recognizeEnums behind filePath ∧
      recognizeFunctions (before ++ [')', ';'] ++ behind) filePath =
        recognizeFunctions (before ++ [')', ';']) filePath ++
          recognizeFunctions behind filePath := by
  refine ⟨?_, ?_, ?_, ?_⟩
  · rw [recognizeClasses, List.append_assoc]
    exact (congrArg _ (ClassDeclaration.items_append_semicolon before behind)).trans
      List.map_append
  · rw [recognizeStructs, List.append_assoc]
    exact (congrArg _ (StructDeclaration.items_append_semicolon before behind)).trans
      List.map_append
  · rw [recognizeEnums, List.append_assoc]
    exact (congrArg _ (EnumDeclaration.items_append_brace before behind)).trans List.map_append
  · rw [recognizeFunctions]
    exact (congrArg _ (FunctionDeclaration.items_append_end before behind)).trans
      List.filterMap_append

end Header

end EngineDocs
