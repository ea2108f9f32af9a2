/-
This file shows that the functions of a canonical header are found exactly. A function is read from
the line feed that ends the declaration before it, or from the very start of the header; there a
return type that is spelled like a qualifier is first tried as one, and nothing can be read behind
it. What is read passes every check, since no mark of a macro call or of prose stands in it, and its
parameters are those that are printed.
-/

import EngineDocs.Proofs.Header.CanonicalTypes
import EngineDocs.Proofs.Header.Noise
import EngineDocs.Proofs.Header.Parameter
import EngineDocs.Proofs.Text.Case

namespace EngineDocs.Header.Canonical

open Recognizer

/-! ### Types and parameters -/

theorem TypeName.ne_nil (type : TypeName) : type.text ≠ [] :=
  List.append_ne_nil_of_left_ne_nil type.name.ne_nil _

/-- The characters of a type: those of an identifier or of an indirection. -/
theorem TypeName.isWord_or (type : TypeName) :
    ∀ c ∈ type.text, Text.isWord c = true ∨ c = '*' ∨ c = '&' := by
  intro c member
  rcases List.mem_append.mp member with inName | inMark
  · exact Or.inl (type.name.isWord c inName)
  · right
    obtain ⟨_, indirection⟩ := type
    cases indirection with
    | none => exact absurd inMark List.not_mem_nil
    | pointer => exact Or.inl (List.mem_singleton.mp inMark)
    | reference => exact Or.inr (List.mem_singleton.mp inMark)

theorem TypeName.not_blank (type : TypeName) : ∀ c ∈ type.text, Text.isBlank c = false := by
  intro c member
  rcases type.isWord_or c member with word | rfl | rfl
  · exact Text.isBlank_eq_false_of_isWord word
  · rfl
  · rfl

theorem TypeName.isTypeChar (type : TypeName) : ∀ c ∈ type.text, isTypeChar c = true := by
  intro c member
  rcases type.isWord_or c member with word | rfl | rfl
  · exact isTypeChar_of_isWord word
  · rfl
  · rfl

theorem TypeName.not_mem (type : TypeName) {c : Char} (foreign : Text.isWord c = false)
    (other : c ∉ ['*', '&']) : c ∉ type.text := by
  intro member
  rcases type.isWord_or c member with word | rfl | rfl
  · rw [foreign] at word
    exact nomatch word
  · exact other (by decide)
  · exact other (by decide)

theorem TypedName.not_mem (parameter : TypedName) {c : Char} (foreign : Text.isWord c = false)
    (other : c ∉ ['*', '&', ' ']) : c ∉ parameter.text := by
  simp only [List.mem_cons, List.not_mem_nil, or_false, not_or] at other
  rw [TypedName.text, List.mem_append, List.mem_cons, not_or, not_or]
  refine ⟨parameter.type.not_mem foreign ?_, other.2.2,
    Text.not_mem_of_isWord parameter.name.isWord foreign⟩
  simp only [List.mem_cons, List.not_mem_nil, or_false, not_or]
  exact ⟨other.1, other.2.1⟩

/-- The parameters of a function as they are printed. -/
def parameterText (parameters : List TypedName) : Text :=
  Text.joinWith [',', ' '] (parameters.map TypedName.text)

theorem not_mem_parameterText (parameters : List TypedName) {c : Char}
    (foreign : Text.isWord c = false) (other : c ∉ ['*', '&', ' ', ',']) :
    c ∉ parameterText parameters := by
  have apart : c ∉ ['*', '&', ' '] := fun member => other (List.mem_append_left [','] member)
  have separators : [',', ' '] ⊆ ['*', '&', ' ', ','] := by decide
  cases parameters with
  | nil => exact List.not_mem_nil
  | cons parameter parameters =>
    rw [parameterText, List.map_cons, Text.joinWith_cons, List.mem_append, List.mem_flatMap, not_or]
    refine ⟨parameter.not_mem foreign apart, ?_⟩
    rintro ⟨part, listed, member⟩
    obtain ⟨next, _, rfl⟩ := List.mem_map.mp listed
    rcases List.mem_append.mp member with separator | inside
    · exact other (separators separator)
    · exact next.not_mem foreign apart inside

/-! ### Reading a function -/

/-- What is read of a function behind its return type. -/
def readSignature (name : FunctionName) (parameters : List TypedName) : Signature where
  gap := [' ']
  name := name.text
  innerGap := []
  parameters := parameterText parameters
  closingGap := []

/-- What is read of a function behind the lead. -/
def readFunction (lead : Text) (type : ReturnType) (name : FunctionName)
    (parameters : List TypedName) : FunctionDeclaration where
  lead := lead
  returnType := type.text
  signature := readSignature name parameters

theorem text_readFunction (lead : Text) (type : ReturnType) (name : FunctionName)
    (parameters : List TypedName) :
    lead ++ (Declaration.ofFunction type name parameters).text =
      (readFunction lead type name parameters).text ++ ['\n'] := by
  rw [Declaration.text_ofFunction]
  simp only [FunctionDeclaration.text, Signature.text, readFunction, readSignature, parameterText,
    List.append_assoc, List.cons_append, List.nil_append]

theorem wellFormed_readSignature (name : FunctionName) (parameters : List TypedName) :
    (readSignature name parameters).WellFormed where
  gap_ne_nil := List.cons_ne_nil _ _
  gap_blank := List.forall_mem_singleton.mpr rfl
  name_ne_nil := name.ne_nil
  name_word := name.isWord
  innerGap_blank := nofun
  parameters_open := not_mem_parameterText parameters rfl (by decide)
  closingGap_blank := nofun

theorem readReturnType?_function (type : ReturnType) (name : FunctionName)
    (parameters : List TypedName) (rest : Text) :
    readReturnType? (type.text ++ ((readSignature name parameters).text ++ rest)) =
      some (type.text, readSignature name parameters) :=
  readReturnType?_append type.ne_nil
    (fun c member => ⟨type.isTypeChar c member, type.not_blank c member⟩)
    (Signature.read?_text_append (wellFormed_readSignature name parameters) rest)

/-- No return type can be read from the name of a function on. -/
theorem hasType_name (name : FunctionName) (parameters : List TypedName) (rest : Text) :
    hasType (name.text ++ '(' :: (parameterText parameters ++ ')' :: ';' :: rest)) = false := by
  have unopened : '(' ∉ (parameterText parameters ++ ')' :: ';' :: rest).takeWhile isTypeChar := by
    rw [List.append_cons, Text.takeWhile_append_stop rfl]
    intro member
    rcases List.mem_append.mp ((List.takeWhile_prefix _).subset member) with inside | closing
    · exact not_mem_parameterText parameters rfl (by decide) inside
    · exact absurd (List.mem_singleton.mp closing) (by decide)
  rw [← Bool.not_eq_true, hasType_word_append name.ne_nil name.isWord, hasType_cons]
  rintro (signed | ⟨_, signed | typed⟩)
  · exact nomatch signed
  · obtain ⟨signature, read⟩ := Option.isSome_iff_exists.mp signed
    exact unopened (Signature.parenthesis_mem_of_read? read)
  · exact unopened (parenthesis_mem_of_hasType typed)

theorem text_readSignature_append (name : FunctionName) (parameters : List TypedName)
    (rest : Text) :
    (readSignature name parameters).text ++ rest =
      [' '] ++ (name.text ++ '(' :: (parameterText parameters ++ ')' :: ';' :: rest)) := by
  simp only [Signature.text, readSignature, List.append_assoc, List.cons_append, List.nil_append]

theorem ends_isBlank_type (type : ReturnType) (rest : Text) :
    Text.Ends Text.isBlank (type.text ++ rest) := by
  rw [TypeName.text, List.append_assoc]
  exact Text.ends_isBlank_of_isWord type.name.ne_nil type.name.isWord

/-- A function is read behind its lead when nothing can be read behind what is tried before. -/
theorem read?_function_of_leads {lead : Text} {before : List Nat} {type : ReturnType}
    {name : FunctionName} {parameters : List TypedName} {rest : Text}
    (tried : leads (lead ++ (type.text ++ ((readSignature name parameters).text ++ rest))) =
      before ++ [lead.length])
    (nothing : ∀ length ∈ before, hasType ((lead ++ (type.text ++
      ((readSignature name parameters).text ++ rest))).drop length) = false) :
    FunctionDeclaration.read? ((readFunction lead type name parameters).text ++ rest) =
      some (readFunction lead type name parameters) := by
  have whole : (readFunction lead type name parameters).text ++ rest =
      lead ++ (type.text ++ ((readSignature name parameters).text ++ rest)) := by
    simp only [FunctionDeclaration.text, readFunction, List.append_assoc]
  rw [whole, FunctionDeclaration.read?, tried, List.findSome?_append, Option.or_eq_some_iff]
  right
  refine ⟨List.findSome?_eq_none_iff.mpr fun length member => ?_, ?_⟩
  · rw [Option.map_eq_none_iff, ← Option.not_isSome_iff_eq_none, Bool.not_eq_true]
    exact nothing length member
  · rw [List.findSome?_cons, List.drop_left, readReturnType?_function, List.take_left]
    rfl

/-- Behind a line feed, all that may be a lead is the line feed. -/
theorem read?_function_of_lineFeed (type : ReturnType) (name : FunctionName)
    (parameters : List TypedName) (rest : Text) :
    FunctionDeclaration.read? ((readFunction ['\n'] type name parameters).text ++ rest) =
      some (readFunction ['\n'] type name parameters) := by
  refine read?_function_of_leads ?_ (fun _ member => absurd member List.not_mem_nil)
  have blank : ∀ c ∈ ['\n'], Text.isBlank c = true := by decide
  have blanks := Text.takeWhile_append_of_ends blank
    (ends_isBlank_type type ((readSignature name parameters).text ++ rest))
  show passedBlanks 0 (Text.leadingBlanks _).length = [1]
  rw [Text.leadingBlanks, blanks]
  rfl

theorem leadingWord_type (type : ReturnType) (rest : Text) :
    Text.leadingWord (type.text ++ ([' '] ++ rest)) = type.name.text := by
  rw [TypeName.text, List.append_assoc, Text.leadingWord]
  refine Text.takeWhile_append_of_ends type.name.isWord ?_
  cases type.indirection <;> exact Text.ends_cons.mpr rfl

theorem macroLeads_eq_nil {text : Text} (noMacro : ¬exportSuffix <:+: Text.leadingWord text) :
    macroLeads text = [] := by
  rw [macroLeads, exportMacroLengths_eq_nil noMacro]
  rfl

/-- A qualifier and blanks at the start of a function are its return type and the blank behind
it. -/
theorem gap_eq_of_qualifier {type : ReturnType} {rest qualifier gap behind : Text}
    (word : ∀ c ∈ qualifier, Text.isWord c = true) (solid : gap ≠ [])
    (blank : ∀ c ∈ gap, Text.isBlank c = true) (ends : Text.Ends Text.isBlank behind)
    (start : Text.Ends Text.isBlank rest)
    (same : type.text ++ ([' '] ++ rest) = qualifier ++ (gap ++ behind)) :
    gap = [' '] ∧ behind = rest := by
  have name := leadingWord_type type rest
  rw [same, Text.leadingWord,
    Text.takeWhile_append_of_ends word (Text.ends_isWord_append solid blank)] at name
  rw [TypeName.text, List.append_assoc, name, List.append_cancel_left_eq] at same
  have blanks := Text.takeWhile_append_of_ends blank ends
  rw [← same] at blanks
  cases indirection : type.indirection with
  | none =>
    rw [indirection, Indirection.text, List.nil_append] at blanks same
    rw [Text.takeWhile_append_of_ends (List.forall_mem_singleton.mpr rfl) start] at blanks
    rw [← blanks, List.append_cancel_left_eq] at same
    exact ⟨blanks.symm, same.symm⟩
  | pointer =>
    rw [indirection] at blanks
    exact absurd blanks.symm solid
  | reference =>
    rw [indirection] at blanks
    exact absurd blanks.symm solid

/-- At the start of a text nothing can be read behind a qualifier: where the return type is one, it
is the name of the function that follows. -/
theorem hasType_of_mem_qualifiedLeads (type : ReturnType) (name : FunctionName)
    (parameters : List TypedName) (rest : Text) :
    ∀ length ∈ qualifiers.flatMap
        (qualifiedLeads (type.text ++ ((readSignature name parameters).text ++ rest))),
      hasType ((type.text ++ ((readSignature name parameters).text ++ rest)).drop length) =
        false := by
  intro length member
  obtain ⟨qualifier, listed, member⟩ := List.mem_flatMap.mp member
  have words : ∀ qualifier ∈ qualifiers, ∀ c ∈ qualifier, Text.isWord c = true := by decide
  rw [text_readSignature_append] at member ⊢
  by_cases qualified : ∃ gap behind, gap ≠ [] ∧ (∀ c ∈ gap, Text.isBlank c = true) ∧
      Text.Ends Text.isBlank behind ∧ type.text ++ ([' '] ++ (name.text ++ '(' ::
        (parameterText parameters ++ ')' :: ';' :: rest))) = qualifier ++ (gap ++ behind)
  · obtain ⟨gap, behind, solid, blank, ends, same⟩ := qualified
    obtain ⟨rfl, rfl⟩ := gap_eq_of_qualifier (words qualifier listed) solid blank ends
      (Text.ends_isBlank_of_isWord name.ne_nil name.isWord) same
    have noMacro : macroLeads (name.text ++ '(' ::
        (parameterText parameters ++ ')' :: ';' :: rest)) = [] := by
      refine macroLeads_eq_nil ?_
      rw [Text.leadingWord, Text.takeWhile_append_of_ends name.isWord (Text.ends_cons.mpr rfl)]
      exact name.no_exportMacro
    rw [same, qualifiedLeads_append solid blank ends, noMacro] at member
    obtain rfl : length = qualifier.length + [' '].length := List.mem_singleton.mp member
    rw [same, ← List.append_assoc, ← List.length_append, List.drop_left]
    exact hasType_name name parameters rest
  · rw [qualifiedLeads_eq_nil qualified] at member
    exact absurd member List.not_mem_nil

theorem read?_function_of_start (type : ReturnType) (name : FunctionName)
    (parameters : List TypedName) (rest : Text) :
    FunctionDeclaration.read? ((readFunction [] type name parameters).text ++ rest) =
      some (readFunction [] type name parameters) := by
  refine read?_function_of_leads ?_ (hasType_of_mem_qualifiedLeads type name parameters rest)
  have noMacro : macroLeads (type.text ++ ((readSignature name parameters).text ++ rest)) = [] := by
    refine macroLeads_eq_nil ?_
    rw [text_readSignature_append, leadingWord_type]
    exact type.name.no_exportMacro
  have noBlank : Text.leadingBlanks (type.text ++ ((readSignature name parameters).text ++ rest)) =
      [] := Text.takeWhile_of_ends (ends_isBlank_type type _)
  rw [List.nil_append, leads, noMacro, noBlank, List.append_nil]
  rfl

/-! ### Parameters -/

theorem TypedName.isClosed (parameter : TypedName) : IsClosed parameter.text := by
  refine isClosed_of_not_mem fun c listed => parameter.not_mem ?_ ?_
  · have foreign : ∀ c ∈ [',', '<', '>'], Text.isWord c = false := by decide
    exact foreign c listed
  · have other : ∀ c ∈ [',', '<', '>'], c ∉ ['*', '&', ' '] := by decide
    exact other c listed

theorem TypedName.isDivision (parameter : TypedName) :
    IsDivision parameter.type.text [' '] parameter.name.text where
  type_ne_nil := parameter.type.ne_nil
  type_ends := (Text.isTrimmed_of_forall parameter.type.not_blank).stop
  type_line member := absurd (parameter.type.not_blank _ member) (by decide)
  gap_ne_nil := List.cons_ne_nil _ _
  gap_blank := List.forall_mem_singleton.mpr rfl
  name_ne_nil := parameter.name.ne_nil
  name_word := parameter.name.isWord

theorem TypedName.isTrimmed (parameter : TypedName) : Text.IsTrimmed parameter.text :=
  parameter.isDivision.isTrimmed (Text.isTrimmed_of_forall parameter.type.not_blank).start

theorem TypedName.parseParameter (parameter : TypedName) :
    Header.parseParameter parameter.text =
      some ⟨String.ofList parameter.name.text, String.ofList parameter.type.text⟩ :=
  parameter.isDivision.parseParameter_eq (Text.isTrimmed_of_forall parameter.type.not_blank).start
    (Text.collapseBlanks_of_forall parameter.type.not_blank)
    (parameter.type.not_mem rfl (by decide))

/-- The parameters of a function are those of its list. -/
theorem parseParameters_parameterText (parameters : List TypedName) :
    parseParameters (parameterText parameters) = parameters.map fun parameter =>
      ⟨String.ofList parameter.name.text, String.ofList parameter.type.text⟩ := by
  have closed : ∀ part ∈ parameters.map TypedName.text, IsClosed part :=
    List.forall_mem_map.mpr fun parameter _ => parameter.isClosed
  rw [parameterText, parseParameters_joinWith closed, List.filterMap_map, ← List.filterMap_eq_map']
  refine List.filterMap_congr fun parameter _ => ?_
  rw [Function.comp_apply, Function.comp_apply, parameter.isTrimmed.trim_eq,
    parameter.parseParameter]

/-! ### Checks -/

section Marks

variable {mark : Text}

theorem not_mem_reserved (listed : mark ∈ reserved) {c : Char} (foreign : Text.isWord c = false) :
    c ∉ mark := by
  have words : ∀ mark ∈ reserved, ∀ c ∈ mark, Text.isWord c = true := by decide
  exact Text.not_mem_of_isWord (words mark listed) foreign

theorem not_infix_nil (listed : mark ∈ reserved) : ¬mark <:+: [] := by
  have solid : ∀ mark ∈ reserved, mark ≠ [] := by decide
  rw [List.infix_nil]
  exact solid mark listed

theorem not_infix_append (listed : mark ∈ reserved) {first second : Text} {c : Char}
    (foreign : Text.isWord c = false) (firstFree : ¬mark <:+: first)
    (secondFree : ¬mark <:+: second) : ¬mark <:+: first ++ c :: second := by
  rw [Text.infix_append_stop (not_mem_reserved listed foreign), not_or]
  exact ⟨firstFree, secondFree⟩

theorem TypeName.not_infix (listed : mark ∈ reserved) (type : TypeName) : ¬mark <:+: type.text := by
  have name := type.name.not_infix mark listed
  have empty := not_infix_nil listed
  rw [TypeName.text]
  cases type.indirection with
  | none =>
    rw [Indirection.text, List.append_nil]
    exact name
  | pointer => exact not_infix_append listed rfl name empty
  | reference => exact not_infix_append listed rfl name empty

theorem not_infix_parameterText (listed : mark ∈ reserved) (parameters : List TypedName) :
    ¬mark <:+: parameterText parameters := by
  have empty := not_infix_nil listed
  have each : ∀ parameter : TypedName, ¬mark <:+: parameter.text := fun parameter =>
    not_infix_append listed rfl (parameter.type.not_infix listed)
      (parameter.name.not_infix mark listed)
  cases parameters with
  | nil => exact empty
  | cons parameter parameters =>
    induction parameters generalizing parameter with
    | nil => exact each parameter
    | cons next parameters inductionHypothesis =>
      rw [parameterText, List.map_cons, List.map_cons, Text.joinWith_cons_cons, List.append_assoc]
      exact not_infix_append listed rfl (each parameter)
        (not_infix_append listed rfl empty (inductionHypothesis next))

/-- Nothing reserved occurs in the text of a function. -/
theorem not_infix_readFunction (listed : mark ∈ reserved) {lead : Text}
    (isLead : lead = [] ∨ lead = ['\n']) (type : ReturnType) (name : FunctionName)
    (parameters : List TypedName) :
    ¬mark <:+: (readFunction lead type name parameters).text := by
  have empty := not_infix_nil listed
  have body : ¬mark <:+: type.text ++ (readSignature name parameters).text := by
    have signature := text_readSignature_append name parameters []
    rw [List.append_nil] at signature
    rw [signature]
    exact not_infix_append listed rfl (type.not_infix listed) (not_infix_append listed rfl
      (name.not_infix mark listed) (not_infix_append listed rfl
        (not_infix_parameterText listed parameters) (not_infix_append listed rfl empty empty)))
  rw [FunctionDeclaration.text, List.append_assoc]
  rcases isLead with rfl | rfl
  · exact body
  · exact not_infix_append listed rfl empty body

end Marks

/-- No reflection macro is called in the text of a function: the only parenthesis that opens stands
behind its name. -/
theorem not_infix_reflection {marker : Text} (listed : marker ∈ reflectionMarkers) {lead : Text}
    (isLead : lead = [] ∨ lead = ['\n']) (type : ReturnType) (name : FunctionName)
    (parameters : List TypedName) :
    ¬marker <:+: (readFunction lead type name parameters).text := by
  have shape : ∀ marker ∈ reflectionMarkers, ∃ word ∈ ["UCLASS".toList, "USTRUCT".toList,
      "UENUM".toList, "UFUNCTION".toList, "UPROPERTY".toList],
        marker = word ++ ['('] ∧ ' ' ∉ word := by decide
  obtain ⟨word, reflection, rfl, unspaced⟩ := shape marker listed
  have whole : (readFunction lead type name parameters).text =
      lead ++ type.text ++ ' ' :: name.text ++ '(' :: (parameterText parameters ++ [')', ';']) := by
    simp only [FunctionDeclaration.text, Signature.text, readFunction, readSignature,
      List.append_assoc, List.cons_append, List.nil_append]
  have before : '(' ∉ lead ++ type.text ++ ' ' :: name.text := by
    have outside : '(' ∉ lead := by rcases isLead with rfl | rfl <;> decide
    rw [List.mem_append, List.mem_append, List.mem_cons, not_or, not_or, not_or]
    exact ⟨⟨outside, type.not_mem rfl (by decide)⟩, by decide,
      Text.not_mem_of_isWord name.isWord rfl⟩
  have behind : '(' ∉ parameterText parameters ++ [')', ';'] := by
    rw [List.mem_append, not_or]
    exact ⟨not_mem_parameterText parameters rfl (by decide), by decide⟩
  intro isInfix
  rw [whole] at isInfix
  have ends := Text.suffix_of_concat_infix before behind isInfix
  rw [Text.suffix_append_stop unspaced] at ends
  exact name.not_reflection word reflection ends

theorem TypeName.ascii (type : TypeName) : ∀ c ∈ type.text, c.toNat < 128 := by
  intro c member
  rcases type.isWord_or c member with word | rfl | rfl
  · exact Text.lt_128_of_isWord word
  · decide
  · decide

theorem cleanReturnType_text (type : ReturnType) :
    cleanReturnType (Text.trim type.text) = type.text := by
  rw [cleanReturnType_trim type.isTypeChar, (Text.isTrimmed_of_forall type.not_blank).trim_eq,
    Text.collapseBlanks_of_forall type.not_blank]

theorem checkReturnType_text (type : ReturnType) : checkReturnType type.text = .ok () := by
  have spaced : ∀ mark ∈ ["should be".toList], ' ' ∈ mark := by decide
  refine checkReturnType_eq_ok_iff.mpr ⟨type.ne_nil, ?_, ?_, fun mark listed => ?_⟩
  · refine Bool.eq_false_iff.mpr fun isMacro => ?_
    obtain ⟨_, ends, _⟩ := isExportMacro_iff.mp isMacro
    exact type.not_infix (by decide) ends.isInfix
  · rw [Text.utf16Length_of_ascii type.ascii]
    exact type.length_le
  · rw [Text.lower_of_ascii type.ascii]
    rcases List.mem_cons.mp listed with rfl | prose
    · exact type.not_optional
    · intro isInfix
      obtain ⟨c, member, same⟩ := List.mem_map.mp (isInfix.subset (spaced mark prose))
      exact Text.toLower_ne_space (type.ascii c member) (type.not_blank c member) same

theorem checkDeclaration_text {lead : Text} (isLead : lead = [] ∨ lead = ['\n'])
    (type : ReturnType) (name : FunctionName) (parameters : List TypedName) :
    checkDeclaration (readFunction lead type name parameters).text name.text = .ok () := by
  refine checkDeclaration_eq_ok_iff.mpr
    ⟨isMacroInvocation_eq_false_iff.mpr fun mark listed => ?_, ?_⟩
  · rcases List.mem_append.mp listed with beginning | reflection
    · have known : ∀ mark ∈ macroBeginnings, mark ∈ reserved := by decide
      exact not_infix_readFunction (known mark beginning) isLead type name parameters
    · exact not_infix_reflection reflection isLead type name parameters
  · rw [isMacroStyleName, ← Bool.not_eq_true, Bool.and_eq_true, decide_eq_true_eq,
      Text.isUpper_of_ascii fun c member => Text.lt_128_of_isWord (name.isWord c member)]
    exact fun both => Nat.not_lt.mpr both.2 (name.not_macro both.1)

/-- What is read of a function is kept, with everything that is printed. -/
theorem record_readFunction {lead : Text} (isLead : lead = [] ∨ lead = ['\n']) (type : ReturnType)
    (name : FunctionName) (parameters : List TypedName) (filePath : String) :
    (readFunction lead type name parameters).record filePath = .ok {
      name := String.ofList name.text
      returnType := String.ofList type.text
      parameters := parameters.map fun parameter =>
        ⟨String.ofList parameter.name.text, String.ofList parameter.type.text⟩
      access := .public
      isStatic := false
      isVirtual := false
      filePath } := by
  have clean : ∀ mark ∈ reserved,
      Text.occursIn mark (readFunction lead type name parameters).text = false := by
    intro mark listed
    rw [← Bool.not_eq_true, Text.occursIn_iff]
    exact not_infix_readFunction listed isLead type name parameters
  refine FunctionDeclaration.record_eq_ok_iff.mpr
    ⟨checkDeclaration_text isLead type name parameters, ?_, ?_⟩
  · show checkReturnType (cleanReturnType (Text.trim type.text)) = .ok ()
    rw [cleanReturnType_text, checkReturnType_text]
  · rw [clean "static".toList (by decide), clean "virtual".toList (by decide)]
    show _ = FunctionRecord.mk (String.ofList name.text)
      (String.ofList (cleanReturnType (Text.trim type.text)))
      (parseParameters (parameterText parameters)) .public false false filePath
    rw [cleanReturnType_text, parseParameters_parameterText]

end EngineDocs.Header.Canonical
