/-
This file shows that every function record made from a header is well formed. The name is a whole
word of the header before a parenthesis. The return type is short, has the characters of a type
only and is neither an export macro nor prose. No part of a record has a mark of a macro call: the
marks have no blanks, so collapsing blanks and cutting a parameter list into pieces makes none.
-/

import EngineDocs.Proofs.Header.Function
import EngineDocs.Proofs.Header.Noise
import EngineDocs.Proofs.Header.Parameter
import EngineDocs.Proofs.Search
import EngineDocs.Proofs.Text.Case

namespace EngineDocs.Header

/-- The name, the return type, and the names and types of the parameters of a function. -/
def functionTexts (function : FunctionRecord) : List Text :=
  function.name.toList :: function.returnType.toList ::
    function.parameters.flatMap fun parameter => [parameter.name.toList, parameter.type.toList]

/-- A text stands in `content` as a whole word behind a blank, and a parenthesis follows it with
nothing but blanks between. -/
def IsCalled (content word : Text) : Prop :=
  ∃ before blank gap behind, content = before ++ blank :: word ++ gap ++ '(' :: behind ∧
    Text.isBlank blank = true ∧ ∀ c ∈ gap, Text.isBlank c = true

/-- What the record of a function says about the header `content` and about itself. -/
structure IsFunctionRecord (content : Text) (function : FunctionRecord) : Prop where
  name_ne_nil : function.name.toList ≠ []
  name_word : ∀ c ∈ function.name.toList, Text.isWord c = true
  name_called : IsCalled content function.name.toList
  name_style : (∃ c ∈ function.name.toList, c.isLower = true) ∨ function.name.toList.count '_' < 2
  returnType_ne_nil : function.returnType.toList ≠ []
  returnType_length : function.returnType.toList.length ≤ 200
  returnType_chars : ∀ c ∈ function.returnType.toList,
    Text.isWord c = true ∨ c ∈ "<>:,*&[]() ".toList
  returnType_ends : function.returnType.toList.head? ≠ some ' ' ∧
    function.returnType.toList.getLast? ≠ some ' '
  returnType_single : ¬[' ', ' '] <:+: function.returnType.toList
  returnType_noMacro : isExportMacro function.returnType.toList = false
  returnType_noProse : ∀ mark ∈ ["optional".toList, "should be".toList],
    ¬mark <:+: function.returnType.toList.map Char.toLower
  parameters : ∀ parameter ∈ function.parameters, parameter.type.toList ≠ [] ∧
    Text.trim parameter.type.toList = parameter.type.toList ∧
    ∀ c ∈ parameter.name.toList, Text.isWord c = true
  noMark : ∀ text ∈ functionTexts function, ∀ mark ∈ macroBeginnings ++ reflectionMarkers,
    ¬mark <:+: text

/-! ### The name -/

theorem isCalled_name (before : Text) {rest : Text} {declaration : FunctionDeclaration}
    (read : FunctionDeclaration.read? rest = some declaration) :
    IsCalled (before ++ rest) declaration.signature.name := by
  obtain ⟨behind, rfl, _, _, _, signed⟩ := FunctionDeclaration.read?_eq_some read
  obtain ⟨wellFormed, left, rfl⟩ := Signature.wellFormed_of_read? signed
  obtain ⟨gap, blank, same⟩ :=
    (List.eq_nil_or_concat declaration.signature.gap).resolve_left wellFormed.gap_ne_nil
  rw [List.concat_eq_append] at same
  refine ⟨before ++ declaration.lead ++ declaration.returnType ++ gap, blank,
    declaration.signature.innerGap, declaration.signature.parameters ++
      ')' :: declaration.signature.closingGap ++ [';'] ++ left, ?_, ?_, wellFormed.innerGap_blank⟩
  · simp only [Signature.text, same, List.append_assoc, List.cons_append, List.nil_append]
  · refine wellFormed.gap_blank blank ?_
    rw [same]
    exact List.mem_append_right _ List.mem_cons_self

theorem name_style_of_isMacroStyleName {name : Text} (word : ∀ c ∈ name, Text.isWord c = true)
    (style : isMacroStyleName name = false) :
    (∃ c ∈ name, c.isLower = true) ∨ name.count '_' < 2 := by
  have ascii : ∀ c ∈ name, c.toNat < 128 := fun c member => Text.lt_128_of_isWord (word c member)
  rw [isMacroStyleName, Bool.and_eq_false_iff, decide_eq_false_iff_not, Nat.not_le,
    ← Bool.not_eq_true, Text.isUpper_of_ascii ascii] at style
  refine style.imp_left fun notUpper => ?_
  by_contra noLower
  refine notUpper fun c member => Bool.eq_false_iff.mpr fun lower => ?_
  exact noLower ⟨c, member, lower⟩

/-! ### The return type -/

/-- A character of a type that is not blank, or the space that stands for blanks. -/
theorem mem_collapseBlanks_type {raw : Text} (typical : ∀ c ∈ raw, isTypeChar c = true) {c : Char}
    (member : c ∈ Text.collapseBlanks raw) :
    Text.isWord c = true ∨ c ∈ "<>:,*&[]() ".toList := by
  rcases Text.mem_collapseFrom member with rfl | ⟨listed, solid⟩
  · exact Or.inr (by decide)
  · have typed := typical c listed
    simp only [isTypeChar, solid, Bool.or_false, Bool.or_eq_true, beq_iff_eq] at typed
    simp only [String.reduceToList, List.mem_cons, List.not_mem_nil, or_false]
    tauto

theorem lt_128_of_mem_type {c : Char}
    (typed : Text.isWord c = true ∨ c ∈ "<>:,*&[]() ".toList) : c.toNat < 128 := by
  rcases typed with word | listed
  · exact Text.lt_128_of_isWord word
  · have each : ∀ c ∈ "<>:,*&[]() ".toList, c.toNat < 128 := by decide
    exact each c listed

/-! ### The record -/

theorem solid_of_mem_marks : ∀ mark ∈ macroBeginnings ++ reflectionMarkers, ∀ c ∈ mark,
    Text.isBlank c = false := by
  decide

/-- What stands without blanks in a part of a record stands in the declaration it was made from. -/
theorem infix_of_infix_functionTexts {filePath : String} {declaration : FunctionDeclaration}
    {function : FunctionRecord} (kept : declaration.record filePath = .ok function)
    (typical : ∀ c ∈ declaration.returnType, isTypeChar c = true) {text literal : Text}
    (member : text ∈ functionTexts function) (solid : ∀ c ∈ literal, Text.isBlank c = false)
    (isInfix : literal <:+: text) : literal <:+: declaration.text := by
  obtain ⟨_, _, rfl⟩ := FunctionDeclaration.record_eq_ok_iff.mp kept
  have signature : declaration.signature.text <:+: declaration.text :=
    (List.suffix_append _ _).isInfix
  have name : declaration.signature.name <:+: declaration.signature.text := by
    simp only [Signature.text, List.append_assoc]
    exact ⟨_, _, List.append_assoc _ _ _⟩
  have parameters : declaration.signature.parameters <:+: declaration.signature.text := by
    refine ⟨declaration.signature.gap ++ declaration.signature.name ++
      declaration.signature.innerGap ++ ['('], ')' :: declaration.signature.closingGap ++ [';'], ?_⟩
    simp only [Signature.text, List.append_assoc, List.cons_append, List.nil_append]
  simp only [functionTexts, List.mem_cons, List.mem_flatMap, List.not_mem_nil, or_false,
    String.toList_ofList] at member
  rcases member with rfl | rfl | ⟨parameter, listed, part⟩
  · exact isInfix.trans (name.trans signature)
  · rw [cleanReturnType_trim typical] at isInfix
    refine (Text.infix_of_infix_collapseFrom solid isInfix).trans ((Text.trim_infix _).trans ?_)
    exact ⟨_, _, rfl⟩
  · have inside := (isParameter_of_mem_parseParameters listed).2 literal solid
    refine List.IsInfix.trans (inside ?_) (parameters.trans signature)
    rcases part with rfl | rfl
    · exact Or.inl isInfix
    · exact Or.inr isInfix

/-- Every function record made from a header is well formed. -/
theorem isFunctionRecord_of_mem {content : Text} {filePath : String} {function : FunctionRecord}
    (member : function ∈ recognizeFunctions content filePath) :
    IsFunctionRecord content function := by
  obtain ⟨declaration, found, kept⟩ := mem_recognizeFunctions_iff.mp member
  obtain ⟨before, rest, rfl, read⟩ := Recognizer.read?_of_mem_items found
  obtain ⟨_, _, _, _, typical, signed⟩ := FunctionDeclaration.read?_eq_some read
  have wellFormed := (Signature.wellFormed_of_read? signed).1
  have fromDeclaration := @infix_of_infix_functionTexts filePath declaration function kept typical
  obtain ⟨declared, typed, rfl⟩ := FunctionDeclaration.record_eq_ok_iff.mp kept
  obtain ⟨noInvocation, style⟩ := checkDeclaration_eq_ok_iff.mp declared
  rw [cleanReturnType_trim typical] at typed fromDeclaration ⊢
  obtain ⟨solid, noMacro, short, noProse⟩ := checkReturnType_eq_ok_iff.mp typed
  have trimmed := (Text.isTrimmed_trim declaration.returnType).collapseBlanks
  have inside : ∀ c ∈ Text.trim declaration.returnType, isTypeChar c = true := fun c member =>
    typical c ((Text.trim_infix _).subset member)
  have chars := fun c => @mem_collapseBlanks_type _ inside c
  constructor
  case name_called => exact String.toList_ofList ▸ isCalled_name before read
  case parameters =>
    intro parameter listed
    have isParameter := (isParameter_of_mem_parseParameters listed).1
    exact ⟨isParameter.type_ne_nil, isParameter.type_trimmed.trim_eq, isParameter.name_word⟩
  case noMark =>
    intro text member mark listed isInfix
    exact isMacroInvocation_eq_false_iff.mp noInvocation mark listed
      (fromDeclaration member (solid_of_mem_marks mark listed) isInfix)
  all_goals simp only [String.toList_ofList]
  case name_ne_nil => exact wellFormed.name_ne_nil
  case name_word => exact wellFormed.name_word
  case name_style => exact name_style_of_isMacroStyleName wellFormed.name_word style
  case returnType_ne_nil => exact solid
  case returnType_length => exact (Text.length_le_utf16Length _).trans short
  case returnType_chars => exact chars
  case returnType_ends => exact trimmed.ne_space
  case returnType_single => exact Text.not_infix_collapseFrom rfl rfl false _
  case returnType_noMacro => exact noMacro
  case returnType_noProse =>
    rw [Text.lower_of_ascii fun c member => lt_128_of_mem_type (chars c member)] at noProse
    exact noProse

/-- A declaration over several lines, with one parameter that has a default value and one that has
no name. -/
theorem isFunctionRecord_of_mem_lookUp :
    IsFunctionRecord
      "\x7d;\n\tconst TMap<FName,\n\t\tint32> & LookUp (const  FName & Key = NAME_None, int32);".toList
      { name := "LookUp", returnType := "const TMap<FName, int32> &"
        parameters := [⟨"Key", "const FName &"⟩, ⟨"", "int32"⟩]
        access := .public, isStatic := false, isVirtual := false, filePath := "a.h" } :=
  @isFunctionRecord_of_mem _ "a.h" _ (by decide +kernel)

end EngineDocs.Header
