/-
This file shows that the declarations of a canonical header are extracted from it, and nothing else.
Three of the four searches find what the first declaration gives and go on behind it. The search for
functions stops short of the line feed that ends the declaration, because this may be the lead of a
function that follows. Both lead to the same records, so a step is stated for a text that may begin
with a line feed, and the steps are put together by induction on the declarations.
-/

import EngineDocs.Proofs.Header.CanonicalFunctions

namespace EngineDocs

/-! ### Sets one after another -/

namespace DeclarationSet

theorem append_assoc (first second third : DeclarationSet) :
    first ++ second ++ third = first ++ (second ++ third) := by
  show append (append first second) third = append first (append second third)
  simp only [append, List.append_assoc]

theorem append_empty (set : DeclarationSet) : set ++ ({} : DeclarationSet) = set := by
  show append set {} = set
  simp only [append, List.append_nil]

theorem foldl_append (first : DeclarationSet) (sets : List DeclarationSet) :
    sets.foldl append first = first ++ concat sets := by
  induction sets generalizing first with
  | nil => exact (append_empty first).symm
  | cons set sets inductionHypothesis =>
    rw [concat, List.foldl_cons, List.foldl_cons, inductionHypothesis, inductionHypothesis]
    exact append_assoc first set (concat sets)

theorem concat_cons (set : DeclarationSet) (sets : List DeclarationSet) :
    concat (set :: sets) = set ++ concat sets :=
  foldl_append set sets

end DeclarationSet

namespace Header.Canonical

open Recognizer

/-! ### One declaration -/

theorem not_mem_baseClause (bases : List BaseName) : '(' ∉ baseClause bases := by
  have opening : '(' ∉ [' ', ':', ' '] ++ ("public".toList ++ [' ']) := by decide
  cases bases with
  | nil => exact List.not_mem_nil
  | cons base bases =>
    have whole : baseClause (base :: bases) =
        [' ', ':', ' '] ++ ("public".toList ++ [' ']) ++ (base.text ++ furtherBases bases) :=
      baseClause_cons base bases
    rw [whole, List.mem_append, List.mem_append (s := base.text), not_or, not_or]
    refine ⟨opening, Text.not_mem_of_isWord base.isWord rfl, fun member => ?_⟩
    exact absurd (isBaseListChar_furtherBases bases '(' member) (by decide)

/-- A declaration with a keyword has no parenthesis up to its semicolon. -/
theorem Declaration.text_of_keyword? (declaration : Declaration)
    (opened : declaration.keyword? ≠ none) :
    ∃ front, declaration.text = front ++ [';', '\n'] ∧ '(' ∉ front := by
  have word : ∀ name : Identifier, '(' ∉ name.text := fun name =>
    Text.not_mem_of_isWord name.isWord rfl
  have body : '(' ∉ ['\n', '{', '\n', '}'] := by decide
  cases declaration with
  | ofClass name bases =>
    refine ⟨"class".toList ++ ([' '] ++ (name.text ++
      (baseClause bases ++ ['\n', '{', '\n', '}']))), ?_, ?_⟩
    · rw [text_ofClass]
      simp only [emptyBody, List.append_assoc, List.cons_append, List.nil_append]
    · simp only [List.mem_append, not_or]
      exact ⟨by decide, by decide, word name, not_mem_baseClause bases, body⟩
  | ofStruct name =>
    refine ⟨"struct".toList ++ ([' '] ++ (name.text ++ ['\n', '{', '\n', '}'])), ?_, ?_⟩
    · rw [text_ofStruct]
      simp only [emptyBody, List.append_assoc, List.cons_append, List.nil_append]
    · simp only [List.mem_append, not_or]
      exact ⟨by decide, by decide, word name, body⟩
  | ofEnum name lines solid =>
    refine ⟨"enum".toList ++ ([' '] ++ (name.text ++ (['\n', '{', '\n'] ++
      (lines.flatMap EnumeratorLine.text ++ ['}'])))), ?_, ?_⟩
    · rw [text_ofEnum]
      simp only [List.append_assoc, List.cons_append, List.nil_append]
    · simp only [List.mem_append, List.mem_flatMap, not_or, not_exists, not_and]
      exact ⟨by decide, by decide, word name, by decide,
        fun line _ => not_mem_line line rfl (by decide), by decide⟩
  | ofFunction type name parameters => exact absurd rfl opened

theorem recognizeFunctions_append {lead : Text} (isLead : lead = [] ∨ lead = ['\n'])
    (declaration : Declaration) (rest : Text) (filePath : String) :
    recognizeFunctions (lead ++ (declaration.text ++ rest)) filePath =
      (declaration.records filePath).functions ++ recognizeFunctions ('\n' :: rest) filePath := by
  have passed : declaration.keyword? ≠ none →
      recognizeFunctions (lead ++ (declaration.text ++ rest)) filePath =
        recognizeFunctions ('\n' :: rest) filePath := by
    intro opened
    obtain ⟨front, whole, unopened⟩ := declaration.text_of_keyword? opened
    have outside : '(' ∉ lead := by rcases isLead with rfl | rfl <;> decide
    have passes : FunctionDeclaration.recognizer.Passes (lead ++ front ++ [';']) :=
      FunctionDeclaration.passes_of_not_mem
        (List.mem_append.not.mpr (not_or.mpr ⟨outside, unopened⟩)) rfl
    have divided : lead ++ (declaration.text ++ rest) = lead ++ front ++ [';'] ++ '\n' :: rest := by
      simp only [whole, List.append_assoc, List.cons_append, List.nil_append]
    rw [recognizeFunctions, divided, passes]
    rfl
  cases declaration with
  | ofClass name bases => exact passed (Option.some_ne_none _)
  | ofStruct name => exact passed (Option.some_ne_none _)
  | ofEnum name lines solid => exact passed (Option.some_ne_none _)
  | ofFunction type name parameters =>
    have whole : lead ++ ((Declaration.ofFunction type name parameters).text ++ rest) =
        (readFunction lead type name parameters).text ++ '\n' :: rest := by
      rw [← List.append_assoc, text_readFunction, List.append_assoc, List.singleton_append]
    have read : FunctionDeclaration.read?
        ((readFunction lead type name parameters).text ++ '\n' :: rest) =
          some (readFunction lead type name parameters) := by
      rcases isLead with rfl | rfl
      · exact read?_function_of_start type name parameters _
      · exact read?_function_of_lineFeed type name parameters _
    rw [recognizeFunctions, whole, items_text_append (FunctionDeclaration.text_ne_nil _) rfl read,
      List.filterMap_cons, record_readFunction isLead]
    rfl

/-- A search for a keyword passes over the line feed that may stand before a declaration. -/
theorem items_lead {α : Type} {recognizer : Recognizer α} {keyword lead : Text}
    (led : recognizer.LedBy keyword) (isLead : lead = [] ∨ lead = ['\n']) (text : Text) :
    recognizer.items (lead ++ text) = recognizer.items text := by
  rcases isLead with rfl | rfl
  · rfl
  · exact led.passes_singleton rfl text

/-- What a declaration gives is extracted first, whether or not a line feed stands before it. -/
theorem extractAll_append {lead : Text} (isLead : lead = [] ∨ lead = ['\n'])
    (declaration : Declaration) (rest : Text) (filePath : String) :
    extractAll (String.ofList (lead ++ (declaration.text ++ rest))) filePath =
      declaration.records filePath ++ extractAll (String.ofList (['\n'] ++ rest)) filePath := by
  have behind : ['\n'] = [] ∨ ['\n'] = ['\n'] := Or.inr rfl
  have classes := recognizeClasses_append declaration rest filePath
  have functions := recognizeFunctions_append isLead declaration rest filePath
  have enums := recognizeEnums_append declaration rest filePath
  have structs := recognizeStructs_append declaration rest filePath
  rw [recognizeClasses, recognizeClasses, ← items_lead ClassDeclaration.recognizer_ledBy isLead,
    ← items_lead ClassDeclaration.recognizer_ledBy behind rest] at classes
  rw [recognizeEnums, recognizeEnums, ← items_lead EnumDeclaration.recognizer_ledBy isLead,
    ← items_lead EnumDeclaration.recognizer_ledBy behind rest] at enums
  rw [recognizeStructs, recognizeStructs, ← items_lead StructDeclaration.recognizer_ledBy isLead,
    ← items_lead StructDeclaration.recognizer_ledBy behind rest] at structs
  rw [extractAll, extractAll, String.toList_ofList, String.toList_ofList, recognizeClasses,
    recognizeEnums, recognizeStructs, classes, functions, enums, structs]
  rfl

/-! ### Whole headers -/

theorem extractAll_lead_headerText {lead : Text} (isLead : lead = [] ∨ lead = ['\n'])
    (declarations : List Declaration) (filePath : String) :
    extractAll (String.ofList (lead ++ headerText declarations)) filePath =
      DeclarationSet.concat (declarations.map (Declaration.records filePath)) := by
  -- Behind the first declaration a line feed is left, so the hypothesis is for every lead.
  induction declarations generalizing lead with
  | nil =>
    rcases isLead with rfl | rfl
    · rfl
    · rfl
  | cons declaration declarations inductionHypothesis =>
    rw [headerText, List.flatMap_cons, extractAll_append isLead, List.map_cons,
      DeclarationSet.concat_cons, ← inductionHypothesis (Or.inr rfl)]
    rfl

/-- From a canonical header exactly the records of its declarations are extracted, those of each
kind in the order of the header. -/
theorem extractAll_headerText (declarations : List Declaration) (filePath : String) :
    extractAll (String.ofList (headerText declarations)) filePath =
      DeclarationSet.concat (declarations.map (Declaration.records filePath)) :=
  extractAll_lead_headerText (Or.inl rfl) declarations filePath

end Header.Canonical

end EngineDocs
