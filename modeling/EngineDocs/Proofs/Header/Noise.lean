/-
This file says when a candidate for a function declaration is kept: exactly when each of the checks
on its text, on its name and on its cleaned return type passes. A return type has no characters of
directives and comments, so cleaning it is no more than collapsing its blanks.
-/

import EngineDocs.Header.Function
import EngineDocs.Proofs.Header.Cleaning

namespace EngineDocs.Header

/-! ### The checks -/

theorem isMacroInvocation_eq_false_iff {candidate : Text} :
    isMacroInvocation candidate = false ↔
      ∀ mark ∈ macroBeginnings ++ reflectionMarkers, ¬mark <:+: candidate := by
  simp only [isMacroInvocation, List.any_eq_false, Text.occursIn_iff]

theorem checkDeclaration_eq_ok_iff {candidate name : Text} :
    checkDeclaration candidate name = .ok () ↔
      isMacroInvocation candidate = false ∧ isMacroStyleName name = false := by
  rw [checkDeclaration]
  split
  · rename_i invocation
    simp only [invocation, reduceCtorEq, false_and]
  · rename_i noInvocation
    split
    · rename_i style
      simp only [style, reduceCtorEq, and_false]
    · rename_i noStyle
      simp only [Bool.not_eq_true] at noInvocation noStyle
      simp only [noInvocation, noStyle, and_self]

theorem checkReturnType_eq_ok_iff {returnType : Text} :
    checkReturnType returnType = .ok () ↔
      returnType ≠ [] ∧ isExportMacro returnType = false ∧
        Text.utf16Length returnType ≤ maxReturnTypeLength ∧
        ∀ mark ∈ proseMarks, ¬mark <:+: Text.lower returnType := by
  simp only [← Text.occursIn_iff, ← List.any_eq_false, ← List.isEmpty_eq_false_iff, ← Nat.not_lt]
  rw [checkReturnType]
  split
  · rename_i empty
    simp only [empty, reduceCtorEq, false_and]
  · rename_i solid
    split
    · rename_i isMacro
      simp only [isMacro, reduceCtorEq, false_and, and_false]
    · rename_i notMacro
      split
      · rename_i long
        simp only [long, not_true_eq_false, reduceCtorEq, false_and, and_false]
      · rename_i short
        split
        · rename_i prose
          simp only [prose, reduceCtorEq, and_false]
        · rename_i plain
          simp only [Bool.not_eq_true] at solid notMacro plain
          simp only [solid, notMacro, short, plain, not_false_eq_true, and_self]

/-! ### Cleaning -/

theorem cleanReturnType_of_not_mem {raw : Text} (noDirective : '#' ∉ raw) (noComment : '/' ∉ raw) :
    cleanReturnType raw = Text.trim (Text.collapseBlanks raw) := by
  have directives : ¬HasDirective raw := fun ⟨_, _, isInfix⟩ =>
    noDirective (isInfix.subset List.mem_cons_self)
  have lineComments : ¬"//".toList <:+: raw := fun isInfix =>
    noComment (isInfix.subset List.mem_cons_self)
  have blockComments : ¬HasBlockComment raw := fun ⟨_, isInfix⟩ =>
    noComment (isInfix.subset List.mem_cons_self)
  rw [cleanReturnType, stripDirectivesFrom_of_clear directives,
    stripLineCommentsFrom_of_clear lineComments, stripBlockCommentsFrom_of_clear blockComments]

/-- Of a return type, cleaning leaves the collapsed text. -/
theorem cleanReturnType_trim {returnType : Text}
    (typical : ∀ c ∈ returnType, isTypeChar c = true) :
    cleanReturnType (Text.trim returnType) = Text.collapseBlanks (Text.trim returnType) := by
  have inside : ∀ c ∈ Text.trim returnType, isTypeChar c = true := fun c member =>
    typical c ((Text.trim_infix returnType).subset member)
  rw [cleanReturnType_of_not_mem (fun member => absurd (inside _ member) (by decide))
    (fun member => absurd (inside _ member) (by decide)),
    (Text.isTrimmed_trim returnType).collapseBlanks.trim_eq]

/-! ### Records -/

namespace FunctionDeclaration

/-- A candidate is kept exactly when all checks pass. -/
theorem record_eq_ok_iff {filePath : String} {declaration : FunctionDeclaration}
    {function : FunctionRecord} :
    declaration.record filePath = .ok function ↔
      checkDeclaration declaration.text declaration.signature.name = .ok () ∧
        checkReturnType (cleanReturnType (Text.trim declaration.returnType)) = .ok () ∧
        function = {
          name := String.ofList declaration.signature.name
          returnType := String.ofList (cleanReturnType (Text.trim declaration.returnType))
          parameters := parseParameters declaration.signature.parameters
          access := .public
          isStatic := Text.occursIn "static".toList declaration.text
          isVirtual := Text.occursIn "virtual".toList declaration.text
          filePath := filePath } := by
  rw [record]
  cases declared : checkDeclaration declaration.text declaration.signature.name with
  | error rejection => exact iff_of_false nofun fun both => nomatch both.1
  | ok =>
    cases typed : checkReturnType (cleanReturnType (Text.trim declaration.returnType)) with
    | error rejection => exact iff_of_false nofun fun both => nomatch both.2.1
    | ok =>
      constructor
      · exact fun same => ⟨rfl, rfl, (Except.ok.inj same).symm⟩
      · exact fun same => congrArg Except.ok same.2.2.symm

end FunctionDeclaration

/-- The functions of a header are the records of the candidates that are kept. -/
theorem mem_recognizeFunctions_iff {content : Text} {filePath : String}
    {function : FunctionRecord} :
    function ∈ recognizeFunctions content filePath ↔
      ∃ declaration ∈ FunctionDeclaration.recognizer.items content,
        declaration.record filePath = .ok function := by
  rw [recognizeFunctions, List.mem_filterMap]
  refine exists_congr fun declaration => and_congr_right fun _ => ?_
  cases declaration.record filePath with
  | error rejection => exact iff_of_false nofun nofun
  | ok record => simp only [Except.toOption, Option.some_inj, Except.ok.injEq]

end EngineDocs.Header
