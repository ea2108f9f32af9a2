/-
This file decides which candidates for a function declaration are kept. The shape of a declaration
is also that of a macro call and of prose in a comment that happens to end like one, so each
candidate goes through fixed checks in a fixed order, and the first that fails names the rejection.
-/

import EngineDocs.Header.ExportMacro
import EngineDocs.Text.Case

namespace EngineDocs.Header

/-- Why a candidate is not taken for a function declaration. -/
inductive Rejection where
  | macroInvocation
  | macroStyleName
  | emptyReturnType
  | bareExportMacro
  | returnTypeTooLong
  | commentFragment
  deriving DecidableEq

namespace Rejection

/-- The name by which a rejection is reported. -/
def label : Rejection → String
  | macroInvocation => "macro_invocation"
  | macroStyleName => "macro_style_name"
  | emptyReturnType => "empty_return_type"
  | bareExportMacro => "bare_export_macro"
  | returnTypeTooLong => "return_type_too_long"
  | commentFragment => "comment_fragment"

end Rejection

/-! ### Checks on the whole candidate -/

/-- The beginnings of the names of macros that declare something. -/
def macroBeginnings : List Text :=
  ["DECLARE_".toList, "DEFINE_".toList, "IMPLEMENT_".toList, "BEGIN_".toList, "END_".toList,
   "GENERATED_".toList]

/-- The openings of reflection macros. -/
def reflectionMarkers : List Text :=
  ["UCLASS(".toList, "USTRUCT(".toList, "UENUM(".toList, "UFUNCTION(".toList, "UPROPERTY(".toList]

/-- Whether a candidate calls a macro: one of the marks stands anywhere in its text. -/
def isMacroInvocation (candidate : Text) : Bool :=
  (macroBeginnings ++ reflectionMarkers).any fun mark => Text.occursIn mark candidate

/-- Whether a name is written like a macro: in upper case with at least two underscores. -/
def isMacroStyleName (name : Text) : Bool :=
  Text.isUpper name && 2 ≤ name.count '_'

/-- The checks on the text and the name of a candidate. -/
def checkDeclaration (candidate name : Text) : Except Rejection Unit :=
  if isMacroInvocation candidate then .error .macroInvocation
  else if isMacroStyleName name then .error .macroStyleName
  else .ok ()

/-! ### Cleaning the return type -/

/-- The text from the end of its first line on. -/
def restOfLines (text : Text) : Text := text.dropWhile (· != '\n')

/-- Passes over `pending` characters and then removes each directive, that is, `#` and a word
character with the rest of their line. -/
def stripDirectivesFrom (pending : Nat) : Text → Text
  | [] => []
  | c :: text =>
    match pending with
    | pending + 1 => stripDirectivesFrom pending text
    | 0 =>
      if c == '#' && (text.head?.map Text.isWord).getD false then
        stripDirectivesFrom (text.takeWhile (· != '\n')).length text
      else c :: stripDirectivesFrom 0 text

/-- Passes over `pending` characters and then removes each line comment up to the end of its
line. -/
def stripLineCommentsFrom (pending : Nat) : Text → Text
  | [] => []
  | c :: text =>
    match pending with
    | pending + 1 => stripLineCommentsFrom pending text
    | 0 =>
      if c == '/' && text.head? == some '/' then
        stripLineCommentsFrom (text.takeWhile (· != '\n')).length text
      else c :: stripLineCommentsFrom 0 text

/-- The number of characters up to and including the first end of a block comment. -/
def blockCommentLength? : Text → Option Nat
  | '*' :: '/' :: _ => some 2
  | _ :: text => (blockCommentLength? text).map (· + 1)
  | [] => none

/-- Passes over `pending` characters and then removes each block comment that is closed. -/
def stripBlockCommentsFrom (pending : Nat) : Text → Text
  | [] => []
  | c :: text =>
    match pending with
    | pending + 1 => stripBlockCommentsFrom pending text
    | 0 =>
      let length :=
        if c == '/' && text.head? == some '*' then blockCommentLength? (text.drop 1) else none
      match length with
      | some length => stripBlockCommentsFrom (length + 1) text
      | none => c :: stripBlockCommentsFrom 0 text

/-- The text without directives, then without line comments, then without closed block comments,
with each run of blanks written as one space and none at the ends. -/
def cleanReturnType (raw : Text) : Text :=
  Text.trim (Text.collapseBlanks
    (stripBlockCommentsFrom 0 (stripLineCommentsFrom 0 (stripDirectivesFrom 0 raw))))

/-! ### Checks on the cleaned return type -/

/-- The most UTF-16 units that a return type may take; a longer one has run over several lines of
something else. -/
def maxReturnTypeLength : Nat := 200

/-- Lower-case texts that show that a return type is prose. -/
def proseMarks : List Text := ["optional".toList, "should be".toList]

/-- The checks on a cleaned return type. -/
def checkReturnType (returnType : Text) : Except Rejection Unit :=
  if returnType.isEmpty then .error .emptyReturnType
  else if isExportMacro returnType then .error .bareExportMacro
  else if maxReturnTypeLength < Text.utf16Length returnType then .error .returnTypeTooLong
  else if proseMarks.any fun mark => Text.occursIn mark (Text.lower returnType) then
    .error .commentFragment
  else .ok ()

end EngineDocs.Header
