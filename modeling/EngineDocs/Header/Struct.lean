/-
This file recognizes struct definitions. A struct is reported only when its body opens, so forward
declarations are passed over; the body itself is not read.
-/

import EngineDocs.Header.Class

namespace EngineDocs.Header

/-- The parts of a struct definition up to the opening brace, in the order in which they are
written. `opening` is everything from the end of the name to the brace. -/
structure StructDeclaration where
  gap : Text
  exportMacro : Text
  innerGap : Text
  name : Text
  opening : Text
  deriving DecidableEq

namespace StructDeclaration

/-- The keyword that opens a struct definition. -/
def keyword : Text := "struct".toList

/-- The characters of a definition up to its opening brace. -/
def text (declaration : StructDeclaration) : Text :=
  keyword ++ declaration.gap ++ declaration.exportMacro ++ declaration.innerGap ++
    declaration.name ++ declaration.opening

/-- Reads what stands between the name and the body: blanks, or a colon and a list of bases that
reaches to the opening brace. -/
def readOpening? (text : Text) : Option Text :=
  let blanks := Text.leadingBlanks text
  match Text.skipBlanks text with
  | '{' :: _ => some (blanks ++ ['{'])
  | ':' :: rest =>
    let list := rest.takeWhile isBaseListChar
    match list, rest.drop list.length with
    | _ :: _, '{' :: _ => some (blanks ++ ':' :: list ++ ['{'])
    | _, _ => none
  | _ => none

/-- Reads a struct definition. An export macro is read when a name and an opening are left behind
it. -/
def read? (text : Text) : Option StructDeclaration := do
  let rest ← Text.after? keyword text
  let gap := Text.leadingBlanks rest
  let body := Text.skipBlanks rest
  if gap.isEmpty then none
  else (exportMacroLengths body ++ [0]).findSome? fun length =>
    let behind := body.drop length
    let named := Text.skipBlanks behind
    match Text.leadingWord named with
    | [] => none
    | name =>
      (readOpening? (Text.skipWord named)).map fun opening =>
        { gap, name, opening
          exportMacro := body.take length
          innerGap := Text.leadingBlanks behind }

/-- Struct definitions, wherever they stand. -/
def recognizer : Recognizer StructDeclaration where
  read? := read?
  text := text

/-- The record of a definition found in the header at `filePath`. -/
def record (filePath : String) (declaration : StructDeclaration) : StructRecord where
  name := String.ofList declaration.name
  members := []
  filePath := filePath

end StructDeclaration

/-- The structs of a header, in the order of its text and with repetitions. -/
def recognizeStructs (content : Text) (filePath : String) : List StructRecord :=
  (StructDeclaration.recognizer.items content).map (StructDeclaration.record filePath)

end EngineDocs.Header
