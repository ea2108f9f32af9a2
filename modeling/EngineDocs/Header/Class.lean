/-
This file recognizes class declarations, forward declarations included. A class is the keyword, an
optional export macro, a name, and an optional clause that names base classes behind an access
specifier. What is read keeps all its parts, so that the text of a declaration can be given back.
-/

import EngineDocs.Declaration
import EngineDocs.Header.ExportMacro
import EngineDocs.Search

namespace EngineDocs.Header

/-! ### Base lists -/

/-- The specifiers that may stand before a base class. -/
def accessSpecifiers : List Text :=
  ["public".toList, "protected".toList, "private".toList]

/-- The characters of a list of base classes. -/
def isBaseListChar (c : Char) : Bool :=
  Text.isWord c || Text.isBlank c || c == ',' || c == '<' || c == '>' || c == ':'

/-- The template arguments at the start of a text, brackets included. They end at the first `>`
and are not empty; without that the result is empty. -/
def templateArguments (text : Text) : Text :=
  match text with
  | '<' :: rest =>
    let inside := rest.takeWhile (· != '>')
    match inside, rest.drop inside.length with
    | _ :: _, '>' :: _ => '<' :: inside ++ ['>']
    | _, _ => []
  | _ => []

/-- A base name with one level of template arguments. -/
def readBaseName? (text : Text) : Option Text :=
  match Text.leadingWord text with
  | [] => none
  | word => some (word ++ templateArguments (Text.skipWord text))

/-- Base names are their own text. -/
def baseNames : Recognizer Text where
  read? := readBaseName?
  text := id

/-- The base classes that a list names: its words with their template arguments, except for the
access specifiers. -/
def parseBaseClasses (list : Text) : List Text :=
  (baseNames.items list).filter fun name => !accessSpecifiers.contains name

/-! ### Class declarations -/

/-- The clause behind a class name: `opening` runs up to the first character of the list. -/
structure BaseClause where
  opening : Text
  list : Text
  deriving DecidableEq

namespace BaseClause

/-- The characters of a clause. -/
def text (clause : BaseClause) : Text := clause.opening ++ clause.list

/-- Divides the text behind an access specifier into blanks and a list. Both have at least one
character; when nothing but blanks can be read, the last blank is the list. -/
def divide? (text : Text) : Option (Text × Text) :=
  let blanks := Text.leadingBlanks text
  match blanks, (Text.skipBlanks text).takeWhile isBaseListChar with
  | [], _ => none
  | _, c :: list => some (blanks, c :: list)
  | _ :: [], [] => none
  | _, [] => some (blanks.dropLast, blanks.drop (blanks.length - 1))

/-- Reads a colon, an access specifier and a list. -/
def read? (text : Text) : Option BaseClause :=
  match Text.skipBlanks text with
  | ':' :: afterColon =>
    let specified := Text.skipBlanks afterColon
    let before := Text.leadingBlanks text ++ ':' :: Text.leadingBlanks afterColon
    accessSpecifiers.findSome? fun specifier => do
      let rest ← Text.after? specifier specified
      let (blanks, list) ← divide? rest
      return ⟨before ++ specifier ++ blanks, list⟩
  | _ => none

end BaseClause

/-- The parts of a class declaration in the order in which they are written. -/
structure ClassDeclaration where
  gap : Text
  exportMacro : Text
  innerGap : Text
  name : Text
  bases : Option BaseClause
  deriving DecidableEq

namespace ClassDeclaration

/-- The keyword that opens a class declaration. -/
def keyword : Text := "class".toList

/-- The characters of a declaration up to the end of its name. -/
def headText (declaration : ClassDeclaration) : Text :=
  keyword ++ declaration.gap ++ declaration.exportMacro ++ declaration.innerGap ++ declaration.name

/-- The characters of a declaration. -/
def text (declaration : ClassDeclaration) : Text :=
  declaration.headText ++ (declaration.bases.map BaseClause.text).getD []

/-- Reads a class declaration. An export macro is read when a name is left behind it. -/
def read? (text : Text) : Option ClassDeclaration := do
  let rest ← Text.after? keyword text
  let gap := Text.leadingBlanks rest
  let body := Text.skipBlanks rest
  if gap.isEmpty then none
  else (exportMacroLengths body ++ [0]).findSome? fun length =>
    let behind := body.drop length
    let named := Text.skipBlanks behind
    match Text.leadingWord named with
    | [] => none
    | name =>
      some {
        gap, name
        exportMacro := body.take length
        innerGap := Text.leadingBlanks behind
        bases := BaseClause.read? (Text.skipWord named) }

/-- Class declarations, wherever they stand. -/
def recognizer : Recognizer ClassDeclaration where
  read? := read?
  text := text

/-- The record of a declaration found in the header at `filePath`. -/
def record (filePath : String) (declaration : ClassDeclaration) : ClassRecord where
  name := String.ofList declaration.name
  baseClasses :=
    match declaration.bases with
    | some clause => (parseBaseClasses clause.list).map String.ofList
    | none => []
  access := .public
  members := []
  filePath := filePath

end ClassDeclaration

/-- The classes of a header, in the order of its text and with repetitions. -/
def recognizeClasses (content : Text) (filePath : String) : List ClassRecord :=
  (ClassDeclaration.recognizer.items content).map (ClassDeclaration.record filePath)

end EngineDocs.Header
