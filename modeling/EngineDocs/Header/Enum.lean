/-
This file recognizes enumerations with a body. A body is searched for words and the texts behind
their equality signs; it is not parsed, so a word of a comment counts as an enumerator. An
enumeration with an underlying type is not recognized.
-/

import EngineDocs.Declaration
import EngineDocs.Search

namespace EngineDocs.Header

/-! ### Enumerators -/

/-- The parts of an enumerator: its name and, behind `equals` (the sign with the blanks around it),
the text up to the next comma or closing brace. -/
structure EnumeratorText where
  name : Text
  equals : Text
  value : Text
  deriving DecidableEq

namespace EnumeratorText

/-- The characters of an enumerator. -/
def text (enumerator : EnumeratorText) : Text :=
  enumerator.name ++ enumerator.equals ++ enumerator.value

/-- The characters of a value. -/
def isValueChar (c : Char) : Bool := c != ',' && c != '}'

/-- Reads an equality sign and a value of at least one character. When nothing but blanks stands
behind the sign, the last of them is the value. -/
def readValue? (text : Text) : Option (Text × Text) :=
  match Text.skipBlanks text with
  | '=' :: rest =>
    let blanks := Text.leadingBlanks rest
    let sign := Text.leadingBlanks text ++ ['=']
    match blanks, (Text.skipBlanks rest).takeWhile isValueChar with
    | blanks, c :: value => some (sign ++ blanks, c :: value)
    | [], [] => none
    | blanks, [] => some (sign ++ blanks.dropLast, blanks.drop (blanks.length - 1))
  | _ => none

/-- Reads an enumerator. -/
def read? (text : Text) : Option EnumeratorText :=
  match Text.leadingWord text with
  | [] => none
  | name =>
    match readValue? (Text.skipWord text) with
    | some (equals, value) => some ⟨name, equals, value⟩
    | none => some ⟨name, [], []⟩

/-- Enumerators, wherever they stand in a body. -/
def recognizer : Recognizer EnumeratorText where
  read? := read?
  text := text

/-- The record of an enumerator; the text of its value is trimmed and not evaluated. -/
def record (enumerator : EnumeratorText) : Enumerator where
  name := String.ofList enumerator.name
  value := String.ofList (Text.trim enumerator.value)

end EnumeratorText

/-- The enumerators of a body in the order written. -/
def parseEnumBody (body : Text) : List Enumerator :=
  (EnumeratorText.recognizer.items body).map EnumeratorText.record

/-! ### Enumerations -/

/-- The parts of an enumeration: `lead` stands between the keyword and the name, `gap` between the
name and the opening brace, and `body` between the braces. -/
structure EnumDeclaration where
  lead : Text
  name : Text
  gap : Text
  body : Text
  deriving DecidableEq

namespace EnumDeclaration

/-- The keyword that opens an enumeration. -/
def keyword : Text := "enum".toList

/-- The characters of an enumeration. -/
def text (declaration : EnumDeclaration) : Text :=
  keyword ++ declaration.lead ++ declaration.name ++ declaration.gap ++ '{' :: declaration.body ++
    ['}']

/-- Reads a name and a body that is not empty and ends at the first closing brace. -/
def readNamed? (lead text : Text) : Option EnumDeclaration :=
  match Text.leadingWord text with
  | [] => none
  | name =>
    let rest := Text.skipWord text
    match Text.skipBlanks rest with
    | '{' :: inside =>
      let body := inside.takeWhile (· != '}')
      match body, inside.drop body.length with
      | _ :: _, '}' :: _ => some ⟨lead, name, Text.leadingBlanks rest, body⟩
      | _, _ => none
    | _ => none

/-- The word `class` and the blanks behind it at the start of a text; there is at least one
blank. -/
def scope? (text : Text) : Option Text := do
  let rest ← Text.after? "class".toList text
  match Text.leadingBlanks rest with
  | [] => none
  | blanks => some ("class".toList ++ blanks)

/-- Reads an enumeration, a scoped one if possible. -/
def read? (text : Text) : Option EnumDeclaration := do
  let rest ← Text.after? keyword text
  let gap := Text.leadingBlanks rest
  let named := Text.skipBlanks rest
  if gap.isEmpty then none
  else
    ((scope? named).bind fun scope => readNamed? (gap ++ scope) (named.drop scope.length)).or
      (readNamed? gap named)

/-- Enumerations, wherever they stand. -/
def recognizer : Recognizer EnumDeclaration where
  read? := read?
  text := text

/-- The record of an enumeration found in the header at `filePath`. -/
def record (filePath : String) (declaration : EnumDeclaration) : EnumRecord where
  name := String.ofList declaration.name
  values := parseEnumBody declaration.body
  filePath := filePath

end EnumDeclaration

/-- The enumerations of a header, in the order of its text and with repetitions. -/
def recognizeEnums (content : Text) (filePath : String) : List EnumRecord :=
  (EnumDeclaration.recognizer.items content).map (EnumDeclaration.record filePath)

end EngineDocs.Header
