/-
This file recognizes function declarations that end with a semicolon. In front of the return type
may stand a qualifier and an export macro, and nothing marks where they end, so a declaration is
read with the first division that fits: a qualifier rather than none, an export macro rather than
none, as many blanks as possible, and then the shortest return type behind which the rest of a
declaration follows.
-/

import EngineDocs.Header.Noise
import EngineDocs.Header.Parameter
import EngineDocs.Search

namespace EngineDocs.Header

/-! ### From the name to the semicolon -/

/-- The part of a declaration behind its return type. -/
structure Signature where
  gap : Text
  name : Text
  innerGap : Text
  parameters : Text
  closingGap : Text
  deriving DecidableEq

namespace Signature

/-- The characters of a signature. -/
def text (signature : Signature) : Text :=
  signature.gap ++ signature.name ++ signature.innerGap ++ '(' :: signature.parameters ++
    ')' :: signature.closingGap ++ [';']

/-- Reads blanks, a name, a parameter list that ends at the first closing parenthesis, and a
semicolon. -/
def read? (text : Text) : Option Signature :=
  match Text.leadingBlanks text with
  | [] => none
  | gap =>
    let named := Text.skipBlanks text
    match Text.leadingWord named with
    | [] => none
    | name =>
      let behindName := Text.skipWord named
      match Text.skipBlanks behindName with
      | '(' :: inside =>
        let parameters := inside.takeWhile (· != ')')
        match inside.drop parameters.length with
        | ')' :: closing =>
          match Text.skipBlanks closing with
          | ';' :: _ =>
            some {
              gap, name, parameters
              innerGap := Text.leadingBlanks behindName
              closingGap := Text.leadingBlanks closing }
          | _ => none
        | _ => none
      | _ => none

end Signature

/-! ### From the start to the return type -/

/-- The qualifiers that may open a declaration. -/
def qualifiers : List Text :=
  ["static".toList, "virtual".toList, "inline".toList, "extern".toList]

/-- The characters of a return type. -/
def isTypeChar (c : Char) : Bool :=
  Text.isWord c || Text.isBlank c || c == '<' || c == '>' || c == ':' || c == ',' || c == '*' ||
    c == '&' || c == '[' || c == ']' || c == '(' || c == ')'

/-- How many of a run of blanks may be passed over before the return type, at least `least` of them
and the preferred number first. All of them are, or all but two: two are enough when the return type
and the gap behind it consist of blanks, and it makes no difference whether they get more. -/
def passedBlanks (least blanks : Nat) : List Nat :=
  if least + 2 ≤ blanks then [blanks, blanks - 2] else [blanks]

/-- The lengths of the leads that consist of an export macro and blanks, the preferred one first. -/
def macroLeads (text : Text) : List Nat :=
  (exportMacroLengths text).flatMap fun length =>
    (passedBlanks 0 (Text.leadingBlanks (text.drop length)).length).map (length + ·)

/-- The lengths of the leads that begin with the qualifier, when the text does. -/
def qualifiedLeads (text qualifier : Text) : List Nat :=
  match Text.after? qualifier text with
  | none => []
  | some behind =>
    let blanks := (Text.leadingBlanks behind).length
    let length := qualifier.length + blanks
    if blanks == 0 then []
    else (macroLeads (text.drop length)).map (length + ·) ++
      (passedBlanks 1 blanks).map (qualifier.length + ·)

/-- The lengths of what may be read before the return type, the preferred one first. -/
def leads (text : Text) : List Nat :=
  qualifiers.flatMap (qualifiedLeads text) ++ macroLeads text ++
    passedBlanks 0 (Text.leadingBlanks text).length

/-- The shortest return type at the start of a text behind which a signature follows. -/
def readReturnType? : Text → Option (Text × Signature)
  | [] => none
  | c :: text =>
    if isTypeChar c then
      match Signature.read? text with
      | some signature => some ([c], signature)
      | none => (readReturnType? text).map fun (type, signature) => (c :: type, signature)
    else none

/-! ### Function declarations -/

/-- The parts of a function declaration in the order in which they are written. -/
structure FunctionDeclaration where
  lead : Text
  returnType : Text
  signature : Signature
  deriving DecidableEq

namespace FunctionDeclaration

/-- The characters of a declaration. -/
def text (declaration : FunctionDeclaration) : Text :=
  declaration.lead ++ declaration.returnType ++ declaration.signature.text

/-- Reads a function declaration. -/
def read? (text : Text) : Option FunctionDeclaration :=
  (leads text).findSome? fun length =>
    (readReturnType? (text.drop length)).map fun (returnType, signature) =>
      ⟨text.take length, returnType, signature⟩

/-- Function declarations, wherever they stand. All that is read before a signature may belong to
a return type. So where no declaration begins at the first character of a run of such characters,
none begins at a later one, and the search passes over the run. -/
def recognizer : Recognizer FunctionDeclaration where
  read? := read?
  text := text
  stride := fun text => (text.takeWhile isTypeChar).length

/-- The record of a candidate found in the header at `filePath`, unless it is noise. -/
def record (filePath : String) (declaration : FunctionDeclaration) :
    Except Rejection FunctionRecord := do
  let candidate := declaration.text
  let returnType := cleanReturnType (Text.trim declaration.returnType)
  checkDeclaration candidate declaration.signature.name
  checkReturnType returnType
  return {
    name := String.ofList declaration.signature.name
    returnType := String.ofList returnType
    parameters := parseParameters declaration.signature.parameters
    access := .public
    isStatic := Text.occursIn "static".toList candidate
    isVirtual := Text.occursIn "virtual".toList candidate
    filePath := filePath }

end FunctionDeclaration

/-- The functions of a header, in the order of its text and with repetitions. -/
def recognizeFunctions (content : Text) (filePath : String) : List FunctionRecord :=
  (FunctionDeclaration.recognizer.items content).filterMap fun declaration =>
    (declaration.record filePath).toOption

end EngineDocs.Header
