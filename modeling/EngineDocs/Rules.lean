/-
This file reads the rules file of a module, the one whose name ends in `.Build.cs`. Only the
statements that add names to one of the three dependency lists are read, and the class that gives
the module its name; all else in the file is passed over.
-/

import EngineDocs.Dependencies
import EngineDocs.Search

namespace EngineDocs.Rules

/-! ### Fixed shapes -/

/-- A part of a fixed shape of text. -/
inductive Part where
  /-- Exactly these characters. -/
  | literal (text : String)
  /-- Any number of blanks. -/
  | blanks
  /-- At least one blank. -/
  | someBlanks

/-- Reads the parts of a shape one after another and gives what was read and what is left. -/
def readShape? : List Part → Text → Option (Text × Text)
  | [], text => some ([], text)
  | .literal literal :: parts, text =>
    (Text.after? literal.toList text).bind fun rest =>
      (readShape? parts rest).map fun (shape, rest) => (literal.toList ++ shape, rest)
  | .blanks :: parts, text =>
    (readShape? parts (Text.skipBlanks text)).map fun (shape, rest) =>
      (Text.leadingBlanks text ++ shape, rest)
  | .someBlanks :: parts, text =>
    if (Text.leadingBlanks text).isEmpty then none
    else (readShape? parts (Text.skipBlanks text)).map fun (shape, rest) =>
      (Text.leadingBlanks text ++ shape, rest)

/-! ### String literals -/

/-- A string literal: at least one character between two quotes. -/
def readLiteral? (text : Text) : Option Text :=
  match text with
  | '"' :: rest =>
    let value := rest.takeWhile (· != '"')
    match value, rest.drop value.length with
    | _ :: _, '"' :: _ => some value
    | _, _ => none
  | _ => none

/-- String literals, wherever they stand. -/
def literals : Recognizer Text where
  read? := readLiteral?
  text := fun value => '"' :: value ++ ['"']

/-! ### Dependency statements -/

/-- What a statement adds: the names in an initializer, or one name. -/
inductive Addition where
  | range (initializer : Text)
  | single (name : Text)
  deriving DecidableEq

namespace Addition

/-- The characters between the braces or the quotes. -/
def text : Addition → Text
  | range initializer => initializer
  | single name => name

/-- The names that are added. -/
def names : Addition → List Text
  | range initializer => literals.items initializer
  | single name => [name]

end Addition

/-- A statement that adds to a dependency list. -/
structure Statement where
  opening : Text
  addition : Addition
  closing : Text
  deriving DecidableEq

namespace Statement

/-- The characters of a statement. -/
def text (statement : Statement) : Text :=
  statement.opening ++ statement.addition.text ++ statement.closing

/-- Reads a call that adds the names of an initializer, which is not empty and ends at the first
closing brace. -/
def readRange? (field : String) (text : Text) : Option Statement := do
  let (opening, rest) ← readShape?
    [.literal field, .literal ".AddRange", .blanks, .literal "(", .blanks, .literal "new",
     .someBlanks, .literal "string[]", .blanks, .literal "\x7b"] text
  let initializer := rest.takeWhile (· != '}')
  match initializer, rest.drop initializer.length with
  | _ :: _, '}' :: _ => some ⟨opening, .range initializer, ['}']⟩
  | _, _ => none

/-- Reads a call that adds one name. -/
def readSingle? (field : String) (text : Text) : Option Statement := do
  let (opening, rest) ← readShape?
    [.literal field, .literal ".Add", .blanks, .literal "(", .blanks, .literal "\""] text
  match rest.takeWhile (· != '"') with
  | [] => none
  | name =>
    let (closing, _) ← readShape? [.literal "\"", .blanks, .literal ")"] (rest.drop name.length)
    some ⟨opening, .single name, closing⟩

/-- Statements that add to the list of a kind. -/
def recognizer (kind : DependencyKind) : Recognizer Statement where
  read? := fun text =>
    (readRange? kind.rulesField text).or (readSingle? kind.rulesField text)
  text := text

end Statement

/-! ### Rules files -/

/-- The names that a rules file adds to the list of a kind, with repetitions. -/
def addedNames (content : Text) (kind : DependencyKind) : List String :=
  ((Statement.recognizer kind).items content).flatMap fun statement =>
    statement.addition.names.map String.ofList

/-- The dependencies that a rules file declares. -/
def parse (content : String) : Dependencies :=
  DependencyKind.all.foldl
    (fun dependencies kind =>
      (addedNames content.toList kind).foldl (fun sofar name => sofar.push kind name) dependencies)
    {}

/-- The class of module rules at the start of a text: its name with what stands before and behind
it. -/
def readModuleClass? (text : Text) : Option (Text × Text × Text) := do
  let (opening, named) ← readShape?
    [.literal "public", .someBlanks, .literal "class", .someBlanks] text
  match Text.leadingWord named with
  | [] => none
  | name =>
    let (closing, _) ← readShape? [.blanks, .literal ":", .blanks, .literal "ModuleRules"]
      (Text.skipWord named)
    some (opening, name, closing)

/-- Classes of module rules, wherever they stand. -/
def moduleClasses : Recognizer (Text × Text × Text) where
  read? := readModuleClass?
  text := fun (opening, name, closing) => opening ++ name ++ closing

/-- The name of the first class of module rules in a rules file. -/
def moduleName? (content : String) : Option String :=
  (moduleClasses.items content.toList).head?.map fun (_, name, _) => String.ofList name

end EngineDocs.Rules
