/-
This file describes canonical headers. A canonical header is a sequence of declarations, each of
them printed in one fixed layout with names that cannot be mistaken for a keyword, an export macro
or a macro call. The names carry the proofs of that, so every value of these types is a declaration
of a canonical header, and the records that a reader should find in it can be written down at once.
-/

import EngineDocs.Declaration
import EngineDocs.Proofs.Text.Runs

namespace EngineDocs.Header.Canonical

/-! ### Names -/

/-- The keywords that open a declaration. -/
def keywords : List Text := ["class".toList, "struct".toList, "enum".toList]

/-- What does not occur in a name. -/
def reserved : List Text :=
  ["_API".toList, "static".toList, "virtual".toList, "DECLARE_".toList, "DEFINE_".toList,
   "IMPLEMENT_".toList, "BEGIN_".toList, "END_".toList, "GENERATED_".toList]

/-- A name of a canonical header. -/
structure Identifier where
  text : Text
  ne_nil : text ≠ [] := by decide
  isWord : ∀ c ∈ text, Text.isWord c = true := by decide
  head_not_digit : ∀ c ∈ text.head?, Text.isDigit c = false := by decide
  not_infix : ∀ mark ∈ reserved, ¬mark <:+: text := by decide
  not_suffix : ∀ keyword ∈ keywords, ¬keyword <:+ text := by decide

/-- The name of a base class. -/
structure BaseName extends Identifier where
  not_specifier : text ∉ ["public".toList, "protected".toList, "private".toList] := by decide

/-- The name of a function: it is not in upper case with two or more underscores, and a parenthesis
behind it does not make it a reflection macro. -/
structure FunctionName extends Identifier where
  not_macro : (∀ c ∈ text, c.isLower = false) → text.count '_' < 2 := by decide
  not_reflection : ∀ word ∈ ["UCLASS".toList, "USTRUCT".toList, "UENUM".toList, "UFUNCTION".toList,
    "UPROPERTY".toList], ¬word <:+ text := by decide

/-! ### Types and values -/

/-- What may follow the name of a type. -/
inductive Indirection where
  | none
  | pointer
  | reference

/-- The character of an indirection. -/
def Indirection.text : Indirection → Text
  | none => []
  | pointer => ['*']
  | reference => ['&']

/-- A type of a canonical header. -/
structure TypeName where
  name : Identifier
  indirection : Indirection := .none

/-- The characters of a type. -/
def TypeName.text (type : TypeName) : Text := type.name.text ++ type.indirection.text

/-- A return type: it is short and does not look like prose. -/
structure ReturnType extends TypeName where
  length_le : toTypeName.text.length ≤ 200 := by decide
  not_optional : ¬"optional".toList <:+: toTypeName.text.map Char.toLower := by decide

/-- A parameter with its type. -/
structure TypedName where
  type : TypeName
  name : Identifier

/-- The characters of a parameter. -/
def TypedName.text (parameter : TypedName) : Text :=
  parameter.type.text ++ ' ' :: parameter.name.text

/-- A value of an enumerator: a digit or more. -/
structure Digits where
  text : Text
  ne_nil : text ≠ [] := by decide
  isDigit : ∀ c ∈ text, Text.isDigit c = true := by decide

/-- An enumerator with or without a value. -/
structure EnumeratorLine where
  name : Identifier
  value : Option Digits := none

/-- The sign and the value behind the name of an enumerator. -/
def EnumeratorLine.valueText (line : EnumeratorLine) : Text :=
  match line.value with
  | none => []
  | some digits => ' ' :: '=' :: ' ' :: digits.text

/-- The characters of an enumerator, with its indentation and up to the end of its line. -/
def EnumeratorLine.text (line : EnumeratorLine) : Text :=
  '\t' :: line.name.text ++ line.valueText ++ [',', '\n']

/-! ### Declarations -/

/-- A declaration of a canonical header. -/
inductive Declaration where
  | ofClass (name : Identifier) (bases : List BaseName)
  | ofStruct (name : Identifier)
  | ofEnum (name : Identifier) (lines : List EnumeratorLine) (ne_nil : lines ≠ [])
  | ofFunction (type : ReturnType) (name : FunctionName) (parameters : List TypedName)

/-- The text between the name of a class and its body. -/
def baseClause : List BaseName → Text
  | [] => []
  | bases => ' ' :: ':' :: ' ' ::
      Text.joinWith [',', ' '] (bases.map fun base => "public".toList ++ ' ' :: base.text)

/-- A body without members, on lines of its own. -/
def emptyBody : Text := ['\n', '{', '\n', '}', ';', '\n']

namespace Declaration

/-- The characters of a declaration. -/
def text : Declaration → Text
  | ofClass name bases => "class".toList ++ ' ' :: name.text ++ baseClause bases ++ emptyBody
  | ofStruct name => "struct".toList ++ ' ' :: name.text ++ emptyBody
  | ofEnum name lines _ =>
    "enum".toList ++ ' ' :: name.text ++ ['\n', '{', '\n'] ++ lines.flatMap EnumeratorLine.text ++
      ['}', ';', '\n']
  | ofFunction type name parameters =>
    type.text ++ ' ' :: name.text ++ '(' ::
      Text.joinWith [',', ' '] (parameters.map TypedName.text) ++ [')', ';', '\n']

theorem keyword_append (keyword name clause body : Text) :
    keyword ++ ' ' :: name ++ clause ++ body =
      keyword ++ ([' '] ++ (name ++ (clause ++ body))) := by
  simp only [List.append_assoc, List.cons_append, List.nil_append]

theorem text_ofClass (name : Identifier) (bases : List BaseName) :
    (ofClass name bases).text =
      "class".toList ++ ([' '] ++ (name.text ++ (baseClause bases ++ emptyBody))) :=
  keyword_append _ _ _ _

theorem text_ofStruct (name : Identifier) :
    (ofStruct name).text = "struct".toList ++ ([' '] ++ (name.text ++ emptyBody)) :=
  List.append_assoc _ _ _

theorem text_ofEnum (name : Identifier) (lines : List EnumeratorLine) (solid : lines ≠ []) :
    (ofEnum name lines solid).text = "enum".toList ++ ([' '] ++ (name.text ++
      (['\n', '{', '\n'] ++ (lines.flatMap EnumeratorLine.text ++ ['}', ';', '\n'])))) :=
  (List.append_assoc _ _ _).trans (keyword_append _ _ _ _)

theorem text_ofFunction (type : ReturnType) (name : FunctionName) (parameters : List TypedName) :
    (ofFunction type name parameters).text = type.text ++ ' ' :: (name.text ++ '(' ::
      (Text.joinWith [',', ' '] (parameters.map TypedName.text) ++ [')', ';', '\n'])) := by
  show type.text ++ ' ' :: name.text ++ '(' ::
      Text.joinWith [',', ' '] (parameters.map TypedName.text) ++ [')', ';', '\n'] = _
  simp only [List.append_assoc, List.cons_append]

/-- The record of a declaration in the header at `filePath`, as the only one of its set. -/
def records (filePath : String) : Declaration → DeclarationSet
  | ofClass name bases =>
    { classes := [{
        name := String.ofList name.text
        baseClasses := bases.map fun base => String.ofList base.text
        access := .public
        members := []
        filePath }] }
  | ofStruct name => { structs := [{ name := String.ofList name.text, members := [], filePath }] }
  | ofEnum name lines _ =>
    { enums := [{
        name := String.ofList name.text
        values := lines.map fun line =>
          ⟨String.ofList line.name.text, String.ofList ((line.value.map Digits.text).getD [])⟩
        filePath }] }
  | ofFunction type name parameters =>
    { functions := [{
        name := String.ofList name.text
        returnType := String.ofList type.text
        parameters := parameters.map fun parameter =>
          ⟨String.ofList parameter.name.text, String.ofList parameter.type.text⟩
        access := .public
        isStatic := false
        isVirtual := false
        filePath }] }

end Declaration

/-- The text of a header. -/
def headerText (declarations : List Declaration) : Text := declarations.flatMap Declaration.text

example :
    headerText [
        .ofClass { text := "APawn".toList } [{ text := "AActor".toList }],
        .ofEnum { text := "EMode".toList } [
          { name := { text := "Walk".toList } },
          { name := { text := "Fly".toList }, value := some { text := "2".toList } }] (by decide),
        .ofFunction { name := { text := "APawn".toList }, indirection := .pointer }
          { text := "Spawn".toList }
          [{ type := { name := { text := "EMode".toList } }, name := { text := "Mode".toList } }]] =
      "class APawn : public AActor\n\x7b\n\x7d;\n".toList ++
        "enum EMode\n\x7b\n\tWalk,\n\tFly = 2,\n\x7d;\n".toList ++
        "APawn* Spawn(EMode Mode);\n".toList := by
  decide

end EngineDocs.Header.Canonical
