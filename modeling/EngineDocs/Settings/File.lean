/-
This file reads settings from a configuration file, a YAML document with a mapping in it. Names that
are no settings count for nothing, a setting that is missing has its default, and no setting may be
given twice.
-/

import EngineDocs.Settings
import EngineDocs.Yaml.Node

namespace EngineDocs

namespace Yaml.Node

/-! ### Views of nodes -/

/-- The text of a scalar, whatever its style. -/
def asText? : Node → Option Text
  | scalar _ _ text => some text
  | _ => none

/-- The text of a scalar as a string. -/
def asString? (node : Node) : Option String := node.asText?.map String.ofList

/-- Whether nothing is written. -/
def isEmpty : Node → Bool
  | scalar .plain _ [] => true
  | _ => false

/-- The items of a sequence; there are none when nothing is written. -/
def asList? : Node → Option (List Node)
  | sequence items => some items
  | node => if node.isEmpty then some [] else none

/-- The pairs of a mapping; there are none when nothing is written. -/
def asPairs? : Node → Option (List (Node × Node))
  | mapping pairs => some pairs
  | node => if node.isEmpty then some [] else none

/-- The text of a scalar that may be read as a value of some kind: a plain one, or a literal block
with the tag of that kind. -/
def asValueText? (kind : String) : Node → Option Text
  | scalar .plain _ text => some text
  | scalar .literal (some tag) text => if tag == Tag.ofKind kind then some text else none
  | _ => none

/-- The truth value that a scalar stands for. -/
def asBool? (node : Node) : Option Bool :=
  (node.asValueText? "bool").bind fun text =>
    if ["true", "True", "TRUE"].contains (String.ofList text) then some true
    else if ["false", "False", "FALSE"].contains (String.ofList text) then some false
    else none

/-- The unsigned number that digits stand for: hexadecimal, octal and binary ones behind the mark of
their base, decimal ones without leading zeros. -/
def readUnsigned? : Text → Option Nat
  | '0' :: 'x' :: digits => Text.readDigits? 16 digits
  | '0' :: 'o' :: digits => Text.readDigits? 8 digits
  | '0' :: 'b' :: digits => Text.readDigits? 2 digits
  | '0' :: _ :: _ => none
  | digits => Text.readDigits? 10 digits

/-- The number of at most 64 bits that a scalar stands for. A plus sign may come before it. -/
def asNat? (node : Node) : Option Nat :=
  (node.asValueText? "int").bind fun text =>
    (readUnsigned? (if text.head? == some '+' then text.drop 1 else text)).filter (· < UInt64.size)

/-- Whether a text stands for nothing. -/
def isNull (text : Text) : Bool := ["null", "Null", "NULL", "~"].contains (String.ofList text)

/-- A string that may be missing. A plain scalar that stands for nothing, or with the tag for that,
is none. -/
def asOptionalString? : Node → Option (Option String)
  | scalar .plain none text =>
    some (if text.isEmpty || isNull text then none else String.ofList text)
  | scalar .plain (some tag) text =>
    if tag == Tag.ofKind "null" then if isNull text then some none else none
    else some (String.ofList text)
  | node => node.asString?.map some

/-- One of several names: a scalar, or a tag of this document on nothing. -/
def asName? : Node → Option String
  | scalar style (some tag) text =>
    match tag.localName? with
    | some name => if style == .plain && (text.isEmpty || isNull text) then some name else none
    | none => some (String.ofList text)
  | node => node.asString?

end Yaml.Node

namespace Yaml.Document

/-- The pairs of the mapping that the document is, by their keys. -/
def pairs? (document : Document) : Option (List (String × Node)) :=
  document.root.asPairs?.bind fun pairs => pairs.mapM fun (key, value) =>
    (document.resolve key).asString?.map fun name => (name, document.resolve value)

/-- A list in a document, read item by item. -/
def listOf? {α : Type} (document : Document) (read? : Node → Option α) (node : Node) :
    Option (List α) :=
  node.asList?.bind fun items => items.mapM fun item => read? (document.resolve item)

end Yaml.Document

namespace Settings

/-- The value of a setting among the pairs of a file, `some none` when it is missing. It may not be
given twice. -/
def setting? (pairs : List (String × Yaml.Node)) (name : String) : Option (Option Yaml.Node) :=
  match pairs.filter fun (pair : String × Yaml.Node) => pair.1 == name with
  | [] => some none
  | [pair] => some (some pair.2)
  | _ => none

/-- The value of a setting, read as it has to be read. -/
def settingOr? {α : Type} (pairs : List (String × Yaml.Node)) (name : String)
    (read? : Yaml.Node → Option α) (default : α) : Option α :=
  (setting? pairs name).bind fun value =>
    match value with
    | some node => read? node
    | none => some default

/-- The settings in a document. -/
def ofDocument? (document : Yaml.Document) : Option Settings := do
  let pairs ← document.pairs?
  let strings := document.listOf? Yaml.Node.asString?
  let formats := document.listOf? fun node => node.asName?.bind OutputFormat.ofLabel?
  let default : Settings := {}
  return {
    sourceDir := ← settingOr? pairs "source_dir" Yaml.Node.asString? default.sourceDir
    pluginsDir := ← settingOr? pairs "plugins_dir" Yaml.Node.asOptionalString? default.pluginsDir
    outputDir := ← settingOr? pairs "output_dir" Yaml.Node.asString? default.outputDir
    engineVersion := ← settingOr? pairs "engine_version" Yaml.Node.asString? default.engineVersion
    moduleCategories := ← settingOr? pairs "module_categories" strings default.moduleCategories
    excludeDirs := ← settingOr? pairs "exclude_dirs" strings default.excludeDirs
    formats := ← settingOr? pairs "formats" formats default.formats
    incremental := ← settingOr? pairs "incremental" Yaml.Node.asBool? default.incremental
    parallelThreads :=
      ← settingOr? pairs "parallel_threads" Yaml.Node.asNat? default.parallelThreads }

/-- The settings in the text of a configuration file. A text without a document leaves all settings
as they are by default. -/
def ofText? (content : String) : Option Settings :=
  if content.toList.all Text.isBlank then some {}
  else
    match Yaml.read? content.toList with
    | none => none
    | some none => some {}
    | some (some document) => ofDocument? document

end Settings

end EngineDocs
