/-
This file holds the JSON form of declaration records, in both directions. The names of the fields
and their order are those that readers of the data files rely on.
-/

import EngineDocs.Declaration
import EngineDocs.Dependencies
import EngineDocs.Json.Value

namespace EngineDocs

namespace Access

/-- An access level is written as its keyword. -/
def toJson (access : Access) : Json := .str access.keyword

/-- Reads an access level from its keyword. -/
def ofJson? (value : Json) : Option Access := value.asName?.bind ofKeyword?

end Access

namespace Member

/-- The access level of a member is left out when it has none. -/
def toJson (member : Member) : Json :=
  .obj ([("name", .str member.name), ("type", .str member.type)] ++
    Json.optionalField "access" (member.access.map Access.toJson))

/-- Reads a member; it may come without an access level. -/
def ofJson? (value : Json) : Option Member :=
  match value.record? ["name", "type", "access"] with
  | some [name, type, access] => do
    return {
      name := ← name.bind Json.asString?
      type := ← type.bind Json.asString?
      access := ← Json.optional? Access.ofJson? access }
  | _ => none

end Member

namespace ClassRecord

/-- A class as JSON. -/
def toJson (record : ClassRecord) : Json :=
  .obj [("name", .str record.name), ("baseClasses", Json.strings record.baseClasses),
    ("access", record.access.toJson), ("members", .arr (record.members.map Member.toJson)),
    ("filePath", .str record.filePath)]

/-- Reads a class; it may come without members. -/
def ofJson? (value : Json) : Option ClassRecord :=
  match value.record? ["name", "baseClasses", "access", "members", "filePath"] with
  | some [name, baseClasses, access, members, filePath] => do
    return {
      name := ← name.bind Json.asString?
      baseClasses := ← baseClasses.bind Json.asStrings?
      access := ← access.bind Access.ofJson?
      members := ← Json.defaulted? (Json.asListOf? Member.ofJson?) [] members
      filePath := ← filePath.bind Json.asString? }
  | _ => none

end ClassRecord

namespace Parameter

/-- A parameter as JSON. -/
def toJson (parameter : Parameter) : Json :=
  .obj [("name", .str parameter.name), ("type", .str parameter.type)]

/-- Reads a parameter. -/
def ofJson? (value : Json) : Option Parameter :=
  match value.record? ["name", "type"] with
  | some [name, type] => do
    return { name := ← name.bind Json.asString?, type := ← type.bind Json.asString? }
  | _ => none

end Parameter

namespace FunctionRecord

/-- A function as JSON. -/
def toJson (record : FunctionRecord) : Json :=
  .obj [("name", .str record.name), ("returnType", .str record.returnType),
    ("parameters", .arr (record.parameters.map Parameter.toJson)),
    ("access", record.access.toJson), ("isStatic", .bool record.isStatic),
    ("isVirtual", .bool record.isVirtual), ("filePath", .str record.filePath)]

/-- Reads a function. -/
def ofJson? (value : Json) : Option FunctionRecord :=
  match value.record? ["name", "returnType", "parameters", "access", "isStatic", "isVirtual",
    "filePath"] with
  | some [name, returnType, parameters, access, isStatic, isVirtual, filePath] => do
    return {
      name := ← name.bind Json.asString?
      returnType := ← returnType.bind Json.asString?
      parameters := ← parameters.bind (Json.asListOf? Parameter.ofJson?)
      access := ← access.bind Access.ofJson?
      isStatic := ← isStatic.bind Json.asBool?
      isVirtual := ← isVirtual.bind Json.asBool?
      filePath := ← filePath.bind Json.asString? }
  | _ => none

end FunctionRecord

namespace Enumerator

/-- A value of an enumeration as JSON. -/
def toJson (enumerator : Enumerator) : Json :=
  .obj [("name", .str enumerator.name), ("value", .str enumerator.value)]

/-- Reads a value of an enumeration. -/
def ofJson? (value : Json) : Option Enumerator :=
  match value.record? ["name", "value"] with
  | some [name, value] => do
    return { name := ← name.bind Json.asString?, value := ← value.bind Json.asString? }
  | _ => none

end Enumerator

namespace EnumRecord

/-- An enumeration as JSON. -/
def toJson (record : EnumRecord) : Json :=
  .obj [("name", .str record.name), ("values", .arr (record.values.map Enumerator.toJson)),
    ("filePath", .str record.filePath)]

/-- Reads an enumeration. -/
def ofJson? (value : Json) : Option EnumRecord :=
  match value.record? ["name", "values", "filePath"] with
  | some [name, values, filePath] => do
    return {
      name := ← name.bind Json.asString?
      values := ← values.bind (Json.asListOf? Enumerator.ofJson?)
      filePath := ← filePath.bind Json.asString? }
  | _ => none

end EnumRecord

namespace StructRecord

/-- A struct as JSON. -/
def toJson (record : StructRecord) : Json :=
  .obj [("name", .str record.name), ("members", .arr (record.members.map Member.toJson)),
    ("filePath", .str record.filePath)]

/-- Reads a struct; it may come without members. -/
def ofJson? (value : Json) : Option StructRecord :=
  match value.record? ["name", "members", "filePath"] with
  | some [name, members, filePath] => do
    return {
      name := ← name.bind Json.asString?
      members := ← Json.defaulted? (Json.asListOf? Member.ofJson?) [] members
      filePath := ← filePath.bind Json.asString? }
  | _ => none

end StructRecord

namespace DeclarationSet

/-- A set of declarations as JSON. -/
def toJson (set : DeclarationSet) : Json :=
  .obj [("classes", .arr (set.classes.map ClassRecord.toJson)),
    ("functions", .arr (set.functions.map FunctionRecord.toJson)),
    ("enums", .arr (set.enums.map EnumRecord.toJson)),
    ("structs", .arr (set.structs.map StructRecord.toJson))]

end DeclarationSet

namespace Dependencies

/-- Dependencies as JSON. -/
def toJson (dependencies : Dependencies) : Json :=
  .obj [("public", Json.strings dependencies.public),
    ("private", Json.strings dependencies.private),
    ("dynamic", Json.strings dependencies.dynamic)]

/-- Reads dependencies. -/
def ofJson? (value : Json) : Option Dependencies :=
  match value.record? ["public", "private", "dynamic"] with
  | some [publicNames, privateNames, dynamicNames] => do
    return {
      «public» := ← publicNames.bind Json.asStrings?
      «private» := ← privateNames.bind Json.asStrings?
      dynamic := ← dynamicNames.bind Json.asStrings? }
  | _ => none

end Dependencies

end EngineDocs
