/-
This file shows that the JSON form of a module keeps all that is known of it: what is written of a
module is read back, its text on one line belongs to no other module, and the payload of its data
file is the module without its description.
-/

import EngineDocs.Document.DataFile
import EngineDocs.Proofs.Json.Value

namespace EngineDocs

/-! ### Lists -/

namespace Json

/-- A list is read when each of its items is, whatever is read of them. -/
theorem mapM_map_of_forall {Item View : Type} {write : Item → Json} {read? : Json → Option View}
    {view : Item → View} {items : List Item}
    (each : ∀ item ∈ items, read? (write item) = some (view item)) :
    (items.map write).mapM read? = some (items.map view) := by
  induction items with
  | nil => rfl
  | cons item items inductionHypothesis =>
    obtain ⟨here, later⟩ := List.forall_mem_cons.mp each
    rw [List.map_cons, List.mapM_cons, here, inductionHypothesis later]
    rfl

theorem mapM_map_of_read {α : Type} {write : α → Json} {read? : Json → Option α}
    (inverse : ∀ item, read? (write item) = some item) (items : List α) :
    (items.map write).mapM read? = some items := by
  have read := @mapM_map_of_forall α α write read? id items fun item _ => inverse item
  rwa [List.map_id] at read

theorem asListOf?_map {α : Type} {write : α → Json} {read? : Json → Option α}
    (inverse : ∀ item, read? (write item) = some item) (items : List α) :
    asListOf? read? (.arr (items.map write)) = some items :=
  mapM_map_of_read inverse items

theorem asStrings?_strings (texts : List String) : asStrings? (strings texts) = some texts :=
  @mapM_map_of_read String str asString? (fun _ => rfl) texts

theorem Fits.mono {depth deeper : Nat} {value : Json} (fits : Fits depth value)
    (le : depth ≤ deeper) : Fits deeper value := by
  induction fits generalizing deeper with
  | null => exact .null
  | bool value => exact .bool value
  | int nonnegative small => exact .int nonnegative small
  | str value => exact .str value
  | arr _ inductionHypothesis =>
    obtain ⟨deeper, rfl⟩ : ∃ inner, deeper = inner + 1 := ⟨deeper - 1, by omega⟩
    exact .arr fun item member => inductionHypothesis item member (by omega)
  | obj _ inductionHypothesis =>
    obtain ⟨deeper, rfl⟩ : ∃ inner, deeper = inner + 1 := ⟨deeper - 1, by omega⟩
    exact .obj fun field member => inductionHypothesis field member (by omega)

theorem fits_arr_map {α : Type} {write : α → Json} {depth : Nat}
    (each : ∀ item, Fits depth (write item)) (items : List α) :
    Fits (depth + 1) (.arr (items.map write)) := by
  refine .arr fun value member => ?_
  obtain ⟨item, _, rfl⟩ := List.mem_map.mp member
  exact each item

theorem fits_strings (texts : List String) : Fits 1 (strings texts) := fits_arr_map .str texts

end Json

/-! ### Records -/

theorem Access.ofJson?_toJson (access : Access) : ofJson? access.toJson = some access := by
  cases access <;> rfl

theorem Member.ofJson?_toJson (member : Member) : ofJson? member.toJson = some member := by
  obtain ⟨name, type, access⟩ := member
  cases access with
  | none => rfl
  | some access => cases access <;> rfl

theorem ClassRecord.ofJson?_toJson (record : ClassRecord) :
    ofJson? record.toJson = some record := by
  have fields : record.toJson.record? ["name", "baseClasses", "access", "members", "filePath"] =
      some [some (.str record.name), some (Json.strings record.baseClasses),
        some record.access.toJson, some (.arr (record.members.map Member.toJson)),
        some (.str record.filePath)] := rfl
  rw [ofJson?, fields]
  simp only [Json.defaulted?, Option.bind_some, Json.asString?, Json.asStrings?_strings,
    Access.ofJson?_toJson, Json.asListOf?_map Member.ofJson?_toJson]
  rfl

theorem Parameter.ofJson?_toJson (parameter : Parameter) :
    ofJson? parameter.toJson = some parameter := rfl

theorem FunctionRecord.ofJson?_toJson (record : FunctionRecord) :
    ofJson? record.toJson = some record := by
  have fields : record.toJson.record? ["name", "returnType", "parameters", "access", "isStatic",
      "isVirtual", "filePath"] =
      some [some (.str record.name), some (.str record.returnType),
        some (.arr (record.parameters.map Parameter.toJson)), some record.access.toJson,
        some (.bool record.isStatic), some (.bool record.isVirtual),
        some (.str record.filePath)] := rfl
  rw [ofJson?, fields]
  simp only [Option.bind_some, Json.asString?, Json.asBool?, Access.ofJson?_toJson,
    Json.asListOf?_map Parameter.ofJson?_toJson]
  rfl

theorem Enumerator.ofJson?_toJson (enumerator : Enumerator) :
    ofJson? enumerator.toJson = some enumerator := rfl

theorem EnumRecord.ofJson?_toJson (record : EnumRecord) : ofJson? record.toJson = some record := by
  have fields : record.toJson.record? ["name", "values", "filePath"] =
      some [some (.str record.name), some (.arr (record.values.map Enumerator.toJson)),
        some (.str record.filePath)] := rfl
  rw [ofJson?, fields]
  simp only [Option.bind_some, Json.asString?, Json.asListOf?_map Enumerator.ofJson?_toJson]
  rfl

theorem StructRecord.ofJson?_toJson (record : StructRecord) :
    ofJson? record.toJson = some record := by
  have fields : record.toJson.record? ["name", "members", "filePath"] =
      some [some (.str record.name), some (.arr (record.members.map Member.toJson)),
        some (.str record.filePath)] := rfl
  rw [ofJson?, fields]
  simp only [Json.defaulted?, Option.bind_some, Json.asString?,
    Json.asListOf?_map Member.ofJson?_toJson]
  rfl

theorem Dependencies.ofJson?_toJson (dependencies : Dependencies) :
    ofJson? dependencies.toJson = some dependencies := by
  have fields : dependencies.toJson.record? ["public", "private", "dynamic"] =
      some [some (Json.strings dependencies.public), some (Json.strings dependencies.private),
        some (Json.strings dependencies.dynamic)] := rfl
  rw [ofJson?, fields]
  simp only [Option.bind_some, Json.asStrings?_strings]
  rfl

/-! ### How deep records are -/

open Json in
theorem Member.fits_toJson (member : Member) : Fits 1 member.toJson := by
  refine .obj ?_
  obtain ⟨name, type, access⟩ := member
  cases access with
  | none =>
    simp only [Option.map_none, optionalField, List.append_nil, List.forall_mem_cons]
    exact ⟨.str _, .str _, nofun⟩
  | some access =>
    simp only [Option.map_some, optionalField, List.cons_append, List.nil_append,
      List.forall_mem_cons]
    exact ⟨.str _, .str _, .str _, nofun⟩

open Json in
theorem ClassRecord.fits_toJson (record : ClassRecord) : Fits 3 record.toJson := by
  refine .obj ?_
  simp only [List.forall_mem_cons]
  exact ⟨.str _, (fits_strings _).mono (by decide), .str _,
    fits_arr_map Member.fits_toJson _, .str _, nofun⟩

open Json in
theorem Parameter.fits_toJson (parameter : Parameter) : Fits 1 parameter.toJson := by
  refine .obj ?_
  simp only [List.forall_mem_cons]
  exact ⟨.str _, .str _, nofun⟩

open Json in
theorem FunctionRecord.fits_toJson (record : FunctionRecord) : Fits 3 record.toJson := by
  refine .obj ?_
  simp only [List.forall_mem_cons]
  exact ⟨.str _, .str _, fits_arr_map Parameter.fits_toJson _, .str _, .bool _, .bool _, .str _,
    nofun⟩

open Json in
theorem Enumerator.fits_toJson (enumerator : Enumerator) : Fits 1 enumerator.toJson := by
  refine .obj ?_
  simp only [List.forall_mem_cons]
  exact ⟨.str _, .str _, nofun⟩

open Json in
theorem EnumRecord.fits_toJson (record : EnumRecord) : Fits 3 record.toJson := by
  refine .obj ?_
  simp only [List.forall_mem_cons]
  exact ⟨.str _, fits_arr_map Enumerator.fits_toJson _, .str _, nofun⟩

open Json in
theorem StructRecord.fits_toJson (record : StructRecord) : Fits 3 record.toJson := by
  refine .obj ?_
  simp only [List.forall_mem_cons]
  exact ⟨.str _, fits_arr_map Member.fits_toJson _, .str _, nofun⟩

open Json in
theorem Dependencies.fits_toJson (dependencies : Dependencies) : Fits 2 dependencies.toJson := by
  refine .obj ?_
  simp only [List.forall_mem_cons]
  exact ⟨fits_strings _, fits_strings _, fits_strings _, nofun⟩

/-! ### Modules -/

namespace ModuleData

/-- A module is read back from its JSON form. -/
theorem ofJson?_toJson (data : ModuleData) : ofJson? data.toJson = some data := by
  have fields : data.toJson.record? ["name", "path", "category", "dependencies", "classes",
      "functions", "enums", "structs", "description"] =
      some [some (.str data.name), some (.str data.path), some (.str data.category),
        some data.dependencies.toJson, some (.arr (data.classes.map ClassRecord.toJson)),
        some (.arr (data.functions.map FunctionRecord.toJson)),
        some (.arr (data.enums.map EnumRecord.toJson)),
        some (.arr (data.structs.map StructRecord.toJson)), data.description.map Json.str] := by
    obtain ⟨name, path, category, dependencies, classes, functions, enums, structs, description⟩ :=
      data
    cases description <;> rfl
  have description : Json.optional? Json.asString? (data.description.map Json.str) =
      some data.description := by
    cases data.description <;> rfl
  rw [ofJson?, fields]
  simp only [Option.bind_some, Json.asString?, Dependencies.ofJson?_toJson,
    Json.asListOf?_map ClassRecord.ofJson?_toJson, Json.asListOf?_map FunctionRecord.ofJson?_toJson,
    Json.asListOf?_map EnumRecord.ofJson?_toJson, Json.asListOf?_map StructRecord.ofJson?_toJson,
    description]
  rfl

/-- The module without its description, which is all that a data file holds of it. -/
def withoutDescription (data : ModuleData) : ModuleData := { data with description := none }

theorem obj_payloadFields (data : ModuleData) :
    Json.obj data.payloadFields = data.withoutDescription.toJson := by
  show _ = Json.obj (data.payloadFields ++ [])
  rw [List.append_nil]

theorem fits_payloadFields (data : ModuleData) :
    ∀ field ∈ data.payloadFields, Json.Fits 4 field.2 := by
  simp only [payloadFields, List.forall_mem_cons]
  exact ⟨.str _, .str _, .str _, data.dependencies.fits_toJson.mono (by decide),
    Json.fits_arr_map ClassRecord.fits_toJson _, Json.fits_arr_map FunctionRecord.fits_toJson _,
    Json.fits_arr_map EnumRecord.fits_toJson _, Json.fits_arr_map StructRecord.fits_toJson _, nofun⟩

theorem fits_toJson (data : ModuleData) : Json.Fits 5 data.toJson := by
  refine .obj fun field member => ?_
  rcases List.mem_append.mp member with payload | described
  · exact data.fits_payloadFields field payload
  · cases text : data.description with
    | none =>
      rw [text] at described
      exact absurd described List.not_mem_nil
    | some text' =>
      rw [text] at described
      rw [List.mem_singleton.mp described]
      exact .str _

/-- Different modules have different canonical texts. -/
theorem canonicalText_injective {first second : ModuleData}
    (same : first.canonicalText = second.canonicalText) : first = second := by
  have form := Json.compact_injective first.fits_toJson second.fits_toJson
    (String.ofList_injective same)
  have read := first.ofJson?_toJson
  rw [form, ofJson?_toJson] at read
  exact (Option.some.inj read).symm

end ModuleData

/-! ### Data files -/

namespace DataFile

theorem fits_ofModule (edition : Edition) (data : ModuleData) :
    Json.Fits 6 (ofModule edition data) := by
  refine .obj ?_
  simp only [List.cons_append, List.nil_append, List.forall_mem_cons]
  exact ⟨.str _, .str _, .obj data.fits_payloadFields, nofun⟩

/-- The payload of a data file. -/
def payload? (text : String) : Option ModuleData :=
  ((Json.read? text.toList).bind (Json.get? "module")).bind ModuleData.ofJson?

/-- The payload of the data file of a module is the module without its description. -/
theorem payload?_ofModule (edition : Edition) (data : ModuleData) :
    payload? (String.ofList (ofModule edition data).pretty) = some data.withoutDescription := by
  have field : (ofModule edition data).get? "module" = some (.obj data.payloadFields) := rfl
  rw [payload?, String.toList_ofList, Json.read?_pretty (fits_ofModule edition data) (by decide),
    Option.bind_some, field, Option.bind_some, data.obj_payloadFields, ModuleData.ofJson?_toJson]

/-- The version of a document, and its first field behind the version and the moment, are fixed by
its text. -/
theorem document_inj_of_pretty_eq {first second : Edition} {name other : String}
    {value item : Json} {fields items : List (String × Json)}
    (same : (document first ((name, value) :: fields)).pretty =
      (document second ((other, item) :: items)).pretty) :
    first.version = second.version ∧ name = other := by
  simp only [document, Json.pretty, List.cons_append, List.nil_append, Json.write,
    Json.writeFields, List.append_assoc, List.cons.injEq, true_and,
    List.append_cancel_left_eq] at same
  obtain ⟨version, same⟩ := Json.writeString_append_inj same
  simp only [List.cons.injEq, true_and, List.append_cancel_left_eq] at same
  obtain ⟨_, same⟩ := Json.writeString_append_inj same
  simp only [List.cons.injEq, true_and, List.append_cancel_left_eq] at same
  exact ⟨version, (Json.writeString_append_inj same).1⟩

end DataFile

end EngineDocs
