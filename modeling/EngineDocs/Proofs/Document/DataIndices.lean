/-
This file shows that the two JSON indices agree. Both are written from the same modules in the same
order, so the flat index is a row of blocks, one for each module, and the counts in the list of
modules are the lengths of these blocks. Nothing but the lengths is needed to find the blocks, also
when modules are empty or share a name.
-/

import EngineDocs.Proofs.Document.DataFile
import EngineDocs.Proofs.Generation.Clashes
import Mathlib.Algebra.GroupWithZero.Nat
import Mathlib.Data.List.SplitLengths

namespace EngineDocs

/-! ### Cutting a list into blocks -/

/-- Cutting the items into consecutive blocks of these lengths gives these blocks, and nothing is
left over. -/
structure IsCut {Item : Type} (lengths : List Nat) (items : List Item) (blocks : List (List Item)) :
    Prop where
  total : lengths.sum = items.length
  cut : lengths.splitLengths items = blocks

/-- Blocks behind each other are found again by their lengths. -/
theorem isCut_flatten {Item : Type} (blocks : List (List Item)) :
    IsCut (blocks.map List.length) blocks.flatten blocks where
  total := List.length_flatten.symm
  cut := by
    induction blocks with
    | nil => rfl
    | cons block blocks inductionHypothesis =>
      rw [List.map_cons, List.splitLengths_cons, List.flatten_cons, List.take_left,
        List.drop_left, inductionHypothesis]

/-! ### Reading lists -/

namespace Json

theorem asNat?_nat {count : Nat} (small : count < UInt64.size) :
    asNat? (nat count) = some count := by
  have inRange : (0 ≤ (count : Int) && (count : Int).toNat < UInt64.size) = true := by
    simpa using small
  rw [nat, asNat?, if_pos inRange, Int.toNat_natCast]

/-- Lists of several owners, written into one list, are read as one list. -/
theorem asListOf?_flatMap {Owner Item View : Type} {write : Owner → Item → Json}
    {read? : Json → Option View} {view : Owner → Item → View}
    (each : ∀ owner item, read? (write owner item) = some (view owner item))
    (items : Owner → List Item) (owners : List Owner) :
    asListOf? read? (.arr (owners.flatMap fun owner => (items owner).map (write owner))) =
      some (owners.map fun owner => (items owner).map (view owner)).flatten := by
  have pairs : ∀ {Target : Type} (form : Owner → Item → Target),
      (owners.flatMap fun owner => (items owner).map (form owner)) =
        (owners.flatMap fun owner => (items owner).map (Prod.mk owner)).map
          fun pair => form pair.1 pair.2 := by
    intro Target form
    rw [List.map_flatMap]
    simp only [List.map_map, Function.comp_def]
  rw [pairs write]
  refine (mapM_map_of_forall fun pair _ => each pair.1 pair.2).trans ?_
  rw [← pairs view, List.flatMap_def]

end Json

namespace DataFile

/-! ### The list of modules, decoded -/

/-- What the list of modules says of a module. -/
structure Summary where
  name : String
  path : String
  category : String
  dependencies : Dependencies
  classCount : Nat
  functionCount : Nat
  enumCount : Nat
  structCount : Nat
  deriving DecidableEq

/-- What is to be said of a module. -/
def Summary.ofModule (data : ModuleData) : Summary where
  name := data.name
  path := data.path
  category := data.category
  dependencies := data.dependencies
  classCount := data.classes.length
  functionCount := data.functions.length
  enumCount := data.enums.length
  structCount := data.structs.length

/-- Reads what is said of a module. -/
def Summary.ofJson? (value : Json) : Option Summary := do
  return {
    name := ← (value.get? "name").bind Json.asString?
    path := ← (value.get? "path").bind Json.asString?
    category := ← (value.get? "category").bind Json.asString?
    dependencies := ← (value.get? "dependencies").bind Dependencies.ofJson?
    classCount := ← (value.get? "class_count").bind Json.asNat?
    functionCount := ← (value.get? "function_count").bind Json.asNat?
    enumCount := ← (value.get? "enum_count").bind Json.asNat?
    structCount := ← (value.get? "struct_count").bind Json.asNat? }

/-- The list of all modules: their number, and what is said of each of them. -/
structure ModuleTable where
  moduleCount : Nat
  modules : List Summary
  deriving DecidableEq

/-- Reads the list of all modules from a text. -/
def ModuleTable.ofText? (text : String) : Option ModuleTable := do
  let value ← Json.read? text.toList
  return {
    moduleCount := ← (value.get? "module_count").bind Json.asNat?
    modules := ← (value.get? "modules").bind (Json.asListOf? Summary.ofJson?) }

theorem Summary.ofJson?_summary {data : ModuleData} (small : data.declarationCount < UInt64.size) :
    Summary.ofJson? (summary data) = some (Summary.ofModule data) := by
  rw [ModuleData.declarationCount] at small
  have dependencies : ((summary data).get? "dependencies").bind Dependencies.ofJson? =
      some data.dependencies := Dependencies.ofJson?_toJson _
  have classes : ((summary data).get? "class_count").bind Json.asNat? =
      some data.classes.length := Json.asNat?_nat (by omega)
  have functions : ((summary data).get? "function_count").bind Json.asNat? =
      some data.functions.length := Json.asNat?_nat (by omega)
  have enums : ((summary data).get? "enum_count").bind Json.asNat? =
      some data.enums.length := Json.asNat?_nat (by omega)
  have structs : ((summary data).get? "struct_count").bind Json.asNat? =
      some data.structs.length := Json.asNat?_nat (by omega)
  rw [ofJson?, dependencies, classes, functions, enums, structs]
  rfl

theorem ModuleTable.ofText?_modulesIndex (edition : Edition) {modules : List ModuleData}
    (countsFit : CountsFit modules) :
    ModuleTable.ofText? (String.ofList (modulesIndex edition modules).pretty) =
      some ⟨modules.length, modules.map Summary.ofModule⟩ := by
  have count : ((modulesIndex edition modules).get? "module_count").bind Json.asNat? =
      some modules.length := Json.asNat?_nat countsFit.length
  have summaries : ((modulesIndex edition modules).get? "modules").bind
      (Json.asListOf? Summary.ofJson?) = some (modules.map Summary.ofModule) :=
    Json.mapM_map_of_forall fun data member =>
      Summary.ofJson?_summary (countsFit.declarations data member)
  rw [ofText?, String.toList_ofList,
    Json.read?_pretty (fits_modulesIndex edition countsFit) (by decide), Option.bind_eq_bind,
    Option.bind_some, count, summaries]
  rfl

/-! ### The index of declarations, decoded -/

/-- What the index says of a declaration. Classes have their base classes as a detail, functions
their return type, and others have none. -/
structure Entry (Detail : Type) where
  name : String
  moduleName : String
  detail : Detail
  filePath : String
  deriving DecidableEq

/-- Reads what is said of a declaration, given how its detail is read. -/
def Entry.ofJson? {Detail : Type} (detail? : Json → Option Detail) (value : Json) :
    Option (Entry Detail) := do
  return {
    name := ← (value.get? "name").bind Json.asString?
    moduleName := ← (value.get? "module").bind Json.asString?
    detail := ← detail? value
    filePath := ← (value.get? "file_path").bind Json.asString? }

/-- Reads what is said of a class. -/
def Entry.class? : Json → Option (Entry (List String)) :=
  ofJson? fun value => (value.get? "base_classes").bind Json.asStrings?

/-- Reads what is said of a function. -/
def Entry.function? : Json → Option (Entry String) :=
  ofJson? fun value => (value.get? "return_type").bind Json.asString?

/-- Reads what is said of a declaration that has no detail. -/
def Entry.bare? : Json → Option (Entry Unit) := ofJson? fun _ => some ()

/-- What is to be said of a class. -/
def Entry.ofClass (data : ModuleData) (record : ClassRecord) : Entry (List String) :=
  ⟨record.name, data.name, record.baseClasses, record.filePath⟩

/-- What is to be said of a function. -/
def Entry.ofFunction (data : ModuleData) (record : FunctionRecord) : Entry String :=
  ⟨record.name, data.name, record.returnType, record.filePath⟩

/-- What is to be said of an enum. -/
def Entry.ofEnum (data : ModuleData) (record : EnumRecord) : Entry Unit :=
  ⟨record.name, data.name, (), record.filePath⟩

/-- What is to be said of a struct. -/
def Entry.ofStruct (data : ModuleData) (record : StructRecord) : Entry Unit :=
  ⟨record.name, data.name, (), record.filePath⟩

/-- The index of all declarations. -/
structure DeclarationTable where
  classes : List (Entry (List String))
  functions : List (Entry String)
  enums : List (Entry Unit)
  structs : List (Entry Unit)
  deriving DecidableEq

/-- Reads the index of all declarations from a text. -/
def DeclarationTable.ofText? (text : String) : Option DeclarationTable := do
  let value ← Json.read? text.toList
  return {
    classes := ← (value.get? "classes").bind (Json.asListOf? Entry.class?)
    functions := ← (value.get? "functions").bind (Json.asListOf? Entry.function?)
    enums := ← (value.get? "enums").bind (Json.asListOf? Entry.bare?)
    structs := ← (value.get? "structs").bind (Json.asListOf? Entry.bare?) }

/-- What is to be said of the declarations of one kind, module by module. -/
def blocks {Record View : Type} (records : ModuleData → List Record)
    (view : ModuleData → Record → View) (modules : List ModuleData) : List (List View) :=
  modules.map fun data => (records data).map (view data)

theorem Entry.class?_classEntry (data : ModuleData) (record : ClassRecord) :
    class? (classEntry data.name record) = some (ofClass data record) := by
  have bases : ((classEntry data.name record).get? "base_classes").bind Json.asStrings? =
      some record.baseClasses := Json.asStrings?_strings _
  rw [class?, ofJson?, bases]
  rfl

theorem Entry.function?_functionEntry (data : ModuleData) (record : FunctionRecord) :
    function? (functionEntry data.name record) = some (ofFunction data record) := rfl

theorem Entry.bare?_namedEntry (moduleName name filePath : String) :
    bare? (namedEntry moduleName name filePath) = some ⟨name, moduleName, (), filePath⟩ := rfl

/-- The flat index is read as the blocks of the modules behind each other. -/
theorem DeclarationTable.ofText?_apiIndex (edition : Edition) (modules : List ModuleData) :
    DeclarationTable.ofText? (String.ofList (apiIndex edition modules).pretty) =
      some ⟨(blocks ModuleData.classes Entry.ofClass modules).flatten,
        (blocks ModuleData.functions Entry.ofFunction modules).flatten,
        (blocks ModuleData.enums Entry.ofEnum modules).flatten,
        (blocks ModuleData.structs Entry.ofStruct modules).flatten⟩ := by
  have classes : ((apiIndex edition modules).get? "classes").bind
      (Json.asListOf? Entry.class?) =
        some (blocks ModuleData.classes Entry.ofClass modules).flatten :=
    Json.asListOf?_flatMap Entry.class?_classEntry ModuleData.classes modules
  have functions : ((apiIndex edition modules).get? "functions").bind
      (Json.asListOf? Entry.function?) =
        some (blocks ModuleData.functions Entry.ofFunction modules).flatten :=
    Json.asListOf?_flatMap Entry.function?_functionEntry ModuleData.functions modules
  have enums : ((apiIndex edition modules).get? "enums").bind (Json.asListOf? Entry.bare?) =
      some (blocks ModuleData.enums Entry.ofEnum modules).flatten :=
    Json.asListOf?_flatMap (fun (data : ModuleData) (record : EnumRecord) =>
      Entry.bare?_namedEntry data.name record.name record.filePath) ModuleData.enums modules
  have structs : ((apiIndex edition modules).get? "structs").bind (Json.asListOf? Entry.bare?) =
      some (blocks ModuleData.structs Entry.ofStruct modules).flatten :=
    Json.asListOf?_flatMap (fun (data : ModuleData) (record : StructRecord) =>
      Entry.bare?_namedEntry data.name record.name record.filePath) ModuleData.structs modules
  rw [ofText?, String.toList_ofList, Json.read?_pretty (fits_apiIndex edition modules) (by decide),
    Option.bind_eq_bind, Option.bind_some, classes, functions, enums, structs]
  rfl

theorem isCut_blocks {Record View : Type} (records : ModuleData → List Record)
    (view : ModuleData → Record → View) (modules : List ModuleData) :
    IsCut (modules.map fun data => (records data).length) (blocks records view modules).flatten
      (blocks records view modules) := by
  have lengths : (blocks records view modules).map List.length =
      modules.map fun data => (records data).length := by
    rw [blocks, List.map_map]
    exact List.map_congr_left fun data _ => List.length_map _
  rw [← lengths]
  exact isCut_flatten _

/-! ### The two indices -/

/-- The list of modules and the index of declarations agree about the modules: there is a row for
each module, in order, and the counts in the rows cut the lists of the index into what is to be
said of the declarations of each module. -/
structure Agree (modules : List ModuleData) (table : ModuleTable) (index : DeclarationTable) :
    Prop where
  moduleCount : table.moduleCount = modules.length
  rows : table.modules = modules.map Summary.ofModule
  classes : IsCut (table.modules.map Summary.classCount) index.classes
    (blocks ModuleData.classes Entry.ofClass modules)
  functions : IsCut (table.modules.map Summary.functionCount) index.functions
    (blocks ModuleData.functions Entry.ofFunction modules)
  enums : IsCut (table.modules.map Summary.enumCount) index.enums
    (blocks ModuleData.enums Entry.ofEnum modules)
  structs : IsCut (table.modules.map Summary.structCount) index.structs
    (blocks ModuleData.structs Entry.ofStruct modules)

theorem agree_blocks (modules : List ModuleData) :
    Agree modules ⟨modules.length, modules.map Summary.ofModule⟩
      ⟨(blocks ModuleData.classes Entry.ofClass modules).flatten,
        (blocks ModuleData.functions Entry.ofFunction modules).flatten,
        (blocks ModuleData.enums Entry.ofEnum modules).flatten,
        (blocks ModuleData.structs Entry.ofStruct modules).flatten⟩ where
  moduleCount := rfl
  rows := rfl
  classes := by rw [List.map_map]; exact isCut_blocks _ _ _
  functions := by rw [List.map_map]; exact isCut_blocks _ _ _
  enums := by rw [List.map_map]; exact isCut_blocks _ _ _
  structs := by rw [List.map_map]; exact isCut_blocks _ _ _

end DataFile

namespace Output

open FileTree
open Headers (descend)

/-- Data files of different names that are written one after the other all hold the texts of their
documents. -/
theorem readText_of_mem_dataFiles {output : String} {documents : List (String × Json)}
    {tree : FileTree} (areNames : ∀ document ∈ documents, Path.IsName document.1)
    (distinct : (documents.map Prod.fst).Nodup)
    (done : (Change.performAll tree (documents.flatMap fun document =>
      dataFile output (Path.join (dataDirectory output) document.1) document.2)).2 = none)
    {document : String × Json} (member : document ∈ documents) :
    (Change.performAll tree (documents.flatMap fun document =>
      dataFile output (Path.join (dataDirectory output) document.1) document.2)).1.readText
        (Path.join (dataDirectory output) document.1) =
      .ok (String.ofList document.2.pretty) := by
  have isData : Path.IsName "data" := by decide
  have way : ∀ other ∈ documents, ∀ name ∈ ["data", other.1], Path.IsName name := by
    intro other listed
    simpa [isData] using areNames other listed
  have place : Path.join (dataDirectory output) document.1 =
      descend output ["data", document.1] := rfl
  rw [readText_eq_ok_iff, place]
  refine Change.item?_performAll_of_mem (way document member) (List.cons_ne_nil _ _) ?_ ?_ done
  · intro change listed
    obtain ⟨other, inside, written⟩ := List.mem_flatMap.mp listed
    rcases List.mem_cons.mp written with rfl | written
    · exact Or.inl trivial
    obtain rfl := List.mem_singleton.mp written
    by_cases same : other.1 = document.1
    · obtain rfl := List.inj_on_of_nodup_map distinct inside member same
      exact Or.inr rfl
    · exact Or.inl ⟨["data", other.1], rfl, way other inside, by simpa using same⟩
  · exact List.mem_flatMap.mpr ⟨document, member, List.mem_cons_of_mem _ List.mem_cons_self⟩

/-- Once the two indices are written one after the other, both files hold their documents. -/
theorem readText_dataIndices {output : String} {edition : Edition} {modules : List ModuleData}
    {before after : FileTree} (done : Change.performAll before
      (modulesIndex output edition modules ++ apiIndex output edition modules) = (after, none)) :
    after.readText (Path.join (dataDirectory output) "modules.json") =
        .ok (String.ofList (DataFile.modulesIndex edition modules).pretty) ∧
      after.readText (Path.join (dataDirectory output) "api-index.json") =
        .ok (String.ofList (DataFile.apiIndex edition modules).pretty) := by
  have changes : modulesIndex output edition modules ++ apiIndex output edition modules =
      [("modules.json", DataFile.modulesIndex edition modules),
        ("api-index.json", DataFile.apiIndex edition modules)].flatMap fun document =>
          dataFile output (Path.join (dataDirectory output) document.1) document.2 := by
    rw [List.flatMap_cons, List.flatMap_singleton]
    rfl
  have areNames : ∀ document ∈ [("modules.json", DataFile.modulesIndex edition modules),
      ("api-index.json", DataFile.apiIndex edition modules)], Path.IsName document.1 := by
    simp only [List.forall_mem_cons]
    exact ⟨by decide, by decide, nofun⟩
  have distinct : ["modules.json", "api-index.json"].Nodup := by decide
  rw [changes] at done
  have succeeded := congrArg Prod.snd done
  have first := readText_of_mem_dataFiles areNames distinct succeeded List.mem_cons_self
  have second := readText_of_mem_dataFiles areNames distinct succeeded
    (List.mem_cons_of_mem _ List.mem_cons_self)
  rw [done] at first second
  exact ⟨first, second⟩

end Output

namespace DataFile

open FileTree

/-- The two JSON indices of a list of modules are read as tables that agree about the modules, and
once they are written, their files hold what is read. -/
theorem indices_agree (edition : Edition) {modules : List ModuleData}
    (countsFit : CountsFit modules) :
    ∃ table index,
      ModuleTable.ofText? (String.ofList (modulesIndex edition modules).pretty) = some table ∧
      DeclarationTable.ofText? (String.ofList (apiIndex edition modules).pretty) = some index ∧
      Agree modules table index ∧
      ∀ (output : String) (before after : FileTree),
        Change.performAll before (Output.modulesIndex output edition modules ++
          Output.apiIndex output edition modules) = (after, none) →
        after.readText (Path.join (Output.dataDirectory output) "modules.json") =
            .ok (String.ofList (modulesIndex edition modules).pretty) ∧
          after.readText (Path.join (Output.dataDirectory output) "api-index.json") =
            .ok (String.ofList (apiIndex edition modules).pretty) :=
  ⟨_, _, ModuleTable.ofText?_modulesIndex edition countsFit,
    DeclarationTable.ofText?_apiIndex edition modules, agree_blocks modules,
    fun _ _ _ => Output.readText_dataIndices⟩

/-- Two modules of one name with all that has to be escaped in their texts, and a module of the same
name without declarations between them. -/
def namesakes : List ModuleData :=
  [.unusual, { ModuleData.unusual with classes := [], functions := [], enums := [], structs := [] },
    .unusual]

theorem indices_agree_namesakes :
    CountsFit namesakes ∧
      ∃ after moduleText declarationText table index,
        Change.performAll {} (Output.modulesIndex "o/p" ⟨"5.1", ⟨0⟩⟩ namesakes ++
          Output.apiIndex "o/p" ⟨"5.1", ⟨0⟩⟩ namesakes) = (after, none) ∧
        after.readText "o/p/data/modules.json" = .ok moduleText ∧
        after.readText "o/p/data/api-index.json" = .ok declarationText ∧
        ModuleTable.ofText? moduleText = some table ∧
        DeclarationTable.ofText? declarationText = some index ∧
        Agree namesakes table index ∧
        blocks ModuleData.classes Entry.ofClass namesakes =
          [[⟨"C", ModuleData.unusual.name, ["B<\"int\">"], "a\\b.h"⟩], [],
            [⟨"C", ModuleData.unusual.name, ["B<\"int\">"], "a\\b.h"⟩]] := by
  have countsFit : CountsFit namesakes := ⟨by decide, by decide⟩
  have done : (Change.performAll {} (Output.modulesIndex "o/p" ⟨"5.1", ⟨0⟩⟩ namesakes ++
      Output.apiIndex "o/p" ⟨"5.1", ⟨0⟩⟩ namesakes)).2 = none := by
    decide +kernel
  obtain ⟨after, performed⟩ : ∃ after, Change.performAll {}
      (Output.modulesIndex "o/p" ⟨"5.1", ⟨0⟩⟩ namesakes ++
        Output.apiIndex "o/p" ⟨"5.1", ⟨0⟩⟩ namesakes) = (after, none) := ⟨_, Prod.ext rfl done⟩
  obtain ⟨table, index, readTable, readIndex, agree, written⟩ :=
    indices_agree ⟨"5.1", ⟨0⟩⟩ countsFit
  obtain ⟨first, second⟩ := written "o/p" {} after performed
  have firstPlace : Path.join (Output.dataDirectory "o/p") "modules.json" =
      "o/p/data/modules.json" := by
    decide
  have secondPlace : Path.join (Output.dataDirectory "o/p") "api-index.json" =
      "o/p/data/api-index.json" := by
    decide
  rw [firstPlace] at first
  rw [secondPlace] at second
  exact ⟨countsFit, after, _, _, table, index, performed, first, second, readTable, readIndex,
    agree, rfl⟩

end DataFile

end EngineDocs
