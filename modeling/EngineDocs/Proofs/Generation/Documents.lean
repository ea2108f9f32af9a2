/-
This file says which documents a module has, where they go below the output directory, and what
writing the documents of many modules does to a tree. A document is written at a path that belongs
to the name of its module, so modules of different names never write at the same path, and of
several modules of one name the last one wins.
-/

import EngineDocs.Generation.Run
import EngineDocs.Proofs.FileTree.Change
import Mathlib.Data.List.Nodup

namespace EngineDocs.Generation

open FileTree
open Headers (descend)

/-! ### Where documents go -/

/-- The names of the pages of a module. -/
def pageNames : List String :=
  ["overview.md", "api.md", "classes.md", "best-practices.md", "examples.md"]

/-- The paths of the wanted documents of a module: its five pages, and its data file. -/
def wantedPaths (settings : Settings) (name : String) : List String :=
  (if settings.wants .markdown then
    pageNames.map (Path.join (Output.moduleDirectory settings.outputDir name))
  else []) ++
  (if settings.wants .json then [Output.moduleFile settings.outputDir name] else [])

/-- The names on the way from the output directory to the wanted documents of a module. -/
def documentNames (settings : Settings) (name : String) : List (List String) :=
  (if settings.wants .markdown then pageNames.map fun page => ["modules", name, page] else []) ++
  (if settings.wants .json then [["data", name ++ ".json"]] else [])

theorem moduleFile_eq (output name : String) :
    Output.moduleFile output name = descend output ["data", name ++ ".json"] := rfl

theorem wantedPaths_eq (settings : Settings) (name : String) :
    wantedPaths settings name = (documentNames settings name).map (descend settings.outputDir) := by
  rw [wantedPaths, documentNames, List.map_append]
  congr 1
  · split <;> rfl
  · split <;> rfl

theorem mem_documentNames_iff {settings : Settings} {name : String} {names : List String} :
    names ∈ documentNames settings name ↔
      (settings.wants .markdown = true ∧ ∃ page ∈ pageNames, names = ["modules", name, page]) ∨
      (settings.wants .json = true ∧ names = ["data", name ++ ".json"]) := by
  rw [documentNames, List.mem_append]
  refine or_congr ?_ ?_
  · cases settings.wants .markdown with
    | true => simp only [if_true, true_and, List.mem_map, eq_comm]
    | false => simp
  · cases settings.wants .json <;> simp

theorem ne_nil_of_mem_documentNames {settings : Settings} {name : String} {names : List String}
    (member : names ∈ documentNames settings name) : names ≠ [] := by
  rcases mem_documentNames_iff.mp member with ⟨_, page, _, rfl⟩ | ⟨_, rfl⟩ <;>
    exact List.cons_ne_nil _ _

theorem isName_of_mem_documentNames {settings : Settings} {name : String} {names : List String}
    (isName : Path.IsName name) (member : names ∈ documentNames settings name) :
    ∀ step ∈ names, Path.IsName step := by
  rcases mem_documentNames_iff.mp member with ⟨_, page, known, rfl⟩ | ⟨_, rfl⟩
  · have isPage : ∀ page ∈ pageNames, Path.IsName page := by decide
    simp only [List.forall_mem_cons]
    exact ⟨by decide, isName, isPage page known, nofun⟩
  · simp only [List.forall_mem_cons]
    exact ⟨by decide, isName.append_json, nofun⟩

theorem json_append_inj {first second : String} (same : first ++ ".json" = second ++ ".json") :
    first = second := by
  have lists := congrArg String.toList same
  rw [String.toList_append, String.toList_append] at lists
  exact String.toList_inj.mp (List.append_cancel_right lists)

/-- A place for documents belongs to one name. -/
theorem name_eq_of_mem_documentNames {first second : Settings} {name other : String}
    {names : List String} (here : names ∈ documentNames first name)
    (there : names ∈ documentNames second other) : name = other := by
  rcases mem_documentNames_iff.mp here with ⟨_, page, _, rfl⟩ | ⟨_, rfl⟩ <;>
    rcases mem_documentNames_iff.mp there with ⟨_, _, _, same⟩ | ⟨_, same⟩
  · exact (List.cons.inj (List.cons.inj same).2).1
  · exact absurd (List.cons.inj same).1 (by decide)
  · exact absurd (List.cons.inj same).1 (by decide)
  · exact json_append_inj (List.cons.inj (List.cons.inj same).2).1

/-! ### The documents of one module -/

/-- The wanted documents of a module: the names on the way to each, and its text. -/
def documents (settings : Settings) (edition : Edition) (data : ModuleData) :
    List (List String × String) :=
  (if settings.wants .markdown then
    (Page.all edition data).map fun (page, content) => (["modules", data.name, page], content)
  else []) ++
  (if settings.wants .json then
    [(["data", data.name ++ ".json"], String.ofList (DataFile.ofModule edition data).pretty)]
  else [])

theorem map_fst_documents (settings : Settings) (edition : Edition) (data : ModuleData) :
    (documents settings edition data).map Prod.fst = documentNames settings data.name := by
  rw [documents, documentNames, List.map_append]
  congr 1
  · split <;> rfl
  · split <;> rfl

theorem nodup_documentNames (settings : Settings) (name : String) :
    (documentNames settings name).Nodup := by
  rw [documentNames, List.nodup_append]
  refine ⟨?_, ?_, ?_⟩
  · split
    · refine List.Nodup.map ?_ (by decide)
      intro first second same
      exact (List.cons.inj (List.cons.inj (List.cons.inj same).2).2).1
    · exact List.nodup_nil
  · split
    · exact List.nodup_singleton _
    · exact List.nodup_nil
  · intro page inside file beside
    split at inside
    · split at beside
      · obtain ⟨_, _, rfl⟩ := List.mem_map.mp inside
        rw [List.mem_singleton.mp beside]
        exact fun same => absurd (List.cons.inj same).1 (by decide)
      · exact absurd beside List.not_mem_nil
    · exact absurd inside List.not_mem_nil

/-- Writing the documents of a module writes nothing else. -/
theorem mem_moduleChanges_iff {settings : Settings} {edition : Edition} {data : ModuleData}
    {path content : String} :
    Change.file path content ∈ moduleChanges settings edition data ↔
      ∃ names, (names, content) ∈ documents settings edition data ∧
        path = descend settings.outputDir names := by
  rw [moduleChanges, documents]
  simp only [List.mem_append]
  rw [show (∃ names, ((names, content) ∈ _ ∨ (names, content) ∈ _) ∧ _) ↔ _ from
    exists_congr fun names => or_and_right, exists_or]
  refine or_congr ?_ ?_
  · split
    · rw [Output.modulePages, List.mem_cons, List.mem_map]
      constructor
      · rintro (impossible | ⟨⟨page, text⟩, member, same⟩)
        · exact nomatch impossible
        · obtain ⟨rfl, rfl⟩ := Change.file.inj same
          exact ⟨_, List.mem_map_of_mem member, rfl⟩
      · rintro ⟨names, member, rfl⟩
        obtain ⟨⟨page, text⟩, listed, same⟩ := List.mem_map.mp member
        obtain ⟨rfl, rfl⟩ := Prod.mk.inj same
        exact Or.inr ⟨(page, text), listed, rfl⟩
    · simp
  · split
    · simp only [Output.moduleData, Output.dataFile, List.mem_cons, List.not_mem_nil, or_false,
        reduceCtorEq, false_or, Change.file.injEq, Prod.mk.injEq]
      constructor
      · rintro ⟨rfl, rfl⟩
        exact ⟨_, ⟨rfl, rfl⟩, rfl⟩
      · rintro ⟨names, ⟨rfl, rfl⟩, rfl⟩
        exact ⟨rfl, rfl⟩
    · simp

theorem mem_documents_data_iff {settings : Settings} {edition : Edition} {data : ModuleData}
    {content : String} :
    (["data", data.name ++ ".json"], content) ∈ documents settings edition data ↔
      settings.wants .json = true ∧
        content = String.ofList (DataFile.ofModule edition data).pretty := by
  rw [documents, List.mem_append]
  constructor
  · rintro (page | file)
    · split at page
      · obtain ⟨_, _, same⟩ := List.mem_map.mp page
        exact absurd (List.cons.inj (Prod.mk.inj same).1).1 (by decide)
      · exact absurd page List.not_mem_nil
    · split at file
      · rename_i wanted
        exact ⟨wanted, (Prod.mk.inj (List.mem_singleton.mp file)).2⟩
      · exact absurd file List.not_mem_nil
  · rintro ⟨wanted, rfl⟩
    rw [if_pos wanted]
    exact Or.inr List.mem_cons_self

theorem exists_mem_documents {settings : Settings} {edition : Edition} {data : ModuleData}
    {names : List String} (member : names ∈ documentNames settings data.name) :
    ∃ content, (names, content) ∈ documents settings edition data := by
  rw [← map_fst_documents settings edition data] at member
  obtain ⟨⟨_, content⟩, listed, rfl⟩ := List.mem_map.mp member
  exact ⟨content, listed⟩

theorem mem_documentNames_of_mem_documents {settings : Settings} {edition : Edition}
    {data : ModuleData} {names : List String} {content : String}
    (member : (names, content) ∈ documents settings edition data) :
    names ∈ documentNames settings data.name := by
  rw [← map_fst_documents settings edition data]
  exact List.mem_map_of_mem member

/-- Writing the documents of a module leaves all other places below the output directory alone. -/
theorem moduleChanges_spare {settings : Settings} {edition : Edition} {data : ModuleData}
    (isName : Path.IsName data.name) {names : List String}
    (apart : names ∉ documentNames settings data.name) :
    ∀ change ∈ moduleChanges settings edition data, change.Spares settings.outputDir names := by
  intro change member
  cases change with
  | directory path => trivial
  | file path content =>
    obtain ⟨others, listed, rfl⟩ := mem_moduleChanges_iff.mp member
    have known := mem_documentNames_of_mem_documents listed
    refine ⟨others, rfl, isName_of_mem_documentNames isName known, ?_⟩
    rintro rfl
    exact apart known

/-- A module has one document in each place. -/
theorem text_unique {settings : Settings} {edition : Edition} {data : ModuleData}
    {names : List String} {first second : String}
    (here : (names, first) ∈ documents settings edition data)
    (there : (names, second) ∈ documents settings edition data) : first = second := by
  have distinct : ((documents settings edition data).map Prod.fst).Nodup := by
    rw [map_fst_documents]
    exact nodup_documentNames settings data.name
  exact (Prod.mk.inj (List.inj_on_of_nodup_map distinct here there rfl)).2

/-- Once the documents of a module are written, they are there. -/
theorem item?_moduleChanges {settings : Settings} {edition : Edition} {data : ModuleData}
    (isName : Path.IsName data.name) {names : List String} {content : String}
    (document : (names, content) ∈ documents settings edition data) {tree : FileTree}
    (done : (Change.performAll tree (moduleChanges settings edition data)).2 = none) :
    (Change.performAll tree (moduleChanges settings edition data)).1.item?
      (descend settings.outputDir names) = some (.file content.toUTF8) := by
  have known := mem_documentNames_of_mem_documents document
  refine Change.item?_performAll_of_mem (isName_of_mem_documentNames isName known)
    (ne_nil_of_mem_documentNames known) ?_ (mem_moduleChanges_iff.mpr ⟨names, document, rfl⟩) done
  intro change member
  cases change with
  | directory path => exact Or.inl trivial
  | file path text =>
    obtain ⟨others, listed, rfl⟩ := mem_moduleChanges_iff.mp member
    by_cases same : others = names
    · subst same
      exact Or.inr (by rw [text_unique listed document])
    · exact Or.inl ⟨others, rfl,
        isName_of_mem_documentNames isName (mem_documentNames_of_mem_documents listed), same⟩

/-! ### The documents of many modules -/

theorem map_fst_renderAll (settings : Settings) (edition : Edition) (tree : FileTree)
    (pending : List Fingerprinted) :
    (renderAll settings edition tree pending).2.map Prod.fst = pending := by
  induction pending generalizing tree with
  | nil => rfl
  | cons candidate pending inductionHypothesis =>
    rw [renderAll]
    exact congrArg (candidate :: ·) (inductionHypothesis _)

section RenderAll

variable {settings : Settings} {edition : Edition} {pending : List Fingerprinted}

/-- A property that no change of a document breaks holds once all are written. -/
theorem renderAll_induction {motive : FileTree → Prop}
    (step : ∀ candidate ∈ pending, ∀ change ∈ moduleChanges settings edition candidate.1,
      ∀ tree : FileTree, motive tree → motive (change.perform tree).1)
    {tree : FileTree} (holds : motive tree) :
    motive (renderAll settings edition tree pending).1 := by
  induction pending generalizing tree with
  | nil => exact holds
  | cons candidate pending inductionHypothesis =>
    rw [renderAll]
    exact inductionHypothesis (fun other member => step other (List.mem_cons_of_mem _ member))
      (Change.performAll_induction (step candidate List.mem_cons_self) holds)

theorem renderAll_wellFormed {tree : FileTree} (wellFormed : tree.WellFormed) :
    (renderAll settings edition tree pending).1.WellFormed :=
  renderAll_induction (motive := WellFormed)
    (fun _ _ change _ _ wellFormed => Change.perform_wellFormed wellFormed change) wellFormed

theorem renderAll_grows (tree : FileTree) :
    tree.Grows (renderAll settings edition tree pending).1 :=
  renderAll_induction (motive := tree.Grows)
    (fun _ _ change _ after grows => grows.trans (Change.perform_grows after change)) (.refl tree)

/-- Writing the documents of modules leaves alone the places that belong to none of them. -/
theorem renderAll_spares (tree : FileTree)
    (areNames : ∀ candidate ∈ pending, Path.IsName candidate.1.name) {names : List String}
    (apart : ∀ candidate ∈ pending, names ∉ documentNames settings candidate.1.name) :
    Spared settings.outputDir names tree (renderAll settings edition tree pending).1 :=
  renderAll_induction (motive := Spared settings.outputDir names tree)
    (fun candidate member change listed after spared =>
      spared.trans (Change.perform_spares after (moduleChanges_spare (areNames candidate member)
        (apart candidate member) change listed)))
    (.refl tree)

/-- The documents of a module are there once all are written, when no later module has its
name. -/
theorem item?_renderAll {tree : FileTree}
    (areNames : ∀ candidate ∈ pending, Path.IsName candidate.1.name) {front back : Rendered}
    {candidate : Fingerprinted}
    (rendered : (renderAll settings edition tree pending).2 = front ++ (candidate, none) :: back)
    (last : ∀ result ∈ back, result.1.1.name ≠ candidate.1.name) {names : List String}
    {content : String} (document : (names, content) ∈ documents settings edition candidate.1) :
    (renderAll settings edition tree pending).1.item? (descend settings.outputDir names) =
      some (.file content.toUTF8) := by
  induction pending generalizing tree front with
  | nil =>
    rw [renderAll] at rendered
    exact absurd rendered.symm (by simp)
  | cons first pending inductionHypothesis =>
    rw [renderAll] at rendered ⊢
    have areNamesLater := fun candidate member =>
      areNames candidate (List.mem_cons_of_mem first member)
    cases front with
    | cons result front =>
      exact inductionHypothesis areNamesLater (List.cons.inj rendered).2
    | nil =>
      obtain ⟨here, later⟩ := List.cons.inj rendered
      obtain ⟨rfl, done⟩ := Prod.mk.inj here
      have known := mem_documentNames_of_mem_documents document
      have isName := areNames first List.mem_cons_self
      refine Spared.item?_eq_some (renderAll_spares _ areNamesLater ?_)
        (isName_of_mem_documentNames isName known) (ne_nil_of_mem_documentNames known)
        (item?_moduleChanges isName document done)
      intro other member beside
      rw [← map_fst_renderAll settings edition
        (Change.performAll tree (moduleChanges settings edition first.1)).1 pending] at member
      obtain ⟨result, listed, rfl⟩ := List.mem_map.mp member
      refine last result ?_ (name_eq_of_mem_documentNames beside known)
      rw [← later]
      exact listed

/-- The documents of a module that was rendered are there, be they its own or those of a later
module of its name. -/
theorem isFile_renderAll {tree : FileTree}
    (areNames : ∀ candidate ∈ pending, Path.IsName candidate.1.name) {candidate : Fingerprinted}
    (rendered : (candidate, none) ∈ (renderAll settings edition tree pending).2)
    {names : List String} (known : names ∈ documentNames settings candidate.1.name) :
    (renderAll settings edition tree pending).1.isFile (descend settings.outputDir names) =
      true := by
  induction pending generalizing tree with
  | nil => exact absurd rendered List.not_mem_nil
  | cons first pending inductionHypothesis =>
    rw [renderAll] at rendered ⊢
    rcases List.mem_cons.mp rendered with here | later
    · obtain ⟨rfl, done⟩ := Prod.mk.inj here
      obtain ⟨content, document⟩ := @exists_mem_documents settings edition _ _ known
      refine (renderAll_grows _).isFile ?_
      rw [isFile_eq, item?_moduleChanges (areNames candidate List.mem_cons_self) document done.symm]
      rfl
    · exact inductionHypothesis
        (fun candidate member => areNames candidate (List.mem_cons_of_mem _ member)) later

end RenderAll

/-! ### Modules that are shown -/

/-- The wanted documents of a module are on the disk, up to the moments at which they were made. -/
def Shows (settings : Settings) (tree : FileTree) (data : ModuleData) : Prop :=
  ∀ path ∈ wantedPaths settings data.name, ∃ moment content,
    Change.file path content ∈ moduleChanges settings ⟨settings.engineVersion, moment⟩ data ∧
      tree.readText path = .ok content

theorem file_mem_moduleChanges_iff {settings : Settings} {edition : Edition} {data : ModuleData}
    (isName : Path.IsName data.name) {names : List String}
    (areNames : ∀ name ∈ names, Path.IsName name) {content : String} :
    Change.file (descend settings.outputDir names) content ∈ moduleChanges settings edition data ↔
      (names, content) ∈ documents settings edition data := by
  rw [mem_moduleChanges_iff]
  constructor
  · rintro ⟨others, document, same⟩
    rw [Headers.descend_inj areNames
      (isName_of_mem_documentNames isName (mem_documentNames_of_mem_documents document)) same]
    exact document
  · intro document
    exact ⟨names, document, rfl⟩

theorem shows_iff {settings : Settings} {tree : FileTree} {data : ModuleData}
    (isName : Path.IsName data.name) :
    Shows settings tree data ↔ ∀ names ∈ documentNames settings data.name, ∃ moment content,
      (names, content) ∈ documents settings ⟨settings.engineVersion, moment⟩ data ∧
        tree.item? (descend settings.outputDir names) = some (.file content.toUTF8) := by
  rw [Shows, wantedPaths_eq, List.forall_mem_map]
  refine forall₂_congr fun names known => ?_
  simp only [readText_eq_ok_iff,
    file_mem_moduleChanges_iff isName (isName_of_mem_documentNames isName known)]

/-- The last module of a name. -/
def lastNamed (name : String) (modules : List ModuleData) : Option ModuleData :=
  modules.reverse.find? (·.name == name)

end EngineDocs.Generation
