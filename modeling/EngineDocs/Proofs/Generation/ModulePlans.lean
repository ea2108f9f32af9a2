/-
This file shows that the plans for the documents of modules go together. All their paths lie below
the output directory, so they share the way to it and go straight down from there; and no document
stands where another module has one of its own or where a directory is to be.
-/

import EngineDocs.Proofs.FileTree.Plans
import EngineDocs.Proofs.Generation.Documents

namespace EngineDocs

open FileTree
open Headers (descend)

/-! ### Ways below an output directory -/

namespace FileTree

section Descend

variable {tree : FileTree} {output : String} {names : List String} {place last other : Location}

theorem stepFrom_of_isName {name : String} (isName : Path.IsName name) {next : Location}
    (leads : tree.stepFrom place name = .ok next) : next = place ++ [name] := by
  rw [stepFrom, if_neg isName.notHere, if_neg isName.notUp] at leads
  split at leads
  · split at leads
    · cases leads
    · exact (Except.ok.inj leads).symm
  · cases leads

theorem walk_names (areNames : ∀ name ∈ names, Path.IsName name)
    (leads : tree.walk place names = .ok last) : last = place ++ names := by
  induction names generalizing place with
  | nil => rw [List.append_nil, Except.ok.inj leads]
  | cons name names inductionHypothesis =>
    rw [walk] at leads
    split at leads
    · split at leads
      · rename_i next stepped
        rw [inductionHypothesis (fun name member => areNames name (List.mem_cons_of_mem _ member))
          leads, stepFrom_of_isName (areNames name List.mem_cons_self) stepped, List.append_assoc,
          List.singleton_append]
      · cases leads
    · cases leads

theorem passed_names (areNames : ∀ name ∈ names, Path.IsName name)
    (member : other ∈ tree.passed place names) :
    ∃ upper, upper <+: names ∧ other = place ++ upper := by
  induction names generalizing place with
  | nil => exact absurd member List.not_mem_nil
  | cons name names inductionHypothesis =>
    rw [passed] at member
    split at member
    · rcases List.mem_cons.mp member with rfl | later
      · exact ⟨[], List.nil_prefix, (List.append_nil _).symm⟩
      · split at later
        · rename_i next stepped
          obtain ⟨upper, above, rfl⟩ := inductionHypothesis
            (fun name member => areNames name (List.mem_cons_of_mem _ member)) later
          refine ⟨name :: upper, List.cons_prefix_cons.mpr ⟨rfl, above⟩, ?_⟩
          rw [stepFrom_of_isName (areNames name List.mem_cons_self) stepped, List.append_assoc,
            List.singleton_append]
        · exact absurd later List.not_mem_nil
    · exact absurd member List.not_mem_nil

/-- The path of a name below an output directory can be followed when its destination is known. -/
theorem canStart_of_destination {path : String} (leads : tree.destination path = .ok place) :
    tree.canStart path = true := by
  rw [destination] at leads
  cases checked : checkPath path with
  | error fault =>
    rw [checked] at leads
    cases leads
  | ok _ =>
    rw [checked, Except.bind] at leads
    split at leads
    · rename_i there
      exact canStart_iff.mpr ⟨checked, Option.isSome_iff_ne_none.mp there⟩
    · cases leads

theorem destination_descend (areNames : ∀ name ∈ names, Path.IsName name)
    (leads : tree.destination (descend output names) = .ok place) :
    ∃ base, tree.walk (tree.start output) (steps output) = .ok base ∧ place = base ++ names := by
  obtain ⟨checked, there⟩ := canStart_iff.mp (canStart_of_destination leads)
  rw [destination, checked, Except.bind, if_pos (Option.isSome_iff_ne_none.mpr there),
    Headers.start_descend tree output areNames, Headers.steps_descend output areNames,
    walk_append] at leads
  cases led : tree.walk (tree.start output) (steps output) with
  | error fault =>
    rw [led] at leads
    cases leads
  | ok base =>
    rw [led] at leads
    exact ⟨base, rfl, walk_names areNames leads⟩

theorem passes_descend (areNames : ∀ name ∈ names, Path.IsName name)
    (member : other ∈ tree.passes (descend output names)) :
    other ∈ tree.passed (tree.start output) (steps output) ∨
      ∃ base upper, tree.walk (tree.start output) (steps output) = .ok base ∧ upper <+: names ∧
        other = base ++ upper := by
  rw [passes] at member
  split at member
  · rw [Headers.start_descend tree output areNames, Headers.steps_descend output areNames,
      passed_append] at member
    rcases List.mem_append.mp member with before | below
    · exact Or.inl before
    · split at below
      · rename_i base led
        obtain ⟨upper, above, same⟩ := passed_names areNames below
        exact Or.inr ⟨base, upper, led, above, same⟩
      · exact absurd below List.not_mem_nil
  · exact absurd member List.not_mem_nil

/-- The way of a path below an output directory leads to it, and from there along the names. -/
theorem way_descend (areNames : ∀ name ∈ names, Path.IsName name)
    (member : other ∈ tree.way (descend output names)) :
    other ∈ tree.passed (tree.start output) (steps output) ∨
      ∃ base upper, tree.walk (tree.start output) (steps output) = .ok base ∧ upper <+: names ∧
        other = base ++ upper := by
  rw [way] at member
  rcases List.mem_append.mp member with inside | ends
  · exact passes_descend areNames inside
  · split at ends
    · rename_i place leads
      split at ends
      · obtain ⟨base, led, same⟩ := destination_descend areNames leads
        exact Or.inr ⟨base, names, led, List.prefix_refl names,
          (List.mem_singleton.mp ends).trans same⟩
      · exact absurd ends List.not_mem_nil
    · exact absurd ends List.not_mem_nil

theorem mem_passes_descend (areNames : ∀ name ∈ names, Path.IsName name)
    (leads : tree.destination (descend output names) = .ok place)
    (member : other ∈ tree.passed (tree.start output) (steps output)) :
    other ∈ tree.passes (descend output names) := by
  rw [passes, if_pos (canStart_of_destination leads), Headers.start_descend tree output areNames,
    Headers.steps_descend output areNames, passed_append]
  exact List.mem_append_left _ member

theorem Upright.descend (areNames : ∀ name ∈ names, Path.IsName name)
    (upright : tree.Upright output) : tree.Upright (descend output names) := by
  intro front back form
  rw [Headers.start_descend tree output areNames]
  rw [Headers.steps_descend output areNames] at form
  rcases List.append_eq_append_iff.mp form with ⟨middle, same, rest⟩ | ⟨middle, same, rest⟩
  · have up : ".." ∈ names := by
      rw [rest]
      exact List.mem_append_right _ List.mem_cons_self
    exact absurd rfl (areNames ".." up).notUp
  · cases middle with
    | nil =>
      have up : ".." ∈ names := by
        rw [← List.nil_append names, ← rest]
        exact List.mem_cons_self
      exact absurd rfl (areNames ".." up).notUp
    | cons step middle =>
      obtain ⟨rfl, _⟩ := List.cons.inj rest
      exact upright front middle same

end Descend

end FileTree

/-- A directory below an output directory leaves nothing where a file below it goes, unless the
file was to stand on the way down to the directory. -/
theorem Change.not_leaves_both {before : FileTree} {output content : String}
    {upper names : List String} (areNames : ∀ name ∈ upper, Path.IsName name)
    (areNamesToo : ∀ name ∈ names, Path.IsName name) (apart : ¬names <+: upper)
    {place : Location} {item item' : Item}
    (leaves : (Change.directory (descend output upper)).Leaves before place item)
    (leavesToo : (Change.file (descend output names) content).Leaves before place item') :
    False := by
  obtain ⟨_, onWay, _⟩ := leaves
  obtain ⟨free, leads, _⟩ := leavesToo
  obtain ⟨base, led, same⟩ := destination_descend areNamesToo leads
  rcases way_descend areNames onWay with before | ⟨other, part, ledToo, above, sameToo⟩
  · rw [blockage, leads] at free
    dsimp only at free
    rw [if_pos (mem_passes_descend areNamesToo leads before)] at free
    cases free
  · obtain rfl := Except.ok.inj (led.symm.trans ledToo)
    rw [List.append_cancel_left (same.symm.trans sameToo)] at apart
    exact apart above

/-! ### Files in their directories -/

/-- Before a file is written the directory that it lies in is made. -/
def Housed (changes : List Change) : Prop :=
  ∀ front path content back, changes = front ++ .file path content :: back →
    ∃ outer, .directory outer ∈ front ∧ Encloses outer path

theorem housed_nil : Housed [] := by
  intro front path content back form
  exact absurd (List.append_eq_nil_iff.mp form.symm).2 (List.cons_ne_nil _ _)

theorem Housed.append {first second : List Change} (housed : Housed first)
    (housedToo : Housed second) : Housed (first ++ second) := by
  intro front path content back form
  rcases List.append_eq_append_iff.mp form with ⟨middle, rfl, rest⟩ | ⟨middle, rfl, rest⟩
  · obtain ⟨outer, listed, encloses⟩ := housedToo middle path content back rest
    exact ⟨outer, List.mem_append_right _ listed, encloses⟩
  · cases middle with
    | nil =>
      obtain ⟨outer, listed, _⟩ := housedToo [] path content back rest.symm
      exact absurd listed List.not_mem_nil
    | cons change middle =>
      obtain ⟨rfl, rfl⟩ := List.cons.inj rest
      exact housed front path content middle rfl

theorem housed_directory {outer : String} {files : List Change}
    (enclosed : ∀ path content, .file path content ∈ files → Encloses outer path) :
    Housed (.directory outer :: files) := by
  intro front path content back form
  cases front with
  | nil => exact nomatch (List.cons.inj form).1
  | cons change front =>
    obtain ⟨rfl, rfl⟩ := List.cons.inj form
    exact ⟨outer, List.mem_cons_self,
      enclosed path content (List.mem_append_right _ List.mem_cons_self)⟩

namespace Generation

section ModulePlans

variable {settings : Settings} {edition : Edition} {data : ModuleData}

/-- The names on the way from the output directory to the directories of a module's documents. -/
def directoryNames (name : String) : List (List String) := [["modules", name], ["data"]]

theorem isName_of_mem_directoryNames {name : String} (isName : Path.IsName name)
    {names : List String} (member : names ∈ directoryNames name) :
    ∀ step ∈ names, Path.IsName step := by
  rcases List.mem_cons.mp member with rfl | later
  · simp only [List.forall_mem_cons]
    exact ⟨by decide, isName, nofun⟩
  · rw [List.mem_singleton.mp later]
    decide

theorem directory_mem_moduleChanges {path : String}
    (member : .directory path ∈ moduleChanges settings edition data) :
    ∃ names ∈ directoryNames data.name, path = descend settings.outputDir names := by
  rw [moduleChanges] at member
  rcases List.mem_append.mp member with pages | file
  · split at pages
    · rcases List.mem_cons.mp pages with same | page
      · exact ⟨_, List.mem_cons_self, Change.directory.inj same⟩
      · obtain ⟨_, _, impossible⟩ := List.mem_map.mp page
        cases impossible
    · exact absurd pages List.not_mem_nil
  · split at file
    · rcases List.mem_cons.mp file with same | later
      · exact ⟨_, List.mem_cons_of_mem _ List.mem_cons_self, Change.directory.inj same⟩
      · cases List.mem_singleton.mp later
    · exact absurd file List.not_mem_nil

theorem housed_moduleChanges (isName : Path.IsName data.name) :
    Housed (moduleChanges settings edition data) := by
  refine Housed.append ?_ ?_
  · split
    · refine housed_directory fun path content member => ?_
      obtain ⟨page, listed, same⟩ := List.mem_map.mp member
      obtain ⟨rfl, _⟩ := Change.file.inj same
      have known : page.1 ∈ pageNames := List.mem_map_of_mem listed
      have arePages : ∀ page ∈ pageNames, Path.IsName page := by decide
      exact Path.encloses_join (arePages page.1 known)
    · exact housed_nil
  · split
    · refine housed_directory fun path content member => ?_
      obtain ⟨rfl, _⟩ := Change.file.inj (List.mem_singleton.mp member)
      exact Path.encloses_join isName.append_json
    · exact housed_nil

theorem chain_descend {output : String} {names : List String}
    (areNames : ∀ name ∈ names, Path.IsName name) (solid : names ≠ []) :
    descend output names ≠ "" ∧ Chain (Path.ancestors (descend output names)) := by
  have last := areNames _ (List.getLast_mem solid)
  constructor
  · intro empty
    have none := Headers.steps_descend output areNames
    rw [empty] at none
    exact solid (List.append_eq_nil_iff.mp none.symm).2
  · rw [← List.dropLast_concat_getLast solid, Headers.descend_append]
    exact Path.chain_ancestors (Path.endsInComponent_join last)

/-- No document stands on the way to a directory. -/
theorem not_prefix_directoryNames {name other : String} {names upper : List String}
    (document : names ∈ documentNames settings name) (directory : upper ∈ directoryNames other) :
    ¬names <+: upper := by
  intro above
  have short := above.length_le
  rcases List.mem_cons.mp directory with rfl | later
  · rcases mem_documentNames_iff.mp document with ⟨_, page, _, rfl⟩ | ⟨_, rfl⟩
    · exact absurd short (by simp)
    · exact absurd (List.cons_prefix_cons.mp above).1 (by decide)
  · rw [List.mem_singleton.mp later] at short
    rcases mem_documentNames_iff.mp document with ⟨_, page, _, rfl⟩ | ⟨_, rfl⟩ <;>
      exact absurd short (by simp)

/-- A document and a directory leave nothing at the same place. -/
theorem not_leaves_both {before : FileTree} {other : ModuleData} {path outer content : String}
    (isName : Path.IsName data.name) (isNameToo : Path.IsName other.name)
    (listed : .directory outer ∈ moduleChanges settings edition data)
    (listedToo : .file path content ∈ moduleChanges settings edition other)
    {place : Location} {item item' : Item}
    (leaves : (Change.directory outer).Leaves before place item)
    (leavesToo : (Change.file path content).Leaves before place item') : False := by
  obtain ⟨upper, inside, rfl⟩ := directory_mem_moduleChanges listed
  obtain ⟨names, document, rfl⟩ := mem_moduleChanges_iff.mp listedToo
  have known := mem_documentNames_of_mem_documents document
  exact Change.not_leaves_both (isName_of_mem_directoryNames isName inside)
    (isName_of_mem_documentNames isNameToo known) (not_prefix_directoryNames known inside) leaves
    leavesToo

/-- Two documents at the same place are the same. -/
theorem leaves_unique {before : FileTree} {other : ModuleData}
    {path path' content content' : String} (isName : Path.IsName data.name)
    (isNameToo : Path.IsName other.name) (same : data.name = other.name → data = other)
    (listed : .file path content ∈ moduleChanges settings edition data)
    (listedToo : .file path' content' ∈ moduleChanges settings edition other)
    {place : Location} {item item' : Item}
    (leaves : (Change.file path content).Leaves before place item)
    (leavesToo : (Change.file path' content').Leaves before place item') : item = item' := by
  obtain ⟨names, document, rfl⟩ := mem_moduleChanges_iff.mp listed
  obtain ⟨names', documentToo, rfl⟩ := mem_moduleChanges_iff.mp listedToo
  have known := mem_documentNames_of_mem_documents document
  have knownToo := mem_documentNames_of_mem_documents documentToo
  obtain ⟨_, leads, rfl⟩ := leaves
  obtain ⟨_, leadsToo, rfl⟩ := leavesToo
  obtain ⟨base, led, form⟩ :=
    destination_descend (isName_of_mem_documentNames isName known) leads
  obtain ⟨_, ledToo, formToo⟩ :=
    destination_descend (isName_of_mem_documentNames isNameToo knownToo) leadsToo
  obtain rfl := Except.ok.inj (led.symm.trans ledToo)
  obtain rfl := List.append_cancel_left (form.symm.trans formToo)
  obtain rfl := same (name_eq_of_mem_documentNames known knownToo)
  rw [text_unique document documentToo]

theorem start_moduleChanges {before : FileTree} (isName : Path.IsName data.name)
    {change : Change} (listed : change ∈ moduleChanges settings edition data) :
    before.start change.path = before.start settings.outputDir := by
  cases change with
  | directory path =>
    obtain ⟨names, inside, rfl⟩ := directory_mem_moduleChanges listed
    exact Headers.start_descend before _ (isName_of_mem_directoryNames isName inside)
  | file path content =>
    obtain ⟨names, document, rfl⟩ := mem_moduleChanges_iff.mp listed
    exact Headers.start_descend before _
      (isName_of_mem_documentNames isName (mem_documentNames_of_mem_documents document))

/-- Two modules that are the same when their names are leave the same wherever both leave
something. -/
theorem agree_moduleChanges {before : FileTree} {other : ModuleData}
    (isName : Path.IsName data.name) (isNameToo : Path.IsName other.name)
    (same : data.name = other.name → data = other) {change change' : Change}
    (listed : change ∈ moduleChanges settings edition data)
    (listedToo : change' ∈ moduleChanges settings edition other)
    {place : Location} {item item' : Item} (leaves : change.Leaves before place item)
    (leavesToo : change'.Leaves before place item') : item = item' := by
  cases change with
  | directory path =>
    cases change' with
    | directory path' => exact leaves.2.2.trans leavesToo.2.2.symm
    | file path' content' =>
      exact (not_leaves_both isName isNameToo listed listedToo leaves leavesToo).elim
  | file path content =>
    cases change' with
    | directory path' =>
      exact (not_leaves_both isNameToo isName listedToo listed leavesToo leaves).elim
    | file path' content' =>
      exact leaves_unique isName isNameToo same listed listedToo leaves leavesToo

/-- The plans of modules with different names go together. -/
theorem compatible_moduleChanges {before : FileTree} {pending : List Fingerprinted}
    (areNames : ∀ candidate ∈ pending, Path.IsName candidate.1.name)
    (distinct : (pending.map (·.1.name)).Nodup) :
    Compatible before
      (pending.map fun candidate => moduleChanges settings edition candidate.1) where
  start := by
    refine ⟨before.start settings.outputDir, fun plan member change listed => ?_⟩
    obtain ⟨candidate, known, rfl⟩ := List.mem_map.mp member
    exact start_moduleChanges (areNames candidate known) listed
  chain plan member path listed := by
    obtain ⟨candidate, known, rfl⟩ := List.mem_map.mp member
    obtain ⟨names, inside, rfl⟩ := directory_mem_moduleChanges listed
    refine chain_descend (isName_of_mem_directoryNames (areNames candidate known) inside) ?_
    rcases List.mem_cons.mp inside with rfl | later
    · exact List.cons_ne_nil _ _
    · rw [List.mem_singleton.mp later]
      exact List.cons_ne_nil _ _
  enclosed plan member := by
    obtain ⟨candidate, known, rfl⟩ := List.mem_map.mp member
    exact housed_moduleChanges (areNames candidate known)
  named plan member path content listed := by
    obtain ⟨candidate, known, rfl⟩ := List.mem_map.mp member
    obtain ⟨names, document, rfl⟩ := mem_moduleChanges_iff.mp listed
    have inside := mem_documentNames_of_mem_documents document
    have areNamesToo := isName_of_mem_documentNames (areNames candidate known) inside
    have solid := ne_nil_of_mem_documentNames inside
    refine ⟨Headers.meansDirectory_descend _ areNamesToo solid,
      steps settings.outputDir ++ names.dropLast, names.getLast solid, ?_,
      areNamesToo _ (List.getLast_mem solid)⟩
    rw [Headers.steps_descend _ areNamesToo, List.append_assoc, List.dropLast_concat_getLast]
  agree plan member change listed other memberToo change' listedToo place item item' leaves
      leavesToo := by
    obtain ⟨candidate, known, rfl⟩ := List.mem_map.mp member
    obtain ⟨candidate', knownToo, rfl⟩ := List.mem_map.mp memberToo
    have same : candidate.1.name = candidate'.1.name → candidate.1 = candidate'.1 :=
      fun sameName =>
        congrArg Prod.fst (List.inj_on_of_nodup_map distinct known knownToo sameName)
    exact agree_moduleChanges (areNames candidate known) (areNames candidate' knownToo) same listed
      listedToo leaves leavesToo

/-- When the output path goes up out of directories that are there, so do all paths below it. -/
theorem upright_moduleChanges {before : FileTree} (upright : before.Upright settings.outputDir)
    (isName : Path.IsName data.name) :
    ∀ change ∈ moduleChanges settings edition data, change.Upright before := by
  intro change listed
  cases change with
  | directory path =>
    obtain ⟨names, inside, rfl⟩ := directory_mem_moduleChanges listed
    exact upright.descend (isName_of_mem_directoryNames isName inside)
  | file path content => trivial

end ModulePlans

end Generation

end EngineDocs
