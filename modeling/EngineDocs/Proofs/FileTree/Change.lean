/-
This file says what the changes of a plan do to a file tree. Making a directory only adds
directories where there was nothing; writing a file puts it at the one place where its path leads.
So no change takes a directory away, every path that led somewhere still leads there, and whatever
lies below an output directory stays as it is unless a file is written at its own path.
-/

import EngineDocs.FileTree.Write
import EngineDocs.Proofs.FileTree.Lookup

namespace EngineDocs

open Headers (descend)

namespace FileTree

/-! ### One step into a directory -/

/-- A path leads to a name in a directory, be it there or not. -/
structure Reaches (tree : FileTree) (path : String) (location : Location) (name : String) :
    Prop where
  checked : checkPath path = .ok ()
  leads : tree.Leads path (location ++ [name])
  entered : tree.enter location = .ok ()
  isName : Path.IsName name
  short : name.utf8ByteSize ≤ maxNameLength

theorem Reaches.parent {tree : FileTree} {path : String} {location : Location} {name : String}
    (reaches : tree.Reaches path location name) : tree.at? location = some .directory :=
  (enter_eq_ok_iff.mp reaches.entered).1

theorem divideLast_eq_ok {tree : FileTree} {path name : String} {location : Location}
    (divided : tree.divideLast path = .ok (location, some name)) :
    checkPath path = .ok () ∧ tree.follow (tree.start path) (steps path).dropLast = .ok location ∧
      tree.enter location = .ok () ∧ (steps path).getLast? = some name := by
  rw [divideLast] at divided
  cases checked : checkPath path with
  | error fault =>
    rw [checked] at divided
    exact nomatch divided
  | ok _ =>
    cases led : tree.follow (tree.start path) (steps path).dropLast with
    | error fault =>
      simp only [checked, led, bind, Except.bind] at divided
      exact nomatch divided
    | ok reached =>
      simp only [checked, led, bind, Except.bind] at divided
      split at divided
      · exact nomatch (Prod.mk.inj (Except.ok.inj divided)).2
      · rename_i last found
        cases entered : tree.enter reached with
        | error fault =>
          rw [entered] at divided
          exact nomatch divided
        | ok _ =>
          rw [entered] at divided
          obtain ⟨rfl, same⟩ := Prod.mk.inj (Except.ok.inj divided)
          obtain rfl := Option.some.inj same
          exact ⟨rfl, rfl, entered, found⟩

theorem reaches_of_divideLast {tree : FileTree} {path name : String} {location : Location}
    (divided : tree.divideLast path = .ok (location, some name)) (moves : isMove name = false)
    (short : name.utf8ByteSize ≤ maxNameLength) : tree.Reaches path location name := by
  obtain ⟨checked, led, entered, last⟩ := divideLast_eq_ok divided
  simp only [isMove, Bool.or_eq_false_iff, decide_eq_false_iff_not] at moves
  have form : steps path = (steps path).dropLast ++ [name] := by
    obtain ⟨front, form⟩ := List.getLast?_eq_some_iff.mp last
    rw [form, List.dropLast_concat]
  refine ⟨checked, ?_, entered, ?_, short⟩
  · rw [Leads, form, follow_append, led]
    show tree.follow location [name] = _
    rw [follow, entered]
    simp only [if_neg moves.1, if_neg moves.2, if_neg (Nat.not_lt.mpr short)]
    rfl
  · exact isName_of_mem_steps (List.mem_of_getLast? last) moves.1 moves.2

theorem makeDirectory_eq_ok {tree made : FileTree} {path : String}
    (done : tree.makeDirectory path = .ok made) :
    ∃ location name, tree.Reaches path location name ∧ tree.at? (location ++ [name]) = none ∧
      made = tree.put (location ++ [name]) .directory := by
  rw [makeDirectory] at done
  cases divided : tree.divideLast path with
  | error fault =>
    rw [divided] at done
    exact nomatch done
  | ok pair =>
    obtain ⟨location, last⟩ := pair
    simp only [divided, bind, Except.bind] at done
    split at done
    · exact nomatch done
    · rename_i same
      obtain ⟨rfl, rfl⟩ := Prod.mk.inj same
      split at done
      · exact nomatch done
      · rename_i moves
        split at done
        · exact nomatch done
        · rename_i short
          split at done
          · exact nomatch done
          · rename_i free
            exact ⟨_, _, reaches_of_divideLast divided (Bool.eq_false_iff.mpr moves)
              (Nat.not_lt.mp short), free, (Except.ok.inj done).symm⟩

theorem writeBytes_eq_ok {tree written : FileTree} {path : String} {bytes : ByteArray}
    (done : tree.writeBytes path bytes = .ok written) :
    ∃ location name, tree.Reaches path location name ∧ meansDirectory path = false ∧
      tree.at? (location ++ [name]) ≠ some .directory ∧
      written = tree.put (location ++ [name]) (.file bytes) := by
  rw [writeBytes] at done
  cases divided : tree.divideLast path with
  | error fault =>
    rw [divided] at done
    exact nomatch done
  | ok pair =>
    obtain ⟨location, last⟩ := pair
    simp only [divided, bind, Except.bind] at done
    split at done
    · exact nomatch done
    · rename_i same
      obtain ⟨rfl, rfl⟩ := Prod.mk.inj same
      split at done
      · exact nomatch done
      · rename_i plain
        rw [Bool.not_eq_true, Bool.or_eq_false_iff] at plain
        split at done
        · exact nomatch done
        · rename_i short
          have reaches := reaches_of_divideLast divided plain.1 (Nat.not_lt.mp short)
          split at done
          · exact nomatch done
          · exact nomatch done
          · rename_i notDirectory _
            exact ⟨_, _, reaches, plain.2, notDirectory, (Except.ok.inj done).symm⟩

/-! ### Putting one item -/

section Put

variable {tree : FileTree} {path : String} {location : Location} {name : String}

theorem put_keeps {item : Item} (free : tree.at? (location ++ [name]) ≠ some .directory) :
    tree.Keeps (tree.put (location ++ [name]) item) where
  workingDirectory := rfl
  directories other directory := by
    rw [at?_put tree (by simp), if_neg]
    · exact directory
    · rintro rfl
      exact free directory
  mayEnter _ _ opened := opened

theorem put_wellFormed (wellFormed : tree.WellFormed) (reaches : tree.Reaches path location name)
    {item : Item} (free : tree.at? (location ++ [name]) ≠ some .directory) :
    (tree.put (location ++ [name]) item).WellFormed where
  parent upper last found there := by
    rw [at?_put tree (by simp)] at there
    split at there
    · rename_i same
      obtain ⟨rfl, _⟩ := List.append_inj' same rfl
      exact (put_keeps free).directories upper reaches.parent
    · exact (put_keeps free).directories upper (wellFormed.parent upper last found there)
  isName other found there step member := by
    rw [at?_put tree (by simp)] at there
    split at there
    · rename_i same
      rw [same] at member
      rcases List.mem_append.mp member with above | here
      · exact wellFormed.isName location _ reaches.parent step above
      · rw [List.mem_singleton.mp here]
        exact ⟨reaches.isName, reaches.short⟩
    · exact wellFormed.isName other found there step member
  closed other member := (put_keeps free).directories other (wellFormed.closed other member)
  unlisted other member := (put_keeps free).directories other (wellFormed.unlisted other member)

/-- What was put where a path leads is what the path leads to. -/
theorem item?_put (reaches : tree.Reaches path location name) {item : Item}
    (free : tree.at? (location ++ [name]) ≠ some .directory)
    (plain : item.isDirectory = true ∨ meansDirectory path = false) :
    (tree.put (location ++ [name]) item).item? path = some item := by
  rw [item?_eq_some_iff]
  refine ⟨location ++ [name], ?_⟩
  rw [lookup_eq_ok_iff]
  refine ⟨reaches.checked, (put_keeps free).leads reaches.leads, ?_, plain⟩
  rw [at?_put tree (by simp), if_pos rfl]

end Put

/-! ### Adding directories -/

/-- A tree is another one with directories added where there was nothing. -/
structure Opens (before after : FileTree) : Prop where
  workingDirectory : after.workingDirectory = before.workingDirectory
  restrictions : after.restrictions = before.restrictions
  at? : ∀ location, after.at? location = before.at? location ∨
    before.at? location = none ∧ after.at? location = some .directory

namespace Opens

theorem refl (tree : FileTree) : tree.Opens tree := ⟨rfl, rfl, fun _ => Or.inl rfl⟩

theorem trans {first second third : FileTree} (front : first.Opens second)
    (back : second.Opens third) : first.Opens third where
  workingDirectory := back.workingDirectory.trans front.workingDirectory
  restrictions := back.restrictions.trans front.restrictions
  at? location := by
    rcases front.at? location with same | ⟨missing, made⟩
    · rcases back.at? location with still | ⟨missing, made⟩
      · exact Or.inl (still.trans same)
      · exact Or.inr ⟨same.symm.trans missing, made⟩
    · rcases back.at? location with still | ⟨again, _⟩
      · exact Or.inr ⟨missing, still.trans made⟩
      · exact absurd (again.symm.trans made) nofun

theorem keeps {before after : FileTree} (opens : before.Opens after) : before.Keeps after where
  workingDirectory := opens.workingDirectory
  directories location directory := by
    rcases opens.at? location with same | ⟨missing, _⟩
    · exact same.trans directory
    · exact absurd (missing.symm.trans directory) nofun
  mayEnter location _ opened := (mayEnter_congr opens.restrictions location).trans opened

end Opens

theorem makeDirectory_opens {tree made : FileTree} {path : String}
    (done : tree.makeDirectory path = .ok made) : tree.Opens made := by
  obtain ⟨location, name, _, missing, rfl⟩ := makeDirectory_eq_ok done
  refine ⟨rfl, rfl, fun other => ?_⟩
  rw [at?_put tree (by simp)]
  split
  · rename_i same
    exact Or.inr ⟨same ▸ missing, rfl⟩
  · exact Or.inl rfl

theorem makeDirectory_wellFormed {tree made : FileTree} {path : String}
    (wellFormed : tree.WellFormed) (done : tree.makeDirectory path = .ok made) :
    made.WellFormed := by
  obtain ⟨location, name, reaches, missing, rfl⟩ := makeDirectory_eq_ok done
  exact put_wellFormed wellFormed reaches (by rw [missing]; exact nofun)

/-- A property that no single directory breaks holds once all directories on the way are made. -/
theorem makeDirectories_induction {motive : FileTree → Prop} {paths : List String}
    (step : ∀ path ∈ paths, ∀ tree made : FileTree, tree.makeDirectory path = .ok made →
      motive tree → motive made)
    (tree : FileTree) (holds : motive tree) : motive (tree.makeDirectories paths).1 := by
  induction paths generalizing tree with
  | nil => exact holds
  | cons path outer inductionHypothesis =>
    have last := step path List.mem_cons_self
    rw [makeDirectories]
    split
    · exact holds
    · split
      · exact last tree _ ‹_› holds
      · have before :=
          inductionHypothesis (fun other member => step other (List.mem_cons_of_mem _ member))
            tree holds
        split
        · rename_i middle _ made
          rw [made] at before
          exact before
        · rename_i middle made
          rw [made] at before
          split
          · exact last middle _ ‹_› before
          · split <;> exact before
      · split <;> exact holds

theorem makeDirectories_opens (tree : FileTree) (paths : List String) :
    tree.Opens (tree.makeDirectories paths).1 :=
  makeDirectories_induction
    (fun _ _ _ _ done opens => opens.trans (makeDirectory_opens done)) tree (.refl tree)

/-! ### What is left alone -/

/-- From one tree to another nothing happens at the names below an output directory, except that a
directory may appear where nothing was. -/
structure Spared (output : String) (names : List String) (before after : FileTree) : Prop where
  keeps : before.Keeps after
  restrictions : after.restrictions = before.restrictions
  at? : ∀ base, before.Leads output base →
    after.at? (base ++ names) = before.at? (base ++ names) ∨
      before.at? (base ++ names) = none ∧ after.at? (base ++ names) = some .directory

namespace Spared

variable {output : String} {names : List String}

theorem refl (tree : FileTree) : Spared output names tree tree :=
  ⟨.refl tree, rfl, fun _ _ => Or.inl rfl⟩

theorem trans {first second third : FileTree} (front : Spared output names first second)
    (back : Spared output names second third) : Spared output names first third where
  keeps := front.keeps.trans back.keeps
  restrictions := back.restrictions.trans front.restrictions
  at? base leads := by
    rcases front.at? base leads with same | ⟨missing, made⟩
    · rcases back.at? base (front.keeps.leads leads) with still | ⟨missing, made⟩
      · exact Or.inl (still.trans same)
      · exact Or.inr ⟨same.symm.trans missing, made⟩
    · rcases back.at? base (front.keeps.leads leads) with still | ⟨again, _⟩
      · exact Or.inr ⟨missing, still.trans made⟩
      · exact absurd (again.symm.trans made) nofun

variable {before after : FileTree}

/-- What lies at the names stays there. -/
theorem item?_eq_some (spared : Spared output names before after)
    (areNames : ∀ name ∈ names, Path.IsName name) (nonempty : names ≠ []) {item : Item}
    (there : before.item? (descend output names) = some item) :
    after.item? (descend output names) = some item := by
  rw [item?_descend_eq_some_iff _ areNames nonempty] at there ⊢
  obtain ⟨checked, base, leads, down, there⟩ := there
  refine ⟨checked, base, spared.keeps.leads leads, spared.keeps.follow_eq down, ?_⟩
  rcases spared.at? base leads with same | ⟨missing, _⟩
  · exact same.trans there
  · exact absurd (missing.symm.trans there) nofun

/-- No file appears at the names. -/
theorem item?_eq_some_of_isFile (spared : Spared output names before after)
    (wellFormed : before.WellFormed) {base : Location} (leads : before.Leads output base)
    (areNames : ∀ name ∈ names, Path.IsName name) (nonempty : names ≠ []) {item : Item}
    (isFile : item.isFile = true) (there : after.item? (descend output names) = some item) :
    before.item? (descend output names) = some item := by
  rw [item?_descend_eq_some_iff _ areNames nonempty] at there ⊢
  obtain ⟨checked, other, leadsOther, down, there⟩ := there
  obtain rfl := (spared.keeps.leads leads).unique leadsOther
  have passable := (passable_congr spared.restrictions base names).mp
    (passable_of_follow areNames down)
  rcases spared.at? base leads with same | ⟨_, directory⟩
  · rw [same] at there
    exact ⟨checked, base, leads, wellFormed.follow_eq there passable, there⟩
  · obtain rfl := Option.some.inj (directory.symm.trans there)
    exact absurd isFile nofun

theorem readText_iff (spared : Spared output names before after)
    (wellFormed : before.WellFormed) {base : Location} (leads : before.Leads output base)
    (areNames : ∀ name ∈ names, Path.IsName name) (nonempty : names ≠ []) (content : String) :
    after.readText (descend output names) = .ok content ↔
      before.readText (descend output names) = .ok content := by
  rw [readText_eq_ok_iff, readText_eq_ok_iff]
  exact ⟨spared.item?_eq_some_of_isFile wellFormed leads areNames nonempty rfl,
    spared.item?_eq_some areNames nonempty⟩

end Spared

/-! ### What never goes away -/

/-- A tree has all the directories of another one, and a file wherever that one has a file; and the
same directories are restricted. -/
structure Grows (before after : FileTree) : Prop where
  keeps : before.Keeps after
  restrictions : after.restrictions = before.restrictions
  files : ∀ (location : Location) (item : Item), before.at? location = some item →
    item.isFile = true → ∃ other, after.at? location = some other ∧ other.isFile = true

namespace Grows

theorem refl (tree : FileTree) : tree.Grows tree :=
  ⟨.refl tree, rfl, fun _ item there isFile => ⟨item, there, isFile⟩⟩

theorem trans {first second third : FileTree} (front : first.Grows second)
    (back : second.Grows third) : first.Grows third where
  keeps := front.keeps.trans back.keeps
  restrictions := back.restrictions.trans front.restrictions
  files location item there isFile := by
    obtain ⟨other, thereToo, isFileToo⟩ := front.files location item there isFile
    exact back.files location other thereToo isFileToo

/-- A path that leads to a file still does. -/
theorem isFile {before after : FileTree} (grows : before.Grows after) {path : String}
    (there : before.isFile path = true) : after.isFile path = true := by
  rw [FileTree.isFile] at there
  split at there
  · rename_i place item found
    obtain ⟨checked, leads, standing, plain⟩ := (lookup_eq_ok_iff before path place item).mp found
    obtain ⟨other, standingToo, isFileToo⟩ := grows.files place item standing there
    have notDirectory : meansDirectory path = false := by
      refine plain.resolve_left fun directory => ?_
      cases item with
      | directory => exact Bool.false_ne_true there
      | _ => exact Bool.false_ne_true directory
    have foundToo : after.lookup path = .ok (place, other) :=
      (lookup_eq_ok_iff after path place other).mpr
        ⟨checked, grows.keeps.leads leads, standingToo, Or.inr notDirectory⟩
    rw [FileTree.isFile, foundToo]
    exact isFileToo
  · exact absurd there Bool.false_ne_true

end Grows

end FileTree

/-! ### Changes -/

namespace Change

open FileTree

theorem perform_keeps (tree : FileTree) (change : Change) : tree.Keeps (change.perform tree).1 := by
  cases change with
  | directory path => exact (makeDirectories_opens tree _).keeps
  | file path content =>
    rw [perform]
    split
    · rename_i written done
      obtain ⟨location, name, _, _, free, rfl⟩ := writeBytes_eq_ok done
      exact put_keeps free
    · exact .refl tree

theorem perform_wellFormed {tree : FileTree} (wellFormed : tree.WellFormed) (change : Change) :
    (change.perform tree).1.WellFormed := by
  cases change with
  | directory path =>
    exact makeDirectories_induction
      (fun _ _ _ _ done wellFormed => makeDirectory_wellFormed wellFormed done) tree wellFormed
  | file path content =>
    rw [perform]
    split
    · rename_i written done
      obtain ⟨location, name, reaches, _, free, rfl⟩ := writeBytes_eq_ok done
      exact put_wellFormed wellFormed reaches free
    · exact wellFormed

theorem perform_restrictions (tree : FileTree) (change : Change) :
    (change.perform tree).1.restrictions = tree.restrictions := by
  cases change with
  | directory path => exact (makeDirectories_opens tree _).restrictions
  | file path content =>
    rw [perform]
    split
    · rename_i written done
      obtain ⟨_, _, _, _, _, rfl⟩ := writeBytes_eq_ok done
      rfl
    · rfl

theorem perform_grows (tree : FileTree) (change : Change) : tree.Grows (change.perform tree).1 := by
  refine ⟨perform_keeps tree change, perform_restrictions tree change,
    fun location item there isFile => ?_⟩
  cases change with
  | directory path =>
    rcases (makeDirectories_opens tree _).at? location with same | ⟨missing, _⟩
    · exact ⟨item, same.trans there, isFile⟩
    · exact absurd (missing.symm.trans there) nofun
  | file path content =>
    rw [perform]
    split
    · rename_i written done
      obtain ⟨place, name, _, _, _, rfl⟩ := writeBytes_eq_ok done
      rw [at?_put tree (by simp)]
      split
      · exact ⟨_, rfl, rfl⟩
      · exact ⟨item, there, isFile⟩
    · exact ⟨item, there, isFile⟩

/-- The change writes no file but at names below an output directory, and not at these names. -/
def Spares (output : String) (names : List String) : Change → Prop
  | .directory _ => True
  | .file path _ => ∃ others, path = descend output others ∧ (∀ name ∈ others, Path.IsName name) ∧
      others ≠ names

theorem perform_spares {output : String} {names : List String} (tree : FileTree) {change : Change}
    (spares : change.Spares output names) : Spared output names tree (change.perform tree).1 := by
  refine ⟨perform_keeps tree change, perform_restrictions tree change, fun base leads => ?_⟩
  cases change with
  | directory path => exact (makeDirectories_opens tree _).at? _
  | file path content =>
    obtain ⟨others, rfl, areNames, different⟩ := spares
    rw [perform]
    split
    · rename_i written done
      obtain ⟨location, name, reaches, _, free, rfl⟩ := writeBytes_eq_ok done
      obtain ⟨other, leadsOther, _, place⟩ :=
        (leads_descend_iff tree areNames _).mp reaches.leads
      refine Or.inl ?_
      rw [at?_put tree (by simp), if_neg]
      rw [place, leads.unique leadsOther]
      exact fun same => different (List.append_cancel_left same).symm
    · exact Or.inl rfl

/-! ### Plans -/

/-- A property that no change of a plan breaks holds once the plan is carried out. -/
theorem performAll_induction {motive : FileTree → Prop} {changes : List Change}
    (step : ∀ change ∈ changes, ∀ tree : FileTree, motive tree → motive (change.perform tree).1)
    {tree : FileTree} (holds : motive tree) : motive (performAll tree changes).1 := by
  induction changes generalizing tree with
  | nil => exact holds
  | cons change changes inductionHypothesis =>
    have after := step change List.mem_cons_self tree holds
    rw [performAll]
    split
    · rename_i next done
      rw [done] at after
      exact inductionHypothesis (fun change member => step change (List.mem_cons_of_mem _ member))
        after
    · rename_i next fault done
      rw [done] at after
      exact after

theorem performAll_grows (tree : FileTree) (changes : List Change) :
    tree.Grows (performAll tree changes).1 :=
  performAll_induction (motive := tree.Grows)
    (fun change _ after grows => grows.trans (perform_grows after change)) (.refl tree)

theorem performAll_wellFormed {tree : FileTree} (wellFormed : tree.WellFormed)
    (changes : List Change) : (performAll tree changes).1.WellFormed :=
  performAll_induction (motive := WellFormed)
    (fun change _ _ wellFormed => perform_wellFormed wellFormed change) wellFormed

theorem performAll_spares {output : String} {names : List String} (tree : FileTree)
    {changes : List Change} (spare : ∀ change ∈ changes, change.Spares output names) :
    Spared output names tree (performAll tree changes).1 :=
  performAll_induction (motive := Spared output names tree)
    (fun change member after spared => spared.trans (perform_spares after (spare change member)))
    (.refl tree)

/-- Writing a file puts it where its path leads, or changes nothing. -/
theorem perform_file (tree : FileTree) (path content : String) :
    (((file path content).perform tree).2 = none ∧
      ((file path content).perform tree).1.item? path = some (.file content.toUTF8)) ∨
    (((file path content).perform tree).2 ≠ none ∧ ((file path content).perform tree).1 = tree) := by
  rw [perform]
  split
  · rename_i written done
    obtain ⟨location, name, reaches, plain, free, rfl⟩ := writeBytes_eq_ok done
    exact Or.inl ⟨rfl, item?_put reaches free (Or.inr plain)⟩
  · exact Or.inr ⟨nofun, rfl⟩

section Written

variable {output : String} {names : List String} {content : String} {changes : List Change}

/-- A plan that writes nothing but one text at some names leaves the text there. -/
theorem item?_performAll_of_item? {tree : FileTree} (areNames : ∀ name ∈ names, Path.IsName name)
    (nonempty : names ≠ [])
    (only : ∀ change ∈ changes,
      change.Spares output names ∨ change = .file (descend output names) content)
    (there : tree.item? (descend output names) = some (.file content.toUTF8)) :
    (performAll tree changes).1.item? (descend output names) = some (.file content.toUTF8) := by
  refine performAll_induction
    (motive := fun tree => tree.item? (descend output names) = some (.file content.toUTF8))
    (fun change member tree there => ?_) there
  rcases only change member with spares | rfl
  · exact (perform_spares tree spares).item?_eq_some areNames nonempty there
  · rcases perform_file tree (descend output names) content with ⟨_, written⟩ | ⟨_, same⟩
    · exact written
    · rw [same]
      exact there

/-- A file that a plan writes is there afterwards, when the plan writes nothing else at its
names. -/
theorem item?_performAll_of_mem {tree : FileTree} (areNames : ∀ name ∈ names, Path.IsName name)
    (nonempty : names ≠ [])
    (only : ∀ change ∈ changes,
      change.Spares output names ∨ change = .file (descend output names) content)
    (member : .file (descend output names) content ∈ changes)
    (done : (performAll tree changes).2 = none) :
    (performAll tree changes).1.item? (descend output names) = some (.file content.toUTF8) := by
  induction changes generalizing tree with
  | nil => exact absurd member List.not_mem_nil
  | cons change changes inductionHypothesis =>
    have onlyLater := fun change later => only change (List.mem_cons_of_mem _ later)
    rw [performAll] at done ⊢
    split at done
    · rename_i next performed
      rcases List.mem_cons.mp member with rfl | later
      · refine item?_performAll_of_item? areNames nonempty onlyLater ?_
        rcases perform_file tree (descend output names) content with ⟨_, written⟩ | ⟨fault, _⟩
        · rw [performed] at written
          exact written
        · rw [performed] at fault
          exact absurd rfl fault
      · exact inductionHypothesis onlyLater later done
    · exact nomatch done

end Written

end Change

end EngineDocs
