/-
This file says where paths lead. A path below an output directory leads to the place of that
directory followed by the names on the way down, as long as all but the last of these places are
directories that may be entered; and a tree that has more directories leads every path that led
somewhere to the same place.

It also holds the properties of trees that come from the disk: whatever lies somewhere lies in a
directory, names are names, and it is directories that one may not enter or list.
-/

import EngineDocs.Proofs.Path
import EngineDocs.Proofs.Text.Order

namespace EngineDocs

open Headers (descend)

theorem Location.below?_eq_some_iff (directory location rest : Location) :
    below? directory location = some rest ↔ location = directory ++ rest := by
  induction directory generalizing location with
  | nil =>
    rw [below?, List.nil_append]
    exact Option.some_inj
  | cons a directory inductionHypothesis =>
    cases location with
    | nil => exact ⟨nofun, nofun⟩
    | cons b location =>
      rw [below?, List.cons_append]
      by_cases same : a = b
      · rw [if_pos same, inductionHypothesis, same]
        exact ⟨congrArg _, List.tail_eq_of_cons_eq⟩
      · rw [if_neg same]
        exact ⟨nofun, fun equal => absurd (List.head_eq_of_cons_eq equal).symm same⟩

namespace FileTree

/-! ### Places -/

@[simp]
theorem at?_nil (tree : FileTree) : tree.at? [] = some .directory := rfl

theorem at?_of_ne_nil (tree : FileTree) {location : Location} (inner : location ≠ []) :
    tree.at? location = tree.items[location]? := by
  rw [at?, if_neg (by simpa using inner)]

/-- Putting an item somewhere changes nothing elsewhere. -/
theorem at?_put (tree : FileTree) {location : Location} (inner : location ≠ []) (item : Item)
    (other : Location) :
    (tree.put location item).at? other = if other = location then some item else tree.at? other := by
  by_cases root : other = []
  · rw [root, at?_nil, if_neg (Ne.symm inner), at?_nil]
  · rw [at?_of_ne_nil _ root, at?_of_ne_nil _ root, put, Std.TreeMap.getElem?_insert]
    simp only [Std.LawfulEqCmp.compare_eq_iff_eq]
    by_cases same : other = location
    · rw [if_pos same, if_pos same.symm]
    · rw [if_neg same, if_neg (Ne.symm same)]

/-! ### Entering directories -/

theorem mayEnter_eq_false_iff {tree : FileTree} {location : Location} :
    tree.mayEnter location = false ↔ location ∈ tree.restrictions.closed := by
  rw [mayEnter, Bool.not_eq_false', List.contains_iff_mem]

theorem mayEnter_congr {first second : FileTree}
    (same : first.restrictions = second.restrictions) (location : Location) :
    first.mayEnter location = second.mayEnter location := by
  rw [mayEnter, mayEnter, same]

theorem mayList_congr {first second : FileTree}
    (same : first.restrictions = second.restrictions) (location : Location) :
    first.mayList location = second.mayList location := by
  rw [mayList, mayList, same]

theorem enter_eq_ok_iff {tree : FileTree} {location : Location} :
    tree.enter location = .ok () ↔
      tree.at? location = some .directory ∧ tree.mayEnter location = true := by
  rw [enter]
  cases tree.at? location with
  | none => simp
  | some item => cases item <;> simp

theorem enter_of_none {tree : FileTree} {location : Location}
    (missing : tree.at? location = none) : tree.enter location = .error .noEntry := by
  rw [enter, missing]

/-! ### Following steps -/

theorem follow_append (tree : FileTree) (location : Location) (first second : List String) :
    tree.follow location (first ++ second) =
      (tree.follow location first).bind fun middle => tree.follow middle second := by
  induction first generalizing location with
  | nil => rfl
  | cons step first inductionHypothesis =>
    rw [List.cons_append, follow, follow]
    split
    · rfl
    · simp only [inductionHypothesis]
      repeat' split
      all_goals rfl

/-- Names lead straight down. -/
theorem follow_names (tree : FileTree) {location place : Location} {names : List String}
    (areNames : ∀ name ∈ names, Path.IsName name)
    (leads : tree.follow location names = .ok place) : place = location ++ names := by
  induction names generalizing location with
  | nil =>
    rw [List.append_nil]
    exact (Except.ok.inj leads).symm
  | cons name names inductionHypothesis =>
    have isName := areNames name List.mem_cons_self
    rw [follow] at leads
    split at leads
    · exact nomatch leads
    · rw [if_neg isName.notHere, if_neg isName.notUp] at leads
      split at leads
      · exact nomatch leads
      · rw [inductionHypothesis (fun name member => areNames name (List.mem_cons_of_mem _ member))
          leads, List.append_assoc, List.singleton_append]

/-- The directories on the way from a place to the end of some names may be entered. -/
def Passable (tree : FileTree) (place names : Location) : Prop :=
  ∀ upper name lower, names = upper ++ name :: lower → tree.mayEnter (place ++ upper) = true

@[simp]
theorem passable_nil (tree : FileTree) (place : Location) : tree.Passable place [] :=
  fun _ _ _ form => absurd form (by simp)

theorem passable_cons_iff {tree : FileTree} {place names : Location} {name : String} :
    tree.Passable place (name :: names) ↔
      tree.mayEnter place = true ∧ tree.Passable (place ++ [name]) names := by
  constructor
  · intro passable
    refine ⟨place.append_nil ▸ passable [] name names rfl, fun upper next lower form => ?_⟩
    rw [← List.append_cons]
    exact passable (name :: upper) next lower (congrArg _ form)
  · rintro ⟨opened, further⟩ upper next lower form
    rcases List.append_eq_cons_iff.mp form.symm with ⟨rfl, _⟩ | ⟨upper, rfl, rest⟩
    · rwa [List.append_nil]
    · rw [List.append_cons]
      exact further upper next lower rest

theorem passable_singleton_iff {tree : FileTree} {place : Location} {name : String} :
    tree.Passable place [name] ↔ tree.mayEnter place = true := by
  rw [passable_cons_iff, and_iff_left (passable_nil _ _)]

theorem passable_congr {first second : FileTree}
    (same : first.restrictions = second.restrictions) (place names : Location) :
    first.Passable place names ↔ second.Passable place names := by
  simp only [Passable, mayEnter_congr same]

/-- Names lead down through directories that may be entered only. -/
theorem passable_of_follow {tree : FileTree} {place other names : Location}
    (areNames : ∀ name ∈ names, Path.IsName name)
    (leads : tree.follow place names = .ok other) : tree.Passable place names := by
  induction names generalizing place with
  | nil => exact passable_nil tree place
  | cons name names inductionHypothesis =>
    have isName := areNames name List.mem_cons_self
    rw [follow] at leads
    split at leads
    · cases leads
    · rw [if_neg isName.notHere, if_neg isName.notUp] at leads
      split at leads
      · cases leads
      · exact passable_cons_iff.mpr ⟨(enter_eq_ok_iff.mp ‹_›).2,
          inductionHypothesis (fun name member => areNames name (List.mem_cons_of_mem _ member))
            leads⟩

/-- A tree keeps the directories of another one, and those that may be entered still may: it may
have more, and other files. -/
structure Keeps (before after : FileTree) : Prop where
  workingDirectory : after.workingDirectory = before.workingDirectory
  directories : ∀ location, before.at? location = some .directory →
    after.at? location = some .directory
  mayEnter : ∀ location, before.at? location = some .directory →
    before.mayEnter location = true → after.mayEnter location = true

namespace Keeps

theorem refl (tree : FileTree) : tree.Keeps tree :=
  ⟨rfl, fun _ directory => directory, fun _ _ opened => opened⟩

theorem trans {first second third : FileTree} (front : first.Keeps second)
    (back : second.Keeps third) : first.Keeps third :=
  ⟨back.workingDirectory.trans front.workingDirectory,
    fun location directory => back.directories location (front.directories location directory),
    fun location directory opened => back.mayEnter location (front.directories location directory)
      (front.mayEnter location directory opened)⟩

theorem enter_eq_ok {before after : FileTree} (keeps : before.Keeps after) {location : Location}
    (entered : before.enter location = .ok ()) : after.enter location = .ok () := by
  obtain ⟨directory, opened⟩ := enter_eq_ok_iff.mp entered
  exact enter_eq_ok_iff.mpr
    ⟨keeps.directories location directory, keeps.mayEnter location directory opened⟩

/-- Steps that lead somewhere still lead there. -/
theorem follow_eq {before after : FileTree} (keeps : before.Keeps after) {location place : Location}
    {steps : List String} (leads : before.follow location steps = .ok place) :
    after.follow location steps = .ok place := by
  induction steps generalizing location with
  | nil => exact leads
  | cons step steps inductionHypothesis =>
    rw [follow] at leads ⊢
    split at leads
    · exact nomatch leads
    · rename_i entered
      rw [keeps.enter_eq_ok entered]
      simp only
      split at leads
      · rw [if_pos ‹_›]
        exact inductionHypothesis leads
      · rw [if_neg ‹_›]
        split at leads
        · rw [if_pos ‹_›]
          exact inductionHypothesis leads
        · rw [if_neg ‹_›]
          split at leads
          · exact nomatch leads
          · rw [if_neg ‹_›]
            exact inductionHypothesis leads

theorem start_eq {before after : FileTree} (keeps : before.Keeps after) (path : String) :
    after.start path = before.start path := by
  rw [start, start, keeps.workingDirectory]

end Keeps

/-- A path leads to a place, whatever may be there. -/
def Leads (tree : FileTree) (path : String) (place : Location) : Prop :=
  tree.follow (tree.start path) (steps path) = .ok place

theorem Leads.unique {tree : FileTree} {path : String} {place other : Location}
    (leads : tree.Leads path place) (leadsOther : tree.Leads path other) : place = other :=
  Except.ok.inj (leads.symm.trans leadsOther)

theorem Keeps.leads {before after : FileTree} (keeps : before.Keeps after) {path : String}
    {place : Location} (leads : before.Leads path place) : after.Leads path place := by
  rw [Leads, keeps.start_eq]
  exact keeps.follow_eq leads

/-! ### What a path leads to -/

/-- What a path leads to, without the place. -/
def item? (tree : FileTree) (path : String) : Option Item :=
  match tree.lookup path with
  | .ok (_, item) => some item
  | .error _ => none

theorem isFile_eq (tree : FileTree) (path : String) :
    tree.isFile path = (tree.item? path).any Item.isFile := by
  rw [isFile, item?]
  cases tree.lookup path <;> rfl

theorem isDirectory_iff_lookup (tree : FileTree) (path : String) :
    tree.isDirectory path = true ↔ ∃ place, tree.lookup path = .ok (place, .directory) := by
  rw [isDirectory]
  cases tree.lookup path with
  | error fault => simp
  | ok pair =>
    obtain ⟨place, item⟩ := pair
    cases item <;> simp [Item.isDirectory]

theorem lookup_eq_ok_iff (tree : FileTree) (path : String) (place : Location) (item : Item) :
    tree.lookup path = .ok (place, item) ↔
      checkPath path = .ok () ∧ tree.Leads path place ∧ tree.at? place = some item ∧
        (item.isDirectory = true ∨ meansDirectory path = false) := by
  rw [lookup, Leads]
  cases checked : checkPath path with
  | error fault => simp [bind, Except.bind]
  | ok _ =>
    cases led : tree.follow (tree.start path) (steps path) with
    | error fault => simp [bind, Except.bind]
    | ok reached =>
      simp only [bind, Except.bind, true_and, Except.ok.injEq]
      cases there : tree.at? reached with
      | none =>
        constructor
        · exact nofun
        · rintro ⟨rfl, found, _⟩
          exact absurd (there.symm.trans found) nofun
      | some standing =>
        constructor
        · intro found
          cases standing with
          | directory =>
            obtain ⟨rfl, rfl⟩ := Prod.mk.inj (Except.ok.inj found)
            exact ⟨rfl, there, Or.inl rfl⟩
          | _ =>
            simp only at found
            split at found
            · exact nomatch found
            · obtain ⟨rfl, rfl⟩ := Prod.mk.inj (Except.ok.inj found)
              exact ⟨rfl, there, Or.inr (Bool.eq_false_iff.mpr ‹_›)⟩
        · rintro ⟨rfl, found, plain⟩
          obtain rfl := Option.some.inj (there.symm.trans found)
          cases standing with
          | directory => rfl
          | _ =>
            simp only [plain.resolve_left nofun, Bool.false_eq_true, if_false]
            rfl

theorem item?_eq_some_iff (tree : FileTree) (path : String) (item : Item) :
    tree.item? path = some item ↔ ∃ place, tree.lookup path = .ok (place, item) := by
  rw [item?]
  split
  · rename_i place found there
    rw [there]
    constructor
    · rintro same
      exact ⟨place, by rw [Option.some.inj same]⟩
    · rintro ⟨other, same⟩
      rw [(Prod.mk.inj (Except.ok.inj same)).2]
  · rename_i fault failed
    rw [failed]
    exact ⟨nofun, fun ⟨_, impossible⟩ => nomatch impossible⟩

theorem leads_of_isDirectory {tree : FileTree} {path : String}
    (directory : tree.isDirectory path = true) : ∃ place, tree.Leads path place := by
  obtain ⟨place, found⟩ := (isDirectory_iff_lookup tree path).mp directory
  exact ⟨place, ((lookup_eq_ok_iff tree path place _).mp found).2.1⟩

theorem fromUTF8?_eq_some_iff (bytes : ByteArray) (text : String) :
    String.fromUTF8? bytes = some text ↔ bytes = text.toUTF8 := by
  rw [String.fromUTF8?]
  constructor
  · intro decoded
    split at decoded
    · rw [← Option.some.inj decoded]
      rfl
    · exact nomatch decoded
  · rintro rfl
    exact dif_pos text.isValidUTF8

theorem readBytes_eq_ok_iff (tree : FileTree) (path : String) (bytes : ByteArray) :
    tree.readBytes path = .ok bytes ↔ tree.item? path = some (.file bytes) := by
  rw [readBytes, item?]
  cases found : tree.lookup path with
  | error fault => simp [bind, Except.bind]
  | ok pair =>
    obtain ⟨place, item⟩ := pair
    cases item <;> simp [bind, Except.bind, pure, Except.pure, throw, throwThe, MonadExceptOf.throw]

/-- A path leads to a text exactly when it leads to a file with the bytes of the text. -/
theorem readText_eq_ok_iff (tree : FileTree) (path text : String) :
    tree.readText path = .ok text ↔ tree.item? path = some (.file text.toUTF8) := by
  rw [← readBytes_eq_ok_iff, readText]
  cases read : tree.readBytes path with
  | error fault => simp [bind, Except.bind]
  | ok bytes =>
    simp only [bind, Except.bind, Except.ok.injEq]
    rw [← fromUTF8?_eq_some_iff]
    cases String.fromUTF8? bytes <;>
      simp [pure, Except.pure, throw, throwThe, MonadExceptOf.throw]

/-! ### What lies below an output directory -/

section Below

variable {output : String} {names : List String}

/-- A path that descends from an output directory leads to the place of that directory followed by
the names on the way. -/
theorem leads_descend_iff (tree : FileTree) (areNames : ∀ name ∈ names, Path.IsName name)
    (place : Location) :
    tree.Leads (descend output names) place ↔ ∃ base, tree.Leads output base ∧
      tree.follow base names = .ok place ∧ place = base ++ names := by
  rw [Leads, Headers.start_descend tree output areNames, Headers.steps_descend output areNames,
    follow_append]
  cases led : tree.follow (tree.start output) (steps output) with
  | error fault =>
    simp only [Leads, led]
    exact ⟨nofun, fun ⟨_, impossible, _⟩ => nomatch impossible⟩
  | ok base =>
    constructor
    · intro leads
      exact ⟨base, led, leads, tree.follow_names areNames leads⟩
    · rintro ⟨other, leadsOther, leads, _⟩
      rw [Leads, led] at leadsOther
      rw [Except.ok.inj leadsOther]
      exact leads

theorem item?_descend_eq_some_iff (tree : FileTree) (areNames : ∀ name ∈ names, Path.IsName name)
    (nonempty : names ≠ []) (item : Item) :
    tree.item? (descend output names) = some item ↔
      checkPath (descend output names) = .ok () ∧ ∃ base, tree.Leads output base ∧
        tree.follow base names = .ok (base ++ names) ∧ tree.at? (base ++ names) = some item := by
  rw [item?_eq_some_iff]
  simp only [lookup_eq_ok_iff, leads_descend_iff tree areNames,
    Headers.meansDirectory_descend output areNames nonempty, or_true, and_true]
  constructor
  · rintro ⟨place, checked, ⟨base, leads, down, rfl⟩, there⟩
    exact ⟨checked, base, leads, down, there⟩
  · rintro ⟨checked, base, leads, down, there⟩
    exact ⟨base ++ names, checked, ⟨base, leads, down, rfl⟩, there⟩

end Below

/-! ### Trees from the disk -/

/-- A tree as it lies on a disk: what lies somewhere lies in a directory, all names are names that
the disk can hold, and only directories can be closed or unlisted. -/
structure WellFormed (tree : FileTree) : Prop where
  parent : ∀ (location : Location) (name : String) (item : Item),
    tree.at? (location ++ [name]) = some item → tree.at? location = some .directory
  isName : ∀ (location : Location) (item : Item), tree.at? location = some item →
    ∀ name ∈ location, Path.IsName name ∧ name.utf8ByteSize ≤ maxNameLength
  closed : ∀ location ∈ tree.restrictions.closed, tree.at? location = some .directory
  unlisted : ∀ location ∈ tree.restrictions.unlisted, tree.at? location = some .directory

namespace WellFormed

variable {tree : FileTree}

/-- Where nothing is a directory can be made, and it may be entered then. -/
theorem mayEnter_of_none (wellFormed : tree.WellFormed) {location : Location}
    (missing : tree.at? location = none) : tree.mayEnter location = true := by
  rw [← Bool.not_eq_false, mayEnter_eq_false_iff]
  exact fun closed => nomatch missing.symm.trans (wellFormed.closed location closed)

/-- There are directories above all that there is. -/
theorem directory_above (wellFormed : tree.WellFormed) {upper lower : Location} {item : Item}
    (solid : lower ≠ []) (there : tree.at? (upper ++ lower) = some item) :
    tree.at? upper = some .directory := by
  induction lower generalizing upper with
  | nil => exact absurd rfl solid
  | cons name lower inductionHypothesis =>
    rw [List.append_cons] at there
    by_cases last : lower = []
    · rw [last, List.append_nil] at there
      exact wellFormed.parent upper name item there
    · exact wellFormed.parent upper name .directory (inductionHypothesis last there)

theorem isName_below (wellFormed : tree.WellFormed) {upper lower : Location} {item : Item}
    (there : tree.at? (upper ++ lower) = some item) : ∀ name ∈ lower, Path.IsName name :=
  fun name inside => (wellFormed.isName _ item there name (List.mem_append_right _ inside)).1

/-- Names lead down to what there is, when the directories above it may be entered. -/
theorem follow_eq (wellFormed : tree.WellFormed) {location names : Location} {item : Item}
    (there : tree.at? (location ++ names) = some item) (passable : tree.Passable location names) :
    tree.follow location names = .ok (location ++ names) := by
  induction names generalizing location with
  | nil => rw [List.append_nil]; rfl
  | cons name names inductionHypothesis =>
    obtain ⟨isName, short⟩ := wellFormed.isName _ _ there name
      (List.mem_append_right _ List.mem_cons_self)
    obtain ⟨opened, further⟩ := passable_cons_iff.mp passable
    have entered : tree.enter location = .ok () :=
      enter_eq_ok_iff.mpr ⟨wellFormed.directory_above (List.cons_ne_nil _ _) there, opened⟩
    rw [follow, entered]
    simp only [if_neg isName.notHere, if_neg isName.notUp, if_neg (Nat.not_lt.mpr short)]
    rw [List.append_cons location name names] at there ⊢
    exact inductionHypothesis there further

theorem empty : WellFormed {} := by
  have root : ∀ (location : Location) (item : Item), at? {} location = some item →
      location = [] := by
    intro location item there
    by_cases inner : location = []
    · exact inner
    · rw [at?_of_ne_nil _ inner] at there
      exact absurd there nofun
  refine ⟨fun location name item there => ?_, fun location item there name member => ?_, nofun,
    nofun⟩
  · exact absurd (root _ item there) (by simp)
  · rw [root location item there] at member
    exact absurd member List.not_mem_nil

end WellFormed

/-- Below a place where nothing is there is nothing. -/
theorem item?_eq_none_of_missing {tree : FileTree} {output : String} {base : Location}
    (leads : tree.Leads output base) (missing : tree.at? base = none) {names : List String}
    (nonempty : names ≠ []) (areNames : ∀ name ∈ names, Path.IsName name) :
    tree.item? (descend output names) = none := by
  cases there : tree.item? (descend output names) with
  | none => rfl
  | some item =>
    obtain ⟨_, other, leadsOther, down, _⟩ :=
      (item?_descend_eq_some_iff tree areNames nonempty item).mp there
    obtain rfl := leads.unique leadsOther
    obtain ⟨name, rest, rfl⟩ := List.exists_cons_of_ne_nil nonempty
    rw [follow, enter_of_none missing] at down
    exact nomatch down

end FileTree

end EngineDocs
