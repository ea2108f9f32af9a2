/-
This file says what a listing of a directory depends on. A listing is in order, so two of them are
the same when the same items stand below both places. Data files are left out of the comparison: a
scan never looks at them, and a run writes them next to what another run may scan.
-/

import EngineDocs.Proofs.Discovery.Names
import EngineDocs.Proofs.FileTree.Change
import EngineDocs.Proofs.Text.Runs
import Mathlib.Data.List.Sort

namespace EngineDocs

open Headers (descend)

theorem Headers.descend_singleton (root name : String) :
    descend root [name] = Path.join root name := rfl

theorem Headers.descend_pair (root name last : String) :
    descend root [name, last] = Path.join (Path.join root name) last := rfl

theorem Headers.join_descend (root : String) (names : List String) (name : String) :
    Path.join (descend root names) name = descend root (names ++ [name]) := by
  rw [descend_append, descend_singleton]

/-! ### The order of a listing -/

namespace Location

theorem compare_append (upper first second : Location) :
    compare (upper ++ first) (upper ++ second) = compare first second := by
  induction upper with
  | nil => rfl
  | cons name upper inductionHypothesis =>
    have same : compareNames name name = .eq := Std.ReflCmp.compare_self
    rw [List.cons_append, List.cons_append, compare, same]
    exact inductionHypothesis

end Location

namespace FileTree

/-- One of two items in a listing comes before the other. -/
def Precedes (first second : Location × Item) : Prop :=
  Location.compare first.1 second.1 = .lt

instance : Std.Irrefl Precedes where
  irrefl place less := by
    have same : Location.compare place.1 place.1 = .eq := Std.ReflCmp.compare_self
    exact nomatch same.symm.trans less

instance : Std.Antisymm Precedes where
  antisymm first second less greater := by
    have swapped : Location.compare first.1 second.1 =
        (Location.compare second.1 first.1).swap := Std.OrientedCmp.eq_swap
    rw [greater] at swapped
    exact nomatch swapped.symm.trans less

theorem eq_append_of_kept {location : Location} {place found : Location × Item}
    (kept : (match location.below? place.1 with
      | some (name :: names) => some (name :: names, place.2)
      | _ => none) = some found) : place.1 = location ++ found.1 := by
  split at kept
  · rename_i name names below
    rw [← Option.some.inj kept]
    exact (Location.below?_eq_some_iff location _ _).mp below
  · cases kept

theorem contents_ordered (tree : FileTree) (location : Location) :
    (tree.contents location).Pairwise Precedes := by
  refine List.Pairwise.filterMap _ (fun first second less one isOne other isOther => ?_)
    Std.TreeMap.ordered_keys_toList
  rw [eq_append_of_kept isOne, eq_append_of_kept isOther, Location.compare_append] at less
  exact less

theorem shown_ordered (tree : FileTree) (location : Location) :
    (tree.shown location).Pairwise Precedes := (tree.contents_ordered location).filter _

/-- Each directory on the way from a place to the end of some names can be listed, and entered when
the way goes on. -/
def Walkable (tree : FileTree) (place names : Location) : Prop :=
  ∀ upper name lower, names = upper ++ name :: lower →
    tree.mayList (place ++ upper) = true ∧ (lower ≠ [] → tree.mayEnter (place ++ upper) = true)

theorem walkable_cons_iff {tree : FileTree} {place names : Location} {name : String} :
    tree.Walkable place (name :: names) ↔ tree.mayList place = true ∧
      (names ≠ [] → tree.mayEnter place = true ∧ tree.Walkable (place ++ [name]) names) := by
  constructor
  · intro walkable
    have first := walkable [] name names rfl
    rw [List.append_nil] at first
    refine ⟨first.1, fun solid => ⟨first.2 solid, fun upper next lower form => ?_⟩⟩
    rw [← List.append_cons]
    exact walkable (name :: upper) next lower (congrArg _ form)
  · rintro ⟨listed, further⟩ upper next lower form
    rcases List.append_eq_cons_iff.mp form.symm with ⟨rfl, same⟩ | ⟨upper, rfl, rest⟩
    · obtain ⟨rfl, rfl⟩ := List.cons.inj same
      rw [List.append_nil]
      exact ⟨listed, fun solid => (further solid).1⟩
    · rw [List.append_cons]
      exact (further (rest ▸ by simp)).2 upper next lower rest

/-- A walk comes to the end of names exactly when it can go all the way. -/
theorem shows_iff {tree : FileTree} {place names : Location} :
    tree.shows place names = true ↔ tree.Walkable place names := by
  induction names generalizing place with
  | nil => exact iff_of_true rfl fun upper name lower form => absurd form (by simp)
  | cons name names inductionHypothesis =>
    rw [shows, walkable_cons_iff, Bool.and_eq_true, Bool.or_eq_true, Bool.and_eq_true,
      inductionHypothesis, List.isEmpty_iff, or_iff_not_imp_left]

/-- A walk that comes to the end of names has entered the directories above the last one. -/
theorem Walkable.passable {tree : FileTree} {place upper : Location} {last : String}
    (walkable : tree.Walkable place (upper ++ [last])) : tree.Passable place upper := by
  rintro front name back rfl
  exact (walkable front name (back ++ [last]) (by simp)).2 (by simp)

theorem Walkable.below {tree : FileTree} {place upper lower : Location}
    (walkable : tree.Walkable place (upper ++ lower)) : tree.Walkable (place ++ upper) lower := by
  rintro middle name rest rfl
  rw [List.append_assoc]
  exact walkable (upper ++ middle) name rest (List.append_assoc _ _ _).symm

/-! ### What a scan may see -/

/-- Whether a name is that of a data file. -/
def isDataName (name : String) : Bool := Text.endsWith ".json".toList name.toList

/-- Whether an item below a directory is anything but a data file. -/
def isSeen (names : Location) (item : Item) : Bool :=
  !(item.isFile && names.getLast?.any isDataName)

/-- What a walk shows of what lies below a location, without the data files, in the order of
locations. -/
def visible (tree : FileTree) (location : Location) : List (Location × Item) :=
  (tree.shown location).filter fun (names, item) => isSeen names item

/-- What a path shows of the directory that it leads to. A path that leads to no directory shows
nothing. -/
def listing (tree : FileTree) (path : String) : List (Location × Item) :=
  match tree.lookup path with
  | .ok (location, .directory) => tree.visible location
  | _ => []

theorem mem_visible_iff {tree : FileTree} {location names : Location} {item : Item} :
    (names, item) ∈ tree.visible location ↔
      names ≠ [] ∧ tree.at? (location ++ names) = some item ∧
        tree.shows location names = true ∧ isSeen names item = true := by
  rw [visible, List.mem_filter, mem_shown_iff, and_assoc, and_assoc]

/-- A search that passes over data files may as well look at the visible items only. -/
theorem filterMap_shown {β : Type} {tree : FileTree} {location : Location}
    {search : Location × Item → Option β}
    (blind : ∀ names item, (names, item) ∈ tree.shown location → isSeen names item = false →
      search (names, item) = none) :
    (tree.shown location).filterMap search = (tree.visible location).filterMap search := by
  rw [visible, List.filterMap_filter]
  refine List.filterMap_congr fun (names, item) member => ?_
  cases seen : isSeen names item with
  | true => simp [seen]
  | false => simp [seen, blind names item member seen]

theorem isSeen_append (upper : Location) {names : Location} (solid : names ≠ []) (item : Item) :
    isSeen (upper ++ names) item = isSeen names item := by
  rw [isSeen, isSeen, List.getLast?_append_of_ne_nil upper solid]

theorem getLast?_of_isDataName {name : String} (data : isDataName name = true) :
    name.toList.getLast? = some 'n' := by
  obtain ⟨front, form⟩ := Text.endsWith_iff.mp data
  rw [← form, List.getLast?_append_of_ne_nil front (by decide)]
  rfl

/-- At two places of two trees and below them there is the same to see: the same items stand there,
and the same directories can be listed and entered. -/
structure AlikeBelow (first : FileTree) (place : Location) (second : FileTree) (other : Location) :
    Prop where
  at?_iff : ∀ names item, names ≠ [] → isSeen names item = true →
    (first.at? (place ++ names) = some item ↔ second.at? (other ++ names) = some item)
  mayList : ∀ names, first.mayList (place ++ names) = second.mayList (other ++ names)
  mayEnter : ∀ names, first.mayEnter (place ++ names) = second.mayEnter (other ++ names)

theorem AlikeBelow.below {first second : FileTree} {place other : Location}
    (alike : first.AlikeBelow place second other) (upper : Location) :
    first.AlikeBelow (place ++ upper) second (other ++ upper) where
  at?_iff names item solid seen := by
    rw [List.append_assoc, List.append_assoc]
    refine alike.at?_iff (upper ++ names) item
      (fun none => solid (List.append_eq_nil_iff.mp none).2) ?_
    rw [isSeen_append upper solid]
    exact seen
  mayList names := by
    rw [List.append_assoc, List.append_assoc]
    exact alike.mayList (upper ++ names)
  mayEnter names := by
    rw [List.append_assoc, List.append_assoc]
    exact alike.mayEnter (upper ++ names)

theorem AlikeBelow.shows_eq {first second : FileTree} {place other : Location}
    (alike : first.AlikeBelow place second other) (names : List String) :
    first.shows place names = second.shows other names := by
  rw [Bool.eq_iff_iff, shows_iff, shows_iff]
  simp only [Walkable, alike.mayList, alike.mayEnter]

/-- Where there is the same to see, listings are the same. -/
theorem AlikeBelow.visible_eq {first second : FileTree} {place other : Location}
    (alike : first.AlikeBelow place second other) : first.visible place = second.visible other := by
  refine List.Pairwise.eq_of_mem_iff ((first.shown_ordered place).filter _)
    ((second.shown_ordered other).filter _) fun (names, item) => ?_
  show (names, item) ∈ first.visible place ↔ (names, item) ∈ second.visible other
  rw [mem_visible_iff, mem_visible_iff, alike.shows_eq]
  refine and_congr_right fun solid => ?_
  rw [and_left_comm, and_left_comm (b := second.shows _ _ = _)]
  refine and_congr_right fun _ => ?_
  rw [and_comm, and_comm (a := second.at? _ = _)]
  exact and_congr_right fun seen => alike.at?_iff names item solid seen

theorem mem_listing_iff {tree : FileTree} {path : String} {entry : Location × Item} :
    entry ∈ tree.listing path ↔
      ∃ place, tree.lookup path = .ok (place, .directory) ∧ entry ∈ tree.visible place := by
  rw [listing]
  split
  · rename_i place found
    constructor
    · exact fun member => ⟨place, found, member⟩
    · rintro ⟨other, foundToo, member⟩
      obtain rfl := (Prod.mk.inj (Except.ok.inj (found.symm.trans foundToo))).1
      exact member
  · rename_i nowhere
    exact ⟨fun member => absurd member List.not_mem_nil,
      fun ⟨place, found, _⟩ => (nowhere place found).elim⟩

theorem listing_ordered (tree : FileTree) (path : String) :
    (tree.listing path).Pairwise Precedes := by
  rw [listing]
  split
  · exact (tree.shown_ordered _).filter _
  · exact .nil

/-- Listings that show the same are the same. -/
theorem listing_eq_of_mem_iff {first second : FileTree} {path other : String}
    (same : ∀ entry, entry ∈ first.listing path ↔ entry ∈ second.listing other) :
    first.listing path = second.listing other :=
  (first.listing_ordered path).eq_of_mem_iff (second.listing_ordered other) same

theorem listing_of_refused {tree : FileTree} {path : String} {fault : Fault}
    (refused : checkPath path = .error fault) : tree.listing path = [] := by
  rw [listing, lookup, refused]
  rfl

theorem isDirectory_eq (tree : FileTree) (path : String) :
    tree.isDirectory path = (tree.item? path).any Item.isDirectory := by
  rw [isDirectory, item?]
  cases tree.lookup path <;> rfl

namespace WellFormed

variable {tree : FileTree} (wellFormed : tree.WellFormed)

include wellFormed

/-- A listing shows names only. -/
theorem isName_of_mem_listing {path : String} {names : Location} {item : Item}
    (member : (names, item) ∈ tree.listing path) :
    names ≠ [] ∧ ∀ name ∈ names, Path.IsName name := by
  obtain ⟨place, _, shown⟩ := mem_listing_iff.mp member
  obtain ⟨solid, there, _⟩ := mem_visible_iff.mp shown
  exact ⟨solid, wellFormed.isName_below there⟩

/-- Whatever can be seen is seen below a directory. -/
theorem directory_of_mem_visible {place : Location} {entry : Location × Item}
    (member : entry ∈ tree.visible place) : tree.at? place = some .directory := by
  obtain ⟨names, item⟩ := entry
  obtain ⟨solid, there, _⟩ := mem_visible_iff.mp member
  exact wellFormed.directory_above solid there

/-- A listing shows what lies below the place to which its path leads, unless the path is refused. -/
theorem mem_listing_iff {path : String} {entry : Location × Item} :
    entry ∈ tree.listing path ↔ checkPath path = .ok () ∧
      ∃ place, tree.Leads path place ∧ entry ∈ tree.visible place := by
  rw [FileTree.mem_listing_iff]
  simp only [lookup_eq_ok_iff]
  constructor
  · rintro ⟨place, ⟨checked, leads, _⟩, member⟩
    exact ⟨checked, place, leads, member⟩
  · rintro ⟨checked, place, leads, member⟩
    exact ⟨place, ⟨checked, leads, wellFormed.directory_of_mem_visible member, Or.inl rfl⟩, member⟩

end WellFormed

/-! ### Paths that go on along names -/

section Descent

variable {tree : FileTree} {path : String} {place names : Location}
  (leads : tree.Leads path place) (wellFormed : tree.WellFormed)
  (areNames : ∀ name ∈ names, Path.IsName name)

include leads wellFormed areNames

/-- A path that leads to a place goes on along names to what is there, when the system takes the path
and lets the program pass. -/
theorem Leads.item?_descend_eq_some_iff (solid : names ≠ []) (item : Item) :
    tree.item? (descend path names) = some item ↔
      checkPath (descend path names) = .ok () ∧ tree.Passable place names ∧
        tree.at? (place ++ names) = some item := by
  rw [FileTree.item?_descend_eq_some_iff tree areNames solid]
  refine and_congr_right fun _ => ?_
  constructor
  · rintro ⟨base, leadsBase, down, there⟩
    obtain rfl := leads.unique leadsBase
    exact ⟨passable_of_follow areNames down, there⟩
  · rintro ⟨passable, there⟩
    exact ⟨place, leads, wellFormed.follow_eq there passable, there⟩

theorem Leads.mem_listing_descend_iff {entry : Location × Item} :
    entry ∈ tree.listing (descend path names) ↔
      checkPath (descend path names) = .ok () ∧ tree.Passable place names ∧
        entry ∈ tree.visible (place ++ names) := by
  rw [wellFormed.mem_listing_iff]
  simp only [leads_descend_iff tree areNames]
  refine and_congr_right fun _ => ?_
  constructor
  · rintro ⟨_, ⟨base, leadsBase, down, rfl⟩, member⟩
    obtain rfl := leads.unique leadsBase
    exact ⟨passable_of_follow areNames down, member⟩
  · rintro ⟨passable, member⟩
    have directory := wellFormed.directory_of_mem_visible member
    exact ⟨_, ⟨place, leads, wellFormed.follow_eq directory passable, rfl⟩, member⟩

end Descent

end FileTree

end EngineDocs
