/-
This file says which place a path names, whatever stands there and on the way. A path that leads
anywhere leads to the place that it names. In a tree from the disk it leads there as soon as there
is a directory, provided that it leads out of no closed directory and steps up out of directories
only.
-/

import EngineDocs.Proofs.FileTree.Listings

namespace EngineDocs

open Headers (descend)

namespace FileTree

/-- The place to which a step goes on from a place, as far as the names say. -/
def advance (place : Location) (step : String) : Location :=
  if step = "." then place else if step = ".." then place.dropLast else place ++ [step]

/-- The place that a path names once some of its steps are taken. -/
def placeAfter (tree : FileTree) (path : String) (front : List String) : Location :=
  front.foldl advance (tree.start path)

/-- The place that a path names. -/
def place (tree : FileTree) (path : String) : Location := tree.placeAfter path (steps path)

theorem advance_of_isName {name : String} (isName : Path.IsName name) (place : Location) :
    advance place name = place ++ [name] := by
  rw [advance, if_neg isName.notHere, if_neg isName.notUp]

theorem foldl_advance {names : List String} (areNames : ∀ name ∈ names, Path.IsName name)
    (place : Location) : names.foldl advance place = place ++ names := by
  induction names generalizing place with
  | nil => exact (List.append_nil _).symm
  | cons name names inductionHypothesis =>
    rw [List.foldl_cons, advance_of_isName (areNames name List.mem_cons_self),
      inductionHypothesis fun other member => areNames other (List.mem_cons_of_mem _ member),
      List.append_assoc, List.singleton_append]

section Place

variable {tree : FileTree} {path : String} {start location : Location}

theorem placeAfter_append (tree : FileTree) (path : String) (front : List String)
    {names : List String} (areNames : ∀ name ∈ names, Path.IsName name) :
    tree.placeAfter path (front ++ names) = tree.placeAfter path front ++ names := by
  rw [placeAfter, List.foldl_append, foldl_advance areNames, placeAfter]

theorem place_descend (tree : FileTree) (path : String) {names : List String}
    (areNames : ∀ name ∈ names, Path.IsName name) :
    tree.place (descend path names) = tree.place path ++ names := by
  rw [place, Headers.steps_descend path areNames, placeAfter,
    Headers.start_descend tree path areNames, ← placeAfter, placeAfter_append tree path _ areNames,
    place]

theorem eq_foldl_advance_of_follow {taken : List String}
    (leads : tree.follow start taken = .ok location) : location = taken.foldl advance start := by
  induction taken generalizing start with
  | nil => exact (Except.ok.inj leads).symm
  | cons step taken inductionHypothesis =>
    rw [follow] at leads
    rw [List.foldl_cons, advance]
    split at leads
    · cases leads
    · split at leads
      · rename_i here
        rw [if_pos here]
        exact inductionHypothesis leads
      · rename_i notHere
        rw [if_neg notHere]
        split at leads
        · rename_i up
          rw [if_pos up]
          exact inductionHypothesis leads
        · rename_i notUp
          rw [if_neg notUp]
          split at leads
          · cases leads
          · exact inductionHypothesis leads

/-- A path leads to the place that it names, or nowhere. -/
theorem Leads.eq_place (leads : tree.Leads path location) : location = tree.place path :=
  eq_foldl_advance_of_follow leads

/-- The way of a path is open: no directory on it is closed, and it steps up out of directories. -/
structure OpenWay (tree : FileTree) (path : String) : Prop where
  opened : ∀ front step back, steps path = front ++ step :: back →
    tree.mayEnter (tree.placeAfter path front) = true
  up : ∀ front back, steps path = front ++ ".." :: back →
    tree.at? (tree.placeAfter path front) = some .directory

/-- Whenever steps end in a directory they lead there, as long as they lead out of no closed
directory, and up out of directories only. -/
theorem WellFormed.follow_of_directory (wellFormed : tree.WellFormed) {taken : List String}
    (opened : ∀ front step back, taken = front ++ step :: back →
      tree.mayEnter (front.foldl advance start) = true)
    (up : ∀ front back, taken = front ++ ".." :: back →
      tree.at? (front.foldl advance start) = some .directory)
    (there : tree.at? (taken.foldl advance start) = some .directory) :
    tree.follow start taken = .ok (taken.foldl advance start) := by
  induction taken using List.reverseRecOn with
  | nil => rfl
  | append_singleton taken step inductionHypothesis =>
    rw [List.foldl_append, List.foldl_cons, List.foldl_nil, advance] at there ⊢
    -- Before the last step there was a directory too.
    have above : tree.at? (taken.foldl advance start) = some .directory := by
      split at there
      · exact there
      · split at there
        · rename_i isUp
          exact up taken [] (by rw [isUp])
        · exact wellFormed.directory_above (List.cons_ne_nil _ _) there
    have longer : ∀ {front back : List String} {next : String}, taken = front ++ next :: back →
        taken ++ [step] = front ++ next :: (back ++ [step]) := by
      intro front back next form
      rw [form, List.append_assoc, List.cons_append]
    have leads := inductionHypothesis
      (fun front next back form => opened front next (back ++ [step]) (longer form))
      (fun front back form => up front (back ++ [step]) (longer form)) above
    have entered : tree.enter (taken.foldl advance start) = .ok () :=
      enter_eq_ok_iff.mpr ⟨above, opened taken step [] rfl⟩
    rw [follow_append, leads, Except.bind, follow, entered]
    dsimp only
    split
    · rfl
    · split
      · rfl
      · have short := (wellFormed.isName _ _ (by simpa [*] using there) step (by simp)).2
        rw [if_neg (by omega)]
        rfl

/-- A path whose way is open leads to the directory that it names. -/
theorem OpenWay.leads (way : tree.OpenWay path) (wellFormed : tree.WellFormed)
    (there : tree.at? (tree.place path) = some .directory) : tree.Leads path (tree.place path) :=
  wellFormed.follow_of_directory way.opened way.up there

/-- Dots lead nowhere else. -/
theorem follow_dots {dots : List String} (areDots : ∀ dot ∈ dots, dot = ".")
    (there : tree.enter location = .ok ()) : tree.follow location dots = .ok location := by
  induction dots with
  | nil => rfl
  | cons dot dots inductionHypothesis =>
    rw [areDots dot List.mem_cons_self, follow, there]
    exact inductionHypothesis fun other member => areDots other (List.mem_cons_of_mem _ member)

theorem foldl_advance_dots {dots : List String} (areDots : ∀ dot ∈ dots, dot = ".")
    (location : Location) : dots.foldl advance location = location := by
  induction dots with
  | nil => rfl
  | cons dot dots inductionHypothesis =>
    rw [areDots dot List.mem_cons_self]
    exact inductionHypothesis fun other member => areDots other (List.mem_cons_of_mem _ member)

end Place

end FileTree

end EngineDocs
