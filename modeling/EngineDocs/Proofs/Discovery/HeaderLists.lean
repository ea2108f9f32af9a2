/-
This file says which headers are found below a directory and what is read from them. They are the
regular files with the extension `h` that the reflection tool has not generated, in the order of
their paths, component by component. Reading them never fails: what cannot be read is skipped, and
the declarations of the others follow one another in that order. There is one exception: a header is
not found when its directory cannot be listed, be it that the program is not allowed to list it, that
the way there leads through a directory that cannot be listed or entered, or that its path is so long
that the system refuses it.
-/

import EngineDocs.Proofs.Discovery.EngineModules
import EngineDocs.Proofs.Discovery.Mirrors
import EngineDocs.Proofs.Generation.Balance
import EngineDocs.Proofs.Header.CanonicalHeader

namespace EngineDocs

open FileTree
open Headers (descend)

/-! ### The names of headers -/

namespace Path

/-- An extension has no dot and stands at the end of a name, behind a dot that is not its first
character. -/
theorem extension?_eq_some_iff {name : String} (isName : IsName name) (extension : Text) :
    extension? name = some extension ↔
      '.' ∉ extension ∧ ∃ stem, stem ≠ [] ∧ name.toList = stem ++ '.' :: extension := by
  rw [extension?, lastName?_of_isName isName, Option.bind_some]
  dsimp only
  constructor
  · intro found
    split at found
    · rename_i c stem behind
      rw [Text.drop_length_takeWhile] at behind
      have divided : name.toList.reverse = extension.reverse ++ '.' :: c :: stem := by
        rw [← Option.some.inj found, List.reverse_reverse, ← behind,
          List.takeWhile_append_dropWhile]
      rw [← Option.some.inj found]
      refine ⟨fun member => ?_, (c :: stem).reverse, by simp, ?_⟩
      · exact Text.not_mem_takeWhile '.' _ (List.mem_reverse.mp member)
      · rw [Option.some.inj found, ← List.reverse_inj, divided]
        simp
    · cases found
  · rintro ⟨noDot, stem, solid, form⟩
    have divided : name.toList.reverse = extension.reverse ++ '.' :: stem.reverse := by
      rw [form]
      simp
    have front : name.toList.reverse.takeWhile (· != '.') = extension.reverse := by
      rw [divided, Text.takeWhile_append_mark (mt List.mem_reverse.mp noDot)]
    obtain ⟨c, rest, back⟩ := List.exists_cons_of_ne_nil (List.reverse_ne_nil_iff.mpr solid)
    rw [front, divided, List.drop_left, back, List.reverse_reverse]
    rfl

end Path

namespace Headers

/-- A name is that of a header: something stands in front of its extension `h`, and it is not that
of a generated header. -/
structure IsHeaderName (name : String) : Prop where
  extension : ∃ stem, stem ≠ [] ∧ name.toList = stem ++ ".h".toList
  written : ¬ ".generated.h".toList <:+ name.toList

theorem isHeader_iff {name : String} (isName : Path.IsName name) :
    isHeader name = true ↔ IsHeaderName name := by
  rw [isHeader, Bool.and_eq_true, beq_iff_eq, Path.extension?_eq_some_iff isName,
    Path.lastName?_of_isName isName, Option.map_some, Option.getD_some, Bool.not_eq_true',
    Bool.eq_false_iff, ne_eq, Text.endsWith_iff]
  constructor
  · rintro ⟨⟨_, extension⟩, written⟩
    exact ⟨extension, written⟩
  · rintro ⟨extension, written⟩
    exact ⟨⟨by decide, extension⟩, written⟩

theorem isHeader_descend_iff (root : String) {names : Location}
    (areNames : ∀ name ∈ names, Path.IsName name) (solid : names ≠ []) :
    isHeader (descend root names) = true ↔
      ∃ name, names.getLast? = some name ∧ IsHeaderName name := by
  rw [isHeader_descend root areNames solid, Option.any_eq_true]
  refine exists_congr fun name => and_congr_right fun last => isHeader_iff ?_
  exact areNames name (List.mem_of_getLast? last)

/-! ### Finding headers -/

/-- A header lies at the end of some names below a place. -/
structure HoldsHeader (tree : FileTree) (place names : Location) : Prop where
  file : tree.HoldsFile (place ++ names)
  named : ∃ name, names.getLast? = some name ∧ IsHeaderName name

variable {tree : FileTree} {root : String}

/-- The headers that are found below a directory are all that lie there, but for those that no walk
comes to and those in a directory with a path that the system refuses. -/
theorem mem_find_iff (wellFormed : tree.WellFormed) (noFile : tree.isFile root = false)
    (path : String) :
    path ∈ find tree root ↔
      ∃ place names, tree.lookup root = .ok (place, .directory) ∧ HoldsHeader tree place names ∧
        path = descend root names ∧ tree.Walkable place names ∧
        checkPath (descend root names.dropLast) = .ok () := by
  rw [isFile] at noFile
  rw [find]
  split
  · rename_i fault refused
    rw [refused]
    refine iff_of_false List.not_mem_nil ?_
    rintro ⟨_, _, found, _⟩
    cases found
  · rename_i place found
    rw [found, List.mem_filterMap]
    constructor
    · rintro ⟨⟨names, item⟩, member, kept⟩
      dsimp only at kept
      obtain ⟨solid, there, walked⟩ := mem_shown_iff.mp member
      split at kept
      · rename_i conditions
        rw [Bool.and_eq_true, Bool.and_eq_true,
          isHeader_descend_iff root (wellFormed.isName_below there) solid,
          isListed_iff] at conditions
        obtain ⟨⟨file, named⟩, listed⟩ := conditions
        exact ⟨place, names, rfl, ⟨⟨item, there, file⟩, named⟩, (Option.some.inj kept).symm,
          shows_iff.mp walked, listed⟩
      · cases kept
    · rintro ⟨other, names, same, ⟨⟨item, there, file⟩, named⟩, rfl, walkable, listed⟩
      obtain rfl : place = other := (Prod.mk.inj (Except.ok.inj same)).1
      have solid : names ≠ [] := by
        rintro rfl
        obtain ⟨_, last, _⟩ := named
        cases last
      refine ⟨(names, item), mem_shown_iff.mpr ⟨solid, there, shows_iff.mpr walkable⟩, if_pos ?_⟩
      rw [Bool.and_eq_true, Bool.and_eq_true,
        isHeader_descend_iff root (wellFormed.isName_below there) solid, isListed_iff]
      exact ⟨⟨file, named⟩, listed⟩
  · rename_i reached notDirectory found
    obtain ⟨place, item⟩ := reached
    rw [found] at noFile
    cases item with
    | directory => exact (notDirectory place rfl).elim
    | _ => cases noFile

/-- The headers below a directory are found in the order of their paths. -/
theorem find_ordered (wellFormed : tree.WellFormed) (root : String) :
    (find tree root).Pairwise Path.Before := by
  rw [find]
  split
  · exact .nil
  · rename_i place found
    refine List.Pairwise.filterMap _ (fun first second before one isOne other isOther => ?_)
      (wellFormed.descend_ordered (ne_empty_of_lookup found) place)
    dsimp only at isOne isOther
    split at isOne
    · split at isOther
      · rw [← Option.some.inj isOne, ← Option.some.inj isOther]
        exact before
      · cases isOther
    · cases isOne
  · split
    · exact List.pairwise_singleton _ _
    · exact .nil

/-! ### Reading headers -/

/-- The declarations in a header, with bytes that are not text replaced. A header that cannot be
read has none. -/
def declarations? (tree : FileTree) (path : String) : Option DeclarationSet :=
  (tree.readBytes path).toOption.map fun bytes =>
    Header.extractAll (Text.decodeLossy bytes) (DisplayPath.ofHeader path)

/-- A header that cannot be read, with the fault. -/
def unreadable? (tree : FileTree) (path : String) : Option (String × Failure) :=
  match tree.readBytes path with
  | .ok _ => none
  | .error fault => some (path, .io fault)

theorem toOption_parseFile (tree : FileTree) (path : String) :
    (parseFile tree path).toOption = declarations? tree path := by
  rw [parseFile, readLossyText, declarations?]
  cases tree.readBytes path <;> rfl

theorem unreadable_eq (tree : FileTree) (root : String) :
    unreadable tree root = (find tree root).filterMap (unreadable? tree) := by
  refine List.filterMap_congr fun path _ => ?_
  rw [parseFile, readLossyText, unreadable?]
  cases tree.readBytes path <;> rfl

theorem foldl_add_declarations (tree : FileTree) (paths : List String) (parsed : Parsed) :
    (paths.foldl (Parsed.add tree) parsed).declarations =
      parsed.declarations ++ DeclarationSet.concat (paths.filterMap (declarations? tree)) := by
  induction paths generalizing parsed with
  | nil => exact (DeclarationSet.append_empty _).symm
  | cons path paths inductionHypothesis =>
    rw [List.foldl_cons, inductionHypothesis, declarations_add, toOption_parseFile,
      List.filterMap_cons]
    cases declarations? tree path with
    | none => rfl
    | some set =>
      dsimp only
      rw [DeclarationSet.concat_cons, DeclarationSet.append_assoc]

theorem foldl_add_filesParsed (tree : FileTree) (paths : List String) (parsed : Parsed) :
    (paths.foldl (Parsed.add tree) parsed).filesParsed =
      parsed.filesParsed + paths.countP fun path => (tree.readBytes path).isOk := by
  induction paths generalizing parsed with
  | nil => rfl
  | cons path paths inductionHypothesis =>
    rw [List.foldl_cons, inductionHypothesis, List.countP_cons, Parsed.add, parseFile,
      readLossyText]
    cases tree.readBytes path with
    | ok bytes => exact Nat.add_right_comm _ _ _
    | error fault => rfl

/-- Every header is either read or skipped. -/
theorem countP_add_length_unreadable (tree : FileTree) (paths : List String) :
    (paths.countP fun path => (tree.readBytes path).isOk) +
      (paths.filterMap (unreadable? tree)).length = paths.length := by
  rw [List.length_filterMap_eq_countP,
    List.length_eq_countP_add_countP fun path => (tree.readBytes path).isOk]
  refine congrArg _ (List.countP_congr fun path _ => ?_)
  rw [unreadable?]
  cases tree.readBytes path <;> simp [Except.isOk, Except.toBool]

end Headers

namespace DeclarationSet

/-- The records of many sets, one set after another for each of the four kinds. -/
def kindByKind (sets : List DeclarationSet) : DeclarationSet where
  classes := sets.flatMap (·.classes)
  functions := sets.flatMap (·.functions)
  enums := sets.flatMap (·.enums)
  structs := sets.flatMap (·.structs)

theorem concat_eq (sets : List DeclarationSet) : concat sets = kindByKind sets := by
  induction sets with
  | nil => rfl
  | cons set sets inductionHypothesis =>
    rw [concat_cons, inductionHypothesis]
    rfl

end DeclarationSet

namespace Headers

/-- The headers below a directory are found in the order of their paths: all that lie there, as long
as a walk comes to them and the system takes the paths of their directories. Reading them gives the
declarations of those that can be read, kind by kind and in that order, and tells of the others;
there is none that is neither read nor skipped. -/
theorem find_and_parse_exact {tree : FileTree} (wellFormed : tree.WellFormed) (root : String) :
    (find tree root).Pairwise Path.Before ∧
      (tree.isFile root = false → ∀ path, path ∈ find tree root ↔
        ∃ place names, tree.lookup root = .ok (place, .directory) ∧
          HoldsHeader tree place names ∧ path = descend root names ∧
          tree.Walkable place names ∧ checkPath (descend root names.dropLast) = .ok ()) ∧
      (parse tree root).declarations =
        .kindByKind ((find tree root).filterMap (declarations? tree)) ∧
      (parse tree root).filesParsed =
        (find tree root).countP (fun path => (tree.readBytes path).isOk) ∧
      (parse tree root).skipped = (find tree root).filterMap (unreadable? tree) ∧
      (parse tree root).filesParsed + (parse tree root).skipped.length =
        (find tree root).length := by
  have filesParsed : (parse tree root).filesParsed =
      (find tree root).countP fun path => (tree.readBytes path).isOk := by
    rw [parse, foldl_add_filesParsed, Nat.zero_add]
  have skipped : (parse tree root).skipped = (find tree root).filterMap (unreadable? tree) := by
    rw [parse_skipped, unreadable_eq]
  refine ⟨find_ordered wellFormed root, mem_find_iff wellFormed, ?_, filesParsed, skipped, ?_⟩
  · rw [parse, foldl_add_declarations, DeclarationSet.concat_eq]
    rfl
  · rw [filesParsed, skipped, countP_add_length_unreadable]

/-- A tree with headers in a directory and below it. -/
def openHeaders : FileTree :=
  (Change.performAll {} [.directory "d/b", .file "d/b/X.h" "class X : public B { };",
    .file "d/b.h" "class Y : public B { };", .file "d/X.generated.h" "", .file "d/h" ""]).1

/-- The same tree with a header that cannot be opened. -/
def smallHeaders : FileTree := openHeaders.put ["d", "L.h"] .locked

theorem smallHeaders_wellFormed : smallHeaders.WellFormed := by
  have facts : openHeaders.Leads "d/L.h" ["d", "L.h"] ∧ openHeaders.enter ["d"] = .ok () ∧
      openHeaders.at? ["d", "L.h"] ≠ some .directory := by
    unfold Leads
    decide +kernel
  obtain ⟨leads, entered, free⟩ := facts
  have reaches : openHeaders.Reaches "d/L.h" ["d"] "L.h" :=
    ⟨rfl, leads, entered, by decide, by decide⟩
  exact put_wellFormed (Change.performAll_wellFormed .empty _) reaches free

theorem find_and_parse_exact_small :
    smallHeaders.WellFormed ∧ smallHeaders.isFile "d" = false ∧
      (find smallHeaders "d").Pairwise Path.Before ∧
      (∀ path, path ∈ find smallHeaders "d" ↔
        ∃ place names, smallHeaders.lookup "d" = .ok (place, .directory) ∧
          HoldsHeader smallHeaders place names ∧ path = descend "d" names ∧
          smallHeaders.Walkable place names ∧ checkPath (descend "d" names.dropLast) = .ok ()) ∧
      find smallHeaders "d" = ["d/L.h", "d/b/X.h", "d/b.h"] ∧
      (parse smallHeaders "d").declarations.classes.map (·.name) = ["X", "Y"] ∧
      (parse smallHeaders "d").filesParsed = 2 ∧
      (parse smallHeaders "d").skipped = [("d/L.h", .io .denied)] := by
  have facts : smallHeaders.isFile "d" = false ∧
      find smallHeaders "d" = ["d/L.h", "d/b/X.h", "d/b.h"] ∧
      (parse smallHeaders "d").declarations.classes.map (·.name) = ["X", "Y"] ∧
      (parse smallHeaders "d").filesParsed = 2 ∧
      (parse smallHeaders "d").skipped = [("d/L.h", .io .denied)] := by
    decide +kernel
  obtain ⟨ordered, exact, _⟩ := find_and_parse_exact smallHeaders_wellFormed "d"
  exact ⟨smallHeaders_wellFormed, facts.1, ordered, exact facts.1, facts.2⟩

/-- Nothing is found when every file lies below a directory in one whose path the system refuses. -/
theorem find_eq_nil_of_refused (wellFormed : tree.WellFormed) {place : Location}
    (found : tree.lookup root = .ok (place, .directory))
    (refused : ∀ names item, names ≠ [] → tree.at? (place ++ names) = some item →
      item.isFile = true → checkPath (descend root names.dropLast) ≠ .ok ()) :
    find tree root = [] := by
  have noFile : tree.isFile root = false := by
    rw [isFile, found]
    rfl
  refine List.eq_nil_iff_forall_not_mem.mpr fun path member => ?_
  obtain ⟨other, names, foundToo, ⟨⟨item, there, file⟩, name, last, _⟩, _, _, taken⟩ :=
    (mem_find_iff wellFormed noFile path).mp member
  obtain rfl : other = place := (Prod.mk.inj (Except.ok.inj (foundToo.symm.trans found))).1
  have solid : names ≠ [] := by
    rintro rfl
    cases last
  exact refused names item solid there file taken

/-- A header is overlooked when the path of its directory is too long, and also when its directory
cannot be listed. -/
theorem find_overlooks_headers :
    (Generation.engineIn "").WellFormed ∧
      (Generation.engineIn "").lookup (descend Generation.longHome ["Engine"]) =
        .ok (["Engine"], .directory) ∧
      HoldsHeader (Generation.engineIn "") ["Engine"] ["Source", "A", "M", "Public", "M.h"] ∧
      find (Generation.engineIn "") (descend Generation.longHome ["Engine"]) = [] ∧
      (smallHeaders.forbid ["d", "b"]).WellFormed ∧
      (smallHeaders.forbid ["d", "b"]).lookup "d" = .ok (["d"], .directory) ∧
      HoldsHeader (smallHeaders.forbid ["d", "b"]) ["d"] ["b", "X.h"] ∧
      find (smallHeaders.forbid ["d", "b"]) "d" = ["d/L.h", "d/b.h"] := by
  have wellFormed := Generation.engineIn_wellFormed ""
  have facts : (Generation.engineIn "").at? ["Engine"] = some .directory ∧
      ((Generation.engineIn "").at? ["Engine", "Source", "A", "M", "Public", "M.h"]).any
        Item.isFile ∧
      isHeader "M.h" = true ∧
      -- Every file lies in a directory with a long path.
      ∀ found ∈ (Generation.engineIn "").contents ["Engine"], found.2.isFile = true →
        '\x00' ∉ (descend "" ("Engine" :: found.1.dropLast)).toList ∧
          pathLimit ≤ 4082 + (descend "" ("Engine" :: found.1.dropLast)).utf8ByteSize := by
    decide +kernel
  obtain ⟨engine, header, isHeader, refused⟩ := facts
  have factsToo : smallHeaders.at? ["d", "b"] = some .directory ∧
      (smallHeaders.forbid ["d", "b"]).lookup "d" = .ok (["d"], .directory) ∧
      ((smallHeaders.forbid ["d", "b"]).at? ["d", "b", "X.h"]).any Item.isFile ∧
      Headers.isHeader "X.h" = true ∧
      find (smallHeaders.forbid ["d", "b"]) "d" = ["d/L.h", "d/b.h"] := by
    decide +kernel
  obtain ⟨directory, foundToo, headerToo, isHeaderToo, overlooked⟩ := factsToo
  have found := Generation.lookup_longHome wellFormed (Generation.engineIn_workingDirectory "")
    (Generation.mayEnter_engineIn "") (List.cons_ne_nil "Engine" []) engine (by decide)
    (by decide)
  refine ⟨wellFormed, found, ⟨Option.any_eq_true _ _ |>.mp header,
    ⟨"M.h", rfl, (isHeader_iff (by decide)).mp isHeader⟩⟩, ?_,
    smallHeaders_wellFormed.forbid directory, foundToo, ⟨Option.any_eq_true _ _ |>.mp headerToo,
      ⟨"X.h", rfl, (isHeader_iff (by decide)).mp isHeaderToo⟩⟩, overlooked⟩
  refine find_eq_nil_of_refused wellFormed found fun names item solid there file taken => ?_
  obtain ⟨noNul, long⟩ := refused _ (mem_contents_iff.mpr ⟨solid, there⟩) file
  have areNames : ∀ name ∈ "Engine" :: names.dropLast, Path.IsName name := by
    refine List.forall_mem_cons.mpr ⟨by decide, fun name inner => ?_⟩
    exact wellFormed.isName_below there name (List.dropLast_subset names inner)
  rw [← Headers.descend_append, List.singleton_append,
    Generation.checkPath_longHome areNames (List.cons_ne_nil _ _) noNul, if_pos long] at taken
  cases taken

end Headers

end EngineDocs
