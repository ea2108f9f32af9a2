/-
This file says where changes leave traces in a tree. A file that is written leaves one at the place
that its path names, and a directory that is made leaves traces on the way there, where nothing was
before. A directory that is there leaves none.
-/

import EngineDocs.Proofs.FileTree.Places
import EngineDocs.Proofs.FileTree.Ways

namespace EngineDocs

open Headers (descend)

namespace FileTree

/-- A tree is another one with directories made and files written at some places only. -/
structure Touched (made written : Location → Prop) (before after : FileTree) : Prop where
  grows : before.Grows after
  at? : ∀ place, after.at? place = before.at? place ∨
    made place ∧ after.at? place = some .directory ∨
    written place ∧ ∃ content, after.at? place = some (.file content)

namespace Touched

variable {made written : Location → Prop} {before after : FileTree}

theorem refl (tree : FileTree) : tree.Touched made written tree :=
  ⟨.refl tree, fun _ => Or.inl rfl⟩

theorem at?_eq_none (touched : before.Touched made written after) {place : Location}
    (missing : after.at? place = none) : before.at? place = none :=
  touched.grows.at?_eq_none missing

theorem isDirectory (touched : before.Touched made written after) {path : String}
    (there : before.isDirectory path = true) : after.isDirectory path = true :=
  isDirectory_of_keeps touched.grows.keeps there

/-- Where no directory is made and only data files are written, there is the same to see. -/
theorem alikeBelow (touched : before.Touched made written after) {place : Location}
    (unmade : ∀ names, names ≠ [] → ¬ made (place ++ names))
    (unseen : ∀ names content, names ≠ [] → written (place ++ names) →
      isSeen names (.file content) = false) : before.AlikeBelow place after place := by
  refine ⟨fun names item solid seen => ?_,
    fun names => (mayList_congr touched.grows.restrictions (place ++ names)).symm,
    fun names => (mayEnter_congr touched.grows.restrictions (place ++ names)).symm⟩
  rcases touched.at? (place ++ names) with same | ⟨isMade, _⟩ | ⟨isWritten, content, file⟩
  · rw [same]
  · exact absurd isMade (unmade names solid)
  · have hidden := unseen names content solid isWritten
    -- Something else can be seen under the name of a data file only if it is a directory.
    have directory_of_seen : item = .directory := by
      cases item with
      | directory => rfl
      | _ => exact nomatch seen.symm.trans hidden
    rw [directory_of_seen, file]
    refine iff_of_false (fun there => ?_) nofun
    exact nomatch (touched.grows.keeps.directories _ there).symm.trans file

end Touched

end FileTree

namespace Change

open FileTree

variable {made written : Location → Prop} {origin tree : FileTree} {path content : String}

end Change

end EngineDocs
