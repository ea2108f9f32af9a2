/-
This file shows that nothing that is known of a module is lost when it is written. The canonical
text of a module, of which its fingerprint is the digest, is read back as the module, so no other
module has it; and its data file, once it is on the disk, is read back as the module without its
description.
-/

import EngineDocs.Document.Output
import EngineDocs.Proofs.FileTree.Change
import EngineDocs.Proofs.Module

namespace EngineDocs

open FileTree

namespace ModuleData

/-- Reads the data of a module from a text. -/
def ofText? (text : String) : Option ModuleData := (Json.read? text.toList).bind ofJson?

theorem ofText?_canonicalText (data : ModuleData) : ofText? data.canonicalText = some data := by
  have read : Json.read? data.canonicalText.toList = some data.toJson := by
    rw [canonicalText, String.toList_ofList]
    exact Json.readAs?_write {} Json.Layout.compact_isBlank data.fits_toJson (by decide)
  rw [ofText?, read, Option.bind_some, ofJson?_toJson]

end ModuleData

namespace Output

/-- A data file that was written holds the text of its document, whatever the tree was before. -/
theorem readText_dataFile {output path : String} {document : Json} {tree : FileTree}
    (done : (Change.performAll tree (dataFile output path document)).2 = none) :
    (Change.performAll tree (dataFile output path document)).1.readText path =
      .ok (String.ofList document.pretty) := by
  rw [readText_eq_ok_iff]
  rw [dataFile, Change.performAll] at done ⊢
  split at done
  · rename_i middle made
    rcases Change.perform_file middle path (String.ofList document.pretty) with
      ⟨succeeded, written⟩ | ⟨failed, _⟩
    · rw [Change.performAll]
      split <;> rename_i performed <;> rw [performed] at succeeded written
      · exact written
      · cases succeeded
    · rw [Change.performAll] at done
      split at done <;> rename_i performed <;> rw [performed] at failed
      · exact absurd rfl failed
      · cases done
  · cases done

end Output

namespace ModuleData

/-- A module is read back from its canonical text, which no other module has, and from its data
file, which leaves nothing but the description out. -/
theorem read_back (data : ModuleData) :
    ofText? data.canonicalText = some data ∧
      (∀ other : ModuleData, other.canonicalText = data.canonicalText → other = data) ∧
      ∀ (output : String) (edition : Edition) (tree : FileTree),
        (Change.performAll tree (Output.moduleData output edition data)).2 = none →
          ∃ text, (Change.performAll tree (Output.moduleData output edition data)).1.readText
              (Output.moduleFile output data.name) = .ok text ∧
            DataFile.payload? text = some { data with description := none } := by
  refine ⟨data.ofText?_canonicalText, fun other same => canonicalText_injective same, ?_⟩
  intro output edition tree done
  exact ⟨_, Output.readText_dataFile done, DataFile.payload?_ofModule edition data⟩

/-- A module with all that has to be escaped in its texts, with a description, and with members
that have an access level and members that have none. -/
def unusual : ModuleData where
  name := "Mödule \"x\" \\ y"
  path := "a\tb\nc\r\x08\x0c\x01\x1f\x7f"
  category := ""
  dependencies := ⟨["\u2028", "𝕏"], [], ["", ""]⟩
  classes := [⟨"C", ["B<\"int\">"], .protected,
    [⟨"first", "int", some .private⟩, ⟨"second", "", none⟩], "a\\b.h"⟩]
  functions := [⟨"f", "void", [⟨"", "int"⟩], .public, true, false, "f.h"⟩]
  enums := [⟨"E", [⟨"A", ""⟩, ⟨"B", "\\n"⟩], "e.h"⟩]
  structs := [⟨"S", [⟨"", "", some .public⟩], ""⟩]
  description := some "null"

theorem read_back_unusual :
    ofText? unusual.canonicalText = some unusual ∧
      (∀ other : ModuleData, other.canonicalText = unusual.canonicalText → other = unusual) ∧
      (Change.performAll {} (Output.moduleData "o/p" ⟨"5.1", ⟨0⟩⟩ unusual)).2 = none ∧
      ∃ text, (Change.performAll {} (Output.moduleData "o/p" ⟨"5.1", ⟨0⟩⟩ unusual)).1.readText
          (Output.moduleFile "o/p" unusual.name) = .ok text ∧
        DataFile.payload? text = some { unusual with description := none } := by
  have done : (Change.performAll {} (Output.moduleData "o/p" ⟨"5.1", ⟨0⟩⟩ unusual)).2 = none := by
    decide +kernel
  obtain ⟨canonical, alone, file⟩ := read_back unusual
  exact ⟨canonical, alone, done, file "o/p" ⟨"5.1", ⟨0⟩⟩ {} done⟩

end ModuleData

end EngineDocs
