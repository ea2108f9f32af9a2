/-
This file shows that a page loses nothing of an enumeration. The entry of an enumeration holds a
declaration of it, in which each enumerator has a line of its own, and recognizing the enumerations
of the entry gives back the one it was written for. Nothing else in the entry is taken for an
enumeration: in front of the declaration no brace is reached, even where the name in the heading
ends like the keyword, and behind it there is no brace at all.
-/

import EngineDocs.Document.Page
import EngineDocs.Proofs.Header.Enumerator
import EngineDocs.Proofs.Header.Passing

namespace EngineDocs

open Recognizer

namespace Header

/-- What every enumeration of a header is like. -/
structure IsEnumeration (record : EnumRecord) : Prop where
  name_ne_nil : record.name.toList ≠ []
  name_word : ∀ c ∈ record.name.toList, Text.isWord c = true
  values : ∀ enumerator ∈ record.values, IsEnumerator enumerator

theorem isEnumeration_of_mem {content : Text} {filePath : String} {record : EnumRecord}
    (member : record ∈ recognizeEnums content filePath) :
    IsEnumeration record ∧ record.filePath = filePath := by
  obtain ⟨declaration, listed, rfl⟩ := List.mem_map.mp member
  obtain ⟨_, _, _, read⟩ := read?_of_mem_items listed
  obtain ⟨_, _, _, _, _, _, _, _, wellFormed, _⟩ := EnumDeclaration.read?_eq_some read
  refine ⟨⟨?_, ?_, fun enumerator => isEnumerator_of_mem⟩, rfl⟩
  · rw [EnumDeclaration.record, String.toList_ofList]
    exact wellFormed.name_ne_nil
  · rw [EnumDeclaration.record, String.toList_ofList]
    exact wellFormed.name_word

end Header

namespace Page

open Header

/-! ### Enumerators -/

/-- The parts of an enumerator on its line. -/
def enumeratorText (enumerator : Enumerator) : EnumeratorText where
  name := enumerator.name.toList
  equals := if enumerator.hasValue then [' ', '=', ' '] else []
  value := enumerator.value.toList

theorem formatEnumerator_toList (enumerator : Enumerator) :
    (formatEnumerator enumerator).toList =
      "    ".toList ++ ((enumeratorText enumerator).text ++ [',', '\n']) := by
  rw [formatEnumerator, EnumeratorText.text, enumeratorText]
  by_cases valued : enumerator.hasValue = true
  · rw [if_pos valued, if_pos valued]
    simp only [String.toList_append, List.append_assoc]
    rfl
  · have empty : enumerator.value = "" := by
      rw [Enumerator.hasValue, Bool.not_eq_true', Bool.not_eq_false,
        String.isEmpty_iff] at valued
      exact valued
    rw [if_neg valued, if_neg valued, empty]
    simp only [String.toList_append, List.append_assoc]
    rfl

theorem wellFormed_enumeratorText {enumerator : Enumerator} (isEnumerator : IsEnumerator enumerator) :
    (enumeratorText enumerator).WellFormed where
  name_ne_nil := isEnumerator.name_ne_nil
  name_word := isEnumerator.name_word
  isValued := by
    rw [enumeratorText, Enumerator.hasValue]
    by_cases empty : enumerator.value = ""
    · rw [empty]
      exact .none
    · have solid : enumerator.value.toList ≠ [] := mt String.toList_eq_nil_iff.mp empty
      rw [if_pos (by rwa [Bool.not_eq_true', ← Bool.not_eq_true, String.isEmpty_iff])]
      exact @EnumeratorText.IsValued.some [' '] [' '] _ (by decide) (by decide) solid
        isEnumerator.value_trimmed.start isEnumerator.value_inside

theorem record_enumeratorText {enumerator : Enumerator} (isEnumerator : IsEnumerator enumerator) :
    (enumeratorText enumerator).record = enumerator := by
  rw [EnumeratorText.record, enumeratorText, isEnumerator.value_trimmed.trim_eq,
    String.ofList_toList, String.ofList_toList]

theorem not_mem_formatEnumerator {enumerator : Enumerator} (isEnumerator : IsEnumerator enumerator) :
    '}' ∉ (formatEnumerator enumerator).toList := by
  have sign : '}' ∉ (enumeratorText enumerator).equals := by
    rw [enumeratorText]
    dsimp only
    split <;> decide
  rw [formatEnumerator_toList, EnumeratorText.text]
  simp only [List.mem_append, not_or]
  refine ⟨by decide, ⟨⟨Text.not_mem_of_isWord isEnumerator.name_word rfl, sign⟩, fun member => ?_⟩,
    by decide⟩
  exact absurd (isEnumerator.value_inside '}' member) (by decide)

/-- The enumerators are read back from their lines. -/
theorem parseEnumBody_lines {values : List Enumerator}
    (enumerators : ∀ enumerator ∈ values, IsEnumerator enumerator) :
    parseEnumBody ('\n' :: values.flatMap fun enumerator => (formatEnumerator enumerator).toList) =
      values := by
  have indented : EnumeratorText.recognizer.Passes "    ".toList :=
    EnumeratorText.passes_of_forall (by decide)
  have ended : EnumeratorText.recognizer.Passes ['\n'] := EnumeratorText.passes_singleton rfl
  rw [parseEnumBody, ← List.singleton_append, ended]
  induction values with
  | nil => rfl
  | cons enumerator values inductionHypothesis =>
    obtain ⟨here, later⟩ := List.forall_mem_cons.mp enumerators
    rw [List.flatMap_cons, formatEnumerator_toList, List.append_assoc, indented, List.append_assoc,
      List.cons_append, EnumeratorText.items_text_append_comma (wellFormed_enumeratorText here),
      ended, List.map_cons, inductionHypothesis later, record_enumeratorText here]

/-! ### Entries -/

/-- The declaration in the entry of an enumeration. -/
def enumText (record : EnumRecord) : EnumDeclaration where
  lead := [' ']
  name := record.name.toList
  gap := [' ']
  body := '\n' :: record.values.flatMap fun enumerator => (formatEnumerator enumerator).toList

theorem formatEnum_toList (record : EnumRecord) :
    (formatEnum record).toList =
      "### ".toList ++ record.name.toList ++ "\n\n".toList ++ ['`'] ++
        (['`'] ++ ['`'] ++ ("cpp".toList ++ ['\n'] ++ ((enumText record).text ++
          (";\n```\n\n- **File**: `".toList ++ record.filePath.toList ++ ['`'] ++ ['\n', '\n'])))) := by
  have opening : "\n\n```cpp\nenum ".toList =
      "\n\n".toList ++ ['`', '`', '`'] ++ "cpp\n".toList ++ EnumDeclaration.keyword ++ [' '] := rfl
  have closing : "\x7d;\n```\n\n- **File**: `".toList = '}' :: ";\n```\n\n- **File**: `".toList := rfl
  unfold formatEnum EnumDeclaration.text enumText
  simp only [String.toList_append, String.toList_join, opening, closing, List.flatMap_map,
    List.append_assoc, List.cons_append, List.nil_append]
  rfl

theorem wellFormed_enumText {record : EnumRecord} (isEnumeration : IsEnumeration record) :
    (enumText record).WellFormed where
  name_ne_nil := isEnumeration.name_ne_nil
  name_word := isEnumeration.name_word
  gap_blank := List.forall_mem_singleton.mpr rfl
  body_ne_nil := List.cons_ne_nil _ _
  body_open member := by
    rcases List.mem_cons.mp member with same | inside
    · exact absurd same (by decide)
    · obtain ⟨enumerator, listed, here⟩ := List.mem_flatMap.mp inside
      exact not_mem_formatEnumerator (isEnumeration.values enumerator listed) here

/-- An enumeration of a header is recognized again in its entry, and nothing else is. -/
theorem recognizeEnums_formatEnum {content : Text} {filePath : String} {record : EnumRecord}
    (noBrace : '{' ∉ filePath.toList) (member : record ∈ recognizeEnums content filePath) :
    recognizeEnums (formatEnum record).toList record.filePath = [record] := by
  obtain ⟨isEnumeration, rfl⟩ := isEnumeration_of_mem member
  have marked := EnumDeclaration.recognizer_markedBy
  have led := EnumDeclaration.recognizer_ledBy
  have heading : EnumDeclaration.recognizer.Passes
      ("### ".toList ++ record.name.toList ++ "\n\n".toList ++ ['`']) := by
    refine marked.passes ?_ rfl (by decide)
    simp only [List.mem_append, not_or]
    exact ⟨⟨by decide, Text.not_mem_of_isWord isEnumeration.name_word rfl⟩, by decide⟩
  have fence : EnumDeclaration.recognizer.Passes (['`'] ++ ['`']) :=
    marked.passes (by decide) rfl (by decide)
  have language : EnumDeclaration.recognizer.Passes ("cpp".toList ++ ['\n']) :=
    led.passes_word (by decide) (by decide) rfl
  have path : EnumDeclaration.recognizer.Passes
      (";\n```\n\n- **File**: `".toList ++ record.filePath.toList ++ ['`']) := by
    refine marked.passes ?_ rfl (by decide)
    rw [List.mem_append, not_or]
    exact ⟨by decide, noBrace⟩
  have ending : EnumDeclaration.recognizer.Passes ['\n', '\n'] := led.passes_of_forall (by decide)
  have read := EnumDeclaration.read?_text_append (wellFormed_enumText isEnumeration)
    (List.cons_ne_nil _ _) (List.forall_mem_singleton.mpr rfl)
  have found := fun rest => items_text_append (led.text_ne_nil (enumText record)) rfl (read rest)
  have nothing := (path.append ending) []
  rw [List.append_nil] at nothing
  rw [recognizeEnums, formatEnum_toList, heading, fence, language]
  refine (congrArg _ (found _)).trans ?_
  rw [nothing, items_nil, List.map_singleton, EnumDeclaration.record, enumText,
    parseEnumBody_lines isEnumeration.values, String.ofList_toList]

/-- An enumeration whose name is a keyword, with a value that opens a brace. -/
theorem recognizeEnums_formatEnum_class :
    '{' ∉ "Modes.h".toList ∧
      ⟨"class", [⟨"enum", ""⟩, ⟨"B", "= 1 /* \x7b\n */"⟩, ⟨"C", ""⟩], "Modes.h"⟩ ∈
        recognizeEnums "enum class \x7b enum, B == 1 /* \x7b\n */ , C = , \x7d;".toList "Modes.h" ∧
      recognizeEnums (formatEnum ⟨"class",
          [⟨"enum", ""⟩, ⟨"B", "= 1 /* \x7b\n */"⟩, ⟨"C", ""⟩], "Modes.h"⟩).toList "Modes.h" =
        [⟨"class", [⟨"enum", ""⟩, ⟨"B", "= 1 /* \x7b\n */"⟩, ⟨"C", ""⟩], "Modes.h"⟩] := by
  have noBrace : '{' ∉ "Modes.h".toList := by decide
  have member : ⟨"class", [⟨"enum", ""⟩, ⟨"B", "= 1 /* \x7b\n */"⟩, ⟨"C", ""⟩], "Modes.h"⟩ ∈
      recognizeEnums "enum class \x7b enum, B == 1 /* \x7b\n */ , C = , \x7d;".toList "Modes.h" := by
    decide
  exact ⟨noBrace, member, recognizeEnums_formatEnum noBrace member⟩

end Page

end EngineDocs
