/-
This file shows what is read of one enumerator, and what the enumerators of a body are like. An
enumerator with a comma behind it is read as it is written, provided that its value does not begin
with a blank. Every value that is read is trimmed and free of commas and closing braces, so what is
read of a body can be written as enumerators of this form.
-/

import EngineDocs.Header.Enum
import EngineDocs.Proofs.Search
import EngineDocs.Proofs.Text.Blanks

namespace EngineDocs.Header

open Recognizer

namespace EnumeratorText

/-! ### Reading an enumerator -/

/-- What may stand behind a name: nothing, or a sign between blanks and a value. -/
inductive IsValued : (equals value : Text) → Prop
  | none : IsValued [] []
  | some {before behind value : Text} (beforeBlank : ∀ c ∈ before, Text.isBlank c = true)
    (behindBlank : ∀ c ∈ behind, Text.isBlank c = true) (solid : value ≠ [])
    (start : Text.Ends Text.isBlank value) (inside : ∀ c ∈ value, isValueChar c = true) :
    IsValued (before ++ '=' :: behind) value

/-- The parts of an enumerator as far as each is determined by itself. -/
structure WellFormed (enumerator : EnumeratorText) : Prop where
  name_ne_nil : enumerator.name ≠ []
  name_word : ∀ c ∈ enumerator.name, Text.isWord c = true
  isValued : IsValued enumerator.equals enumerator.value

theorem readValue?_append {before behind value : Text}
    (beforeBlank : ∀ c ∈ before, Text.isBlank c = true)
    (behindBlank : ∀ c ∈ behind, Text.isBlank c = true) (solid : value ≠ [])
    (start : Text.Ends Text.isBlank value) (inside : ∀ c ∈ value, isValueChar c = true)
    (rest : Text) :
    readValue? (before ++ '=' :: (behind ++ (value ++ ',' :: rest))) =
      some (before ++ '=' :: behind, value) := by
  have sign : ∀ more, Text.Ends Text.isBlank ('=' :: more) := fun _ => Text.ends_cons.mpr rfl
  have begins : Text.Ends Text.isBlank (value ++ ',' :: rest) := start.append solid _
  have comma : Text.Ends isValueChar (',' :: rest) := Text.ends_cons.mpr rfl
  simp only [readValue?, Text.skipBlanks, Text.leadingBlanks,
    Text.dropWhile_append_of_ends beforeBlank (sign _),
    Text.takeWhile_append_of_ends beforeBlank (sign _),
    Text.dropWhile_append_of_ends behindBlank begins,
    Text.takeWhile_append_of_ends behindBlank begins, Text.takeWhile_append_of_ends inside comma]
  cases value with
  | nil => exact absurd rfl solid
  | cons c value =>
    simp only [List.append_assoc, List.singleton_append]

/-- An enumerator is read from its own text when a comma follows. -/
theorem read?_text_append {enumerator : EnumeratorText} (wellFormed : enumerator.WellFormed)
    (rest : Text) : read? (enumerator.text ++ ',' :: rest) = some enumerator := by
  obtain ⟨name, equals, value⟩ := enumerator
  obtain ⟨solid, word, isValued⟩ := wellFormed
  dsimp only at solid word isValued
  have named : ∀ behind, Text.Ends Text.isWord behind → read? (name ++ behind) =
      (readValue? behind).elim (some ⟨name, [], []⟩) fun found => some ⟨name, found.1, found.2⟩ := by
    intro behind ends
    rw [read?, Text.leadingWord, Text.takeWhile_append_of_ends word ends, Text.skipWord,
      Text.dropWhile_append_of_ends word ends]
    cases name with
    | nil => exact absurd rfl solid
    | cons c name => cases readValue? behind <;> rfl
  rw [EnumeratorText.text, List.append_assoc, List.append_assoc]
  cases isValued with
  | none => exact named (',' :: rest) (Text.ends_cons.mpr rfl)
  | some beforeBlank behindBlank valueSolid start inside =>
    rename_i before behind
    rw [List.append_assoc, List.cons_append, named _
      (Text.ends_isWord_of_isBlank beforeBlank (Text.ends_cons.mpr rfl)),
      readValue?_append beforeBlank behindBlank valueSolid start inside, Option.elim_some]

/-- A search for enumerators passes over a character of no identifier. -/
theorem passes_singleton {c : Char} (foreign : Text.isWord c = false) : recognizer.Passes [c] := by
  intro rest
  refine items_cons rfl ?_
  show read? (c :: rest) = none
  rw [read?, Text.leadingWord, Text.takeWhile_of_ends (Text.ends_cons.mpr foreign)]

theorem passes_of_forall {part : Text} (foreign : ∀ c ∈ part, Text.isWord c = false) :
    recognizer.Passes part :=
  passes_of_singletons fun c member => passes_singleton (foreign c member)

/-- An enumerator with a comma behind it is found, whatever stands between the enumerators. -/
theorem items_text_append_comma {enumerator : EnumeratorText}
    (wellFormed : enumerator.WellFormed) (rest : Text) :
    recognizer.items (enumerator.text ++ ',' :: rest) = enumerator :: recognizer.items rest := by
  have solid : enumerator.text ≠ [] :=
    List.append_ne_nil_of_left_ne_nil
      (List.append_ne_nil_of_left_ne_nil wellFormed.name_ne_nil _) _
  rw [items_text_append solid rfl (read?_text_append wellFormed rest)]
  exact congrArg _ (passes_singleton rfl rest)

/-! ### Enumerators of a body -/

theorem isValueChar_of_isBlank {c : Char} (blank : Text.isBlank c = true) :
    isValueChar c = true := by
  rw [isValueChar, Bool.and_eq_true, bne_iff_ne, bne_iff_ne]
  constructor <;> rintro rfl <;> exact absurd blank (by decide)

theorem isValueChar_of_readValue? {text equals value : Text}
    (read : readValue? text = some (equals, value)) : ∀ c ∈ value, isValueChar c = true := by
  rw [readValue?] at read
  split at read
  · rename_i rest _
    dsimp only at read
    split at read
    · rename_i found
      obtain ⟨_, rfl⟩ := Prod.mk.inj (Option.some.inj read)
      rw [← found]
      exact fun c member => List.mem_takeWhile_imp member
    · exact nomatch read
    · obtain ⟨_, rfl⟩ := Prod.mk.inj (Option.some.inj read)
      exact fun c member => isValueChar_of_isBlank
        (Text.isBlank_of_mem_leadingBlanks (List.mem_of_mem_drop member))
  · exact nomatch read

theorem read?_eq_some {text : Text} {enumerator : EnumeratorText}
    (read : read? text = some enumerator) :
    enumerator.name ≠ [] ∧ (∀ c ∈ enumerator.name, Text.isWord c = true) ∧
      ∀ c ∈ enumerator.value, isValueChar c = true := by
  rw [read?] at read
  split at read
  · exact nomatch read
  · rename_i solid
    split at read
    · rename_i valued
      obtain rfl := Option.some.inj read
      exact ⟨solid, fun c => Text.isWord_of_mem_leadingWord, isValueChar_of_readValue? valued⟩
    · obtain rfl := Option.some.inj read
      exact ⟨solid, fun c => Text.isWord_of_mem_leadingWord, nofun⟩

end EnumeratorText

/-- What every enumerator of a body is like. -/
structure IsEnumerator (enumerator : Enumerator) : Prop where
  name_ne_nil : enumerator.name.toList ≠ []
  name_word : ∀ c ∈ enumerator.name.toList, Text.isWord c = true
  value_trimmed : Text.IsTrimmed enumerator.value.toList
  value_inside : ∀ c ∈ enumerator.value.toList, EnumeratorText.isValueChar c = true

theorem isEnumerator_of_mem {body : Text} {enumerator : Enumerator}
    (member : enumerator ∈ parseEnumBody body) : IsEnumerator enumerator := by
  obtain ⟨found, listed, rfl⟩ := List.mem_map.mp member
  obtain ⟨_, _, _, read⟩ := read?_of_mem_items listed
  obtain ⟨solid, word, inside⟩ := EnumeratorText.read?_eq_some read
  refine ⟨?_, ?_, ?_, ?_⟩ <;> simp only [EnumeratorText.record, String.toList_ofList]
  · exact solid
  · exact word
  · exact Text.isTrimmed_trim _
  · exact fun c member => inside c ((Text.trim_infix _).subset member)

end EngineDocs.Header
