/-
This file shows that the search for classes overlooks nothing. A class declaration can be read
wherever the keyword stands before blanks and a character of an identifier, because an export macro
is only taken where a name is left; and nothing else can be read, because each declaration begins
so. The search goes on behind each declaration that it reads, so a place where another one could
begin is either such a beginning or lies inside a declaration.
-/

import EngineDocs.Proofs.Header.Keyword
import EngineDocs.Proofs.Search
import Mathlib.Data.List.Forall2

namespace EngineDocs.Header

/-! ### Where a class may begin -/

/-- The text begins with the keyword, some blanks and a character of an identifier. -/
def BeginsClass (text : Text) : Prop :=
  ∃ blanks c rest, text = "class".toList ++ (blanks ++ c :: rest) ∧ blanks ≠ [] ∧
    (∀ blank ∈ blanks, Text.isBlank blank = true) ∧ Text.isWord c = true

/-- A place of a text at which a class may begin: the index counts the characters before it. -/
def IsClassSite (text : Text) (index : Nat) : Prop := BeginsClass (text.drop index)

theorem IsClassSite.lt_length {text : Text} {index : Nat} (site : IsClassSite text index) :
    index < text.length := by
  obtain ⟨blanks, c, rest, same, _⟩ := site
  refine Nat.not_le.mp fun beyond => ?_
  rw [List.drop_eq_nil_of_le beyond] at same
  exact absurd same.symm (List.append_ne_nil_of_left_ne_nil (by decide) _)

theorem IsHead.exists_site {gap exportMacro innerGap name behind : Text}
    (isHead : IsHead gap exportMacro innerGap name behind) :
    ∃ blanks c rest, gap ++ (exportMacro ++ (innerGap ++ (name ++ behind))) = blanks ++ c :: rest ∧
      blanks ≠ [] ∧ (∀ blank ∈ blanks, Text.isBlank blank = true) ∧ Text.isWord c = true := by
  cases exportMacro with
  | nil =>
    have nameWord := isHead.name_word
    cases name with
    | nil => exact absurd rfl isHead.name_ne_nil
    | cons c name =>
      refine ⟨gap ++ innerGap, c, name ++ behind, ?_, List.append_ne_nil_of_left_ne_nil
        isHead.gap_ne_nil _, List.forall_mem_append.mpr ⟨isHead.gap_blank, isHead.innerGap_blank⟩,
        nameWord c List.mem_cons_self⟩
      rw [List.nil_append, List.cons_append, List.append_assoc]
  | cons c exportMacro =>
    have isMacro := isHead.exportMacro.resolve_left (List.cons_ne_nil _ _)
    exact ⟨gap, c, exportMacro ++ (innerGap ++ (name ++ behind)), rfl, isHead.gap_ne_nil,
      isHead.gap_blank, (isExportMacro_iff.mp isMacro).2.2 c List.mem_cons_self⟩

namespace ClassDeclaration

/-- A class declaration is read exactly where one may begin. -/
theorem isSome_read?_iff {text : Text} : (read? text).isSome = true ↔ BeginsClass text := by
  constructor
  · intro found
    obtain ⟨declaration, read⟩ := Option.isSome_iff_exists.mp found
    obtain ⟨behind, rfl, isHead, _⟩ := read?_eq_some read
    obtain ⟨blanks, c, rest, same, site⟩ := isHead.exists_site
    refine ⟨blanks, c, rest, ?_, site⟩
    rw [← same, headText]
    simp only [List.append_assoc]
    rfl
  · rintro ⟨blanks, c, rest, rfl, solid, blank, word⟩
    have opened : Text.after? keyword ("class".toList ++ (blanks ++ c :: rest)) =
        some (blanks ++ c :: rest) := Text.after?_eq_some_iff.mpr rfl
    have ends : Text.Ends Text.isBlank (c :: rest) :=
      Text.ends_cons.mpr (Text.isBlank_eq_false_of_isWord word)
    rw [read?_eq, readHeaded?, opened, Option.bind_some, Text.leadingBlanks, Text.skipBlanks,
      Text.takeWhile_append_of_ends blank ends, Text.dropWhile_append_of_ends blank ends,
      if_neg (by rw [List.isEmpty_iff]; exact solid), List.findSome?_isSome_iff]
    -- Where no export macro can be stripped the whole word is a name.
    refine ⟨0, List.mem_append_right _ List.mem_cons_self, ?_⟩
    have short : 0 < (Text.leadingWord (c :: rest)).length := by
      rw [Text.leadingWord, List.takeWhile_cons_of_pos word]
      exact Nat.succ_pos _
    rw [nameBehind?_of_lt short]
    rfl

end ClassDeclaration

/-! ### Records -/

/-- The record of a class that was found: its name is an identifier of the text, or the end of one,
and stands in the find. -/
structure IsNamedIn (text : Text) (start stop : Nat) (record : ClassRecord) : Prop where
  name_ne_empty : record.name ≠ ""
  name_word : ∀ c ∈ record.name.toList, Text.isWord c = true
  stands : ∃ before behind, text = before ++ (record.name.toList ++ behind) ∧
    start ≤ before.length ∧ before.length + record.name.toList.length ≤ stop ∧
    Text.Ends Text.isWord behind

/-- Behind the name that is read, no identifier runs on. -/
theorem isNamedIn_record {before rest : Text} {declaration : ClassDeclaration}
    (read : ClassDeclaration.read? rest = some declaration) (filePath : String) :
    IsNamedIn (before ++ rest) before.length (before.length + declaration.text.length)
      (declaration.record filePath) := by
  obtain ⟨behind, rfl, isHead, _⟩ := ClassDeclaration.read?_eq_some read
  have name : (declaration.record filePath).name.toList = declaration.name :=
    String.toList_ofList
  refine ⟨fun empty => isHead.name_ne_nil ?_, ?_, ?_⟩
  · rw [← name, empty]
    rfl
  · rw [name]
    exact isHead.name_word
  · rw [name]
    refine ⟨before ++ (ClassDeclaration.keyword ++ declaration.gap ++ declaration.exportMacro ++
      declaration.innerGap), behind, ?_, ?_, ?_, isHead.ends⟩
    · simp only [ClassDeclaration.headText, List.append_assoc]
    · rw [List.length_append]
      exact Nat.le_add_right _ _
    · simp only [ClassDeclaration.text, ClassDeclaration.headText, List.length_append]
      omega

/-- The finds of a search for classes lie one behind the other, each is what stands in the text at a
place where a class may begin, each such place lies in one find, and there is a record for each find
in this order. -/
theorem classes_found_at_sites (content : Text) (filePath : String) :
    ((ClassDeclaration.recognizer.search content).Pairwise fun first second =>
        ClassDeclaration.recognizer.stop first ≤ second.start) ∧
      (∀ find ∈ ClassDeclaration.recognizer.search content,
        IsClassSite content find.start ∧ find.value.text <+: content.drop find.start) ∧
      (∀ index, IsClassSite content index →
        ∃! find, find ∈ ClassDeclaration.recognizer.search content ∧ find.start ≤ index ∧
          index < ClassDeclaration.recognizer.stop find) ∧
      List.Forall₂ (fun find record =>
          IsNamedIn content find.start (ClassDeclaration.recognizer.stop find) record)
        (ClassDeclaration.recognizer.search content) (recognizeClasses content filePath) := by
  have records : recognizeClasses content filePath =
      (ClassDeclaration.recognizer.search content).map fun find => find.value.record filePath :=
    List.map_map
  refine ⟨Recognizer.search_pairwise _ content, fun find member => ?_, fun index site => ?_, ?_⟩
  · obtain ⟨before, rest, reaches, start, read⟩ := Recognizer.reaches_of_mem_search member
    rw [IsClassSite, reaches.eq, ← start, List.drop_left]
    exact ⟨ClassDeclaration.isSome_read?_iff.mp (Option.isSome_of_eq_some read),
      ClassDeclaration.text_of_read? read⟩
  · exact Recognizer.existsUnique_mem_search (fun _ => rfl) (fun _ => List.cons_ne_nil _ _)
      site.lt_length (ClassDeclaration.isSome_read?_iff.mpr site)
  · rw [records, List.forall₂_map_right_iff, List.forall₂_same]
    intro find member
    obtain ⟨before, rest, reaches, start, read⟩ := Recognizer.reaches_of_mem_search member
    rw [Recognizer.stop, reaches.eq, ← start]
    exact isNamedIn_record read filePath

/-- The keyword among the base classes of a class lies in the declaration of that class alone. -/
theorem classes_found_at_sites_among_bases :
    IsClassSite "class A : public class B;".toList 17 ∧
      ∃! find, find ∈ ClassDeclaration.recognizer.search "class A : public class B;".toList ∧
        find.start ≤ 17 ∧ 17 < ClassDeclaration.recognizer.stop find := by
  have site : IsClassSite "class A : public class B;".toList 17 :=
    ⟨[' '], 'B', [';'], by decide, List.cons_ne_nil _ _, by decide, by decide⟩
  exact ⟨site, (classes_found_at_sites "class A : public class B;".toList "a.h").2.2.1 17 site⟩

end EngineDocs.Header
