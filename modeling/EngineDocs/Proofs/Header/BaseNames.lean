/-
This file shows that a list of base classes can be read again once it has been shown. What is read
is a word or a word with template arguments, and it is read as a whole wherever neither a word nor
an opening bracket goes on behind it. Template arguments end at their first closing bracket, so the
commas, the brackets and the access specifiers inside them are passed over together with them.
-/

import EngineDocs.Document.Page
import EngineDocs.Header.Class
import EngineDocs.Proofs.Search

namespace EngineDocs.Header

open Recognizer

/-! ### Base names -/

/-- Template arguments, which may be missing: at least one character between an opening bracket and
the first closing one. -/
inductive IsArguments : Text → Prop
  | none : IsArguments []
  | some {inside : Text} : inside ≠ [] → '>' ∉ inside → IsArguments ('<' :: (inside ++ ['>']))

/-- Whether a base name may go on with this character. -/
def continuesBase (c : Char) : Bool := Text.isWord c || c == '<'

theorem ends_isWord_of_continuesBase {rest : Text} (ends : Text.Ends continuesBase rest) :
    Text.Ends Text.isWord rest :=
  fun c head => (Bool.or_eq_false_iff.mp (ends c head)).1

theorem templateArguments_of_ne {c : Char} (other : c ≠ '<') (rest : Text) :
    templateArguments (c :: rest) = [] := by
  rw [templateArguments]
  rintro _ same
  exact other (List.cons.inj same).1

theorem templateArguments_append {inside : Text} (solid : inside ≠ []) (unclosed : '>' ∉ inside)
    (rest : Text) :
    templateArguments ('<' :: (inside ++ '>' :: rest)) = '<' :: (inside ++ ['>']) := by
  rw [templateArguments, Text.takeWhile_append_mark unclosed, List.drop_left]
  cases inside with
  | nil => exact absurd rfl solid
  | cons c inside => rfl

/-- What is read as template arguments stands at the start of the text. -/
theorem isArguments_templateArguments (text : Text) : IsArguments (templateArguments text) := by
  cases text with
  | nil => exact .none
  | cons c text =>
    by_cases opening : c = '<'
    · subst opening
      rw [templateArguments]
      split
      · rename_i taken _
        have solid : text.takeWhile (· != '>') ≠ [] := taken ▸ List.cons_ne_nil _ _
        exact .some solid (Text.not_mem_takeWhile '>' text)
      · exact .none
    · rw [templateArguments_of_ne opening]
      exact .none

theorem readBaseName?_eq_some {text name : Text} (read : readBaseName? text = some name) :
    ∃ word arguments, name = word ++ arguments ∧ word ≠ [] ∧
      (∀ c ∈ word, Text.isWord c = true) ∧ IsArguments arguments := by
  rw [readBaseName?] at read
  split at read
  · exact nomatch read
  · rename_i solid
    exact ⟨_, _, (Option.some.inj read).symm, solid, fun c => Text.isWord_of_mem_leadingWord,
      isArguments_templateArguments _⟩

/-- A base name is read as a whole when nothing goes on behind it. -/
theorem readBaseName?_append {word arguments rest : Text} (solid : word ≠ [])
    (inside : ∀ c ∈ word, Text.isWord c = true) (isArguments : IsArguments arguments)
    (ends : Text.Ends continuesBase rest) :
    readBaseName? (word ++ (arguments ++ rest)) = some (word ++ arguments) := by
  have wordEnds : Text.Ends Text.isWord (arguments ++ rest) := by
    cases isArguments with
    | none => exact ends_isWord_of_continuesBase ends
    | some => exact Text.ends_cons.mpr rfl
  have argumentsEnd : templateArguments (arguments ++ rest) = arguments := by
    cases isArguments with
    | none =>
      cases rest with
      | nil => rfl
      | cons c rest =>
        have other : c ≠ '<' := by
          rintro rfl
          exact nomatch Text.ends_cons.mp ends
        exact templateArguments_of_ne other rest
    | some argumentsSolid unclosed =>
      rw [List.cons_append, List.append_assoc]
      exact templateArguments_append argumentsSolid unclosed rest
  rw [readBaseName?, Text.leadingWord, Text.takeWhile_append_of_ends inside wordEnds, Text.skipWord,
    Text.dropWhile_append_of_ends inside wordEnds, argumentsEnd]
  split
  · exact absurd rfl solid
  · rfl

/-- A base name is found first, and the search goes on behind it. -/
theorem items_baseNames_append {word arguments rest : Text} (solid : word ≠ [])
    (inside : ∀ c ∈ word, Text.isWord c = true) (isArguments : IsArguments arguments)
    (ends : Text.Ends continuesBase rest) :
    baseNames.items (word ++ (arguments ++ rest)) =
      (word ++ arguments) :: baseNames.items rest := by
  have read : baseNames.read? (word ++ arguments ++ rest) = some (word ++ arguments) := by
    rw [List.append_assoc]
    exact readBaseName?_append solid inside isArguments ends
  rw [← List.append_assoc, items_text_append (List.append_ne_nil_of_left_ne_nil solid _) rfl read]

/-! ### Lists of base classes -/

/-- A base class of a list: a word that is no access specifier, or any word with template
arguments. -/
inductive IsBaseClass : Text → Prop
  | word {word : Text} : word ≠ [] → (∀ c ∈ word, Text.isWord c = true) →
      word ∉ accessSpecifiers → IsBaseClass word
  | template {word inside : Text} : word ≠ [] → (∀ c ∈ word, Text.isWord c = true) →
      inside ≠ [] → '>' ∉ inside → IsBaseClass (word ++ '<' :: (inside ++ ['>']))

theorem isBaseClass_of_mem {list base : Text} (member : base ∈ parseBaseClasses list) :
    IsBaseClass base := by
  obtain ⟨listed, kept⟩ := List.mem_filter.mp member
  obtain ⟨_, rest, _, read⟩ := read?_of_mem_items listed
  obtain ⟨word, arguments, rfl, solid, inside, isArguments⟩ := readBaseName?_eq_some read
  cases isArguments with
  | none =>
    rw [List.append_nil] at kept ⊢
    exact .word solid inside (by simpa using kept)
  | some argumentsSolid unclosed => exact .template solid inside argumentsSolid unclosed

theorem IsBaseClass.not_specifier {base : Text} (isBaseClass : IsBaseClass base) :
    base ∉ accessSpecifiers := by
  cases isBaseClass with
  | word _ _ other => exact other
  | template =>
    have plain : ∀ specifier ∈ accessSpecifiers, '<' ∉ specifier := by decide
    exact fun member => plain _ member (List.mem_append_right _ List.mem_cons_self)

theorem IsBaseClass.items_append {base : Text} (isBaseClass : IsBaseClass base) {rest : Text}
    (ends : Text.Ends continuesBase rest) :
    baseNames.items (base ++ rest) = base :: baseNames.items rest := by
  cases isBaseClass with
  | word solid inside _ =>
    have found := items_baseNames_append solid inside .none ends
    rwa [List.append_nil] at found
  | template solid inside argumentsSolid unclosed =>
    rw [List.append_assoc]
    exact items_baseNames_append solid inside (.some argumentsSolid unclosed) ends

/-- A joined list of base classes is cut where it was joined. -/
theorem items_baseNames_joinWith {bases : List Text} (each : ∀ base ∈ bases, IsBaseClass base) :
    baseNames.items (Text.joinWith [',', ' '] bases) = bases := by
  induction bases with
  | nil => rfl
  | cons base bases inductionHypothesis =>
    obtain ⟨here, later⟩ := List.forall_mem_cons.mp each
    cases bases with
    | nil =>
      have found := here.items_append Text.ends_nil
      rw [List.append_nil] at found
      exact found
    | cons next bases =>
      have ends : Text.Ends continuesBase
          ([',', ' '] ++ Text.joinWith [',', ' '] (next :: bases)) := Text.ends_cons.mpr rfl
      -- Neither the comma nor the blank begins a name.
      have separated : ∀ rest, baseNames.items ([',', ' '] ++ rest) = baseNames.items rest :=
        fun rest => (items_cons rfl rfl).trans (items_cons rfl rfl)
      rw [Text.joinWith_cons_cons, List.append_assoc, here.items_append ends, separated,
        inductionHypothesis later]

theorem parseBaseClasses_joinWith {bases : List Text} (each : ∀ base ∈ bases, IsBaseClass base) :
    parseBaseClasses (Text.joinWith [',', ' '] bases) = bases := by
  rw [parseBaseClasses, items_baseNames_joinWith each]
  refine List.filter_eq_self.mpr fun base member => ?_
  simpa using (each base member).not_specifier

/-! ### The list that is shown -/

theorem intercalate_map_ofList (bases : List Text) :
    String.intercalate ", " (bases.map String.ofList) =
      String.ofList (Text.joinWith [',', ' '] bases) := by
  have same : String.toList ∘ String.ofList = id := funext fun base => String.toList_ofList
  rw [← String.toList_inj, Text.toList_intercalate, List.map_map, same, List.map_id]
  exact String.toList_ofList.symm

theorem IsBaseClass.ne_nil {base : Text} (isBaseClass : IsBaseClass base) : base ≠ [] := by
  cases isBaseClass with
  | word solid _ _ => exact solid
  | template solid _ _ _ => exact List.append_ne_nil_of_left_ne_nil solid _

theorem joinWith_bases_ne_nil {base : Text} {bases : List Text} (isBaseClass : IsBaseClass base) :
    Text.joinWith [',', ' '] (base :: bases) ≠ [] := by
  rw [Text.joinWith_cons]
  exact List.append_ne_nil_of_left_ne_nil isBaseClass.ne_nil _

/-- The base classes of a record stand behind `: public` in its entry. -/
theorem exists_formatClass_eq {record : ClassRecord} {bases : List Text}
    (same : record.baseClasses = bases.map String.ofList)
    (solid : Text.joinWith [',', ' '] bases ≠ []) :
    ∃ behind, Page.formatClass record =
      "## " ++ record.name ++ "\n\n```cpp\nclass " ++ record.name ++ " : public " ++
        String.ofList (Text.joinWith [',', ' '] bases) ++ " \x7b\n    // ...\n\x7d;\n```\n\n" ++
          behind := by
  have shown : (String.ofList (Text.joinWith [',', ' '] bases)).isEmpty = false := by
    rw [Bool.eq_false_iff, ne_eq, String.isEmpty_iff]
    exact fun empty => solid (String.ofList_eq_empty_iff.mp empty)
  apply Exists.intro
  delta Page.formatClass
  simp only [same, intercalate_map_ofList, shown, Bool.false_eq_true, if_false,
    String.append_assoc]
  rfl

/-- The base classes of a list, joined as they are shown, are read again as the same base
classes. -/
theorem base_list_reads_back (list : Text) :
    let bases := parseBaseClasses list
    parseBaseClasses (Text.joinWith [',', ' '] bases) = bases ∧
      (∀ base ∈ bases, IsBaseClass base) ∧
      ∀ record : ClassRecord, record.baseClasses = bases.map String.ofList → bases ≠ [] →
        ∃ behind, Page.formatClass record =
          "## " ++ record.name ++ "\n\n```cpp\nclass " ++ record.name ++ " : public " ++
            String.ofList (Text.joinWith [',', ' '] bases) ++
              " \x7b\n    // ...\n\x7d;\n```\n\n" ++ behind := by
  intro bases
  have each : ∀ base ∈ bases, IsBaseClass base := fun base => isBaseClass_of_mem
  refine ⟨parseBaseClasses_joinWith each, each, fun record same more => ?_⟩
  obtain ⟨base, rest, divided⟩ := List.exists_cons_of_ne_nil more
  refine exists_formatClass_eq same ?_
  rw [divided]
  exact joinWith_bases_ne_nil (each base (divided ▸ List.mem_cons_self))

/-- Commas, brackets and specifiers inside template arguments, and a bracket that is not closed. -/
theorem base_list_reads_back_templates :
    let list := "TMap<FName, public TArray<int>, protected private<A,B>, UE::C<D".toList
    let bases := ["TMap<FName, public TArray<int>".toList, "private<A,B>".toList, "UE".toList,
      "C".toList, "D".toList]
    let record : ClassRecord := ⟨"F", bases.map String.ofList, .public, [], "f.h"⟩
    parseBaseClasses list = bases ∧ parseBaseClasses (Text.joinWith [',', ' '] bases) = bases ∧
      ∃ behind, Page.formatClass record =
        "## F\n\n```cpp\nclass F : public TMap<FName, public TArray<int>, private<A,B>, UE, C, D" ++
          " \x7b\n    // ...\n\x7d;\n```\n\n" ++ behind := by
  intro list bases record
  have parsed : parseBaseClasses list = bases := by decide +kernel
  obtain ⟨readsBack, _, shown⟩ := base_list_reads_back list
  rw [parsed] at readsBack shown
  exact ⟨parsed, readsBack, shown record rfl (List.cons_ne_nil _ _)⟩

end EngineDocs.Header
