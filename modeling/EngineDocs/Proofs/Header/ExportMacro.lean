/-
This file shows which beginnings of a text may be read as an export macro, and which of them is
read. The candidates are the beginnings of the leading word that are export macros by themselves,
whether or not the word goes on behind them. Those that are known by name come first, and after
them the longer ones before the shorter ones, so the whole word is preferred unless it goes on
behind a macro known by name.
-/

import EngineDocs.Header.ExportMacro
import EngineDocs.Proofs.Text.Runs

namespace EngineDocs.Header

/-! ### Candidates -/

/-- An export macro is an identifier that ends in `_API` with something before it; the macros known
by name are of this kind too. -/
theorem isExportMacro_iff {word : Text} :
    isExportMacro word = true ↔
      exportSuffix.length < word.length ∧ exportSuffix <:+ word ∧
        ∀ c ∈ word, Text.isWord c = true := by
  have known : ∀ word ∈ knownExportMacros, exportSuffix.length < word.length ∧
      Text.endsWith exportSuffix word = true ∧ word.all Text.isWord = true := by
    decide
  simp only [isExportMacro, Bool.or_eq_true, Bool.and_eq_true, decide_eq_true_eq,
    List.contains_iff_mem, Text.endsWith_iff, List.all_eq_true] at known ⊢
  constructor
  · rintro (member | ⟨⟨longer, ends⟩, inside⟩)
    · exact known word member
    · exact ⟨longer, ends, inside⟩
  · rintro ⟨longer, ends, inside⟩
    exact Or.inr ⟨⟨longer, ends⟩, inside⟩

theorem isExportMacro_of_known {known : Text} (member : known ∈ knownExportMacros) :
    isExportMacro known = true := by
  rw [isExportMacro, Bool.or_eq_true, List.contains_iff_mem]
  exact Or.inl member

theorem after?_exportSuffix_iff {c : Char} {reversed : Text} :
    (∃ first rest, Text.after? exportSuffix.reverse (c :: reversed) = some (first :: rest)) ↔
      exportSuffix.length < (c :: reversed).length ∧ exportSuffix <:+ (c :: reversed).reverse := by
  simp only [Text.after?_eq_some_iff]
  constructor
  · rintro ⟨first, rest, same⟩
    rw [same]
    refine ⟨?_, ?_⟩
    · rw [List.length_append, List.length_reverse, List.length_cons]
      omega
    · rw [List.reverse_append, List.reverse_reverse]
      exact List.suffix_append _ _
  · rintro ⟨longer, front, same⟩
    rw [← List.reverse_inj, List.reverse_append, List.reverse_reverse] at same
    cases backwards : front.reverse with
    | nil =>
      rw [← same, backwards, List.append_nil, List.length_reverse] at longer
      exact absurd longer (Nat.lt_irrefl _)
    | cons first rest => exact ⟨first, rest, by rw [← same, backwards]⟩

theorem mem_exportLengthsFrom_iff {reversed : Text} {length : Nat} :
    length ∈ exportLengthsFrom reversed.length reversed ↔
      ∃ front, front <+: reversed.reverse ∧ exportSuffix.length < front.length ∧
        exportSuffix <:+ front ∧ front.length = length := by
  induction reversed with
  | nil =>
    refine iff_of_false List.not_mem_nil ?_
    rintro ⟨front, isPrefix, longer, _⟩
    rw [List.reverse_nil, List.prefix_nil] at isPrefix
    rw [isPrefix] at longer
    exact absurd longer (Nat.not_lt_zero _)
  | cons c reversed inductionHypothesis =>
    -- A beginning of the longer word is a beginning of the shorter one or the longer word itself.
    have divided : (∃ front, front <+: (c :: reversed).reverse ∧
          exportSuffix.length < front.length ∧ exportSuffix <:+ front ∧ front.length = length) ↔
        (length = (c :: reversed).length ∧ exportSuffix.length < (c :: reversed).length ∧
          exportSuffix <:+ (c :: reversed).reverse) ∨
        length ∈ exportLengthsFrom reversed.length reversed := by
      rw [inductionHypothesis, List.reverse_cons]
      constructor
      · rintro ⟨front, isPrefix, longer, ends, rfl⟩
        rcases List.prefix_concat_iff.mp isPrefix with rfl | shorter
        · left
          rw [List.length_append, List.length_reverse] at longer ⊢
          exact ⟨rfl, longer, ends⟩
        · exact Or.inr ⟨front, shorter, longer, ends, rfl⟩
      · rintro (⟨rfl, longer, ends⟩ | ⟨front, shorter, longer, ends, rfl⟩)
        · refine ⟨_, List.prefix_rfl, ?_, ends, ?_⟩
          · rw [List.length_append, List.length_reverse]
            exact longer
          · rw [List.length_append, List.length_reverse]
            rfl
        · exact ⟨front, List.prefix_concat_iff.mpr (Or.inr shorter), longer, ends, rfl⟩
    rw [divided, exportLengthsFrom]
    split
    · rename_i first rest found
      have whole := after?_exportSuffix_iff.mp ⟨first, rest, found⟩
      rw [List.mem_cons, iff_true_intro whole, and_true]
      rfl
    · rename_i missing
      have notWhole := mt after?_exportSuffix_iff.mpr fun ⟨first, rest, found⟩ =>
        missing first rest found
      rw [iff_false_intro notWhole, and_false, false_or]
      rfl

theorem exportLengthsFrom_pairwise (reversed : Text) :
    (exportLengthsFrom reversed.length reversed).Pairwise (· > ·) := by
  induction reversed with
  | nil => exact List.Pairwise.nil
  | cons c reversed inductionHypothesis =>
    rw [exportLengthsFrom]
    split
    · refine List.pairwise_cons.mpr ⟨fun length member => ?_, inductionHypothesis⟩
      obtain ⟨front, isPrefix, _, _, rfl⟩ := mem_exportLengthsFrom_iff.mp member
      have short := isPrefix.length_le
      rw [List.length_reverse] at short
      exact Nat.lt_succ_of_le short
    · exact inductionHypothesis

/-- The candidates are the beginnings of the leading word that are export macros. -/
theorem mem_exportMacroLengths_iff {text : Text} {length : Nat} :
    length ∈ exportMacroLengths text ↔
      ∃ front, front <+: Text.leadingWord text ∧ isExportMacro front = true ∧
        front.length = length := by
  have fromEnd := @mem_exportLengthsFrom_iff (Text.leadingWord text).reverse length
  rw [List.length_reverse, List.reverse_reverse] at fromEnd
  rw [exportMacroLengths, List.mem_append, fromEnd]
  constructor
  · rintro (member | ⟨front, isPrefix, longer, ends, same⟩)
    · obtain ⟨known, kept, rfl⟩ := List.mem_map.mp member
      obtain ⟨listed, starts⟩ := List.mem_filter.mp kept
      exact ⟨known, Text.startsWith_iff.mp starts, isExportMacro_of_known listed, rfl⟩
    · refine ⟨front, isPrefix, isExportMacro_iff.mpr ⟨longer, ends, fun c member => ?_⟩, same⟩
      exact Text.isWord_of_mem_leadingWord (isPrefix.subset member)
  · rintro ⟨front, isPrefix, isMacro, same⟩
    obtain ⟨longer, ends, _⟩ := isExportMacro_iff.mp isMacro
    exact Or.inr ⟨front, isPrefix, longer, ends, same⟩

theorem le_of_mem_exportMacroLengths {text : Text} {length : Nat}
    (member : length ∈ exportMacroLengths text) : length ≤ text.length := by
  obtain ⟨front, isPrefix, _, rfl⟩ := mem_exportMacroLengths_iff.mp member
  exact (isPrefix.trans (List.takeWhile_prefix _)).length_le

theorem isExportMacro_take {text : Text} {length : Nat}
    (member : length ∈ exportMacroLengths text) :
    isExportMacro (text.take length) = true := by
  obtain ⟨front, isPrefix, isMacro, rfl⟩ := mem_exportMacroLengths_iff.mp member
  rw [← List.prefix_iff_eq_take.mp (isPrefix.trans (List.takeWhile_prefix _))]
  exact isMacro

theorem exportMacroLengths_eq_nil {text : Text}
    (noMacro : ¬exportSuffix <:+: Text.leadingWord text) : exportMacroLengths text = [] := by
  refine List.eq_nil_iff_forall_not_mem.mpr fun length member => ?_
  obtain ⟨front, isPrefix, isMacro, _⟩ := mem_exportMacroLengths_iff.mp member
  obtain ⟨_, ends, _⟩ := isExportMacro_iff.mp isMacro
  exact noMacro (ends.isInfix.trans isPrefix.isInfix)

/-- A character that belongs to no identifier ends the part of the text that decides about the
candidates. -/
theorem exportMacroLengths_append_stop {c : Char} (stop : Text.isWord c = false)
    (text rest : Text) :
    exportMacroLengths (text ++ c :: rest) = exportMacroLengths text := by
  rw [exportMacroLengths, exportMacroLengths, Text.leadingWord, Text.leadingWord,
    Text.takeWhile_append_stop stop]

end EngineDocs.Header
