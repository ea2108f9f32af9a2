/-
This file says what the context of settings tells about them. The context writes version, formats
and categories with bars between them, and nothing keeps a bar out of a version or a category. So a
version may go on with what the other settings write as their formats, and take in the start of
their categories; that is the only way in which two contexts come to be the same for different
versions or formats.
-/

import EngineDocs.Generation.Run
import EngineDocs.Proofs.Path
import EngineDocs.Proofs.Text.Runs
import Mathlib.Data.List.Basic

namespace EngineDocs

/-! ### The text of formats -/

theorem OutputFormat.label_toList_injective :
    Function.Injective fun format : OutputFormat => format.label.toList := by
  intro first second same
  cases first <;> cases second <;> first | rfl | exact absurd same (by decide)

theorem OutputFormat.not_mem_label (format : OutputFormat) :
    ',' ∉ format.label.toList ∧ '|' ∉ format.label.toList := by
  cases format <;> decide

namespace Generation

/-- The names of formats with commas between them. -/
def formatText (formats : List OutputFormat) : Text :=
  List.intercalate [','] (formats.map fun format => format.label.toList)

theorem formatText_cons (format : OutputFormat) {formats : List OutputFormat}
    (nonempty : formats ≠ []) :
    formatText (format :: formats) = format.label.toList ++ ',' :: formatText formats := by
  rw [formatText, List.map_cons,
    List.intercalate_cons_of_ne_nil (by simpa using nonempty), List.append_assoc]
  rfl

theorem pieces_formatText {formats : List OutputFormat} (nonempty : formats ≠ []) :
    Text.pieces (· == ',') (formatText formats) =
      formats.map fun format => format.label.toList := by
  have uncut : ∀ format : OutputFormat, Text.pieces (· == ',') format.label.toList =
      [format.label.toList] := by
    intro format
    refine Text.pieces_of_forall_not fun c member => beq_eq_false_iff_ne.mpr ?_
    rintro rfl
    exact format.not_mem_label.1 member
  induction formats with
  | nil => exact absurd rfl nonempty
  | cons format formats inductionHypothesis =>
    by_cases last : formats = []
    · rw [last]
      exact (congrArg _ List.intercalate_singleton).trans (uncut format)
    · rw [formatText_cons format last, Text.pieces_append_cons rfl, inductionHypothesis last, uncut]
      rfl

theorem formatText_injective {first second : List OutputFormat}
    (same : formatText first = formatText second) : first = second := by
  have solid : ∀ formats : List OutputFormat, formatText formats = [] → formats = [] := by
    intro formats empty
    by_contra nonempty
    have pieces := pieces_formatText nonempty
    rw [empty] at pieces
    have label : ([] : Text) ∈ formats.map fun format => format.label.toList := by
      rw [← pieces]
      exact List.mem_singleton_self _
    obtain ⟨format, _, blank⟩ := List.mem_map.mp label
    cases format <;> exact absurd blank (by decide)
  by_cases empty : first = []
  · rw [empty] at same ⊢
    exact (solid second same.symm).symm
  · have nonempty : second ≠ [] := by
      rintro rfl
      exact empty (solid first same)
    have pieces := pieces_formatText empty
    rw [same, pieces_formatText nonempty] at pieces
    exact (List.map_injective_iff.mpr OutputFormat.label_toList_injective pieces).symm

theorem not_mem_formatText (formats : List OutputFormat) : '|' ∉ formatText formats := by
  induction formats with
  | nil => exact List.not_mem_nil
  | cons format formats inductionHypothesis =>
    by_cases last : formats = []
    · rw [last, formatText, List.map_singleton, List.intercalate_singleton]
      exact format.not_mem_label.2
    · rw [formatText_cons format last, List.mem_append, List.mem_cons]
      rintro (label | bar | later)
      · exact format.not_mem_label.2 label
      · exact absurd bar (by decide)
      · exact inductionHypothesis later

/-! ### Contexts that are the same -/

/-- The names of the categories with commas between them. -/
def categoryText (settings : Settings) : Text :=
  (String.intercalate "," settings.moduleCategories).toList

theorem renderContext_toList (settings : Settings) :
    (renderContext settings).toList = settings.engineVersion.toList ++ '|' ::
      (formatText settings.formats ++ '|' :: categoryText settings) := by
  simp [renderContext, formatText, categoryText, String.toList_append, String.toList_intercalate,
    List.map_map, Function.comp_def]

/-- The version of the second settings goes on behind the version of the first with their formats
and with what stands in their categories in front of the formats and the categories of the second.
This front part, when there is one, ends in the bar that the second context writes behind its
version. -/
def Absorbs (first second : Settings) : Prop :=
  ∃ taken : Text,
    second.engineVersion.toList ++ ['|'] = first.engineVersion.toList ++ '|' ::
      (formatText first.formats ++ '|' :: taken) ∧
    categoryText first = taken ++ (formatText second.formats ++ '|' :: categoryText second)

theorem Absorbs.version_ne {first second : Settings} (absorbs : Absorbs first second) :
    first.engineVersion ≠ second.engineVersion := by
  intro same
  obtain ⟨taken, version, _⟩ := absorbs
  have lengths := congrArg List.length version
  simp only [same, List.length_append, List.length_cons, List.length_nil] at lengths
  omega

theorem Absorbs.renderContext_eq {first second : Settings} (absorbs : Absorbs first second) :
    renderContext first = renderContext second := by
  obtain ⟨taken, version, categories⟩ := absorbs
  rw [← String.toList_inj, renderContext_toList, renderContext_toList]
  calc first.engineVersion.toList ++ '|' :: (formatText first.formats ++ '|' :: categoryText first)
      = (first.engineVersion.toList ++ '|' :: (formatText first.formats ++ '|' :: taken)) ++
          (formatText second.formats ++ '|' :: categoryText second) := by
        simp [categories]
    _ = (second.engineVersion.toList ++ ['|']) ++
          (formatText second.formats ++ '|' :: categoryText second) := by rw [version]
    _ = _ := by simp

theorem formatText_ne_append_bar {formats : List OutputFormat} {front back : Text} :
    formatText formats ≠ front ++ '|' :: back := by
  intro form
  refine not_mem_formatText formats ?_
  rw [form]
  exact List.mem_append_right _ List.mem_cons_self

/-- A version that goes on behind the other one at a bar absorbs it. The formats have no bar, so
they end at the one that comes next. -/
theorem absorbs_of_longer_version {first second : Settings} {middle : Text}
    (version : second.engineVersion.toList = first.engineVersion.toList ++ '|' :: middle)
    (rest : formatText first.formats ++ '|' :: categoryText first =
      middle ++ '|' :: (formatText second.formats ++ '|' :: categoryText second)) :
    Absorbs first second := by
  rcases (Text.append_cons_eq_append_cons_iff '|').mp rest with
    ⟨formats, categories⟩ | ⟨taken, formats, categories⟩ | ⟨taken, formats, _⟩
  · exact ⟨[], by simp [version, formats], categories⟩
  · exact ⟨taken ++ ['|'], by simp [version, formats], by simp [categories]⟩
  · exact absurd formats formatText_ne_append_bar

/-- Two contexts are the same exactly when version, formats and the text of the categories are, or
when one of the versions absorbs what stands behind the other. -/
theorem renderContext_eq_iff (first second : Settings) :
    renderContext first = renderContext second ↔
      (first.engineVersion = second.engineVersion ∧ first.formats = second.formats ∧
        categoryText first = categoryText second) ∨
      Absorbs first second ∨ Absorbs second first := by
  constructor
  · intro same
    rw [← String.toList_inj, renderContext_toList, renderContext_toList] at same
    rcases (Text.append_cons_eq_append_cons_iff '|').mp same with
      ⟨version, rest⟩ | ⟨middle, version, rest⟩ | ⟨middle, version, rest⟩
    · rcases (Text.append_cons_eq_append_cons_iff '|').mp rest with
        ⟨formats, categories⟩ | ⟨taken, formats, _⟩ | ⟨taken, formats, _⟩
      · exact Or.inl ⟨String.toList_inj.mp version, formatText_injective formats, categories⟩
      · exact absurd formats formatText_ne_append_bar
      · exact absurd formats formatText_ne_append_bar
    · exact Or.inr (Or.inl (absorbs_of_longer_version version rest))
    · exact Or.inr (Or.inr (absorbs_of_longer_version version rest))
  · rintro (⟨version, formats, categories⟩ | absorbs | absorbs)
    · rw [← String.toList_inj, renderContext_toList, renderContext_toList, version, formats,
        categories]
    · exact absorbs.renderContext_eq
    · exact absorbs.renderContext_eq.symm

/-- A version that absorbs something has a bar. -/
theorem Absorbs.bar_mem {first second : Settings} (absorbs : Absorbs first second) :
    '|' ∈ second.engineVersion.toList := by
  obtain ⟨taken, version, _⟩ := absorbs
  rcases (Text.append_cons_eq_append_cons_iff '|').mp version with
    ⟨_, impossible⟩ | ⟨_, _, impossible⟩ | ⟨middle, longer, _⟩
  · exact absurd (List.append_eq_nil_iff.mp impossible.symm).2 (List.cons_ne_nil _ _)
  · exact absurd (List.append_eq_nil_iff.mp impossible.symm).2 (List.cons_ne_nil _ _)
  · rw [longer]
    exact List.mem_append_right _ List.mem_cons_self

/-- Contexts of versions without a bar are equal only when the versions and the formats are. -/
theorem renderContext_inj {first second : Settings} (plain : '|' ∉ first.engineVersion.toList)
    (plainToo : '|' ∉ second.engineVersion.toList)
    (same : renderContext first = renderContext second) :
    first.engineVersion = second.engineVersion ∧ first.formats = second.formats := by
  rcases (renderContext_eq_iff first second).mp same with
    ⟨version, formats, _⟩ | absorbs | absorbs
  · exact ⟨version, formats⟩
  · exact absurd absorbs.bar_mem plainToo
  · exact absurd absorbs.bar_mem plain

end Generation

end EngineDocs
