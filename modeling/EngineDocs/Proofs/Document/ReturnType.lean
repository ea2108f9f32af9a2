/-
This file says how return types are shown. A return type is to be shown by its words, with an export
macro in front of them left out when it is one that is not shown. What is compared with the macro is
only the beginning of the first word, so a word that goes on behind a hidden macro is lost like the
macro itself. No other return type is shown in another way.
-/

import EngineDocs.Document.Page
import EngineDocs.Proofs.Text.Pieces
import EngineDocs.Proofs.Text.Words

namespace EngineDocs.Page

/-! ### The rule of whole words -/

/-- The words of a return type with single spaces between them. A first word that is a hidden macro
is left out, and `void` stands for a return type of which nothing is left. -/
def shownWords : List Text → Text
  | [] => []
  | first :: rest =>
    if first ∈ hiddenMacros then if rest.isEmpty then "void".toList else Text.joinWith [' '] rest
    else Text.joinWith [' '] (first :: rest)

/-- The first word begins with a hidden macro and goes on behind it. -/
def GoesOnBehindMacro (words : List Text) : Prop :=
  ∃ first ∈ words.head?, ∃ hidden ∈ hiddenMacros, hidden <+: first ∧ hidden ≠ first

/-- No hidden macro begins with another one. -/
theorem eq_of_mem_hiddenMacros {first second : Text} (firstHidden : first ∈ hiddenMacros)
    (secondHidden : second ∈ hiddenMacros) (isPrefix : first <+: second) : first = second := by
  have each : ∀ first ∈ hiddenMacros, ∀ second ∈ hiddenMacros,
      first <+: second → first = second := by
    decide
  exact each first firstHidden second secondHidden isPrefix

theorem not_mem_of_mem_hiddenMacros {hidden : Text} (member : hidden ∈ hiddenMacros) :
    ' ' ∉ hidden := by
  have each : ∀ hidden ∈ hiddenMacros, ' ' ∉ hidden := by decide
  exact each hidden member

/-! ### The words of a return type -/

/-- What stands at the start of joined words without a space in it stands at the start of the first
word. -/
theorem prefix_joinWith_iff {literal : Text} (solid : ' ' ∉ literal) (first : Text)
    (rest : List Text) : literal <+: Text.joinWith [' '] (first :: rest) ↔ literal <+: first := by
  cases rest with
  | nil => exact Iff.rfl
  | cons next rest =>
    rw [Text.joinWith_cons_cons, List.append_assoc]
    exact Text.prefix_append_stop solid

/-- Behind the first word stands a space, and then the other words. -/
theorem dropWhile_joinWith {first : Text} (solid : ' ' ∉ first) (rest : List Text) :
    (Text.joinWith [' '] (first :: rest)).dropWhile (· != ' ') =
      if rest.isEmpty then [] else ' ' :: Text.joinWith [' '] rest := by
  have inside : ∀ c ∈ first, (c != ' ') = true := fun c member =>
    bne_iff_ne.mpr fun same => solid (same ▸ member)
  cases rest with
  | nil => exact List.dropWhile_eq_nil_iff.mpr inside
  | cons next rest =>
    rw [Text.joinWith_cons_cons, List.append_assoc]
    exact Text.dropWhile_append_of_ends inside (Text.ends_cons.mpr rfl)

/-- A return type loses its first word when this begins with a hidden macro. -/
theorem displayReturnType_of_words {raw first : Text} {rest : List Text}
    (words : Text.words raw = first :: rest) :
    displayReturnType raw =
      if ∃ hidden ∈ hiddenMacros, hidden <+: first then
        if rest.isEmpty then "void".toList else Text.joinWith [' '] rest
      else Text.joinWith [' '] (first :: rest) := by
  have divided := Text.words_eq_iff.mp words
  have solid : ' ' ∉ first := fun member => by
    have space := (divided.solid_of_mem first List.mem_cons_self).2 ' ' member
    exact absurd space (by decide)
  have begins : (hiddenMacros.any fun hidden =>
      Text.startsWith hidden (Text.joinWith [' '] (first :: rest))) = true ↔
        ∃ hidden ∈ hiddenMacros, hidden <+: first := by
    rw [List.any_eq_true]
    refine exists_congr fun hidden => and_congr_right fun member => ?_
    rw [Text.startsWith_iff, prefix_joinWith_iff (not_mem_of_mem_hiddenMacros member)]
  simp only [displayReturnType, words, begins, dropWhile_joinWith solid]
  split
  · cases rest <;> rfl
  · rfl

/-- The first word is not among the words behind it, nor is it `void` when it goes on behind a
macro, so leaving it out makes a difference. -/
theorem rest_ne_joinWith {first hidden : Text} (rest : List Text)
    (member : hidden ∈ hiddenMacros) (isPrefix : hidden <+: first) :
    (if rest.isEmpty then "void".toList else Text.joinWith [' '] rest) ≠
      Text.joinWith [' '] (first :: rest) := by
  cases rest with
  | nil =>
    rintro (same : "void".toList = first)
    have none : ∀ hidden ∈ hiddenMacros, ¬hidden <+: "void".toList := by decide
    exact none hidden member (same ▸ isPrefix)
  | cons next rest =>
    rintro (same : Text.joinWith [' '] (next :: rest) = _)
    have length := congrArg List.length same
    rw [Text.joinWith_cons_cons, List.length_append, List.length_append,
      List.length_singleton] at length
    omega

/-- A return type is shown by its words exactly when its first word does not go on behind a hidden
macro. -/
theorem displayReturnType_eq_shownWords_iff (raw : Text) :
    ∃ words, Text.IsDivided raw words ∧
      (displayReturnType raw = shownWords words ↔ ¬GoesOnBehindMacro words) := by
  refine ⟨Text.words raw, Text.isDivided_words raw, ?_⟩
  cases words : Text.words raw with
  | nil =>
    have empty : displayReturnType raw = [] := by
      simp only [displayReturnType, words]
      rfl
    exact iff_of_true empty fun ⟨_, head, _⟩ => nomatch head
  | cons first rest =>
    have goesOn : GoesOnBehindMacro (first :: rest) ↔
        ∃ hidden ∈ hiddenMacros, hidden <+: first ∧ hidden ≠ first := by
      simp only [GoesOnBehindMacro, List.head?_cons, Option.mem_some_iff, exists_eq_left']
    rw [displayReturnType_of_words words, shownWords, goesOn]
    by_cases whole : first ∈ hiddenMacros
    · rw [if_pos whole, if_pos ⟨first, whole, List.prefix_refl _⟩]
      refine iff_of_true rfl ?_
      rintro ⟨hidden, member, isPrefix, other⟩
      exact other (eq_of_mem_hiddenMacros member whole isPrefix)
    · rw [if_neg whole]
      split
      · rename_i begins
        obtain ⟨hidden, member, isPrefix⟩ := begins
        refine iff_of_false (rest_ne_joinWith rest member isPrefix) (not_not_intro ?_)
        exact ⟨hidden, member, isPrefix, fun same => whole (same ▸ member)⟩
      · rename_i begins
        refine iff_of_true rfl ?_
        rintro ⟨hidden, member, isPrefix, _⟩
        exact begins ⟨hidden, member, isPrefix⟩

/-- A type whose name goes on behind a macro is lost, whether something stands behind it or not. -/
theorem displayReturnType_loses_name :
    displayReturnType "ENGINE_APIVersion".toList = "void".toList ∧
      shownWords (Text.words "ENGINE_APIVersion".toList) = "ENGINE_APIVersion".toList ∧
      displayReturnType "CORE_APIHandle  const&".toList = "const&".toList ∧
      shownWords (Text.words "CORE_APIHandle  const&".toList) = "CORE_APIHandle const&".toList ∧
      ¬∀ raw words, Text.IsDivided raw words → displayReturnType raw = shownWords words := by
  refine ⟨by decide, by decide, by decide, by decide, fun all => ?_⟩
  have same := all "ENGINE_APIVersion".toList _ (Text.isDivided_words _)
  exact absurd same (by decide)

end EngineDocs.Page
