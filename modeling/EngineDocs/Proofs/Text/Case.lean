/-
This file holds the measure and the letter case of texts in ASCII. There the lower-case form is
taken character by character, and a text is its own upper-case form when it has no lower-case
letter.
-/

import EngineDocs.Proofs.Text.Runs
import EngineDocs.Text.Case

namespace EngineDocs.Text

theorem lt_128_of_isWord {c : Char} (word : isWord c = true) : c.toNat < 128 := by
  simp only [isWord, Bool.or_eq_true, Bool.and_eq_true, decide_eq_true_eq, beq_iff_eq] at word
  omega

/-- What holds of every code of ASCII holds of every character of ASCII. -/
theorem of_forall_ascii {P : Char → Prop} (each : ∀ code < 128, P (Char.ofNat code))
    {c : Char} (ascii : c.toNat < 128) : P c := by
  have here := each c.toNat ascii
  rwa [Char.ofNat_toNat] at here

/-! ### Letter case -/

theorem lowerChar_of_ascii {c : Char} (ascii : c.toNat < 128) : lowerChar c = [c.toLower] := by
  have each : ∀ code < 128, lowerChar (Char.ofNat code) = [(Char.ofNat code).toLower] := by decide
  exact of_forall_ascii (P := fun c => lowerChar c = [c.toLower]) each ascii

theorem isUpperForm_of_ascii {c : Char} (ascii : c.toNat < 128) :
    isUpperForm c = !c.isLower := by
  have each : ∀ code < 128, isUpperForm (Char.ofNat code) = !(Char.ofNat code).isLower := by decide
  exact of_forall_ascii (P := fun c => isUpperForm c = !c.isLower) each ascii

theorem toLower_ne_space {c : Char} (ascii : c.toNat < 128) (solid : isBlank c = false) :
    c.toLower ≠ ' ' := by
  have each : ∀ code < 128, isBlank (Char.ofNat code) = false →
      (Char.ofNat code).toLower ≠ ' ' := by decide
  exact of_forall_ascii (P := fun c => isBlank c = false → c.toLower ≠ ' ') each ascii solid

theorem lowerFrom_of_ascii {text : Text} (ascii : ∀ c ∈ text, c.toNat < 128) (before : Text) :
    lowerFrom before text = text.map Char.toLower := by
  induction text generalizing before with
  | nil => rfl
  | cons c text inductionHypothesis =>
    obtain ⟨here, later⟩ := List.forall_mem_cons.mp ascii
    have notSigma : ¬(c.toNat == 0x3A3) = true := by
      rw [beq_iff_eq]
      omega
    rw [lowerFrom, inductionHypothesis later, List.map_cons, if_neg notSigma,
      lowerChar_of_ascii here]
    rfl

theorem lower_of_ascii {text : Text} (ascii : ∀ c ∈ text, c.toNat < 128) :
    lower text = text.map Char.toLower :=
  lowerFrom_of_ascii ascii []

theorem isUpper_of_ascii {text : Text} (ascii : ∀ c ∈ text, c.toNat < 128) :
    isUpper text = true ↔ ∀ c ∈ text, c.isLower = false := by
  rw [isUpper, List.all_eq_true]
  refine forall₂_congr fun c member => ?_
  rw [isUpperForm_of_ascii (ascii c member), Bool.not_eq_true']

/-! ### Length -/

theorem utf16Length_cons (c : Char) (text : Text) :
    utf16Length (c :: text) = (if 0x10000 ≤ c.toNat then 2 else 1) + utf16Length text := by
  have general : ∀ (text : Text) (total : Nat),
      text.foldl (fun total c => total + if 0x10000 ≤ c.toNat then 2 else 1) total =
        total + utf16Length text := by
    intro text
    induction text with
    | nil => exact fun total => rfl
    | cons c text inductionHypothesis =>
      intro total
      rw [utf16Length, List.foldl_cons, List.foldl_cons, inductionHypothesis, inductionHypothesis,
        Nat.zero_add, Nat.add_assoc]
  rw [utf16Length, List.foldl_cons, general, Nat.zero_add]

theorem length_le_utf16Length (text : Text) : text.length ≤ utf16Length text := by
  induction text with
  | nil => exact Nat.le_refl _
  | cons c text inductionHypothesis =>
    rw [utf16Length_cons, List.length_cons]
    split <;> omega

theorem utf16Length_of_ascii {text : Text} (ascii : ∀ c ∈ text, c.toNat < 128) :
    utf16Length text = text.length := by
  induction text with
  | nil => rfl
  | cons c text inductionHypothesis =>
    obtain ⟨here, later⟩ := List.forall_mem_cons.mp ascii
    rw [utf16Length_cons, if_neg (by omega), inductionHypothesis later, List.length_cons,
      Nat.add_comm]

end EngineDocs.Text
