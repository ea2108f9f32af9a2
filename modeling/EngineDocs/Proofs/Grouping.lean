/-
This file shows that dividing items by their keys neither drops nor repeats an item, as long as no
key is repeated: the groups of the keys, one behind the other, are the items with one of these keys
in another order.
-/

import Mathlib.Algebra.GroupWithZero.Nat
import Mathlib.Data.List.Induction
import Mathlib.Data.List.Nodup
import Mathlib.Data.List.Perm.Basic

namespace EngineDocs

/-! ### Keys -/

/-- Keys stay different when a new one is put behind them, or none. -/
theorem nodup_append_if {Key : Type} {keys : List Key} (distinct : keys.Nodup) {last : Key}
    (present : Prop) [Decidable present] (new : present → last ∉ keys) :
    (keys ++ if present then [last] else []).Nodup := by
  split
  · rename_i isPresent
    refine List.nodup_append.mpr ⟨distinct, List.nodup_singleton _, ?_⟩
    rintro key listed other isLast rfl
    exact new isPresent (List.mem_singleton.mp isLast ▸ listed)
  · rwa [List.append_nil]

theorem mem_append_if {Key : Type} {keys : List Key} {key last : Key} {present : Prop}
    [Decidable present] :
    (key ∈ keys ++ if present then [last] else []) ↔ key ∈ keys ∨ present ∧ key = last := by
  split <;> simp [*]

variable {Item Key : Type} [DecidableEq Key]

/-- The last key is kept when it is a new one. -/
theorem eraseDups_concat (keys : List Key) (last : Key) :
    (keys ++ [last]).eraseDups =
      if last ∈ keys then keys.eraseDups else keys.eraseDups ++ [last] := by
  rw [List.eraseDups_append, List.removeAll]
  split
  · rename_i known
    rw [List.filter_cons_of_neg (by simpa using known)]
    exact List.append_nil _
  · rename_i new
    rw [List.filter_cons_of_pos (by simpa using new)]
    rfl

theorem nodup_eraseDups (keys : List Key) : keys.eraseDups.Nodup := by
  induction keys using List.reverseRecOn with
  | nil => exact List.nodup_nil
  | append_singleton keys last inductionHypothesis =>
    rw [eraseDups_concat]
    split
    · exact inductionHypothesis
    · rename_i new
      refine List.nodup_append.mpr ⟨inductionHypothesis, List.nodup_singleton _, ?_⟩
      rintro key listed other isLast rfl
      exact new (List.mem_singleton.mp isLast ▸ List.mem_eraseDups.mp listed)

/-! ### Groups -/

/-- The items with a key of a list are those with its first key, and those with a later one. -/
theorem filter_mem_cons_perm (key : Item → Key) {first : Key} {keys : List Key}
    (new : first ∉ keys) (items : List Item) :
    (items.filter (key · == first) ++ items.filter (key · ∈ keys)).Perm
      (items.filter (key · ∈ first :: keys)) := by
  have whole := List.filter_append_perm (key · == first) (items.filter (key · ∈ first :: keys))
  rw [List.filter_filter, List.filter_filter] at whole
  have here : ∀ item ∈ items,
      (key item == first && decide (key item ∈ first :: keys)) = (key item == first) := by
    intro item _
    by_cases same : key item = first <;> simp [same]
  have later : ∀ item ∈ items,
      (!(key item == first) && decide (key item ∈ first :: keys)) = decide (key item ∈ keys) := by
    intro item _
    by_cases same : key item = first
    · simp [same, new]
    · simp [same]
  rw [List.filter_congr here, List.filter_congr later] at whole
  exact whole

/-- The groups of different keys hold the items with one of the keys, each of them once. -/
theorem flatMap_filter_perm (key : Item → Key) {keys : List Key} (distinct : keys.Nodup)
    (items : List Item) :
    (keys.flatMap fun wanted => items.filter (key · == wanted)).Perm
      (items.filter (key · ∈ keys)) := by
  induction keys with
  | nil => simp
  | cons first keys inductionHypothesis =>
    obtain ⟨new, distinct⟩ := List.nodup_cons.mp distinct
    rw [List.flatMap_cons]
    exact ((inductionHypothesis distinct).append_left _).trans (filter_mem_cons_perm key new items)

theorem flatMap_filter_perm_of_forall (key : Item → Key) {keys : List Key}
    (distinct : keys.Nodup) {items : List Item} (covered : ∀ item ∈ items, key item ∈ keys) :
    (keys.flatMap fun wanted => items.filter (key · == wanted)).Perm items := by
  have groups := flatMap_filter_perm key distinct items
  rwa [List.filter_eq_self.mpr fun item member => decide_eq_true (covered item member)] at groups

/-- The sizes of the groups add up to the number of items. -/
theorem sum_length_filter (key : Item → Key) {keys : List Key} (distinct : keys.Nodup)
    {items : List Item} (covered : ∀ item ∈ items, key item ∈ keys) :
    (keys.map fun wanted => (items.filter (key · == wanted)).length).sum = items.length := by
  rw [← List.length_flatMap]
  exact (flatMap_filter_perm_of_forall key distinct covered).length_eq

end EngineDocs
