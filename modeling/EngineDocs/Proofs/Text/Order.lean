/-
This file shows that the order of names and the order of locations are orders in the sense of the
library of maps: they are transitive, and only equal names and equal locations compare as equal.
Both are lexicographic orders, of characters and of names, so nothing has to be proved about them
beyond that.
-/

import EngineDocs.FileTree.Basic

namespace EngineDocs

open Std

namespace Text

instance : LawfulEqCmp (compareOn Char.toNat) where
  eq_of_compare same := Char.toNat_inj.mp (Nat.compare_eq_eq.mp same)

theorem compare_eq_compareLex : compare = List.compareLex (compareOn Char.toNat) := by
  funext left right
  induction left generalizing right with
  | nil => cases right <;> rfl
  | cons a left inductionHypothesis =>
    cases right with
    | nil => rfl
    | cons b right =>
      rw [compare, List.compareLex_cons_cons, ← inductionHypothesis, compareOn]
      rcases Nat.lt_trichotomy a.toNat b.toNat with less | same | greater
      · rw [if_pos less, Nat.compare_eq_lt.mpr less]
        rfl
      · rw [if_neg (by omega), if_neg (by omega), Nat.compare_eq_eq.mpr same]
        rfl
      · rw [if_neg (by omega), if_pos greater, Nat.compare_eq_gt.mpr greater]
        rfl

instance : TransCmp compare := compare_eq_compareLex ▸ inferInstance

instance : LawfulEqCmp compare := compare_eq_compareLex ▸ inferInstance

end Text

namespace Location

instance : TransCmp compareNames where
  eq_swap {a b} := @OrientedCmp.eq_swap _ Text.compare _ a.toList b.toList
  isLE_trans {a b c} := @TransCmp.isLE_trans _ Text.compare _ a.toList b.toList c.toList

instance : LawfulEqCmp compareNames where
  eq_of_compare same :=
    String.toList_inj.mp (@LawfulEqCmp.eq_of_compare _ Text.compare _ _ _ same)

theorem compare_eq_compareLex : compare = List.compareLex compareNames := by
  funext left right
  induction left generalizing right with
  | nil => cases right <;> rfl
  | cons a left inductionHypothesis =>
    cases right with
    | nil => rfl
    | cons b right =>
      rw [compare, List.compareLex_cons_cons, ← inductionHypothesis]
      cases compareNames a b <;> rfl

instance : TransCmp compare := compare_eq_compareLex ▸ inferInstance

instance : LawfulEqCmp compare := compare_eq_compareLex ▸ inferInstance

end Location

end EngineDocs
