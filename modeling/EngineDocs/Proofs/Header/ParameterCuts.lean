/-
This file says where a parameter list is cut. Going through the list, the depth of angle brackets is
counted from its start and never reset: a list is cut only where the depth is zero, so behind a cut
the count goes on as if the list began there. So the cuts are the commas before which as many
brackets are opened as closed, and all that is lost of the list are these commas and blanks.
-/

import EngineDocs.Proofs.Header.Parameter
import EngineDocs.Proofs.Text.Collapse

namespace EngineDocs.Header

/-! ### The commas that cut a list -/

/-- Whether a character of a list is a comma before which as many angle brackets are opened as
closed. The character is given with its index. -/
def cutsAt (raw : Text) (place : Char × Nat) : Bool :=
  place.1 == ',' && (raw.take place.2).count '<' == (raw.take place.2).count '>'

/-- The parts of a list between the commas that cut it. -/
def partsBetweenCuts (raw : Text) : List Text :=
  (raw.zipIdx.splitOnP (cutsAt raw)).map (·.map Prod.fst)

theorem cutsAt_length {front rest : Text} {c : Char} :
    cutsAt (front ++ c :: rest) (c, front.length) = true ↔ c = ',' ∧ depthBehind 0 front = 0 := by
  rw [cutsAt, Bool.and_eq_true, beq_iff_eq, beq_iff_eq, List.take_left, depthBehind]
  refine and_congr_right fun _ => ?_
  omega

/-- From any place on, a list is cut where the rest of the whole list is. -/
theorem piecesFrom_eq_splitOnP (front rest : Text) :
    piecesFrom (depthBehind 0 front) rest =
      ((rest.zipIdx front.length).splitOnP (cutsAt (front ++ rest))).map (·.map Prod.fst) := by
  induction rest generalizing front with
  | nil => rfl
  | cons c rest inductionHypothesis =>
    have next := inductionHypothesis (front ++ [c])
    rw [depthBehind_append, List.append_assoc, List.singleton_append, List.length_append,
      List.length_singleton] at next
    rw [List.zipIdx_cons, List.splitOnP_cons_eq_if_modifyHead]
    by_cases cut : c = ',' ∧ depthBehind 0 front = 0
    · rw [if_pos (cutsAt_length.mpr cut), List.map_cons, ← next]
      -- Behind a cut the count is zero in any case, so it need not be set back.
      obtain ⟨rfl, balanced⟩ := cut
      rw [balanced]
      rfl
    · -- The character comes to the first piece of the rest, and to the first part of the division.
      obtain ⟨piece, more, found⟩ := exists_piecesFrom (depthBehind (depthBehind 0 front) [c]) rest
      obtain ⟨part, parts, divided⟩ := List.exists_cons_of_ne_nil
        (List.splitOnP_ne_nil (cutsAt (front ++ c :: rest)) (rest.zipIdx (front.length + 1)))
      have whole := piecesFrom_append (uncut_singleton cut) found
      rw [found, divided, List.map_cons] at next
      obtain ⟨rfl, rfl⟩ := List.cons.inj next
      rw [if_neg (mt cutsAt_length.mp cut), divided, List.modifyHead_cons, List.map_cons]
      exact whole

theorem piecesFrom_zero (raw : Text) : piecesFrom 0 raw = partsBetweenCuts raw :=
  piecesFrom_eq_splitOnP [] raw

/-! ### What is kept -/

/-- There is a part before each cut and one behind the last. -/
theorem length_splitOnP {Item : Type} (cut : Item → Bool) (items : List Item) :
    (items.splitOnP cut).length = items.countP cut + 1 := by
  induction items with
  | nil => rfl
  | cons item items inductionHypothesis =>
    rw [List.splitOnP_cons_eq_if_modifyHead]
    by_cases here : cut item = true
    · rw [if_pos here, List.length_cons, inductionHypothesis, List.countP_cons_of_pos here]
    · rw [if_neg here, List.length_modifyHead, inductionHypothesis, List.countP_cons_of_neg here]

/-- The parts one behind the other are the items that do not cut. -/
theorem flatten_splitOnP {Item : Type} (cut : Item → Bool) (items : List Item) :
    (items.splitOnP cut).flatten = items.filter (!cut ·) := by
  induction items with
  | nil => rfl
  | cons item items inductionHypothesis =>
    obtain ⟨part, parts, divided⟩ :=
      List.exists_cons_of_ne_nil (List.splitOnP_ne_nil cut items)
    rw [divided] at inductionHypothesis
    rw [List.splitOnP_cons_eq_if_modifyHead, divided, List.filter_cons, ← inductionHypothesis]
    by_cases here : cut item = true
    · rw [if_pos here, if_neg (by rw [here]; exact Bool.false_ne_true)]
      rfl
    · rw [if_neg here, if_pos (by simpa using here)]
      rfl

/-- Trimming loses blanks only. -/
theorem filter_trim (text : Text) :
    (Text.trim text).filter (!Text.isBlank ·) = text.filter (!Text.isBlank ·) := by
  obtain ⟨lead, trail, same, leadBlank, trailBlank, _⟩ :=
    Text.trim_eq_iff.mp (rfl : Text.trim text = _)
  have none : ∀ blanks : Text, (∀ c ∈ blanks, Text.isBlank c = true) →
      blanks.filter (!Text.isBlank ·) = [] := fun blanks blank =>
    List.filter_eq_nil_iff.mpr fun c member => by simpa using blank c member
  conv => rhs; rw [same]
  rw [List.filter_append, List.filter_append, none lead leadBlank, none trail trailBlank,
    List.nil_append, List.append_nil]

/-- Trimming the parts of a text and dropping empty ones loses blanks only. -/
theorem filter_flatten_trim (parts : List Text) :
    ((parts.map Text.trim).filter (!·.isEmpty)).flatten.filter (!Text.isBlank ·) =
      parts.flatten.filter (!Text.isBlank ·) := by
  induction parts with
  | nil => rfl
  | cons part parts inductionHypothesis =>
    rw [List.map_cons, List.flatten_cons, List.filter_append, ← filter_trim part,
      ← inductionHypothesis]
    cases trimmed : Text.trim part with
    | nil => rfl
    | cons c core =>
      rw [List.filter_cons_of_pos rfl, List.flatten_cons, List.filter_append]

theorem trim_ne_nil {text : Text} {c : Char} (member : c ∈ text) (solid : Text.isBlank c = false) :
    Text.trim text ≠ [] :=
  List.ne_nil_of_mem ((Text.mem_trim solid).mpr member)

/-- No more brackets are counted than there are characters. -/
theorem depthBehind_bounds (text : Text) :
    -(text.length : Int) ≤ depthBehind 0 text ∧ depthBehind 0 text ≤ text.length := by
  have opened : text.count '<' ≤ text.length := List.count_le_length
  have closed : text.count '>' ≤ text.length := List.count_le_length
  rw [depthBehind]
  omega

/-! ### Cutting a list -/

/-- A parameter list is cut at the commas before which as many angle brackets are opened as closed.
The parts are trimmed, and empty ones dropped; so there is one more parameter than there are cuts
unless a part is blank, and nothing else is lost but blanks. In a list of less than 2 ^ 31
characters the depth never leaves the signed numbers of 32 bits. -/
theorem splitParameters_cuts (raw : Text) :
    splitParameters raw = ((partsBetweenCuts raw).map Text.trim).filter (!·.isEmpty) ∧
      ((∀ part ∈ partsBetweenCuts raw, ∃ c ∈ part, Text.isBlank c = false) →
        (splitParameters raw).length = raw.zipIdx.countP (cutsAt raw) + 1) ∧
      (splitParameters raw).flatten.filter (!Text.isBlank ·) =
        ((raw.zipIdx.filter (!cutsAt raw ·)).map Prod.fst).filter (!Text.isBlank ·) ∧
      (raw.length < 2147483648 → ∀ front, front <+: raw →
        Int32.minValue.toInt ≤ depthBehind 0 front ∧
          depthBehind 0 front ≤ Int32.maxValue.toInt) := by
  have divided : splitParameters raw =
      ((partsBetweenCuts raw).map Text.trim).filter (!·.isEmpty) := by
    rw [splitParameters, piecesFrom_zero]
  refine ⟨divided, fun solid => ?_, ?_, fun short front isPrefix => ?_⟩
  · have kept : ((partsBetweenCuts raw).map Text.trim).filter (!·.isEmpty) =
        (partsBetweenCuts raw).map Text.trim := by
      refine List.filter_eq_self.mpr (List.forall_mem_map.mpr fun part listed => ?_)
      obtain ⟨c, member, notBlank⟩ := solid part listed
      simpa using trim_ne_nil member notBlank
    rw [divided, kept, List.length_map, partsBetweenCuts, List.length_map, length_splitOnP]
  · rw [divided, filter_flatten_trim, partsBetweenCuts, ← List.map_flatten, flatten_splitOnP]
  · have bounds := depthBehind_bounds front
    have length := isPrefix.length_le
    have least : Int32.minValue.toInt = -2147483648 := rfl
    have greatest : Int32.maxValue.toInt = 2147483647 := rfl
    omega

/-- Behind a stray closing bracket a comma does not cut, and it does again behind a bracket that is
opened and never closed. -/
theorem splitParameters_cuts_stray_brackets :
    let raw := "TMap<K, V> A,\tint B> , C<D, E".toList
    (∀ part ∈ partsBetweenCuts raw, ∃ c ∈ part, Text.isBlank c = false) ∧
      splitParameters raw = ["TMap<K, V> A".toList, "int B> , C<D".toList, "E".toList] ∧
      (splitParameters raw).length = raw.zipIdx.countP (cutsAt raw) + 1 ∧
      raw.length < 2147483648 ∧
      ∀ front, front <+: raw → Int32.minValue.toInt ≤ depthBehind 0 front ∧
        depthBehind 0 front ≤ Int32.maxValue.toInt := by
  intro raw
  have solid : ∀ part ∈ partsBetweenCuts raw, ∃ c ∈ part, Text.isBlank c = false := by
    decide +kernel
  have short : raw.length < 2147483648 := by decide
  obtain ⟨divided, counted, _, counts⟩ := splitParameters_cuts raw
  exact ⟨solid, divided.trans (by decide +kernel), counted solid, short, counts short⟩

end EngineDocs.Header
