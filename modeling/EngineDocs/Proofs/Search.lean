/-
This file shows how the search through a text proceeds. At each place that it reaches it reads an
item or none and advances by at least one character, so whatever one step preserves holds of every
place at which an item is found. Where nothing that is read in a part of a text depends on what
follows the part, the finds in the whole text are the finds in the part followed by those in the
rest. A part in which nothing is found, whatever follows it, is passed over.
-/

import EngineDocs.Proofs.Text.Pieces
import EngineDocs.Proofs.Text.Runs
import EngineDocs.Search
import Mathlib.Data.List.Pairwise

namespace EngineDocs.Recognizer

variable {α : Type} {recognizer : Recognizer α}

/-! ### One step of a search -/

/-- The number of characters from a place that a search reaches to the next such place. -/
def advance (recognizer : Recognizer α) (text : Text) : Nat :=
  match recognizer.read? text with
  | some value => max 1 (recognizer.text value).length
  | none => max 1 (recognizer.stride text)

theorem advance_pos (recognizer : Recognizer α) (text : Text) : 0 < recognizer.advance text := by
  rw [advance]
  split <;> omega

theorem advance_of_read? {text : Text} {value : α} (read : recognizer.read? text = some value) :
    recognizer.advance text = max 1 (recognizer.text value).length := by
  rw [advance, read]

theorem advance_of_read?_eq_none {text : Text} (read : recognizer.read? text = none) :
    recognizer.advance text = max 1 (recognizer.stride text) := by
  rw [advance, read]

theorem searchFrom_pending (recognizer : Recognizer α) (position pending : Nat) (text : Text) :
    recognizer.searchFrom position pending text =
      recognizer.searchFrom (position + pending) 0 (text.drop pending) := by
  induction text generalizing position pending with
  | nil => rw [List.drop_nil, searchFrom, searchFrom]
  | cons c text inductionHypothesis =>
    cases pending with
    | zero => rfl
    | succ pending =>
      rw [searchFrom, inductionHypothesis, List.drop_succ_cons, Nat.add_right_comm, Nat.add_assoc]

theorem searchFrom_of_ne_nil (recognizer : Recognizer α) (position : Nat) {text : Text}
    (more : text ≠ []) :
    recognizer.searchFrom position 0 text =
      (recognizer.read? text).toList.map (Find.mk position) ++
        recognizer.searchFrom (position + recognizer.advance text) 0
          (text.drop (recognizer.advance text)) := by
  cases text with
  | nil => exact absurd rfl more
  | cons c text =>
    have passed : ∀ count, recognizer.searchFrom (position + 1) (count - 1) text =
        recognizer.searchFrom (position + max 1 count) 0 ((c :: text).drop (max 1 count)) := by
      intro count
      have succ : max 1 count = count - 1 + 1 := by omega
      rw [searchFrom_pending, succ, List.drop_succ_cons, Nat.add_assoc, Nat.add_comm 1]
    rw [searchFrom]
    cases read : recognizer.read? (c :: text) with
    | none => rw [advance_of_read?_eq_none read, ← passed]; rfl
    | some value => rw [advance_of_read? read, ← passed]; rfl

/-- What holds of the empty text, and of a text when it holds of what a search has left after one
step there, holds of every text. -/
theorem step_induction (recognizer : Recognizer α) {motive : Text → Prop} (nil : motive [])
    (step : ∀ text, text ≠ [] → motive (text.drop (recognizer.advance text)) → motive text)
    (text : Text) : motive text := by
  induction size : text.length using Nat.strongRecOn generalizing text with
  | ind size inductionHypothesis =>
    by_cases more : text = []
    · rw [more]
      exact nil
    · refine step text more (inductionHypothesis _ ?_ _ rfl)
      have solid := List.length_pos_iff.mpr more
      have forward := recognizer.advance_pos text
      rw [List.length_drop]
      omega

theorem map_value_searchFrom (recognizer : Recognizer α) (position : Nat) (text : Text) :
    (recognizer.searchFrom position 0 text).map Find.value = recognizer.items text := by
  have independent : ∀ first second, (recognizer.searchFrom first 0 text).map Find.value =
      (recognizer.searchFrom second 0 text).map Find.value := by
    induction text using recognizer.step_induction with
    | nil => exact fun _ _ => rfl
    | step text more inductionHypothesis =>
      intro first second
      rw [recognizer.searchFrom_of_ne_nil first more, recognizer.searchFrom_of_ne_nil second more,
        List.map_append, List.map_append, List.map_map, List.map_map, inductionHypothesis]
      rfl
  exact independent position 0

theorem items_nil (recognizer : Recognizer α) : recognizer.items [] = [] := rfl

theorem items_of_ne_nil (recognizer : Recognizer α) {text : Text} (more : text ≠ []) :
    recognizer.items text = (recognizer.read? text).toList ++
      recognizer.items (text.drop (recognizer.advance text)) := by
  have identity : (Find.value ∘ Find.mk 0 : α → α) = id := rfl
  rw [items, search, recognizer.searchFrom_of_ne_nil 0 more, List.map_append, List.map_map,
    map_value_searchFrom, identity, List.map_id]

theorem items_of_read? {text : Text} {value : α} (read : recognizer.read? text = some value)
    (more : text ≠ []) :
    recognizer.items text =
      value :: recognizer.items (text.drop (max 1 (recognizer.text value).length)) := by
  rw [recognizer.items_of_ne_nil more, advance_of_read? read, read]
  rfl

theorem items_of_read?_eq_none {text : Text} (read : recognizer.read? text = none)
    (more : text ≠ []) :
    recognizer.items text = recognizer.items (text.drop (max 1 (recognizer.stride text))) := by
  rw [recognizer.items_of_ne_nil more, advance_of_read?_eq_none read, read]
  rfl

/-! ### The places that a search reaches -/

/-- A search of `text` comes to stand between `before` and `rest`. -/
inductive Reaches (recognizer : Recognizer α) (text : Text) : (before rest : Text) → Prop
  | start : Reaches recognizer text [] text
  | step {before rest : Text} : Reaches recognizer text before rest → rest ≠ [] →
      Reaches recognizer text (before ++ rest.take (recognizer.advance rest))
        (rest.drop (recognizer.advance rest))

theorem Reaches.eq {text before rest : Text} (reaches : recognizer.Reaches text before rest) :
    text = before ++ rest := by
  induction reaches with
  | start => rfl
  | step _ _ inductionHypothesis =>
    rw [List.append_assoc, List.take_append_drop]
    exact inductionHypothesis

theorem reaches_of_mem_searchFrom {text before rest : Text} {find : Find α}
    (reaches : recognizer.Reaches text before rest)
    (member : find ∈ recognizer.searchFrom before.length 0 rest) :
    ∃ front back, recognizer.Reaches text front back ∧ front.length = find.start ∧
      recognizer.read? back = some find.value := by
  induction rest using recognizer.step_induction generalizing before with
  | nil => exact absurd member List.not_mem_nil
  | step rest more inductionHypothesis =>
    rw [recognizer.searchFrom_of_ne_nil _ more, List.mem_append] at member
    rcases member with here | later
    · obtain ⟨value, read, rfl⟩ := List.mem_map.mp here
      exact ⟨before, rest, reaches, rfl, Option.mem_toList.mp read⟩
    · -- The search goes on only where the item read, or the stride, ends inside the text.
      have inside : recognizer.advance rest ≤ rest.length := by
        by_contra beyond
        rw [List.drop_eq_nil_of_le (by omega)] at later
        exact absurd later List.not_mem_nil
      refine inductionHypothesis (reaches.step more) ?_
      rw [List.length_append, List.length_take, Nat.min_eq_left inside]
      exact later

/-- Every find stands at a place that the search reaches. -/
theorem reaches_of_mem_search {text : Text} {find : Find α}
    (member : find ∈ recognizer.search text) :
    ∃ before rest, recognizer.Reaches text before rest ∧ before.length = find.start ∧
      recognizer.read? rest = some find.value :=
  reaches_of_mem_searchFrom .start member

/-- Every item found in a text was read from what follows some place of it. -/
theorem read?_of_mem_items {text : Text} {value : α} (member : value ∈ recognizer.items text) :
    ∃ before rest, text = before ++ rest ∧ recognizer.read? rest = some value := by
  obtain ⟨find, found, rfl⟩ := List.mem_map.mp member
  obtain ⟨before, rest, reaches, _, read⟩ := reaches_of_mem_search found
  exact ⟨before, rest, reaches.eq, read⟩

/-! ### The extent of the finds -/

/-- The number of characters of the text before the end of a find. -/
def stop (recognizer : Recognizer α) (find : Find α) : Nat :=
  find.start + (recognizer.text find.value).length

theorem le_start_of_mem_searchFrom {position : Nat} {text : Text} {find : Find α}
    (member : find ∈ recognizer.searchFrom position 0 text) : position ≤ find.start := by
  induction text using recognizer.step_induction generalizing position with
  | nil => exact absurd member List.not_mem_nil
  | step text more inductionHypothesis =>
    rw [recognizer.searchFrom_of_ne_nil position more, List.mem_append] at member
    rcases member with here | later
    · obtain ⟨_, _, rfl⟩ := List.mem_map.mp here
      exact Nat.le_refl _
    · exact (Nat.le_add_right _ _).trans (inductionHypothesis later)

theorem searchFrom_pairwise (position : Nat) (text : Text) :
    (recognizer.searchFrom position 0 text).Pairwise
      fun first second => recognizer.stop first ≤ second.start := by
  induction text using recognizer.step_induction generalizing position with
  | nil => exact List.Pairwise.nil
  | step text more inductionHypothesis =>
    rw [recognizer.searchFrom_of_ne_nil position more]
    cases read : recognizer.read? text with
    | none => exact inductionHypothesis _
    | some value =>
      refine List.pairwise_cons.mpr ⟨fun find later => ?_, inductionHypothesis _⟩
      refine Nat.le_trans ?_ (le_start_of_mem_searchFrom later)
      rw [advance_of_read? read]
      exact Nat.add_le_add_left (Nat.le_max_right 1 _) position

/-- The finds lie one behind the other. -/
theorem search_pairwise (recognizer : Recognizer α) (text : Text) :
    (recognizer.search text).Pairwise
      fun first second => recognizer.stop first ≤ second.start :=
  searchFrom_pairwise 0 text

/-- A search that looks at every place by itself passes over a place at which an item could be read
only as a part of a find. -/
theorem exists_mem_searchFrom (everywhere : ∀ text, recognizer.stride text = 1)
    (solid : ∀ value, recognizer.text value ≠ []) {text : Text} {index : Nat}
    (inside : index < text.length) (here : (recognizer.read? (text.drop index)).isSome = true)
    (position : Nat) :
    ∃ find ∈ recognizer.searchFrom position 0 text,
      find.start ≤ position + index ∧ position + index < recognizer.stop find := by
  induction text using recognizer.step_induction generalizing position index with
  | nil => exact absurd inside (Nat.not_lt_zero _)
  | step text more inductionHypothesis =>
    rw [recognizer.searchFrom_of_ne_nil position more]
    by_cases early : index < recognizer.advance text
    · cases read : recognizer.read? text with
      | none =>
        -- The search goes on with the next character, so the place is the one it stands at.
        rw [advance_of_read?_eq_none read, everywhere] at early
        obtain rfl : index = 0 := by omega
        rw [List.drop_zero, read] at here
        exact nomatch here
      | some value =>
        rw [advance_of_read? read] at early
        have length := List.length_pos_iff.mpr (solid value)
        refine ⟨⟨position, value⟩, List.mem_append_left _ List.mem_cons_self, Nat.le_add_right _ _, ?_⟩
        show position + index < position + (recognizer.text value).length
        omega
    · have passed := Nat.not_lt.mp early
      have reached : recognizer.advance text + (index - recognizer.advance text) = index := by omega
      have left : index - recognizer.advance text < (text.drop (recognizer.advance text)).length := by
        rw [List.length_drop]
        omega
      rw [← reached, ← List.drop_drop] at here
      obtain ⟨find, member, before, behind⟩ :=
        inductionHypothesis left here (position + recognizer.advance text)
      rw [Nat.add_assoc, reached] at before behind
      exact ⟨find, List.mem_append_right _ member, before, behind⟩

/-- Where an item could be read, there is one find that the place lies in. -/
theorem existsUnique_mem_search (everywhere : ∀ text, recognizer.stride text = 1)
    (solid : ∀ value, recognizer.text value ≠ []) {text : Text} {index : Nat}
    (inside : index < text.length) (here : (recognizer.read? (text.drop index)).isSome = true) :
    ∃! find, find ∈ recognizer.search text ∧ find.start ≤ index ∧ index < recognizer.stop find := by
  obtain ⟨find, member, before, behind⟩ := exists_mem_searchFrom everywhere solid inside here 0
  rw [Nat.zero_add] at before behind
  refine ⟨find, ⟨member, before, behind⟩, fun other ⟨listed, otherBefore, otherBehind⟩ => ?_⟩
  by_contra apart
  have symmetric : Std.Symm fun first second : Find α =>
      recognizer.stop first ≤ second.start ∨ recognizer.stop second ≤ first.start :=
    ⟨fun _ _ => Or.symm⟩
  have either : (recognizer.search text).Pairwise fun first second =>
      recognizer.stop first ≤ second.start ∨ recognizer.stop second ≤ first.start :=
    (recognizer.search_pairwise text).imp fun ordered => Or.inl ordered
  have ordered := either.forall listed member apart
  omega

/-! ### Searching a part of a text -/

/-- What a search does at the start of `part` depends on `part` alone: nothing that follows
changes it, and no step leads behind the end of `part`. -/
structure Bounded (recognizer : Recognizer α) (part rest : Text) : Prop where
  read?_append : recognizer.read? (part ++ rest) = recognizer.read? part
  text_length_le : ∀ value, recognizer.read? part = some value →
    (recognizer.text value).length ≤ part.length
  stride_append : recognizer.stride (part ++ rest) = recognizer.stride part
  stride_le : recognizer.stride part ≤ part.length

theorem Bounded.advance_append {part rest : Text} (bounded : recognizer.Bounded part rest) :
    recognizer.advance (part ++ rest) = recognizer.advance part := by
  rw [advance, advance, bounded.read?_append, bounded.stride_append]

theorem Bounded.advance_le {part rest : Text} (bounded : recognizer.Bounded part rest)
    (more : part ≠ []) : recognizer.advance part ≤ part.length := by
  have solid := List.length_pos_iff.mpr more
  cases read : recognizer.read? part with
  | none =>
    have short := bounded.stride_le
    rw [advance_of_read?_eq_none read]
    omega
  | some value =>
    have short := bounded.text_length_le value read
    rw [advance_of_read? read]
    omega

/-- A search that is bounded at every place of a part finds what is in the part and then what is in
the rest. -/
theorem items_append {part rest : Text}
    (bounded : ∀ tail, tail <:+ part → tail ≠ [] → recognizer.Bounded tail rest) :
    recognizer.items (part ++ rest) = recognizer.items part ++ recognizer.items rest := by
  induction part using recognizer.step_induction with
  | nil => rw [List.nil_append, items_nil, List.nil_append]
  | step part more inductionHypothesis =>
    have here := bounded part List.suffix_rfl more
    have later := inductionHypothesis fun tail suffix =>
      bounded tail (suffix.trans (List.drop_suffix _ _))
    rw [recognizer.items_of_ne_nil (List.append_ne_nil_of_left_ne_nil more rest),
      recognizer.items_of_ne_nil more, here.read?_append, here.advance_append,
      List.drop_append_of_le_length (here.advance_le more), later, List.append_assoc]

/-! ### Passing over a part of a text -/

/-- A search finds nothing in the part and goes on behind it. -/
def Passes (recognizer : Recognizer α) (part : Text) : Prop :=
  ∀ rest, recognizer.items (part ++ rest) = recognizer.items rest

theorem passes_nil : recognizer.Passes [] := fun _ => rfl

theorem Passes.append {first second : Text} (firstPasses : recognizer.Passes first)
    (secondPasses : recognizer.Passes second) : recognizer.Passes (first ++ second) := by
  intro rest
  rw [List.append_assoc, firstPasses, secondPasses]

theorem passes_of_singletons {part : Text} (each : ∀ c ∈ part, recognizer.Passes [c]) :
    recognizer.Passes part := by
  induction part with
  | nil => exact passes_nil
  | cons c part inductionHypothesis =>
    obtain ⟨here, later⟩ := List.forall_mem_cons.mp each
    exact here.append (inductionHypothesis later)

/-- A list of parts with a separator between neighbours is passed over when its parts are. -/
theorem passes_joinWith {separator : Text} (between : recognizer.Passes separator)
    {parts : List Text} (each : ∀ part ∈ parts, recognizer.Passes part) :
    recognizer.Passes (Text.joinWith separator parts) := by
  induction parts with
  | nil => exact passes_nil
  | cons part parts inductionHypothesis =>
    obtain ⟨here, later⟩ := List.forall_mem_cons.mp each
    cases parts with
    | nil => exact here
    | cons next parts =>
      rw [Text.joinWith_cons_cons]
      exact (here.append between).append (inductionHypothesis later)

theorem items_cons {c : Char} {text : Text} (stride : recognizer.stride (c :: text) = 1)
    (missing : recognizer.read? (c :: text) = none) :
    recognizer.items (c :: text) = recognizer.items text := by
  rw [items_of_read?_eq_none missing (List.cons_ne_nil _ _), stride]
  rfl

/-- What is read at the start of a text is found first. -/
theorem items_text_append {text rest : Text} {value : α} (solid : text ≠ [])
    (same : recognizer.text value = text) (read : recognizer.read? (text ++ rest) = some value) :
    recognizer.items (text ++ rest) = value :: recognizer.items rest := by
  rw [items_of_read? read (List.append_ne_nil_of_left_ne_nil solid rest), same,
    Nat.max_eq_right (List.length_pos_iff.mpr solid), List.drop_left]

/-- Up to a mark, what is looked for consists of characters of `p`. -/
structure MarkedBy (recognizer : Recognizer α) (p : Char → Bool) (mark : Char) : Prop where
  stride : ∀ text, recognizer.stride text = 1
  begins : ∀ {text : Text} {value : α}, recognizer.read? text = some value →
    ∃ front rest, text = front ++ mark :: rest ∧ ∀ c ∈ front, p c = true

/-- Where a foreign character stands before the next mark nothing is read. -/
theorem MarkedBy.read?_eq_none {p : Char → Bool} {mark : Char}
    (marked : recognizer.MarkedBy p mark) {part : Text} {c : Char} (unmarked : mark ∉ part)
    (foreign : p c = false) (other : c ≠ mark) (rest : Text) :
    recognizer.read? (part ++ c :: rest) = none := by
  refine Option.eq_none_iff_forall_ne_some.mpr fun value read => ?_
  obtain ⟨front, behind, same, inside⟩ := marked.begins read
  rcases List.append_eq_append_iff.mp same with ⟨middle, rfl, reached⟩ | ⟨middle, rfl, reached⟩
  · cases middle with
    | nil => exact other (List.cons.inj reached).1
    | cons first middle =>
      obtain ⟨rfl, _⟩ := List.cons.inj reached
      rw [inside c (List.mem_append_right _ List.mem_cons_self)] at foreign
      exact nomatch foreign
  · cases middle with
    | nil => exact other (List.cons.inj reached).1.symm
    | cons first middle =>
      obtain ⟨rfl, _⟩ := List.cons.inj reached
      exact unmarked (List.mem_append_right _ List.mem_cons_self)

/-- A search for what is marked passes over a part without a mark that ends with a foreign
character. -/
theorem MarkedBy.passes {p : Char → Bool} {mark : Char} (marked : recognizer.MarkedBy p mark)
    {part : Text} {c : Char} (unmarked : mark ∉ part) (foreign : p c = false) (other : c ≠ mark) :
    recognizer.Passes (part ++ [c]) := by
  intro rest
  rw [List.append_assoc, List.singleton_append]
  induction part with
  | nil =>
    have missing := marked.read?_eq_none List.not_mem_nil foreign other rest
    exact items_cons (marked.stride _) missing
  | cons first part inductionHypothesis =>
    have missing := marked.read?_eq_none unmarked foreign other rest
    rw [List.cons_append] at missing ⊢
    rw [items_cons (marked.stride _) missing]
    exact inductionHypothesis fun member => unmarked (List.mem_cons_of_mem _ member)

end EngineDocs.Recognizer
