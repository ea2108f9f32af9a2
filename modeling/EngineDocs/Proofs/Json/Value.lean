/-
This file shows that a value which is written as text is read back from the text, whatever blanks
the layout puts between its tokens. Reading goes token by token, with the containers that are still
open in a list; the statement that carries the induction says that the text of a value, wherever it
stands, has the effect of putting the value into the innermost open container.

Two things can keep a value from coming back: a number that does not fit into 64 bits, and
containers that lie inside each other more deeply than the reader goes. A value that `Fits` has
neither.
-/

import EngineDocs.Json.Read
import EngineDocs.Proofs.Json.Token

namespace EngineDocs.Json

/-! ### Values that come back -/

/-- The value has no numbers but unsigned ones of 64 bits, and at most `depth` containers lie inside
each other. -/
inductive Fits : (depth : Nat) → Json → Prop where
  | null {depth : Nat} : Fits depth .null
  | bool {depth : Nat} (value : Bool) : Fits depth (.bool value)
  | int {depth : Nat} {value : Int} (nonnegative : 0 ≤ value) (small : value < UInt64.size) :
      Fits depth (.int value)
  | str {depth : Nat} (value : String) : Fits depth (.str value)
  | arr {depth : Nat} {items : List Json} (each : ∀ item ∈ items, Fits depth item) :
      Fits (depth + 1) (.arr items)
  | obj {depth : Nat} {fields : List (String × Json)} (each : ∀ field ∈ fields, Fits depth field.2) :
      Fits (depth + 1) (.obj fields)

/-- Whether a layout puts nothing but blanks between tokens. -/
structure Layout.IsBlank (layout : Layout) : Prop where
  beforeItem : ∀ depth, ∀ c ∈ layout.beforeItem depth, isSpace c = true
  behindColon : ∀ c ∈ layout.behindColon, isSpace c = true

theorem Layout.compact_isBlank : Layout.compact.IsBlank where
  beforeItem _ _ member := absurd member List.not_mem_nil
  behindColon _ member := absurd member List.not_mem_nil

theorem Layout.pretty_isBlank : Layout.pretty.IsBlank where
  beforeItem depth c member := by
    rcases List.mem_cons.mp member with rfl | inner
    · rfl
    · rw [List.eq_of_mem_replicate inner]
      rfl
  behindColon c member := by
    rw [List.mem_singleton.mp member]
    rfl

/-! ### Reading on -/

/-- What is read once a text is taken behind what was read before. -/
def readOn (manner : Manner) (reading : Reading) (text : Text) : Option Reading :=
  (tokensFrom 0 text).bind (run manner reading)

theorem tokensFrom_append (text rest : Text) :
    tokensFrom text.length (text ++ rest) = tokensFrom 0 rest := by
  induction text with
  | nil => rfl
  | cons c text inductionHypothesis => exact inductionHypothesis

/-- Blanks have no effect. -/
theorem readOn_blanks (manner : Manner) (reading : Reading) {blanks : Text}
    (blank : ∀ c ∈ blanks, isSpace c = true) (rest : Text) :
    readOn manner reading (blanks ++ rest) = readOn manner reading rest := by
  induction blanks with
  | nil => rfl
  | cons c blanks inductionHypothesis =>
    have skipped : tokensFrom 0 (c :: (blanks ++ rest)) = tokensFrom 0 (blanks ++ rest) := by
      rw [tokensFrom, if_pos (blank c List.mem_cons_self)]
    rw [List.cons_append, readOn, skipped]
    exact inductionHypothesis fun c member => blank c (List.mem_cons_of_mem _ member)

/-- The text of a token has the effect of the token. -/
theorem readOn_token (manner : Manner) (reading : Reading) {c : Char} {text rest : Text}
    {token : Token} (solid : isSpace c = false)
    (written : readToken? (c :: text ++ rest) = some (token, (c :: text).length)) :
    readOn manner reading (c :: text ++ rest) =
      (step manner reading token).bind fun next => readOn manner next rest := by
  have tokens : tokensFrom 0 (c :: text ++ rest) = (tokensFrom 0 rest).map (token :: ·) := by
    rw [List.cons_append] at written
    rw [List.cons_append, tokensFrom, if_neg (by rw [solid]; decide), written]
    simp only [List.length_cons, Nat.add_sub_cancel]
    rw [tokensFrom_append]
  rw [readOn, tokens, Option.bind_map]
  show ((tokensFrom 0 rest).bind fun tokens =>
      (step manner reading token).bind fun next => run manner next tokens) = _
  rw [Option.bind_comm]
  rfl

/-- A token of one character. -/
theorem readOn_mark (manner : Manner) (reading : Reading) (c : Char) (token : Token) (rest : Text)
    (solid : isSpace c = false) (written : readToken? (c :: rest) = some (token, 1)) :
    readOn manner reading (c :: rest) =
      (step manner reading token).bind fun next => readOn manner next rest :=
  @readOn_token manner reading c [] rest token solid written

theorem readOn_string (manner : Manner) (reading : Reading) (value : String) (rest : Text) :
    readOn manner reading (writeString value ++ rest) =
      (step manner reading (.str value.toList)).bind fun next => readOn manner next rest :=
  readOn_token manner reading rfl (readToken?_writeString value rest)

/-! ### Reading a value -/

/-- Behind a value comes a comma, a blank, a closing bracket or nothing, and none of these continues
a number. -/
theorem endsNumber_of_blanks {blanks : Text} (blank : ∀ c ∈ blanks, isSpace c = true) {c : Char}
    (ends : Text.isDigit c = false ∧ c ≠ '.' ∧ c ≠ 'e' ∧ c ≠ 'E') (rest : Text) :
    EndsNumber (blanks ++ c :: rest) := by
  cases blanks with
  | nil => exact endsNumber_cons rest ends
  | cons first blanks =>
    refine endsNumber_cons _ ?_
    have space := blank first List.mem_cons_self
    simp only [isSpace, Bool.or_eq_true, beq_iff_eq] at space
    rcases space with ((rfl | rfl) | rfl) | rfl <;> decide

/-- Whether a value may come next. -/
def Expectation.takesValue (expected : Expectation) : Prop :=
  expected = .value ∨ expected = .firstItem

theorem step_of_takesValue (manner : Manner) (frames : List Frame) {expected : Expectation}
    (takes : expected.takesValue) (token : Token) (readable : token ≠ .unreadable)
    (opens : token ≠ .closeArray) :
    step manner ⟨frames, expected⟩ token = beginValue manner token frames := by
  rcases takes with rfl | rfl <;> cases token <;> first | rfl | contradiction

/-- The text of a value has the effect of putting the value into the innermost open container. -/
def Settles (manner : Manner) (layout : Layout) (room : Nat) (value : Json) : Prop :=
  ∀ (depth : Nat) (frames : List Frame) (expected : Expectation) (rest : Text),
    expected.takesValue → (manner.maxDepth.all (frames.length + room ≤ ·)) = true →
    EndsNumber rest →
    readOn manner ⟨frames, expected⟩ (write layout depth value ++ rest) =
      (place value frames).bind fun next => readOn manner next rest

theorem settles_of_token (manner : Manner) (layout : Layout) (room : Nat) (value : Json)
    (token : Token) (readable : token ≠ .unreadable) (opens : token ≠ .closeArray)
    (places : ∀ frames, beginValue manner token frames = place value frames)
    (written : ∀ (depth : Nat) (rest : Text), EndsNumber rest → ∃ c text,
      write layout depth value = c :: text ∧ isSpace c = false ∧
        readToken? (c :: text ++ rest) = some (token, (c :: text).length)) :
    Settles manner layout room value := by
  intro depth frames expected rest takes _ ends
  obtain ⟨c, text, form, solid, reads⟩ := written depth rest ends
  rw [form, readOn_token manner _ solid reads,
    step_of_takesValue manner frames takes token readable opens, places]

theorem enter_of_room (manner : Manner) (frame : Frame) (expected : Expectation)
    (frames : List Frame) {room : Nat}
    (fits : (manner.maxDepth.all (frames.length + (room + 1) ≤ ·)) = true) :
    enter manner frame expected frames = some ⟨frame :: frames, expected⟩ := by
  have less : (manner.maxDepth.all (frames.length < ·)) = true := by
    cases limit : manner.maxDepth with
    | none => rfl
    | some most =>
      rw [limit] at fits
      simp only [Option.all_some, decide_eq_true_eq] at fits ⊢
      omega
  rw [enter, if_pos less]

/-- The items behind the first one go into the array one after another. -/
theorem readOn_writeItems (manner : Manner) {layout : Layout} (blank : layout.IsBlank) {room : Nat}
    {items : List Json} (each : ∀ item ∈ items, Settles manner layout room item) (depth : Nat)
    (before : List Json) (frames : List Frame) {rest : Text}
    (fits : (manner.maxDepth.all (frames.length + (room + 1) ≤ ·)) = true)
    (ends : EndsNumber rest) :
    readOn manner ⟨.array before :: frames, .continuation⟩ (writeItems layout depth items ++ rest) =
      readOn manner ⟨.array (items.reverse ++ before) :: frames, .continuation⟩ rest := by
  induction items generalizing before with
  | nil => rfl
  | cons item items inductionHypothesis =>
    have behind : EndsNumber (writeItems layout depth items ++ rest) := by
      cases items with
      | nil => exact ends
      | cons next items => exact endsNumber_cons _ (by decide)
    have settled := each item List.mem_cons_self depth (.array before :: frames) .value
      (writeItems layout depth items ++ rest) (Or.inl rfl)
      (by rw [List.length_cons, Nat.add_right_comm]; exact fits) behind
    rw [writeItems]
    simp only [List.cons_append, List.append_assoc]
    rw [readOn_mark manner _ ',' .comma _ rfl rfl]
    show readOn manner ⟨.array before :: frames, .value⟩ _ = _
    rw [readOn_blanks manner _ (blank.beforeItem depth), settled]
    show readOn manner ⟨.array (item :: before) :: frames, .continuation⟩ _ = _
    rw [inductionHypothesis (fun item member => each item (List.mem_cons_of_mem _ member)),
      List.reverse_cons, List.append_assoc, List.singleton_append]

/-- A field goes into the object that is open. -/
theorem readOn_writeField (manner : Manner) {layout : Layout} (blank : layout.IsBlank) {room : Nat}
    {value : Json} (settles : Settles manner layout room value) (depth : Nat) (name : String)
    (before : List (String × Json)) (frames : List Frame) {expected : Expectation} {rest : Text}
    (takes : expected = .name ∨ expected = .firstName)
    (fits : (manner.maxDepth.all (frames.length + (room + 1) ≤ ·)) = true)
    (ends : EndsNumber rest) :
    readOn manner ⟨.object before :: frames, expected⟩
        (writeString name ++ ':' :: (layout.behindColon ++ (write layout depth value ++ rest))) =
      readOn manner ⟨.object ((name, value) :: before) :: frames, .continuation⟩ rest := by
  have settled := settles depth (.field before name :: frames) .value rest (Or.inl rfl)
    (by rw [List.length_cons, Nat.add_right_comm]; exact fits) ends
  have named : step manner ⟨.object before :: frames, expected⟩ (.str name.toList) =
      some ⟨.field before name :: frames, .colon⟩ := by
    rcases takes with rfl | rfl <;>
      simp only [step, take, beginField, String.ofList_toList]
  rw [readOn_string, named, Option.bind_some, readOn_mark manner _ ':' .colon _ rfl rfl]
  show readOn manner ⟨.field before name :: frames, .value⟩ _ = _
  rw [readOn_blanks manner _ blank.behindColon, settled]
  rfl

/-- The fields behind the first one go into the object one after another. -/
theorem readOn_writeFields (manner : Manner) {layout : Layout} (blank : layout.IsBlank)
    {room : Nat} {fields : List (String × Json)}
    (each : ∀ field ∈ fields, Settles manner layout room field.2) (depth : Nat)
    (before : List (String × Json)) (frames : List Frame) {rest : Text}
    (fits : (manner.maxDepth.all (frames.length + (room + 1) ≤ ·)) = true)
    (ends : EndsNumber rest) :
    readOn manner ⟨.object before :: frames, .continuation⟩
        (writeFields layout depth fields ++ rest) =
      readOn manner ⟨.object (fields.reverse ++ before) :: frames, .continuation⟩ rest := by
  induction fields generalizing before with
  | nil => rfl
  | cons field fields inductionHypothesis =>
    obtain ⟨name, value⟩ := field
    have behind : EndsNumber (writeFields layout depth fields ++ rest) := by
      cases fields with
      | nil => exact ends
      | cons next fields => exact endsNumber_cons _ (by decide)
    rw [writeFields]
    simp only [List.cons_append, List.append_assoc]
    rw [readOn_mark manner _ ',' .comma _ rfl rfl]
    show readOn manner ⟨.object before :: frames, .name⟩ _ = _
    rw [readOn_blanks manner _ (blank.beforeItem depth),
      readOn_writeField manner blank (each (name, value) List.mem_cons_self) depth name before
        frames (Or.inl rfl) fits behind,
      inductionHypothesis (fun field member => each field (List.mem_cons_of_mem _ member)),
      List.reverse_cons, List.append_assoc, List.singleton_append]

theorem settles_arr (manner : Manner) {layout : Layout} (blank : layout.IsBlank) {room : Nat}
    {items : List Json} (each : ∀ item ∈ items, Settles manner layout room item) :
    Settles manner layout (room + 1) (.arr items) := by
  intro depth frames expected rest takes fits ends
  have opened : step manner ⟨frames, expected⟩ .openArray =
      some ⟨.array [] :: frames, .firstItem⟩ := by
    rw [step_of_takesValue manner frames takes .openArray (by decide) (by decide)]
    exact enter_of_room manner (.array []) .firstItem frames fits
  cases items with
  | nil =>
    show readOn manner ⟨frames, expected⟩ ('[' :: ']' :: rest) = _
    rw [readOn_mark manner _ '[' .openArray _ rfl rfl, opened, Option.bind_some,
      readOn_mark manner _ ']' .closeArray _ rfl rfl]
    rfl
  | cons item items =>
    have behind : EndsNumber (writeItems layout (depth + 1) items ++
        (layout.beforeItem depth ++ ']' :: rest)) := by
      cases items with
      | nil => exact endsNumber_of_blanks (blank.beforeItem depth) (by decide) rest
      | cons next items => exact endsNumber_cons _ (by decide)
    have settled := each item List.mem_cons_self (depth + 1) (.array [] :: frames) .firstItem
      (writeItems layout (depth + 1) items ++ (layout.beforeItem depth ++ ']' :: rest))
      (Or.inr rfl) (by rw [List.length_cons, Nat.add_right_comm]; exact fits) behind
    rw [write]
    simp only [List.cons_append, List.append_assoc, List.nil_append]
    rw [readOn_mark manner _ '[' .openArray _ rfl rfl, opened, Option.bind_some,
      readOn_blanks manner _ (blank.beforeItem (depth + 1)), settled]
    show readOn manner ⟨.array [item] :: frames, .continuation⟩ _ = _
    rw [readOn_writeItems manner blank (fun item member => each item (List.mem_cons_of_mem _ member))
        (depth + 1) [item] frames fits
        (endsNumber_of_blanks (blank.beforeItem depth) (by decide) rest),
      readOn_blanks manner _ (blank.beforeItem depth),
      readOn_mark manner _ ']' .closeArray _ rfl rfl]
    show (place (.arr (items.reverse ++ [item]).reverse) frames).bind _ = _
    rw [List.reverse_append, List.reverse_reverse, List.reverse_singleton, List.singleton_append]

theorem settles_obj (manner : Manner) {layout : Layout} (blank : layout.IsBlank) {room : Nat}
    {fields : List (String × Json)}
    (each : ∀ field ∈ fields, Settles manner layout room field.2) :
    Settles manner layout (room + 1) (.obj fields) := by
  intro depth frames expected rest takes fits ends
  have opened : step manner ⟨frames, expected⟩ .openObject =
      some ⟨.object [] :: frames, .firstName⟩ := by
    rw [step_of_takesValue manner frames takes .openObject (by decide) (by decide)]
    exact enter_of_room manner (.object []) .firstName frames fits
  cases fields with
  | nil =>
    show readOn manner ⟨frames, expected⟩ ('{' :: '}' :: rest) = _
    rw [readOn_mark manner _ '{' .openObject _ rfl rfl, opened, Option.bind_some,
      readOn_mark manner _ '}' .closeObject _ rfl rfl]
    rfl
  | cons field fields =>
    obtain ⟨name, value⟩ := field
    have closing : EndsNumber (layout.beforeItem depth ++ '}' :: rest) :=
      endsNumber_of_blanks (blank.beforeItem depth) (by decide) rest
    have behind : EndsNumber (writeFields layout (depth + 1) fields ++
        (layout.beforeItem depth ++ '}' :: rest)) := by
      cases fields with
      | nil => exact closing
      | cons next fields => exact endsNumber_cons _ (by decide)
    rw [write]
    simp only [List.cons_append, List.append_assoc, List.nil_append]
    rw [readOn_mark manner _ '{' .openObject _ rfl rfl, opened, Option.bind_some,
      readOn_blanks manner _ (blank.beforeItem (depth + 1)),
      readOn_writeField manner blank (each (name, value) List.mem_cons_self) (depth + 1) name []
        frames (Or.inr rfl) fits behind,
      readOn_writeFields manner blank
        (fun field member => each field (List.mem_cons_of_mem _ member)) (depth + 1)
        [(name, value)] frames fits closing,
      readOn_blanks manner _ (blank.beforeItem depth),
      readOn_mark manner _ '}' .closeObject _ rfl rfl]
    show (place (.obj (fields.reverse ++ [(name, value)]).reverse) frames).bind _ = _
    rw [List.reverse_append, List.reverse_reverse, List.reverse_singleton, List.singleton_append]

theorem settles_of_fits (manner : Manner) {layout : Layout} (blank : layout.IsBlank) {room : Nat}
    {value : Json} (fits : Fits room value) : Settles manner layout room value := by
  induction fits with
  | null =>
    exact settles_of_token manner layout _ _ .null (by simp) (by simp) (fun _ => rfl)
      fun _ _ _ => ⟨'n', ['u', 'l', 'l'], rfl, rfl, rfl⟩
  | bool value =>
    refine settles_of_token manner layout _ _ (.bool value) (by simp) (by simp)
      (fun _ => rfl) fun _ _ _ => ?_
    cases value with
    | false => exact ⟨'f', ['a', 'l', 's', 'e'], rfl, rfl, rfl⟩
    | true => exact ⟨'t', ['r', 'u', 'e'], rfl, rfl, rfl⟩
  | @int _ value nonnegative small =>
    refine settles_of_token manner layout _ _ (.int value) (by simp) (by simp)
      (fun _ => rfl) fun depth rest ends => ?_
    have reads := readToken?_writeInt nonnegative small ends
    cases written : writeInt value with
    | nil =>
      rw [writeInt, if_neg (by omega)] at written
      exact absurd written (Text.decimal_ne_nil _)
    | cons c text =>
      rw [written] at reads
      refine ⟨c, text, by rw [write, written], ?_, reads⟩
      rw [writeInt, if_neg (by omega)] at written
      have digit := Text.isDigit_of_mem_decimal (written ▸ List.mem_cons_self)
      cases space : isSpace c with
      | false => rfl
      | true =>
        simp only [isSpace, Bool.or_eq_true, beq_iff_eq] at space
        rcases space with ((rfl | rfl) | rfl) | rfl <;> exact absurd digit (by decide)
  | str value =>
    refine settles_of_token manner layout _ _ (.str value.toList) (by simp) (by simp) ?_
      fun _ rest _ => ⟨'"', value.toList.flatMap escape ++ ['"'], by rw [write, writeString]; rfl,
        rfl, readToken?_writeString value rest⟩
    intro frames
    rw [beginValue, String.ofList_toList]
  | arr _ inductionHypothesis => exact settles_arr manner blank inductionHypothesis
  | obj _ inductionHypothesis => exact settles_obj manner blank inductionHypothesis

/-! ### Reading a text -/

/-- What is written in any layout is read back in any manner that goes deep enough. -/
theorem readAs?_write (manner : Manner) {layout : Layout} (blank : layout.IsBlank) {depth : Nat}
    {value : Json} (fits : Fits depth value)
    (deep : (manner.maxDepth.all (depth ≤ ·)) = true) :
    readAs? manner (write layout 0 value) = some value := by
  have settled := settles_of_fits manner blank fits 0 [] .value [] (Or.inl rfl)
    (by rw [List.length_nil, Nat.zero_add]; exact deep) (fun c same => nomatch same)
  rw [List.append_nil] at settled
  have read : (tokens? (write layout 0 value)).bind (Json.run manner ⟨[], .value⟩) =
      some ⟨[], .nothing value⟩ := settled
  obtain ⟨tokens, split, final⟩ := Option.bind_eq_some_iff.mp read
  simp only [readAs?, split, final, Option.bind_eq_bind, Option.bind_some]

/-- A value of which no more than 127 containers lie inside each other is read back. -/
theorem read?_pretty {depth : Nat} {value : Json} (fits : Fits depth value)
    (deep : depth ≤ 127) : read? value.pretty = some value :=
  readAs?_write {} Layout.pretty_isBlank fits (decide_eq_true deep)

/-- When only some fields matter, any depth is read back. -/
theorem skim?_pretty (names : List String) {depth : Nat} {value : Json} (fits : Fits depth value) :
    skim? names value.pretty = some value :=
  readAs?_write _ Layout.pretty_isBlank fits rfl

/-- Values that are written alike on one line are equal. -/
theorem compact_injective {depth : Nat} {first second : Json} (fitsFirst : Fits depth first)
    (fitsSecond : Fits depth second) (same : first.compact = second.compact) : first = second := by
  have readFirst := readAs?_write { maxDepth := none } Layout.compact_isBlank fitsFirst rfl
  have readSecond := readAs?_write { maxDepth := none } Layout.compact_isBlank fitsSecond rfl
  rw [compact, compact] at same
  rw [same, readSecond] at readFirst
  exact (Option.some.inj readFirst).symm

end EngineDocs.Json
