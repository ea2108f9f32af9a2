/-
This file shows which stretches of a header the searches pass over, whatever follows. A search for
declarations that open with a keyword passes over every word that does not end with the keyword and
over every character of no identifier, so it passes over any text made of these. The search for
functions passes over a text without an opening parenthesis that ends where no type goes on.
-/

import EngineDocs.Header
import EngineDocs.Proofs.Header.Function
import EngineDocs.Proofs.Header.Keyword
import EngineDocs.Proofs.Search

namespace EngineDocs

/-! ### Passing over words -/

namespace Recognizer

variable {α : Type} {recognizer : Recognizer α}

/-- What is looked for begins with the keyword and a blank. -/
structure LedBy (recognizer : Recognizer α) (keyword : Text) : Prop where
  text_ne_nil : ∀ value, recognizer.text value ≠ []
  stride : ∀ text, recognizer.stride text = 1
  ne_nil : keyword ≠ []
  isWord : ∀ c ∈ keyword, Text.isWord c = true
  begins : ∀ {text : Text} {value : α}, recognizer.read? text = some value →
    ∃ c rest, Text.isBlank c = true ∧ text = keyword ++ c :: rest

variable {keyword : Text}

theorem LedBy.leadingWord_eq (led : recognizer.LedBy keyword) {text : Text} {value : α}
    (read : recognizer.read? text = some value) : Text.leadingWord text = keyword := by
  obtain ⟨c, rest, blank, rfl⟩ := led.begins read
  exact Text.takeWhile_append_of_ends led.isWord
    (Text.ends_cons.mpr (Text.isWord_eq_false_of_isBlank blank))

theorem LedBy.passes_singleton (led : recognizer.LedBy keyword) {c : Char}
    (foreign : Text.isWord c = false) : recognizer.Passes [c] := by
  intro rest
  refine items_cons (led.stride _) (Option.eq_none_iff_forall_ne_some.mpr fun value read => ?_)
  have word := led.leadingWord_eq read
  rw [Text.leadingWord, Text.takeWhile_of_ends (Text.ends_cons.mpr foreign)] at word
  exact led.ne_nil word.symm

theorem LedBy.passes_of_forall (led : recognizer.LedBy keyword) {part : Text}
    (foreign : ∀ c ∈ part, Text.isWord c = false) : recognizer.Passes part :=
  passes_of_singletons fun c member => led.passes_singleton (foreign c member)

/-- Where nothing but punctuation follows what is read, the search finds it and goes on behind the
punctuation. -/
theorem LedBy.items_append (led : recognizer.LedBy keyword) {text left rest : Text} {value : α}
    (whole : text = recognizer.text value ++ left) (foreign : ∀ c ∈ left, Text.isWord c = false)
    (read : recognizer.read? (text ++ rest) = some value) :
    recognizer.items (text ++ rest) = value :: recognizer.items rest := by
  rw [whole, List.append_assoc] at read ⊢
  rw [items_text_append (led.text_ne_nil value) rfl read, led.passes_of_forall foreign]

/-- A word that does not end with the keyword is passed over together with the character that ends
it. -/
theorem LedBy.passes_word (led : recognizer.LedBy keyword) {word : Text} {c : Char}
    (inside : ∀ c ∈ word, Text.isWord c = true) (other : ¬keyword <:+ word)
    (foreign : Text.isWord c = false) : recognizer.Passes (word ++ [c]) := by
  induction word with
  | nil => exact led.passes_singleton foreign
  | cons first word inductionHypothesis =>
    intro rest
    obtain ⟨_, insideRest⟩ := List.forall_mem_cons.mp inside
    have missing : recognizer.read? (first :: (word ++ [c] ++ rest)) = none := by
      refine Option.eq_none_iff_forall_ne_some.mpr fun value read => ?_
      have whole := led.leadingWord_eq read
      rw [List.append_assoc, List.singleton_append, ← List.cons_append, Text.leadingWord,
        Text.takeWhile_append_of_ends inside (Text.ends_cons.mpr foreign)] at whole
      exact other (whole ▸ List.suffix_rfl)
    rw [List.cons_append, List.cons_append, items_cons (led.stride _) missing]
    exact inductionHypothesis insideRest
      (fun ends => other (ends.trans (List.suffix_cons _ _))) rest

/-- A search finds nothing in the part and goes on behind it, provided that no identifier runs on
behind the part. -/
def PassesTo (recognizer : Recognizer α) (part : Text) : Prop :=
  ∀ c, Text.isWord c = false → recognizer.Passes (part ++ [c])

theorem PassesTo.cons {part rest : Text} {c : Char} (partPasses : recognizer.PassesTo part)
    (foreign : Text.isWord c = false) (restPasses : recognizer.Passes rest) :
    recognizer.Passes (part ++ c :: rest) := by
  rw [List.append_cons]
  exact (partPasses c foreign).append restPasses

theorem Passes.appendTo {first second : Text} (firstPasses : recognizer.Passes first)
    (secondPasses : recognizer.PassesTo second) : recognizer.PassesTo (first ++ second) := by
  intro c foreign
  rw [List.append_assoc]
  exact firstPasses.append (secondPasses c foreign)

theorem LedBy.passesTo_nil (led : recognizer.LedBy keyword) : recognizer.PassesTo [] :=
  fun _ foreign => led.passes_singleton foreign

theorem LedBy.passesTo_word (led : recognizer.LedBy keyword) {word : Text}
    (inside : ∀ c ∈ word, Text.isWord c = true) (other : ¬keyword <:+ word) :
    recognizer.PassesTo word :=
  fun _ foreign => led.passes_word inside other foreign

/-- A list of parts with commas between them is passed over when its parts are. -/
theorem LedBy.passesTo_joinWith (led : recognizer.LedBy keyword) {parts : List Text}
    (each : ∀ part ∈ parts, recognizer.PassesTo part) :
    recognizer.PassesTo (Text.joinWith [',', ' '] parts) := by
  induction parts with
  | nil => exact led.passesTo_nil
  | cons part parts inductionHypothesis =>
    obtain ⟨here, later⟩ := List.forall_mem_cons.mp each
    cases parts with
    | nil => exact here
    | cons next parts =>
      rw [Text.joinWith, List.append_assoc]
      · intro c foreign
        rw [List.append_assoc, List.cons_append, List.cons_append, List.append_assoc]
        exact here.cons rfl
          ((led.passes_singleton rfl).append (inductionHypothesis later c foreign))
      · exact List.cons_ne_nil _ _

end Recognizer

/-! ### Declarations -/

namespace Header

theorem begins_of_readHeaded? {β : Type} {keyword text : Text}
    {finish : Text → Text → Text → Text → Text → Option β} {value : β}
    (read : readHeaded? keyword finish text = some value) :
    ∃ c rest, Text.isBlank c = true ∧ text = keyword ++ c :: rest := by
  obtain ⟨gap, body, rfl, solid, blank, _⟩ := findSome?_of_readHeaded? read
  cases gap with
  | nil => exact absurd rfl solid
  | cons c gap => exact ⟨c, gap ++ body, blank c List.mem_cons_self, rfl⟩

theorem ClassDeclaration.recognizer_ledBy :
    ClassDeclaration.recognizer.LedBy ClassDeclaration.keyword where
  text_ne_nil _ := List.cons_ne_nil _ _
  stride _ := rfl
  ne_nil := by decide
  isWord := by decide
  begins read := begins_of_readHeaded? ((read?_eq _).symm.trans read)

theorem StructDeclaration.recognizer_ledBy :
    StructDeclaration.recognizer.LedBy StructDeclaration.keyword where
  text_ne_nil _ := List.cons_ne_nil _ _
  stride _ := rfl
  ne_nil := by decide
  isWord := by decide
  begins read := begins_of_readHeaded? ((read?_eq _).symm.trans read)

theorem EnumDeclaration.recognizer_ledBy :
    EnumDeclaration.recognizer.LedBy EnumDeclaration.keyword where
  text_ne_nil _ := List.cons_ne_nil _ _
  stride _ := rfl
  ne_nil := by decide
  isWord := by decide
  begins read := by
    obtain ⟨gap, scope, behind, rfl, solid, blank, _⟩ := EnumDeclaration.read?_eq_some read
    cases gap with
    | nil => exact absurd rfl solid
    | cons c gap => exact ⟨c, gap ++ (scope ++ behind), blank c List.mem_cons_self, rfl⟩

/-- Up to the brace that opens its body an enumeration consists of words and blanks. -/
theorem EnumDeclaration.recognizer_markedBy :
    EnumDeclaration.recognizer.MarkedBy (fun c => Text.isWord c || Text.isBlank c) '{' where
  stride _ := rfl
  begins {_ declaration} read := by
    obtain ⟨gap, scope, behind, rfl, _, blank, within, _, wellFormed, rest, rfl⟩ :=
      EnumDeclaration.read?_eq_some read
    refine ⟨keyword ++ (gap ++ (scope ++ (declaration.name ++ declaration.gap))),
      declaration.body ++ '}' :: rest, ?_, ?_⟩
    · simp only [namedText, List.append_assoc, List.cons_append, List.nil_append]
    · have letters : ∀ c ∈ keyword, Text.isWord c = true := by decide
      simp only [List.forall_mem_append, Bool.or_eq_true]
      exact ⟨fun c member => Or.inl (letters c member), fun c member => Or.inr (blank c member),
        within, fun c member => Or.inl (wellFormed.name_word c member),
        fun c member => Or.inr (wellFormed.gap_blank c member)⟩

/-- Functions are not looked for in a text without an opening parenthesis up to a character that
belongs to no type. -/
theorem FunctionDeclaration.passes_of_not_mem {part : Text} {c : Char}
    (unopened : '(' ∉ part) (stop : isTypeChar c = false) :
    FunctionDeclaration.recognizer.Passes (part ++ [c]) := by
  intro rest
  rw [List.append_assoc, List.singleton_append]
  induction size : part.length using Nat.strongRecOn generalizing part with
  | ind size inductionHypothesis =>
    have run : (part ++ c :: rest).takeWhile isTypeChar = part.takeWhile isTypeChar :=
      Text.takeWhile_append_stop stop part rest
    have missing : FunctionDeclaration.recognizer.read? (part ++ c :: rest) = none := by
      refine Option.eq_none_iff_forall_ne_some.mpr fun declaration read => ?_
      have opened := FunctionDeclaration.parenthesis_mem_of_read? read
      rw [run] at opened
      exact unopened ((List.takeWhile_prefix _).subset opened)
    have stride : FunctionDeclaration.recognizer.stride (part ++ c :: rest) =
        (part.takeWhile isTypeChar).length := congrArg List.length run
    rw [Recognizer.items_of_read?_eq_none missing
      (List.append_ne_nil_of_right_ne_nil _ (List.cons_ne_nil _ _)), stride]
    cases part with
    | nil => rfl
    | cons first part =>
      have within : (((first :: part).takeWhile isTypeChar)).length ≤ (first :: part).length :=
        (List.takeWhile_prefix _).length_le
      have short : max 1 ((first :: part).takeWhile isTypeChar).length ≤ (first :: part).length :=
        Nat.max_le.mpr ⟨by rw [List.length_cons]; omega, within⟩
      rw [List.drop_append_of_le_length short]
      refine inductionHypothesis _ ?_ (fun member => unopened (List.mem_of_mem_drop member)) rfl
      rw [List.length_drop]
      rw [List.length_cons] at size ⊢
      omega

end Header

end EngineDocs
