/-
This file says what becomes of the names in a rules file. String literals are looked for from left
to right, so every second quote closes one as long as no literal is empty, and an empty literal
exchanges the opening and the closing quotes behind it. The names that are added to the list of a
kind are collected in order, and of equal names the first one stays.
-/

import EngineDocs.Proofs.Grouping
import EngineDocs.Proofs.Rules.Statement

namespace EngineDocs

/-! ### Lists without repetitions -/

namespace Dependencies

theorem get_push_of_ne (dependencies : Dependencies) {kind other : DependencyKind} (name : String)
    (apart : kind ≠ other) : (dependencies.push kind name).get other = dependencies.get other := by
  have set : ∀ names, (dependencies.set names kind).get other = dependencies.get other := by
    intro names
    cases kind <;> cases other <;> first | rfl | exact absurd rfl apart
  rw [push]
  split
  · rfl
  · exact set _

/-- A list that holds the first of equal names still does so when a name is added. -/
theorem get_push {dependencies : Dependencies} {kind : DependencyKind} {names : List String}
    (collected : dependencies.get kind = names.eraseDups) (name : String) :
    (dependencies.push kind name).get kind = (names ++ [name]).eraseDups := by
  have set : ∀ names, (dependencies.set names kind).get kind = names := by
    cases kind <;> exact fun _ => rfl
  rw [push, collected, eraseDups_concat]
  by_cases known : name ∈ names
  · rw [if_pos (List.contains_iff_mem.mpr (List.mem_eraseDups.mpr known)), if_pos known, collected]
  · rw [if_neg (mt List.contains_iff_mem.mp (mt List.mem_eraseDups.mp known)), if_neg known, set]

variable (added : List String)

theorem get_foldl_push_of_ne (dependencies : Dependencies) {kind other : DependencyKind}
    (apart : kind ≠ other) :
    (added.foldl (fun sofar name => sofar.push kind name) dependencies).get other =
      dependencies.get other := by
  induction added generalizing dependencies with
  | nil => rfl
  | cons name added inductionHypothesis =>
    rw [List.foldl_cons, inductionHypothesis, get_push_of_ne _ _ apart]

theorem get_foldl_push {dependencies : Dependencies} {kind : DependencyKind} {names : List String}
    (collected : dependencies.get kind = names.eraseDups) :
    (added.foldl (fun sofar name => sofar.push kind name) dependencies).get kind =
      (names ++ added).eraseDups := by
  induction added generalizing dependencies names with
  | nil => rw [List.append_nil, ← collected, List.foldl_nil]
  | cons name added inductionHypothesis =>
    rw [List.foldl_cons, inductionHypothesis (get_push collected name), List.append_assoc,
      List.singleton_append]

end Dependencies

namespace Rules

open Recognizer

/-- The list of a kind holds the names that are added to it, in the order in which they are first
added. -/
theorem get_parse (content : String) (kind : DependencyKind) :
    (parse content).get kind = (addedNames content.toList kind).eraseDups := by
  have collect : ∀ dependencies : Dependencies, dependencies.get kind = [] →
      ((addedNames content.toList kind).foldl (fun sofar name => sofar.push kind name)
        dependencies).get kind = (addedNames content.toList kind).eraseDups :=
    fun _ empty => @Dependencies.get_foldl_push _ _ kind [] empty
  have skip : ∀ other ≠ kind, ∀ dependencies : Dependencies,
      ((addedNames content.toList other).foldl (fun sofar name => sofar.push other name)
        dependencies).get kind = dependencies.get kind :=
    fun _ apart _ => Dependencies.get_foldl_push_of_ne _ _ apart
  unfold parse DependencyKind.all
  rw [List.foldl_cons, List.foldl_cons, List.foldl_cons, List.foldl_nil]
  cases kind with
  | «public» =>
    rw [skip .dynamic nofun, skip .private nofun, collect _ rfl]
  | «private» =>
    have empty := skip .public nofun {}
    rw [skip .dynamic nofun, collect _ empty]
  | dynamic =>
    have empty := (skip .private nofun _).trans (skip .public nofun {})
    rw [collect _ empty]

variable {kind : DependencyKind}

theorem addedNames_append_of_passes {part : Text} (passes : (Statement.recognizer kind).Passes part)
    (rest : Text) : addedNames (part ++ rest) kind = addedNames rest kind := by
  unfold addedNames
  rw [passes rest]

/-- What is read at the start of a text is added first. -/
theorem addedNames_of_read? {text rest : Text} {statement : Statement}
    (read : (Statement.recognizer kind).read? (text ++ rest) = some statement)
    (same : statement.text = text) (solid : text ≠ []) :
    addedNames (text ++ rest) kind =
      statement.addition.names.map String.ofList ++ addedNames rest kind := by
  unfold addedNames
  rw [items_text_append solid same read, List.flatMap_cons]

/-- The literals in an initializer are added. -/
theorem addedNames_range {opening initializer : Text}
    (isOpening : IsShape (Statement.rangeOpening kind.rulesField) opening)
    (solid : initializer ≠ []) (unclosed : '}' ∉ initializer) (rest : Text) :
    addedNames (opening ++ (initializer ++ '}' :: rest)) kind =
      (literals.items initializer).map String.ofList ++ addedNames rest kind := by
  have read := Statement.recognizer_read?_of_range isOpening solid unclosed rest
  rw [List.append_cons initializer, ← List.append_assoc, ← List.append_assoc] at read ⊢
  exact addedNames_of_read? read rfl (List.append_ne_nil_of_right_ne_nil _ (List.cons_ne_nil _ _))

/-- A name in quotes is added. -/
theorem addedNames_single {opening name closing : Text}
    (isOpening : IsShape (Statement.singleOpening kind.rulesField) opening) (solid : name ≠ [])
    (unquoted : '"' ∉ name) (isClosing : IsShape Statement.singleClosing closing) (rest : Text) :
    addedNames (opening ++ (name ++ (closing ++ rest))) kind =
      String.ofList name :: addedNames rest kind := by
  have read := Statement.recognizer_read?_of_single isOpening solid unquoted isClosing rest
  have closed : closing ≠ [] := by
    obtain ⟨more, rfl, _⟩ := isClosing
    exact List.cons_ne_nil _ _
  rw [← List.append_assoc, ← List.append_assoc] at read ⊢
  exact addedNames_of_read? read rfl (List.append_ne_nil_of_right_ne_nil _ closed)

/-! ### String literals -/

theorem literals_passes {part : Text} (unquoted : '"' ∉ part) : literals.Passes part := by
  refine passes_of_singletons fun c member rest => items_cons rfl ?_
  show readLiteral? (c :: rest) = none
  unfold readLiteral?
  split
  · rename_i same
    exact absurd ((List.cons.inj same).1 ▸ member) unquoted
  · rfl

/-- What stands between two quotes is found, and the search goes on behind the second one. -/
theorem items_literal {value : Text} (solid : value ≠ []) (unquoted : '"' ∉ value) (rest : Text) :
    literals.items ('"' :: (value ++ '"' :: rest)) = value :: literals.items rest := by
  have read : literals.read? (('"' :: value ++ ['"']) ++ rest) = some value := by
    show readLiteral? ('"' :: (value ++ ['"'] ++ rest)) = some value
    rw [List.append_assoc, List.singleton_append]
    unfold readLiteral?
    simp only [Text.takeWhile_append_mark unquoted, List.drop_left]
    cases value with
    | nil => exact absurd rfl solid
    | cons c value => rfl
  rw [List.append_cons value]
  exact items_text_append (List.cons_ne_nil _ _) rfl read

/-- Of two quotes side by side the first one is passed over. -/
theorem items_empty_literal (rest : Text) :
    literals.items ('"' :: '"' :: rest) = literals.items ('"' :: rest) :=
  items_cons rfl rfl

/-- A quote that no other one follows is passed over. -/
theorem items_last_quote {part : Text} (unquoted : '"' ∉ part) :
    literals.items ('"' :: part) = [] := by
  have missing : literals.read? ('"' :: part) = none := by
    show readLiteral? ('"' :: part) = none
    unfold readLiteral?
    simp only [Text.takeWhile_of_not_mem unquoted, List.drop_length]
  rw [items_cons rfl missing, ← List.append_nil part, literals_passes unquoted, items_nil]

end Rules

end EngineDocs
