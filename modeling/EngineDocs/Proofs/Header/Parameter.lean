/-
This file shows what the parameters of a list are made of. A parameter is a trimmed part of the
list, its type and its name are parts of it up to runs of blanks, and so nothing without blanks
stands in a parameter that does not stand in the list.
-/

import EngineDocs.Header.Parameter
import EngineDocs.Proofs.Text.Blanks
import EngineDocs.Proofs.Text.Pieces

namespace EngineDocs.Header

/-! ### Cutting a list -/

theorem exists_piecesFrom (depth : Int) (text : Text) :
    ∃ piece rest, piecesFrom depth text = piece :: rest := by
  cases text with
  | nil => exact ⟨_, _, rfl⟩
  | cons c text =>
    rw [piecesFrom]
    split
    · exact ⟨_, _, rfl⟩
    · dsimp only
      split <;> exact ⟨_, _, rfl⟩

theorem isPrefix_head_piecesFrom {depth : Int} {text piece : Text} {rest : List Text}
    (divided : piecesFrom depth text = piece :: rest) : piece <+: text := by
  induction text generalizing depth piece rest with
  | nil =>
    obtain ⟨rfl, _⟩ := List.cons.inj divided
    exact List.nil_prefix
  | cons c text inductionHypothesis =>
    rw [piecesFrom] at divided
    split at divided
    · obtain ⟨rfl, _⟩ := List.cons.inj divided
      exact List.nil_prefix
    · dsimp only at divided
      split at divided
      · obtain ⟨rfl, _⟩ := List.cons.inj divided
        exact List.cons_prefix_cons.mpr ⟨rfl, List.nil_prefix⟩
      · rename_i found
        obtain ⟨rfl, _⟩ := List.cons.inj divided
        exact List.cons_prefix_cons.mpr ⟨rfl, inductionHypothesis found⟩

theorem infix_of_mem_piecesFrom {depth : Int} {text piece : Text}
    (member : piece ∈ piecesFrom depth text) : piece <:+: text := by
  induction text generalizing depth with
  | nil =>
    rw [List.mem_singleton.mp member]
  | cons c text inductionHypothesis =>
    cases divided : piecesFrom depth (c :: text) with
    | nil => exact absurd (divided ▸ member) List.not_mem_nil
    | cons first rest =>
      rw [divided] at member
      rcases List.mem_cons.mp member with rfl | later
      · exact (isPrefix_head_piecesFrom divided).isInfix
      · rw [piecesFrom] at divided
        split at divided
        · obtain ⟨_, rfl⟩ := List.cons.inj divided
          exact List.infix_cons (inductionHypothesis later)
        · dsimp only at divided
          split at divided
          · obtain ⟨_, rfl⟩ := List.cons.inj divided
            exact absurd later List.not_mem_nil
          · rename_i found
            obtain ⟨_, rfl⟩ := List.cons.inj divided
            exact List.infix_cons (inductionHypothesis (found ▸ List.mem_cons_of_mem _ later))

theorem infix_of_mem_splitParameters {raw part : Text} (member : part ∈ splitParameters raw) :
    part <:+: raw := by
  obtain ⟨piece, listed, rfl⟩ := List.mem_map.mp (List.mem_filter.mp member).1
  exact (Text.trim_infix piece).trans (infix_of_mem_piecesFrom listed)

/-- How many more angle brackets are opened than closed behind a part of a list, when it is `depth`
before it. -/
def depthBehind (depth : Int) (part : Text) : Int := depth + part.count '<' - part.count '>'

theorem depthBehind_append (depth : Int) (front back : Text) :
    depthBehind depth (front ++ back) = depthBehind (depthBehind depth front) back := by
  simp only [depthBehind, List.count_append]
  omega

theorem depthBehind_cons (depth : Int) (c : Char) (text : Text) :
    depthBehind depth (c :: text) =
      depthBehind (if c == '<' then depth + 1 else if c == '>' then depth - 1 else depth) text := by
  simp only [depthBehind, List.count_cons]
  by_cases opening : c = '<'
  · subst opening
    simp only [beq_self_eq_true, if_true, Char.reduceBEq, Bool.false_eq_true, if_false]
    omega
  · by_cases closing : c = '>'
    · subst closing
      simp only [beq_self_eq_true, if_true, Char.reduceBEq, Bool.false_eq_true, if_false]
      omega
    · simp only [beq_eq_false_iff_ne.mpr opening, beq_eq_false_iff_ne.mpr closing,
        Bool.false_eq_true, if_false]
      omega

/-- No comma of the part divides the list when the part begins at `depth`. -/
def Uncut (depth : Int) (part : Text) : Prop :=
  ∀ front back, part = front ++ ',' :: back → depthBehind depth front ≠ 0

theorem uncut_of_not_mem {part : Text} (noComma : ',' ∉ part) (depth : Int) : Uncut depth part := by
  rintro front back rfl
  exact absurd (List.mem_append_right _ List.mem_cons_self) noComma

theorem uncut_singleton {depth : Int} {c : Char} (inside : ¬(c = ',' ∧ depth = 0)) :
    Uncut depth [c] := by
  intro front back divided
  cases front with
  | nil =>
    obtain ⟨rfl, _⟩ := List.cons.inj divided
    have same : depthBehind depth [] = depth := by simp only [depthBehind, List.count_nil]; omega
    rw [same]
    exact fun zero => inside ⟨rfl, zero⟩
  | cons _ front =>
    exact absurd (List.cons.inj divided).2.symm
      (List.append_ne_nil_of_right_ne_nil _ (List.cons_ne_nil _ _))

theorem Uncut.append {depth : Int} {front back : Text} (frontUncut : Uncut depth front)
    (backUncut : Uncut (depthBehind depth front) back) : Uncut depth (front ++ back) := by
  intro before behind divided
  rcases List.append_eq_append_iff.mp divided with ⟨middle, rfl, rest⟩ | ⟨middle, rfl, rest⟩
  · rw [depthBehind_append]
    exact backUncut middle behind rest
  · cases middle with
    | nil =>
      have start := backUncut [] behind rest.symm
      rw [← depthBehind_append, List.append_nil, List.append_nil] at start
      exact start
    | cons c middle =>
      obtain ⟨rfl, _⟩ := List.cons.inj rest
      exact frontUncut before middle rfl

/-- An uncut part belongs to the first piece of what it begins. -/
theorem piecesFrom_append {depth : Int} {part : Text} (uncut : Uncut depth part)
    {rest piece : Text} {more : List Text}
    (divided : piecesFrom (depthBehind depth part) rest = piece :: more) :
    piecesFrom depth (part ++ rest) = (part ++ piece) :: more := by
  induction part generalizing depth with
  | nil =>
    rw [depthBehind, List.count_nil, List.count_nil, Int.add_sub_cancel] at divided
    exact divided
  | cons c part inductionHypothesis =>
    have inside : ¬(c == ',' && depth == 0) = true := by
      rw [Bool.and_eq_true, beq_iff_eq, beq_iff_eq]
      rintro ⟨rfl, rfl⟩
      exact uncut [] part rfl rfl
    rw [depthBehind_cons] at divided
    have found := inductionHypothesis
      (fun front back same =>
        depthBehind_cons depth c front ▸ uncut (c :: front) back (congrArg (c :: ·) same)) divided
    rw [List.cons_append, piecesFrom, if_neg inside]
    simp only [found]
    rfl

/-- A part of a list that no comma of its own divides and that closes the brackets it opens. -/
structure IsClosed (part : Text) : Prop where
  balanced : part.count '<' = part.count '>'
  uncut : Uncut 0 part

theorem IsClosed.depthBehind_eq {part : Text} (isClosed : IsClosed part) :
    depthBehind 0 part = 0 := by
  rw [depthBehind, isClosed.balanced]
  omega

theorem isClosed_of_not_mem {part : Text} (plain : ∀ c ∈ [',', '<', '>'], c ∉ part) :
    IsClosed part where
  balanced := by
    rw [List.count_eq_zero_of_not_mem (plain '<' (by decide)),
      List.count_eq_zero_of_not_mem (plain '>' (by decide))]
  uncut := uncut_of_not_mem (plain ',' (by decide)) 0

theorem IsClosed.append {first second : Text} (firstClosed : IsClosed first)
    (secondClosed : IsClosed second) : IsClosed (first ++ second) where
  balanced := by
    rw [List.count_append, List.count_append, firstClosed.balanced, secondClosed.balanced]
  uncut := firstClosed.uncut.append (firstClosed.depthBehind_eq.symm ▸ secondClosed.uncut)

theorem IsClosed.piecesFrom_eq {part : Text} (isClosed : IsClosed part) :
    piecesFrom 0 part = [part] := by
  have divided : piecesFrom (depthBehind 0 part) [] = [[]] := rfl
  have whole := piecesFrom_append isClosed.uncut divided
  rw [List.append_nil] at whole
  exact whole

theorem IsClosed.piecesFrom_append_comma {part : Text} (isClosed : IsClosed part) (rest : Text) :
    piecesFrom 0 (part ++ ',' :: rest) = part :: piecesFrom 0 rest := by
  have divided : piecesFrom (depthBehind 0 part) (',' :: rest) = [] :: piecesFrom 0 rest := by
    rw [isClosed.depthBehind_eq]
    rfl
  have whole := piecesFrom_append isClosed.uncut divided
  rw [List.append_nil] at whole
  exact whole

theorem piecesFrom_joinWith {part : Text} {parts : List Text}
    (closed : ∀ text ∈ part :: parts, IsClosed text) :
    piecesFrom 0 (Text.joinWith [',', ' '] (part :: parts)) = part :: parts.map (' ' :: ·) := by
  induction parts generalizing part with
  | nil => exact (closed part List.mem_cons_self).piecesFrom_eq
  | cons next parts inductionHypothesis =>
    obtain ⟨here, further⟩ := List.forall_mem_cons.mp closed
    obtain ⟨behind, later⟩ := List.forall_mem_cons.mp further
    -- The space behind the comma counts as the start of the next part.
    have spaced : IsClosed (' ' :: next) :=
      (@isClosed_of_not_mem [' '] (by decide)).append behind
    have moved : Text.joinWith [',', ' '] (part :: next :: parts) =
        part ++ ',' :: Text.joinWith [',', ' '] ((' ' :: next) :: parts) := by
      rw [Text.joinWith_cons_cons, List.append_assoc]
      cases parts <;> rfl
    rw [moved, here.piecesFrom_append_comma,
      inductionHypothesis (List.forall_mem_cons.mpr ⟨spaced, later⟩), List.map_cons]

/-! ### Reading one parameter -/

theorem isPrefix_beforeDefault (text : Text) : beforeDefault text <+: text := by
  induction text with
  | nil => exact List.nil_prefix
  | cons c text inductionHypothesis =>
    rw [beforeDefault]
    split
    · exact List.nil_prefix
    · exact List.cons_prefix_cons.mpr ⟨rfl, inductionHypothesis⟩

theorem beforeDefault_of_not_mem {text : Text} (noDefault : '=' ∉ text) :
    beforeDefault text = text := by
  induction text with
  | nil => rfl
  | cons c text inductionHypothesis =>
    obtain ⟨other, later⟩ := not_or.mp (mt List.mem_cons.mpr noDefault)
    have here : ¬(c == '=' && isDefaultValue text) = true := by
      rw [Bool.and_eq_true, beq_iff_eq]
      exact fun both => other both.1.symm
    rw [beforeDefault, if_neg here, inductionHypothesis later]

/-- What the type of a parameter, the blanks behind it and its name have in common wherever a text
is divided into them. -/
structure IsDivision (type gap name : Text) : Prop where
  type_ne_nil : type ≠ []
  type_ends : Text.Ends Text.isBlank type.reverse
  type_line : '\n' ∉ type
  gap_ne_nil : gap ≠ []
  gap_blank : ∀ c ∈ gap, Text.isBlank c = true
  name_ne_nil : name ≠ []
  name_word : ∀ c ∈ name, Text.isWord c = true

theorem IsDivision.of_typeAndName? {text type name : Text}
    (read : typeAndName? text = some (type, name)) :
    ∃ gap, text = type ++ (gap ++ name) ∧ IsDivision type gap name := by
  rw [typeAndName?] at read
  split at read
  · exact nomatch read
  · rename_i solid
    simp only [Bool.or_eq_true, List.isEmpty_iff, List.contains_iff_mem, not_or] at solid
    obtain ⟨⟨⟨nameSolid, gapSolid⟩, typeSolid⟩, oneLine⟩ := solid
    obtain ⟨rfl, rfl⟩ := Prod.mk.inj (Option.some.inj read)
    refine ⟨(Text.leadingBlanks (Text.skipWord text.reverse)).reverse, ?_, ?_⟩
    · rw [← List.reverse_append, ← List.reverse_append, List.append_assoc,
        Text.leadingBlanks_append_skipBlanks, Text.leadingWord_append_skipWord,
        List.reverse_reverse]
    · exact {
        type_ne_nil := typeSolid
        type_ends := by
          rw [List.reverse_reverse]
          exact Text.ends_dropWhile Text.isBlank _
        type_line := oneLine
        gap_ne_nil := mt List.reverse_eq_nil_iff.mp gapSolid
        gap_blank := fun c member => Text.isBlank_of_mem_leadingBlanks (List.mem_reverse.mp member)
        name_ne_nil := nameSolid
        name_word := fun c member => Text.isWord_of_mem_leadingWord (List.mem_reverse.mp member) }

theorem IsDivision.typeAndName?_eq {type gap name : Text} (division : IsDivision type gap name) :
    typeAndName? (type ++ (gap ++ name)) = some (type, name) := by
  have backwards : (type ++ (gap ++ name)).reverse =
      name.reverse ++ (gap.reverse ++ type.reverse) := by
    rw [List.reverse_append, List.reverse_append, List.append_assoc]
  have word : ∀ c ∈ name.reverse, Text.isWord c = true := fun c member =>
    division.name_word c (List.mem_reverse.mp member)
  have blank : ∀ c ∈ gap.reverse, Text.isBlank c = true := fun c member =>
    division.gap_blank c (List.mem_reverse.mp member)
  have gapSolid : gap.reverse ≠ [] := mt List.reverse_eq_nil_iff.mp division.gap_ne_nil
  have wordEnds : Text.Ends Text.isWord (gap.reverse ++ type.reverse) :=
    Text.ends_isWord_append gapSolid blank
  rw [typeAndName?, backwards]
  simp only [Text.leadingWord, Text.skipWord, Text.leadingBlanks, Text.skipBlanks,
    Text.takeWhile_append_of_ends word wordEnds, Text.dropWhile_append_of_ends word wordEnds,
    Text.takeWhile_append_of_ends blank division.type_ends,
    Text.dropWhile_append_of_ends blank division.type_ends, List.reverse_reverse]
  refine if_neg ?_
  simp only [Bool.or_eq_true, List.isEmpty_iff, List.contains_iff_mem, not_or]
  exact ⟨⟨⟨division.name_ne_nil, gapSolid⟩, division.type_ne_nil⟩, division.type_line⟩

/-- A text is divided into a type and a name exactly when it consists of the two with blanks between
them. -/
theorem typeAndName?_eq_some_iff {text type name : Text} :
    typeAndName? text = some (type, name) ↔
      ∃ gap, text = type ++ (gap ++ name) ∧ IsDivision type gap name := by
  constructor
  · exact IsDivision.of_typeAndName?
  · rintro ⟨gap, rfl, division⟩
    exact division.typeAndName?_eq

theorem IsDivision.isTrimmed {type gap name : Text} (division : IsDivision type gap name)
    (start : Text.Ends Text.isBlank type) : Text.IsTrimmed (type ++ (gap ++ name)) :=
  Text.IsTrimmed.append ⟨start, division.type_ends⟩
    (Text.isTrimmed_of_forall fun c member =>
      Text.isBlank_eq_false_of_isWord (division.name_word c member))
    division.type_ne_nil division.name_ne_nil gap

/-- A collapsed type and a name behind it are read as they are written. -/
theorem IsDivision.parseParameter_eq {type gap name : Text} (division : IsDivision type gap name)
    (start : Text.Ends Text.isBlank type) (collapsed : Text.collapseBlanks type = type)
    (noDefault : '=' ∉ type) :
    parseParameter (type ++ (gap ++ name)) = some ⟨String.ofList name, String.ofList type⟩ := by
  have whole : '=' ∉ type ++ (gap ++ name) := by
    rw [List.mem_append, List.mem_append, not_or, not_or]
    exact ⟨noDefault, Text.not_mem_of_isBlank division.gap_blank rfl,
      Text.not_mem_of_isWord division.name_word rfl⟩
  rw [parseParameter, beforeDefault_of_not_mem whole, (division.isTrimmed start).trim_eq]
  simp only [division.typeAndName?_eq, Text.IsTrimmed.trim_eq ⟨start, division.type_ends⟩,
    collapsed]

/-! ### Whole lists -/

theorem parseParameter_nil : parseParameter [] = none := rfl

/-- Each closed part of a joined list is read by itself. -/
theorem parseParameters_joinWith {parts : List Text} (closed : ∀ part ∈ parts, IsClosed part) :
    parseParameters (Text.joinWith [',', ' '] parts) =
      parts.filterMap (parseParameter ∘ Text.trim) := by
  have kept : (fun part : Text => if !part.isEmpty then parseParameter part else none) =
      parseParameter := by
    funext part
    cases part with
    | nil =>
      rw [parseParameter_nil]
      rfl
    | cons c part => exact if_pos rfl
  have spaced : (Text.trim ∘ (' ' :: ·)) = Text.trim := by
    funext part
    exact congrArg Text.trimEnd (List.dropWhile_cons_of_pos rfl)
  rw [parseParameters, splitParameters, List.filterMap_filter, kept]
  cases parts with
  | nil =>
    have empty : (piecesFrom 0 []).map Text.trim = [[]] := rfl
    rw [Text.joinWith, empty, List.filterMap_cons_none parseParameter_nil, List.filterMap_nil,
      List.filterMap_nil]
  | cons part parts =>
    rw [piecesFrom_joinWith closed, List.map_cons, List.map_map, spaced, ← List.map_cons,
      List.filterMap_map]

/-- The type and the name of a parameter. -/
structure IsParameter (parameter : Parameter) : Prop where
  type_ne_nil : parameter.type.toList ≠ []
  type_trimmed : Text.IsTrimmed parameter.type.toList
  name_word : ∀ c ∈ parameter.name.toList, Text.isWord c = true

theorem isParameter_of_parseParameter {raw : Text} {parameter : Parameter}
    (read : parseParameter raw = some parameter) :
    IsParameter parameter ∧ ∀ literal : Text, (∀ c ∈ literal, Text.isBlank c = false) →
      literal <:+: parameter.name.toList ∨ literal <:+: parameter.type.toList →
      literal <:+: raw := by
  have isTrimmed := Text.isTrimmed_trim (beforeDefault raw)
  have inside : Text.trim (beforeDefault raw) <:+: raw :=
    (Text.trim_infix _).trans (isPrefix_beforeDefault raw).isInfix
  rw [parseParameter] at read
  generalize Text.trim (beforeDefault raw) = declared at isTrimmed inside read
  split at read
  · rename_i type name divided
    obtain rfl := Option.some.inj read
    obtain ⟨gap, rfl, division⟩ := typeAndName?_eq_some_iff.mp divided
    have typeTrimmed : Text.IsTrimmed type :=
      ⟨isTrimmed.start.of_isPrefix (List.prefix_append _ _), division.type_ends⟩
    rw [typeTrimmed.trim_eq]
    simp only [String.toList_ofList]
    refine ⟨⟨?_, ?_, ?_⟩, fun literal literalSolid found => ?_⟩
    · rw [String.toList_ofList]
      exact Text.collapseBlanks_ne_nil division.type_ne_nil
    · rw [String.toList_ofList]
      exact typeTrimmed.collapseBlanks
    · rw [String.toList_ofList]
      exact division.name_word
    · refine List.IsInfix.trans ?_ inside
      rcases found with inName | inType
      · exact inName.trans ((List.suffix_append _ _).trans (List.suffix_append _ _)).isInfix
      · exact (Text.infix_of_infix_collapseFrom literalSolid inType).trans
          (List.prefix_append _ _).isInfix
  · split at read
    · exact nomatch read
    · rename_i solid
      obtain rfl := Option.some.inj read
      simp only [String.toList_ofList]
      refine ⟨⟨?_, ?_, nofun⟩, fun literal _ found => ?_⟩
      · rw [String.toList_ofList]
        exact fun empty => solid (List.isEmpty_iff.mpr empty)
      · rw [String.toList_ofList]
        exact isTrimmed
      · rcases found with inName | inType
        · rw [List.infix_nil.mp inName]
          exact List.nil_infix
        · exact inType.trans inside

/-- Every parameter of a list has a trimmed type and an identifier or nothing for a name, and what
stands in it without blanks stands in the list. -/
theorem isParameter_of_mem_parseParameters {raw : Text} {parameter : Parameter}
    (member : parameter ∈ parseParameters raw) :
    IsParameter parameter ∧ ∀ literal : Text, (∀ c ∈ literal, Text.isBlank c = false) →
      literal <:+: parameter.name.toList ∨ literal <:+: parameter.type.toList →
      literal <:+: raw := by
  obtain ⟨part, listed, read⟩ := List.mem_filterMap.mp member
  obtain ⟨isParameter, inside⟩ := isParameter_of_parseParameter read
  exact ⟨isParameter, fun literal solid found =>
    (inside literal solid found).trans (infix_of_mem_splitParameters listed)⟩

end EngineDocs.Header
