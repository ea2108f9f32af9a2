/-
This file shows when it matters how a parameter list is laid out. Writing each run of blanks as one
space changes none of the commas and brackets by which the list is cut, so what is read of the list
stays the same exactly when what is read of each of its parts does. A part is read differently when
a line feed stands in a default value or in a type with a name behind it, because both are only
looked for on one line, and when a type without a name has other blanks than single spaces, because
only a type with a name is collapsed.
-/

import EngineDocs.Proofs.Header.ParameterReading

namespace EngineDocs

theorem length_filterMap_mono {α β : Type} {first second : α → Option β} {items : List α}
    (fewer : ∀ item ∈ items, second item = none → first item = none) :
    (items.filterMap first).length ≤ (items.filterMap second).length := by
  rw [List.length_filterMap_eq_countP, List.length_filterMap_eq_countP]
  refine List.countP_mono_left fun item member found => ?_
  rw [Option.isSome_iff_ne_none] at found ⊢
  exact mt (fewer item member) found

/-- Of two ways to read the items of a list, the first of which reads nothing that the second does
not read, the same is read only if each item is read in the same way. -/
theorem filterMap_eq_filterMap_iff {α β : Type} {first second : α → Option β} {items : List α}
    (fewer : ∀ item ∈ items, second item = none → first item = none) :
    items.filterMap first = items.filterMap second ↔ ∀ item ∈ items, first item = second item := by
  constructor
  · intro same
    induction items with
    | nil => exact nofun
    | cons item items inductionHypothesis =>
      obtain ⟨here, later⟩ := List.forall_mem_cons.mp fewer
      rw [List.forall_mem_cons]
      cases found : second item with
      | none =>
        rw [List.filterMap_cons_none found, List.filterMap_cons_none (here found)] at same
        exact ⟨here found, inductionHypothesis later same⟩
      | some value =>
        cases other : first item with
        | none =>
          -- The first way would have to make up for the item further on.
          have short := length_filterMap_mono later
          rw [List.filterMap_cons_some found, List.filterMap_cons_none other] at same
          rw [same, List.length_cons] at short
          exact absurd short (Nat.not_succ_le_self _)
        | some value' =>
          rw [List.filterMap_cons_some found, List.filterMap_cons_some other] at same
          obtain ⟨rfl, rest⟩ := List.cons.inj same
          exact ⟨rfl, inductionHypothesis later rest⟩
  · exact List.filterMap_congr

namespace Header

/-! ### Cutting a collapsed list -/

theorem depthBehind_of_isBlank {c : Char} (blank : Text.isBlank c = true) (depth : Int) :
    depthBehind depth [c] = depth := by
  have foreign : ∀ bracket ∈ ['<', '>'], Text.isBlank bracket = false := by decide
  have none : ∀ bracket ∈ ['<', '>'], List.count bracket [c] = 0 := fun bracket listed =>
    List.count_eq_zero_of_not_mem
      (Text.not_mem_of_isBlank (List.forall_mem_singleton.mpr blank) (foreign bracket listed))
  rw [depthBehind, none '<' (by decide), none '>' (by decide)]
  omega

/-- A collapsed list is cut at the same commas. -/
theorem piecesFrom_collapseFrom {depth : Int} {inRun : Bool} {text piece : Text}
    {rest : List Text} (divided : piecesFrom depth text = piece :: rest) :
    piecesFrom depth (Text.collapseFrom inRun text) =
      Text.collapseFrom inRun piece :: rest.map Text.collapseBlanks := by
  induction text generalizing depth inRun piece rest with
  | nil =>
    obtain ⟨rfl, rfl⟩ := List.cons.inj divided
    rfl
  | cons c text inductionHypothesis =>
    by_cases cut : c = ',' ∧ depth = 0
    · obtain ⟨rfl, rfl⟩ := cut
      obtain ⟨rfl, rfl⟩ := List.cons.inj divided
      obtain ⟨first, more, found⟩ := exists_piecesFrom 0 text
      have comma : ∀ behind, piecesFrom 0 (',' :: behind) = [] :: piecesFrom 0 behind :=
        fun _ => rfl
      have collapsed : Text.collapseFrom inRun (',' :: text) = ',' :: Text.collapseBlanks text :=
        Text.collapseFrom_append_cons rfl inRun [] text
      rw [collapsed, comma, Text.collapseBlanks, inductionHypothesis found, found]
      rfl
    · obtain ⟨first, more, found⟩ := exists_piecesFrom (depthBehind depth [c]) text
      have whole := piecesFrom_append (uncut_singleton cut) found
      rw [List.singleton_append, divided] at whole
      obtain ⟨rfl, rfl⟩ := List.cons.inj whole
      rw [List.singleton_append, Text.collapseFrom, Text.collapseFrom]
      by_cases blank : Text.isBlank c = true
      · rw [depthBehind_of_isBlank blank] at found
        rw [if_pos blank, if_pos blank]
        split
        · exact inductionHypothesis found
        · have space : depthBehind depth [' '] = depth := depthBehind_of_isBlank rfl depth
          have uncut : Uncut depth [' '] := uncut_of_not_mem (by decide) depth
          exact piecesFrom_append uncut (space.symm ▸ inductionHypothesis found)
      · rw [if_neg blank, if_neg blank]
        exact piecesFrom_append (uncut_singleton cut) (inductionHypothesis found)

theorem isEmpty_collapseBlanks (text : Text) :
    (Text.collapseBlanks text).isEmpty = text.isEmpty := by
  cases text with
  | nil => rfl
  | cons c text =>
    exact List.isEmpty_eq_false_iff.mpr (Text.collapseBlanks_ne_nil (List.cons_ne_nil _ _))

/-- The parts of a collapsed list are the collapsed parts of the list. -/
theorem splitParameters_collapseBlanks (raw : Text) :
    splitParameters (Text.collapseBlanks raw) =
      (splitParameters raw).map Text.collapseBlanks := by
  obtain ⟨piece, rest, divided⟩ := exists_piecesFrom 0 raw
  have collapsed : piecesFrom 0 (Text.collapseBlanks raw) =
      (piece :: rest).map Text.collapseBlanks := piecesFrom_collapseFrom divided
  have trimmed : Text.trim ∘ Text.collapseBlanks = Text.collapseBlanks ∘ Text.trim :=
    funext Text.trim_collapseBlanks
  have kept : ((!·.isEmpty) ∘ Text.collapseBlanks : Text → Bool) = (!·.isEmpty) :=
    funext fun text => congrArg (!·) (isEmpty_collapseBlanks text)
  rw [splitParameters, splitParameters, collapsed, divided, List.map_map, trimmed, ← List.map_map,
    List.filter_map, kept]

/-! ### The text before a default value -/

/-- A text without line feeds ends before its first equality sign, whatever follows the sign. -/
theorem beforeDefault_append {front : Text} (clear : '=' ∉ front) (back : Text) :
    beforeDefault (front ++ back) = front ++ beforeDefault back := by
  induction front with
  | nil => rfl
  | cons c front inductionHypothesis =>
    obtain ⟨other, later⟩ := not_or.mp (mt List.mem_cons.mpr clear)
    have here : ¬(c == '=' && isDefaultValue (front ++ back)) = true := by
      rw [Bool.and_eq_true, beq_iff_eq]
      exact fun both => other both.1.symm
    rw [List.cons_append, beforeDefault, if_neg here, inductionHypothesis later, List.cons_append]

theorem beforeDefault_sign {back : Text} (begins : BeginsDefault ('=' :: back)) :
    beforeDefault ('=' :: back) = [] := by
  rw [beforeDefault, if_pos (beforeDefault_stops_iff.mpr begins)]

theorem not_mem_collapseBlanks (text : Text) : '\n' ∉ Text.collapseBlanks text := by
  intro member
  rcases Text.mem_collapseFrom member with same | ⟨_, solid⟩
  · exact absurd same (by decide)
  · exact absurd solid (by decide)

/-- What stands in a part of a list before its first equality sign, without outer blanks. -/
def beforeSign (part : Text) : Text := Text.trim (part.takeWhile (· != '='))

theorem beforeSign_append {front : Text} (clear : '=' ∉ front) (back : Text) :
    beforeSign (front ++ '=' :: back) = Text.trim front := by
  rw [beforeSign, Text.takeWhile_append_mark clear]

theorem beforeSign_of_not_mem {part : Text} (clear : '=' ∉ part) :
    beforeSign part = Text.trim part := by
  rw [beforeSign, Text.takeWhile_of_not_mem clear]

/-- In a collapsed part every equality sign has a default value behind it. -/
theorem parseParameter_collapseBlanks (part : Text) :
    parseParameter (Text.collapseBlanks part) =
      readDeclared (Text.collapseBlanks (beforeSign part)) := by
  rw [parseParameter_eq_readDeclared]
  by_cases signed : '=' ∈ part
  · obtain ⟨front, back, rfl, clear⟩ := List.eq_append_cons_of_mem signed
    have stop : '=' ∉ Text.collapseBlanks front :=
      mt (Text.mem_collapseFrom_iff rfl).mp clear
    have begins : BeginsDefault ('=' :: Text.collapseBlanks back) :=
      ⟨[], _, rfl, nofun, not_mem_collapseBlanks back⟩
    have divided : Text.collapseBlanks (front ++ '=' :: back) =
        Text.collapseBlanks front ++ '=' :: Text.collapseBlanks back :=
      Text.collapseFrom_append_cons rfl false front back
    rw [divided, beforeDefault_append stop, beforeDefault_sign begins, List.append_nil,
      Text.trim_collapseBlanks, beforeSign_append clear]
  · have clear : '=' ∉ Text.collapseBlanks part := mt (Text.mem_collapseFrom_iff rfl).mp signed
    rw [beforeDefault_of_not_mem clear, Text.trim_collapseBlanks, beforeSign_of_not_mem signed]

/-! ### Collapsing what is declared -/

theorem IsTypeAndName.collapse {type gap name : Text}
    (isTypeAndName : IsTypeAndName type gap name) :
    Text.collapseBlanks (type ++ (gap ++ name)) =
        Text.collapseBlanks type ++ ([' '] ++ name) ∧
      IsTypeAndName (Text.collapseBlanks type) [' '] name := by
  have solid : ∀ c ∈ name, Text.isBlank c = false := fun c member =>
    Text.isBlank_eq_false_of_isWord (isTypeAndName.name_word c member)
  have start : Text.Ends Text.isBlank name := fun c head =>
    solid c (List.mem_of_mem_head? head)
  refine ⟨?_, { isTypeAndName with
    gap_ne_nil := List.cons_ne_nil _ _
    gap_blank := List.forall_mem_singleton.mpr rfl
    type_ne_nil := Text.collapseBlanks_ne_nil isTypeAndName.type_ne_nil
    type_ends := Text.ends_reverse_collapseBlanks isTypeAndName.type_ends }⟩
  rw [Text.collapseBlanks_append_blanks isTypeAndName.type_ends isTypeAndName.gap_ne_nil
    isTypeAndName.gap_blank start, Text.collapseBlanks_of_forall solid]
  rfl

/-- A trimmed text has a name at its end where the collapsed text has one. -/
theorem IsTypeAndName.of_collapse {declared type gap name : Text}
    (isTrimmed : Text.IsTrimmed declared)
    (same : Text.collapseBlanks declared = type ++ (gap ++ name))
    (isTypeAndName : IsTypeAndName type gap name) :
    ∃ type gap, declared = type ++ (gap ++ name) ∧ IsTypeAndName type gap name := by
  -- The name has no blanks, so it stands in the declared text as it does in the collapsed one.
  rw [← List.append_assoc] at same
  obtain ⟨before, rfl, collapsed⟩ := Text.collapseBlanks_eq_append
    (fun c member => Text.isBlank_eq_false_of_isWord (isTypeAndName.name_word c member)) same
  obtain ⟨blanks, divided, blank⟩ := Text.trimEnd_append_blanks before
  have typeEnds : Text.Ends Text.isBlank (Text.trimEnd before).reverse := by
    rw [Text.trimEnd, List.reverse_reverse]
    exact Text.ends_dropWhile _ _
  have gapSolid : blanks ≠ [] := by
    rintro rfl
    -- Then a character that is not blank would stand before the name.
    rw [List.append_nil] at divided
    rw [← divided] at typeEnds
    have ends := Text.ends_reverse_collapseBlanks typeEnds
    rw [collapsed, List.reverse_append] at ends
    obtain ⟨gap, c, rfl⟩ := (List.eq_nil_or_concat' gap).resolve_left isTypeAndName.gap_ne_nil
    rw [List.reverse_append] at ends
    have solid := Text.ends_cons.mp ends
    have blank := isTypeAndName.gap_blank c (List.mem_append_right _ List.mem_cons_self)
    exact Bool.false_ne_true (solid.symm.trans blank)
  have typeSolid : Text.trimEnd before ≠ [] := by
    intro empty
    rw [empty, List.nil_append] at divided
    refine gapSolid (Text.eq_nil_of_isBlank ?_ blank)
    rw [divided] at isTrimmed
    exact isTrimmed.start.of_isPrefix (List.prefix_append _ _)
  refine ⟨Text.trimEnd before, blanks, by rw [← List.append_assoc, ← divided], ?_⟩
  exact ⟨isTypeAndName.name_ne_nil, isTypeAndName.name_word, gapSolid, blank, typeSolid, typeEnds⟩

/-- A text has at most one division of this kind. -/
theorem IsTypeAndName.type_eq {type gap name type' gap' name' : Text}
    (isTypeAndName : IsTypeAndName type gap name) (other : IsTypeAndName type' gap' name')
    (same : type ++ (gap ++ name) = type' ++ (gap' ++ name')) : type = type' := by
  have backwards : ∀ {type gap name : Text}, IsTypeAndName type gap name →
      Text.skipBlanks (Text.skipWord (type ++ (gap ++ name)).reverse) = type.reverse := by
    intro type gap name parts
    have word : ∀ c ∈ name.reverse, Text.isWord c = true := fun c member =>
      parts.name_word c (List.mem_reverse.mp member)
    have blank : ∀ c ∈ gap.reverse, Text.isBlank c = true := fun c member =>
      parts.gap_blank c (List.mem_reverse.mp member)
    have wordEnds : Text.Ends Text.isWord (gap.reverse ++ type.reverse) :=
      Text.ends_isWord_append (mt List.reverse_eq_nil_iff.mp parts.gap_ne_nil) blank
    rw [List.reverse_append, List.reverse_append, List.append_assoc, Text.skipWord,
      Text.dropWhile_append_of_ends word wordEnds, Text.skipBlanks,
      Text.dropWhile_append_of_ends blank parts.type_ends]
  have mirrored := backwards isTypeAndName
  rw [same, backwards other] at mirrored
  exact (List.reverse_injective mirrored).symm

/-! ### One part of a list -/

/-- The layout of a part of a list does not matter: what follows its first equality sign is a
default value, and before the sign stands a type on one line with a name behind it, or a type alone
whose only blanks are single spaces. -/
structure IgnoresLayout (part : Text) : Prop where
  value : ∀ front back, part = front ++ '=' :: back → '=' ∉ front → BeginsDefault ('=' :: back)
  named : ∀ type gap name, beforeSign part = type ++ (gap ++ name) →
    IsTypeAndName type gap name → '\n' ∉ type
  unnamed : (∀ type gap name, beforeSign part = type ++ (gap ++ name) →
    ¬IsTypeAndName type gap name) → Text.IsSpaced (beforeSign part)

theorem collapseBlanks_eq_self_iff {declared : Text} (isTrimmed : Text.IsTrimmed declared) :
    Text.collapseBlanks declared = declared ↔ Text.IsSpaced declared := by
  constructor
  · intro same
    rw [← same]
    exact isTrimmed.isSpaced_collapseBlanks
  · exact Text.IsSpaced.collapseBlanks_eq

theorem readDeclared_of_not_named {declared : Text} (solid : declared ≠ [])
    (unnamed : ∀ type gap name, declared = type ++ (gap ++ name) → ¬IsTypeAndName type gap name) :
    readDeclared declared = some ⟨"", String.ofList declared⟩ :=
  readDeclared_of_unnamed solid fun type gap name same isTypeAndName =>
    absurd isTypeAndName (unnamed type gap name same)

theorem readDeclared_collapseBlanks_of_named {type gap name : Text}
    (isTrimmed : Text.IsTrimmed (type ++ (gap ++ name)))
    (isTypeAndName : IsTypeAndName type gap name) :
    readDeclared (Text.collapseBlanks (type ++ (gap ++ name))) =
        readDeclared (type ++ (gap ++ name)) ↔ '\n' ∉ type := by
  obtain ⟨collapsed, isCollapsed⟩ := isTypeAndName.collapse
  have named := readDeclared_of_named (collapsed ▸ isTrimmed.collapseBlanks) isCollapsed
    (not_mem_collapseBlanks type)
  have typeTrimmed : Text.IsTrimmed type :=
    ⟨isTrimmed.start.of_isPrefix (List.prefix_append _ _), isTypeAndName.type_ends⟩
  rw [← collapsed, typeTrimmed.isSpaced_collapseBlanks.collapseBlanks_eq] at named
  rw [named]
  constructor
  · intro same oneLine
    have unnamed := readDeclared_of_unnamed
      (List.append_ne_nil_of_left_ne_nil isTypeAndName.type_ne_nil (gap ++ name))
      fun type' gap' name' same other => isTypeAndName.type_eq other same ▸ oneLine
    rw [unnamed] at same
    exact isTypeAndName.name_ne_nil
      (String.ofList_injective (Parameter.mk.inj (Option.some.inj same)).1)
  · intro oneLine
    rw [readDeclared_of_named isTrimmed isTypeAndName oneLine]

theorem readDeclared_collapseBlanks_of_not_named {declared : Text}
    (isTrimmed : Text.IsTrimmed declared)
    (unnamed : ∀ type gap name, declared = type ++ (gap ++ name) → ¬IsTypeAndName type gap name) :
    readDeclared (Text.collapseBlanks declared) = readDeclared declared ↔
      Text.IsSpaced declared := by
  have collapsedUnnamed : ∀ type gap name, Text.collapseBlanks declared = type ++ (gap ++ name) →
      ¬IsTypeAndName type gap name := by
    intro type gap name same isTypeAndName
    obtain ⟨type', gap', same', isTypeAndName'⟩ := isTypeAndName.of_collapse isTrimmed same
    exact unnamed type' gap' name same' isTypeAndName'
  rw [← collapseBlanks_eq_self_iff isTrimmed]
  by_cases empty : declared = []
  · rw [empty]
    exact iff_of_true rfl rfl
  · rw [readDeclared_of_not_named empty unnamed,
      readDeclared_of_not_named (Text.collapseBlanks_ne_nil empty) collapsedUnnamed]
    constructor
    · intro same
      exact String.ofList_injective (Parameter.mk.inj (Option.some.inj same)).2
    · intro same
      rw [same]

/-- A declared text is read like the collapsed one unless a type with a name behind it runs over
lines, or a type without a name has other blanks than single spaces. -/
theorem readDeclared_collapseBlanks_iff {declared : Text} (isTrimmed : Text.IsTrimmed declared) :
    readDeclared (Text.collapseBlanks declared) = readDeclared declared ↔
      (∀ type gap name, declared = type ++ (gap ++ name) → IsTypeAndName type gap name →
        '\n' ∉ type) ∧
      ((∀ type gap name, declared = type ++ (gap ++ name) → ¬IsTypeAndName type gap name) →
        Text.IsSpaced declared) := by
  by_cases divided : ∃ type gap name, declared = type ++ (gap ++ name) ∧
      IsTypeAndName type gap name
  · obtain ⟨type, gap, name, rfl, isTypeAndName⟩ := divided
    rw [readDeclared_collapseBlanks_of_named isTrimmed isTypeAndName]
    constructor
    · refine fun oneLine => ⟨fun type' gap' name' same other => ?_, fun unnamed => ?_⟩
      · exact isTypeAndName.type_eq other same ▸ oneLine
      · exact absurd isTypeAndName (unnamed type gap name rfl)
    · exact fun both => both.1 type gap name rfl isTypeAndName
  · have unnamed : ∀ type gap name, declared = type ++ (gap ++ name) →
        ¬IsTypeAndName type gap name := fun type gap name same isTypeAndName =>
      divided ⟨type, gap, name, same, isTypeAndName⟩
    rw [readDeclared_collapseBlanks_of_not_named isTrimmed unnamed]
    constructor
    · refine fun isSpaced => ⟨fun type gap name same isTypeAndName => ?_, fun _ => isSpaced⟩
      exact absurd isTypeAndName (unnamed type gap name same)
    · exact fun both => both.2 unnamed

/-- Reading keeps the equality signs of what is declared in the type. -/
theorem sign_mem_type_iff {declared : Text} (isTrimmed : Text.IsTrimmed declared)
    {parameter : Parameter} (read : readDeclared declared = some parameter) :
    '=' ∈ parameter.type.toList ↔ '=' ∈ declared := by
  cases (readDeclared_eq_iff isTrimmed).mp read with
  | @named type gap name collapsed same isTypeAndName _ isCollapse =>
    have inType : '=' ∈ collapsed ↔ '=' ∈ type := by
      rw [← Text.collapseBlanks_eq_iff.mpr isCollapse]
      exact Text.mem_collapseFrom_iff rfl
    have inName : '=' ∉ name := Text.not_mem_of_isWord isTypeAndName.name_word rfl
    have inGap : '=' ∉ gap := Text.not_mem_of_isBlank isTypeAndName.gap_blank rfl
    rw [String.toList_ofList, inType, same, List.mem_append, List.mem_append, or_iff_left inName,
      or_iff_left inGap]
  | unnamed => rw [String.toList_ofList]

theorem trim_beforeDefault_eq_beforeSign {part : Text}
    (value : ∀ front back, part = front ++ '=' :: back → '=' ∉ front →
      BeginsDefault ('=' :: back)) : Text.trim (beforeDefault part) = beforeSign part := by
  by_cases signed : '=' ∈ part
  · obtain ⟨front, back, rfl, clear⟩ := List.eq_append_cons_of_mem signed
    rw [beforeDefault_append clear, beforeDefault_sign (value front back rfl clear),
      List.append_nil, beforeSign_append clear]
  · rw [beforeDefault_of_not_mem signed, beforeSign_of_not_mem signed]

/-- An equality sign without a default value behind it belongs to what is declared. -/
theorem sign_mem_beforeDefault {front back : Text} (clear : '=' ∉ front)
    (other : ¬BeginsDefault ('=' :: back)) :
    '=' ∈ Text.trim (beforeDefault (front ++ '=' :: back)) := by
  rw [Text.mem_trim rfl, beforeDefault_append clear, beforeDefault,
    if_neg (mt beforeDefault_stops_iff.mp other)]
  exact List.mem_append_right _ List.mem_cons_self

/-- The sign is kept in the type as it stands, and in the collapsed part it is dropped. -/
theorem parseParameter_collapseBlanks_ne {front back : Text} (clear : '=' ∉ front)
    (other : ¬BeginsDefault ('=' :: back)) :
    parseParameter (Text.collapseBlanks (front ++ '=' :: back)) ≠
      parseParameter (front ++ '=' :: back) := by
  intro same
  have kept := sign_mem_beforeDefault clear other
  rw [parseParameter_collapseBlanks, beforeSign_append clear,
    parseParameter_eq_readDeclared] at same
  have isTrimmed := Text.isTrimmed_trim (beforeDefault (front ++ '=' :: back))
  cases read : readDeclared (Text.trim (beforeDefault (front ++ '=' :: back))) with
  | none =>
    cases (readDeclared_eq_iff isTrimmed).mp read with
    | nothing empty =>
      rw [empty] at kept
      exact absurd kept List.not_mem_nil
  | some parameter =>
    rw [read] at same
    have inType := (sign_mem_type_iff isTrimmed read).mpr kept
    have dropped := (sign_mem_type_iff (Text.isTrimmed_trim front).collapseBlanks same).mp inType
    exact clear ((Text.mem_trim rfl).mp ((Text.mem_collapseFrom_iff rfl).mp dropped))

theorem parseParameter_collapseBlanks_iff (part : Text) :
    parseParameter (Text.collapseBlanks part) = parseParameter part ↔ IgnoresLayout part := by
  by_cases value : ∀ front back, part = front ++ '=' :: back → '=' ∉ front →
      BeginsDefault ('=' :: back)
  · have isTrimmed : Text.IsTrimmed (beforeSign part) := Text.isTrimmed_trim _
    rw [parseParameter_collapseBlanks, parseParameter_eq_readDeclared,
      trim_beforeDefault_eq_beforeSign value, readDeclared_collapseBlanks_iff isTrimmed]
    exact ⟨fun ⟨named, unnamed⟩ => ⟨value, named, unnamed⟩,
      fun ignores => ⟨ignores.named, ignores.unnamed⟩⟩
  · refine iff_of_false (fun same => value ?_) fun ignores => value ignores.value
    rintro front back rfl clear
    exact by_contra fun other => parseParameter_collapseBlanks_ne clear other same

theorem parseParameter_collapseBlanks_of_none {part : Text}
    (nothing : parseParameter part = none) : parseParameter (Text.collapseBlanks part) = none := by
  have empty : Text.trim (beforeDefault part) = [] := by
    rw [parseParameter_eq_readDeclared] at nothing
    cases (readDeclared_eq_iff (Text.isTrimmed_trim _)).mp nothing with
    | nothing empty => exact empty
  have value : ∀ front back, part = front ++ '=' :: back → '=' ∉ front →
      BeginsDefault ('=' :: back) := by
    rintro front back rfl clear
    refine by_contra fun other => ?_
    have kept := sign_mem_beforeDefault clear other
    rw [empty] at kept
    exact absurd kept List.not_mem_nil
  rw [parseParameter_collapseBlanks, ← trim_beforeDefault_eq_beforeSign value, empty]
  rfl

/-! ### Whole lists -/

/-- The layout of a list does not matter exactly when that of none of its parts does. -/
theorem parseParameters_collapseBlanks_iff (raw : Text) :
    parseParameters (Text.collapseBlanks raw) = parseParameters raw ↔
      ∀ part ∈ splitParameters raw, IgnoresLayout part := by
  have fewer : ∀ part ∈ splitParameters raw, parseParameter part = none →
      (parseParameter ∘ Text.collapseBlanks) part = none := fun part _ =>
    parseParameter_collapseBlanks_of_none
  rw [parseParameters, parseParameters, splitParameters_collapseBlanks, List.filterMap_map,
    filterMap_eq_filterMap_iff fewer]
  exact forall₂_congr fun part _ => parseParameter_collapseBlanks_iff part

/-- A line feed in a type with a name behind it, two blanks in a type without a name, and a line
feed in a default value: each list is read in another way than with single spaces. -/
theorem layout_changes_parameters :
    (parseParameters "TMap<FName,\n    int32> Map".toList =
          [⟨"", "TMap<FName,\n    int32> Map"⟩] ∧
        parseParameters (Text.collapseBlanks "TMap<FName,\n    int32> Map".toList) =
          [⟨"Map", "TMap<FName, int32>"⟩]) ∧
      (parseParameters "UObject  *".toList = [⟨"", "UObject  *"⟩] ∧
        parseParameters (Text.collapseBlanks "UObject  *".toList) = [⟨"", "UObject *"⟩]) ∧
      (parseParameters "int Limit = Low +\n  High".toList = [⟨"High", "int Limit = Low +"⟩] ∧
        parseParameters (Text.collapseBlanks "int Limit = Low +\n  High".toList) =
          [⟨"Limit", "int"⟩]) ∧
      ¬∀ raw, parseParameters (Text.collapseBlanks raw) = parseParameters raw := by
  refine ⟨by decide, by decide, by decide, fun same => ?_⟩
  exact absurd (same "UObject  *".toList) (by decide)

end Header

end EngineDocs
