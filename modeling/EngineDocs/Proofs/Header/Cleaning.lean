/-
This file shows what cleaning leaves of a text. Directives and line comments end with their line, so
removing one puts nothing beside a character but a line feed, and no mark comes about that was not
there. Removing a block comment can put two characters side by side, but never behind a slash,
because a slash before a block comment would have begun a line comment. So no comment is left. A
directive can only come about where its sign stands directly before a block comment; without that,
cleaning a second time finds nothing to do.
-/

import EngineDocs.Header.Noise
import EngineDocs.Proofs.Text.Collapse

namespace EngineDocs.Header

/-! ### Removing the ends of lines -/

/-- Passes over `pending` characters and then removes each `mark` that one of the characters of
`follows` stands behind, with the rest of its line. -/
def stripLinesFrom (mark : Char) (follows : Char → Bool) (pending : Nat) : Text → Text
  | [] => []
  | c :: text =>
    match pending with
    | pending + 1 => stripLinesFrom mark follows pending text
    | 0 =>
      if c == mark && text.head?.any follows then
        stripLinesFrom mark follows (text.takeWhile (· != '\n')).length text
      else c :: stripLinesFrom mark follows 0 text

theorem stripDirectivesFrom_eq (pending : Nat) (text : Text) :
    stripDirectivesFrom pending text = stripLinesFrom '#' Text.isWord pending text := by
  induction text generalizing pending with
  | nil => rfl
  | cons c text inductionHypothesis =>
    have followed : (text.head?.map Text.isWord).getD false = text.head?.any Text.isWord := by
      cases text <;> rfl
    cases pending with
    | zero =>
      rw [stripDirectivesFrom, stripLinesFrom, inductionHypothesis, inductionHypothesis, followed]
    | succ pending => exact inductionHypothesis pending

theorem stripLineCommentsFrom_eq (pending : Nat) (text : Text) :
    stripLineCommentsFrom pending text = stripLinesFrom '/' (· == '/') pending text := by
  induction text generalizing pending with
  | nil => rfl
  | cons c text inductionHypothesis =>
    have followed : (text.head? == some '/') = text.head?.any (· == '/') := by
      cases text <;> rfl
    cases pending with
    | zero =>
      rw [stripLineCommentsFrom, stripLinesFrom, inductionHypothesis, inductionHypothesis, followed]
    | succ pending => exact inductionHypothesis pending

section Lines

variable {mark : Char} {follows : Char → Bool}

theorem stripLinesFrom_pending (pending : Nat) (text : Text) :
    stripLinesFrom mark follows pending text =
      stripLinesFrom mark follows 0 (text.drop pending) := by
  induction text generalizing pending with
  | nil => rw [List.drop_nil, stripLinesFrom, stripLinesFrom]
  | cons c text inductionHypothesis =>
    cases pending with
    | zero => rfl
    | succ pending => exact inductionHypothesis pending

theorem stripped_iff {c : Char} {text : Text} :
    (c == mark && text.head?.any follows) = true ↔
      ∃ next, follows next = true ∧ [mark, next] <+: c :: text := by
  rw [Bool.and_eq_true, beq_iff_eq, Option.any_eq_true]
  constructor
  · rintro ⟨rfl, next, head, behind⟩
    obtain ⟨rest, rfl⟩ := List.head?_eq_some_iff.mp head
    exact ⟨next, behind, rest, rfl⟩
  · rintro ⟨next, behind, rest, same⟩
    obtain ⟨rfl, rfl⟩ := List.cons.inj same
    exact ⟨rfl, next, rfl, behind⟩

/-- Behind a line that was removed comes a line feed, or nothing. -/
theorem eq_lineFeed_of_prefix_stripLinesFrom (lineFeed : mark ≠ '\n') {c : Char} {text : Text}
    (head : [c] <+: stripLinesFrom mark follows 0 (restOfLines text)) : c = '\n' := by
  have ends := Text.ends_dropWhile (· != '\n') text
  rw [restOfLines] at head
  cases rest : text.dropWhile (· != '\n') with
  | nil =>
    rw [rest] at head
    exact absurd (List.prefix_nil.mp head) (List.cons_ne_nil _ _)
  | cons next later =>
    rw [rest] at head ends
    obtain rfl : next = '\n' := by simpa using Text.ends_cons.mp ends
    rw [stripLinesFrom, if_neg (by simp [lineFeed.symm])] at head
    exact (List.cons_prefix_cons.mp head).1

/-- What stands at the start of what is left, up to a line feed, stood there before. -/
theorem prefix_of_prefix_stripLinesFrom (lineFeed : mark ≠ '\n') {literal text : Text}
    (oneLine : '\n' ∉ literal) (isPrefix : literal <+: stripLinesFrom mark follows 0 text) :
    literal <+: text := by
  induction literal generalizing text with
  | nil => exact List.nil_prefix
  | cons first literal inductionHypothesis =>
    obtain ⟨other, later⟩ := not_or.mp (mt List.mem_cons.mpr oneLine)
    cases text with
    | nil => exact isPrefix
    | cons c text =>
      rw [stripLinesFrom] at isPrefix
      split at isPrefix
      · -- The line is gone, and the literal does not begin with the line feed that comes next.
        rw [stripLinesFrom_pending, Text.drop_length_takeWhile] at isPrefix
        have head : [first] <+: first :: literal := ⟨literal, rfl⟩
        have same := eq_lineFeed_of_prefix_stripLinesFrom lineFeed (head.trans isPrefix)
        exact absurd same.symm other
      · obtain ⟨rfl, rest⟩ := List.cons_prefix_cons.mp isPrefix
        exact List.cons_prefix_cons.mpr ⟨rfl, inductionHypothesis later rest⟩

/-- Removing the ends of lines brings nothing about inside a line. -/
theorem infix_of_infix_stripLinesFrom (lineFeed : mark ≠ '\n') {literal : Text}
    (oneLine : '\n' ∉ literal) {pending : Nat} {text : Text}
    (isInfix : literal <:+: stripLinesFrom mark follows pending text) : literal <:+: text := by
  induction text generalizing pending with
  | nil => exact isInfix
  | cons c text inductionHypothesis =>
    cases pending with
    | succ pending => exact List.infix_cons (inductionHypothesis isInfix)
    | zero =>
      rw [stripLinesFrom] at isInfix
      split at isInfix
      · exact List.infix_cons (inductionHypothesis isInfix)
      · rename_i kept
        rcases List.infix_cons_iff.mp isInfix with here | later
        · have whole : literal <+: stripLinesFrom mark follows 0 (c :: text) := by
            rw [stripLinesFrom, if_neg kept]
            exact here
          exact (prefix_of_prefix_stripLinesFrom lineFeed oneLine whole).isInfix
        · exact List.infix_cons (inductionHypothesis later)

/-- No mark is left before a character that it is removed with. -/
theorem not_infix_stripLinesFrom (lineFeed : mark ≠ '\n') {next : Char} (other : next ≠ '\n')
    (behind : follows next = true) (pending : Nat) (text : Text) :
    ¬[mark, next] <:+: stripLinesFrom mark follows pending text := by
  induction text generalizing pending with
  | nil => exact fun isInfix => nomatch List.infix_nil.mp isInfix
  | cons c text inductionHypothesis =>
    cases pending with
    | succ pending => exact inductionHypothesis pending
    | zero =>
      rw [stripLinesFrom]
      split
      · exact inductionHypothesis _
      · rename_i kept
        rw [List.infix_cons_iff, List.cons_prefix_cons, not_or, not_and]
        refine ⟨fun same isPrefix => kept (stripped_iff.mpr ⟨next, behind, ?_⟩),
          inductionHypothesis 0⟩
        -- The character stood behind the mark before as well, so the mark would not be kept.
        have oneLine : '\n' ∉ [next] := mt List.mem_singleton.mp other.symm
        exact List.cons_prefix_cons.mpr
          ⟨same, prefix_of_prefix_stripLinesFrom lineFeed oneLine isPrefix⟩

theorem stripLinesFrom_of_clear {text : Text}
    (clear : ∀ next, follows next = true → ¬[mark, next] <:+: text) :
    stripLinesFrom mark follows 0 text = text := by
  induction text with
  | nil => rfl
  | cons c text inductionHypothesis =>
    have kept : ¬(c == mark && text.head?.any follows) = true := fun stripped =>
      let ⟨next, behind, isPrefix⟩ := stripped_iff.mp stripped
      clear next behind isPrefix.isInfix
    rw [stripLinesFrom, if_neg kept, inductionHypothesis fun next behind isInfix =>
      clear next behind (List.infix_cons isInfix)]

end Lines

/-! ### Directives and line comments -/

/-- Somewhere in the text a directive begins. -/
def HasDirective (text : Text) : Prop :=
  ∃ c, Text.isWord c = true ∧ ['#', c] <:+: text

theorem ne_lineFeed_of_isWord {c : Char} (word : Text.isWord c = true) : c ≠ '\n' := by
  rintro rfl
  exact absurd word (by decide)

theorem not_hasDirective_stripDirectivesFrom (pending : Nat) (text : Text) :
    ¬HasDirective (stripDirectivesFrom pending text) := by
  rintro ⟨c, word, isInfix⟩
  rw [stripDirectivesFrom_eq] at isInfix
  exact not_infix_stripLinesFrom (by decide) (ne_lineFeed_of_isWord word) word pending text isInfix

theorem stripDirectivesFrom_of_clear {text : Text} (clear : ¬HasDirective text) :
    stripDirectivesFrom 0 text = text := by
  rw [stripDirectivesFrom_eq]
  exact stripLinesFrom_of_clear fun c word isInfix => clear ⟨c, word, isInfix⟩

theorem not_infix_stripLineCommentsFrom (pending : Nat) (text : Text) :
    ¬"//".toList <:+: stripLineCommentsFrom pending text := by
  have other : '/' ≠ '\n' := by decide
  rw [stripLineCommentsFrom_eq]
  refine not_infix_stripLinesFrom other other ?_ pending text
  exact beq_self_eq_true '/'

theorem stripLineCommentsFrom_of_clear {text : Text} (clear : ¬"//".toList <:+: text) :
    stripLineCommentsFrom 0 text = text := by
  rw [stripLineCommentsFrom_eq]
  refine stripLinesFrom_of_clear fun c slash isInfix => clear ?_
  obtain rfl := beq_iff_eq.mp slash
  exact isInfix

theorem HasDirective.of_stripLineCommentsFrom {pending : Nat} {text : Text}
    (directive : HasDirective (stripLineCommentsFrom pending text)) : HasDirective text := by
  obtain ⟨c, word, isInfix⟩ := directive
  rw [stripLineCommentsFrom_eq] at isInfix
  have other : '\n' ∉ [c] := mt List.mem_singleton.mp (ne_lineFeed_of_isWord word).symm
  have oneLine : '\n' ∉ ['#', c] := List.not_mem_cons_of_ne_of_not_mem (by decide) other
  exact ⟨c, word, infix_of_infix_stripLinesFrom (by decide) oneLine isInfix⟩

/-! ### Block comments -/

/-- A closed block comment stands at the start of the text. -/
def BeginsBlockComment (text : Text) : Prop :=
  ∃ inside, "/*".toList ++ inside ++ "*/".toList <+: text

/-- Somewhere in the text stands a closed block comment. -/
def HasBlockComment (text : Text) : Prop :=
  ∃ inside, "/*".toList ++ inside ++ "*/".toList <:+: text

theorem hasBlockComment_cons {c : Char} {text : Text} :
    HasBlockComment (c :: text) ↔ BeginsBlockComment (c :: text) ∨ HasBlockComment text := by
  simp only [HasBlockComment, BeginsBlockComment, List.infix_cons_iff, exists_or]

theorem not_hasBlockComment_nil : ¬HasBlockComment [] :=
  fun ⟨_, isInfix⟩ => nomatch List.infix_nil.mp isInfix

theorem beginsBlockComment_iff {text : Text} :
    BeginsBlockComment text ↔ ∃ rest, text = '/' :: '*' :: rest ∧ "*/".toList <:+: rest := by
  constructor
  · rintro ⟨inside, behind, rfl⟩
    exact ⟨inside ++ "*/".toList ++ behind, rfl, inside, behind, rfl⟩
  · rintro ⟨rest, rfl, inside, behind, rfl⟩
    exact ⟨inside, behind, rfl⟩

theorem blockCommentLength?_eq_none_iff {text : Text} :
    blockCommentLength? text = none ↔ ¬"*/".toList <:+: text := by
  fun_induction blockCommentLength? text with
  | case1 text => exact iff_of_false nofun fun clear => clear ⟨[], text, rfl⟩
  | case2 c text other inductionHypothesis =>
    rw [Option.map_eq_none_iff, inductionHypothesis, List.infix_cons_iff, not_or]
    refine (and_iff_right ?_).symm
    rintro ⟨rest, same⟩
    obtain ⟨rfl, rfl⟩ := List.cons.inj same
    exact other rest rfl rfl
  | case3 => exact iff_of_true rfl fun isInfix => nomatch List.infix_nil.mp isInfix

theorem stripBlockCommentsFrom_of_begins {c : Char} {text : Text}
    (begins : BeginsBlockComment (c :: text)) :
    ∃ pending, stripBlockCommentsFrom 0 (c :: text) = stripBlockCommentsFrom pending text := by
  obtain ⟨rest, same, closed⟩ := beginsBlockComment_iff.mp begins
  obtain ⟨rfl, rfl⟩ := List.cons.inj same
  cases measured : blockCommentLength? rest with
  | none => exact absurd closed (blockCommentLength?_eq_none_iff.mp measured)
  | some length =>
    refine ⟨length + 1, ?_⟩
    simp only [stripBlockCommentsFrom, List.head?_cons, beq_self_eq_true, Bool.and_self, if_true,
      List.drop_one, List.tail_cons, measured]

theorem stripBlockCommentsFrom_of_not_begins {c : Char} {text : Text}
    (plain : ¬BeginsBlockComment (c :: text)) :
    stripBlockCommentsFrom 0 (c :: text) = c :: stripBlockCommentsFrom 0 text := by
  have unmeasured : (if c == '/' && text.head? == some '*' then
      blockCommentLength? (text.drop 1) else none) = none := by
    split
    · rename_i opened
      rw [Bool.and_eq_true, beq_iff_eq, beq_iff_eq] at opened
      obtain ⟨rfl, head⟩ := opened
      obtain ⟨rest, rfl⟩ := List.head?_eq_some_iff.mp head
      exact blockCommentLength?_eq_none_iff.mpr fun closed =>
        plain (beginsBlockComment_iff.mpr ⟨rest, rfl, closed⟩)
    · rfl
  rw [stripBlockCommentsFrom]
  simp only [unmeasured]

theorem stripBlockCommentsFrom_of_clear {text : Text} (clear : ¬HasBlockComment text) :
    stripBlockCommentsFrom 0 text = text := by
  induction text with
  | nil => rfl
  | cons c text inductionHypothesis =>
    obtain ⟨plain, clear⟩ := not_or.mp (mt hasBlockComment_cons.mpr clear)
    rw [stripBlockCommentsFrom_of_not_begins plain, inductionHypothesis clear]

/-- What is left begins as the text does, unless the text begins with a block comment. -/
theorem head_of_stripBlockCommentsFrom {c : Char} {text : Text}
    (head : [c] <+: stripBlockCommentsFrom 0 text) : [c] <+: text ∨ "/*".toList <+: text := by
  cases text with
  | nil => exact Or.inl head
  | cons first text =>
    by_cases begins : BeginsBlockComment (first :: text)
    · obtain ⟨rest, same, _⟩ := beginsBlockComment_iff.mp begins
      exact Or.inr ⟨rest, same.symm⟩
    · rw [stripBlockCommentsFrom_of_not_begins begins] at head
      exact Or.inl (List.cons_prefix_cons.mpr
        ⟨(List.cons_prefix_cons.mp head).1, List.nil_prefix⟩)

/-- Two characters stand side by side in what is left only if they did so before, or if a block
comment stood behind the first one. -/
theorem infix_of_infix_stripBlockCommentsFrom {first second : Char} {pending : Nat} {text : Text}
    (isInfix : [first, second] <:+: stripBlockCommentsFrom pending text) :
    [first, second] <:+: text ∨ first :: "/*".toList <:+: text := by
  induction text generalizing pending with
  | nil => exact Or.inl isInfix
  | cons c text inductionHypothesis =>
    have later : ∀ {pending}, [first, second] <:+: stripBlockCommentsFrom pending text →
        [first, second] <:+: c :: text ∨ first :: "/*".toList <:+: c :: text := fun isInfix =>
      (inductionHypothesis isInfix).imp List.infix_cons List.infix_cons
    cases pending with
    | succ pending => exact later isInfix
    | zero =>
      by_cases begins : BeginsBlockComment (c :: text)
      · obtain ⟨pending, same⟩ := stripBlockCommentsFrom_of_begins begins
        rw [same] at isInfix
        exact later isInfix
      · rw [stripBlockCommentsFrom_of_not_begins begins] at isInfix
        rcases List.infix_cons_iff.mp isInfix with here | isInfix
        · obtain ⟨rfl, head⟩ := List.cons_prefix_cons.mp here
          exact (head_of_stripBlockCommentsFrom head).imp
            (fun head => (List.cons_prefix_cons.mpr ⟨rfl, head⟩).isInfix)
            (fun opened => (List.cons_prefix_cons.mpr ⟨rfl, opened⟩).isInfix)
        · exact later isInfix

/-- A slash stands behind a character in what is left only if it did so before, because a block
comment begins with a slash as well. -/
theorem slash_infix_of_infix_stripBlockCommentsFrom {c : Char} {pending : Nat} {text : Text}
    (isInfix : [c, '/'] <:+: stripBlockCommentsFrom pending text) : [c, '/'] <:+: text := by
  refine (infix_of_infix_stripBlockCommentsFrom isInfix).elim id fun opened => ?_
  have isPrefix : [c, '/'] <+: c :: "/*".toList := ⟨['*'], rfl⟩
  exact isPrefix.isInfix.trans opened

/-- Without line comments, removing the block comments brings none about. -/
theorem not_hasBlockComment_stripBlockCommentsFrom {text : Text}
    (clear : ¬"//".toList <:+: text) (pending : Nat) :
    ¬HasBlockComment (stripBlockCommentsFrom pending text) := by
  induction text generalizing pending with
  | nil => exact not_hasBlockComment_nil
  | cons c text inductionHypothesis =>
    have later := inductionHypothesis (mt List.infix_cons clear)
    cases pending with
    | succ pending => exact later pending
    | zero =>
      by_cases begins : BeginsBlockComment (c :: text)
      · obtain ⟨pending, same⟩ := stripBlockCommentsFrom_of_begins begins
        rw [same]
        exact later pending
      · rw [stripBlockCommentsFrom_of_not_begins begins, hasBlockComment_cons, not_or]
        refine ⟨fun comment => ?_, later 0⟩
        -- A comment that came about would stand behind a slash and so begin with the text.
        obtain ⟨rest, same, closed⟩ := beginsBlockComment_iff.mp comment
        obtain ⟨rfl, stripped⟩ := List.cons.inj same
        have head : ['*'] <+: stripBlockCommentsFrom 0 text := ⟨rest, stripped.symm⟩
        rcases head_of_stripBlockCommentsFrom head with ⟨behind, rfl⟩ | ⟨behind, rfl⟩
        · have plain : ¬BeginsBlockComment ('*' :: behind) := fun opened =>
            let ⟨_, same, _⟩ := beginsBlockComment_iff.mp opened
            absurd (List.cons.inj same).1 (by decide)
          rw [List.singleton_append, stripBlockCommentsFrom_of_not_begins plain] at stripped
          rw [← (List.cons.inj stripped).2] at closed
          exact begins (beginsBlockComment_iff.mpr
            ⟨behind, rfl, slash_infix_of_infix_stripBlockCommentsFrom closed⟩)
        · exact clear ⟨[], '*' :: behind, rfl⟩

/-! ### Blanks -/

theorem HasDirective.of_isInfix {part text : Text} (directive : HasDirective part)
    (isInfix : part <:+: text) : HasDirective text :=
  let ⟨c, word, inside⟩ := directive
  ⟨c, word, inside.trans isInfix⟩

theorem HasBlockComment.of_isInfix {part text : Text} (comment : HasBlockComment part)
    (isInfix : part <:+: text) : HasBlockComment text :=
  let ⟨inside, isComment⟩ := comment
  ⟨inside, isComment.trans isInfix⟩

theorem HasDirective.of_collapseBlanks {text : Text}
    (directive : HasDirective (Text.collapseBlanks text)) : HasDirective text := by
  obtain ⟨c, word, isInfix⟩ := directive
  have solid : ∀ other ∈ ['#', c], Text.isBlank other = false :=
    List.forall_mem_cons.mpr
      ⟨rfl, List.forall_mem_singleton.mpr (Text.isBlank_eq_false_of_isWord word)⟩
  exact ⟨c, word, Text.infix_of_infix_collapseFrom solid isInfix⟩

theorem HasBlockComment.of_collapseBlanks {text : Text}
    (comment : HasBlockComment (Text.collapseBlanks text)) : HasBlockComment text := by
  obtain ⟨inside, front, back, divided⟩ := comment
  -- The collapsed text is divided at the slash, then at the star, and so is the text.
  obtain ⟨before, behind, rfl, -, opened⟩ := Text.collapseFrom_eq_append_cons rfl
    (show Text.collapseBlanks text = front ++ '/' :: ('*' :: (inside ++ "*/".toList) ++ back) by
      rw [← divided, List.append_assoc]; rfl)
  have star : ['*'] <+: Text.collapseBlanks behind := ⟨_, opened.symm⟩
  obtain ⟨rest, rfl⟩ := Text.prefix_of_prefix_collapseBlanks (by decide) star
  rw [List.singleton_append, Text.collapseBlanks_cons rfl] at opened
  have closed : "*/".toList <:+: Text.collapseBlanks rest :=
    ⟨inside, back, (List.cons.inj opened).2.symm⟩
  have begins : BeginsBlockComment ('/' :: '*' :: rest) :=
    beginsBlockComment_iff.mpr ⟨rest, rfl, Text.infix_of_infix_collapseFrom (by decide) closed⟩
  obtain ⟨inside, isPrefix⟩ := begins
  exact ⟨inside, isPrefix.isInfix.trans (List.suffix_append before _).isInfix⟩

/-! ### Cleaning -/

theorem cleanReturnType_eq (raw : Text) :
    cleanReturnType raw = Text.collapseBlanks (Text.trim
      (stripBlockCommentsFrom 0 (stripLineCommentsFrom 0 (stripDirectivesFrom 0 raw)))) :=
  Text.trim_collapseBlanks _

theorem isSpaced_cleanReturnType (raw : Text) : Text.IsSpaced (cleanReturnType raw) := by
  rw [cleanReturnType_eq]
  exact (Text.isTrimmed_trim _).isSpaced_collapseBlanks

theorem not_infix_cleanReturnType (raw : Text) : ¬"//".toList <:+: cleanReturnType raw := by
  intro isInfix
  have collapsed := isInfix.trans (Text.trim_infix _)
  have stripped := Text.infix_of_infix_collapseFrom (by decide) collapsed
  exact not_infix_stripLineCommentsFrom 0 _ (slash_infix_of_infix_stripBlockCommentsFrom stripped)

theorem not_hasBlockComment_cleanReturnType (raw : Text) :
    ¬HasBlockComment (cleanReturnType raw) := by
  intro comment
  have collapsed := comment.of_isInfix (Text.trim_infix _)
  exact not_hasBlockComment_stripBlockCommentsFrom (not_infix_stripLineCommentsFrom 0 _) 0
    collapsed.of_collapseBlanks

/-- A directive is left only where its sign stood before a block comment. -/
theorem not_hasDirective_cleanReturnType {raw : Text} (apart : ¬"#/*".toList <:+: raw) :
    ¬HasDirective (cleanReturnType raw) := by
  intro directive
  obtain ⟨c, word, isInfix⟩ :=
    (directive.of_isInfix (Text.trim_infix _)).of_collapseBlanks
  -- The sign and the word stood side by side already, or a block comment stood between them.
  rcases infix_of_infix_stripBlockCommentsFrom isInfix with isInfix | isInfix
  · have before : HasDirective (stripLineCommentsFrom 0 (stripDirectivesFrom 0 raw)) :=
      ⟨c, word, isInfix⟩
    exact not_hasDirective_stripDirectivesFrom 0 raw before.of_stripLineCommentsFrom
  · rw [stripLineCommentsFrom_eq, stripDirectivesFrom_eq] at isInfix
    exact apart (infix_of_infix_stripLinesFrom (by decide) (by decide)
      (infix_of_infix_stripLinesFrom (by decide) (by decide) isInfix))

/-- Nothing is cleaned from a text in which nothing is to be removed. -/
theorem cleanReturnType_of_clear {text : Text} (noDirective : ¬HasDirective text)
    (noLineComment : ¬"//".toList <:+: text) (noBlockComment : ¬HasBlockComment text)
    (isSpaced : Text.IsSpaced text) : cleanReturnType text = text := by
  rw [cleanReturnType, stripDirectivesFrom_of_clear noDirective,
    stripLineCommentsFrom_of_clear noLineComment, stripBlockCommentsFrom_of_clear noBlockComment,
    isSpaced.collapseBlanks_eq, isSpaced.isTrimmed.trim_eq]

/-- Cleaning leaves no comment and only single spaces. If no `#` stands directly before a block
comment, it leaves no directive either, and cleaning again changes nothing. -/
theorem cleanReturnType_isClean (raw : Text) :
    ¬"//".toList <:+: cleanReturnType raw ∧ ¬HasBlockComment (cleanReturnType raw) ∧
      Text.IsSpaced (cleanReturnType raw) ∧
      (¬"#/*".toList <:+: raw → ¬HasDirective (cleanReturnType raw) ∧
        cleanReturnType (cleanReturnType raw) = cleanReturnType raw) := by
  have noLineComment := not_infix_cleanReturnType raw
  have noBlockComment := not_hasBlockComment_cleanReturnType raw
  have isSpaced := isSpaced_cleanReturnType raw
  refine ⟨noLineComment, noBlockComment, isSpaced, fun apart => ?_⟩
  have noDirective := not_hasDirective_cleanReturnType apart
  exact ⟨noDirective,
    cleanReturnType_of_clear noDirective noLineComment noBlockComment isSpaced⟩

/-- A directive, a line comment that takes the end of a block comment with it, and a block comment
that stays open. -/
theorem cleanReturnType_isClean_of_overlapping :
    let raw := "#if A\n  const/* B *//* C */\n D*/&\t/*E".toList
    ¬"#/*".toList <:+: raw ∧ cleanReturnType raw = "const& /*E".toList ∧
      ¬HasDirective (cleanReturnType raw) ∧
      cleanReturnType (cleanReturnType raw) = cleanReturnType raw := by
  intro raw
  have apart : ¬"#/*".toList <:+: raw := by decide
  exact ⟨apart, by decide, (cleanReturnType_isClean raw).2.2.2 apart⟩

-- Between the sign and its word a block comment hides the directive once.
example : cleanReturnType "#/**/if".toList = "#if".toList ∧ cleanReturnType "#if".toList = [] := by
  decide

end EngineDocs.Header
