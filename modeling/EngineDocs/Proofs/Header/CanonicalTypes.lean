/-
This file shows that the classes, structs and enumerations of a canonical header are found exactly.
Each of the three searches passes over the declarations of the other kinds, because no word of
theirs ends with its keyword, and reads one of its own kind up to a place from which nothing but
punctuation is left.
-/

import EngineDocs.Proofs.Header.BaseNames
import EngineDocs.Proofs.Header.Canonical
import EngineDocs.Proofs.Header.Enumerator
import EngineDocs.Proofs.Header.Passing
import EngineDocs.Proofs.Text.Blanks
import EngineDocs.Proofs.Text.Pieces

namespace EngineDocs.Header.Canonical

open Recognizer

/-! ### Passing over other declarations -/

section Passing

variable {α : Type} {recognizer : Recognizer α} {keyword : Text}

theorem isWord_of_isDigit {c : Char} (digit : Text.isDigit c = true) : Text.isWord c = true := by
  rw [Text.isDigit] at digit
  simp only [Text.isWord, digit, Bool.true_or]

theorem Identifier.passesTo (led : recognizer.LedBy keyword) (listed : keyword ∈ keywords)
    (identifier : Identifier) : recognizer.PassesTo identifier.text :=
  led.passesTo_word identifier.isWord (identifier.not_suffix keyword listed)

theorem Digits.passesTo (led : recognizer.LedBy keyword) (listed : keyword ∈ keywords)
    (digits : Digits) : recognizer.PassesTo digits.text := by
  refine led.passesTo_word (fun c member => isWord_of_isDigit (digits.isDigit c member)) ?_
  intro ends
  have letters : ∀ keyword ∈ keywords, ∃ c ∈ keyword, Text.isDigit c = false := by decide
  obtain ⟨c, member, letter⟩ := letters keyword listed
  rw [digits.isDigit c (ends.subset member)] at letter
  exact nomatch letter

theorem TypeName.passesTo (led : recognizer.LedBy keyword) (listed : keyword ∈ keywords)
    (type : TypeName) : recognizer.PassesTo type.text := by
  have name := type.name.passesTo led listed
  rw [TypeName.text]
  cases type.indirection with
  | none =>
    rw [Indirection.text, List.append_nil]
    exact name
  | pointer =>
    rw [Indirection.text, ← List.append_nil (_ ++ _)]
    exact (name '*' rfl).appendTo led.passesTo_nil
  | reference =>
    rw [Indirection.text, ← List.append_nil (_ ++ _)]
    exact (name '&' rfl).appendTo led.passesTo_nil

theorem TypedName.passesTo (led : recognizer.LedBy keyword) (listed : keyword ∈ keywords)
    (parameter : TypedName) : recognizer.PassesTo parameter.text := by
  rw [TypedName.text, List.append_cons]
  exact (parameter.type.passesTo led listed ' ' rfl).appendTo (parameter.name.passesTo led listed)

theorem EnumeratorLine.passes (led : recognizer.LedBy keyword) (listed : keyword ∈ keywords)
    (line : EnumeratorLine) : recognizer.Passes line.text := by
  have name := line.name.passesTo led listed
  have ended : recognizer.Passes ['\n'] := led.passes_singleton rfl
  have sign : recognizer.Passes ['=', ' '] := led.passes_of_forall (by decide)
  rw [EnumeratorLine.text, List.append_assoc]
  refine (led.passes_singleton (c := '\t') rfl).append ?_
  obtain ⟨_, value⟩ := line
  cases value with
  | none => exact name.cons rfl ended
  | some digits => exact name.cons rfl (sign.append ((digits.passesTo led listed).cons rfl ended))

theorem Identifier.passesTo_baseClause (led : recognizer.LedBy keyword)
    (listed : keyword ∈ keywords) (name : Identifier) (bases : List BaseName) :
    recognizer.PassesTo (name.text ++ baseClause bases) := by
  have specifier : ∀ keyword ∈ keywords, ¬keyword <:+ "public".toList := by decide
  have colon : recognizer.Passes [':', ' '] := led.passes_of_forall (by decide)
  cases bases with
  | nil =>
    rw [baseClause, List.append_nil]
    exact name.passesTo led listed
  | cons base bases =>
    have each : ∀ part ∈ (base :: bases).map fun base => "public".toList ++ ' ' :: base.text,
        recognizer.PassesTo part := by
      intro part member
      obtain ⟨base, _, rfl⟩ := List.mem_map.mp member
      rw [List.append_cons]
      exact (led.passes_word (by decide) (specifier keyword listed) rfl).appendTo
        (base.passesTo led listed)
    rw [baseClause, List.append_cons]
    · exact (name.passesTo led listed ' ' rfl).appendTo
        (colon.appendTo (led.passesTo_joinWith each))
    · exact List.cons_ne_nil _ _

theorem passes_flatMap {β : Type} {list : List β} {print : β → Text}
    (each : ∀ item ∈ list, recognizer.Passes (print item)) :
    recognizer.Passes (list.flatMap print) := by
  induction list with
  | nil => exact passes_nil
  | cons item list inductionHypothesis =>
    obtain ⟨here, later⟩ := List.forall_mem_cons.mp each
    rw [List.flatMap_cons]
    exact here.append (inductionHypothesis later)

/-- The keyword that opens a declaration; functions have none. -/
def Declaration.keyword? : Declaration → Option Text
  | ofClass .. => some "class".toList
  | ofStruct .. => some "struct".toList
  | ofEnum .. => some "enum".toList
  | ofFunction .. => none

/-- A search for declarations of one kind passes over those of another kind. -/
theorem Declaration.passes (led : recognizer.LedBy keyword) (listed : keyword ∈ keywords)
    (declaration : Declaration) (other : declaration.keyword? ≠ some keyword) :
    recognizer.Passes declaration.text := by
  have apart : ∀ first ∈ keywords, ∀ second ∈ keywords, first <:+ second → second = first := by
    decide
  have opened : ∀ own ∈ keywords, declaration.keyword? = some own →
      recognizer.Passes (own ++ [' ']) := by
    intro own ownListed same
    have words : ∀ keyword ∈ keywords, ∀ c ∈ keyword, Text.isWord c = true := by decide
    refine led.passes_word (words own ownListed) (fun ends => ?_) rfl
    exact other (same.trans (congrArg some (apart keyword listed own ownListed ends)))
  have body : recognizer.Passes ['{', '\n', '}', ';', '\n'] := led.passes_of_forall (by decide)
  cases declaration with
  | ofClass name bases =>
    rw [text_ofClass, ← List.append_assoc, ← List.append_assoc name.text]
    exact (opened _ (by decide) rfl).append
      ((name.passesTo_baseClause led listed bases).cons rfl body)
  | ofStruct name =>
    rw [text_ofStruct, ← List.append_assoc]
    exact (opened _ (by decide) rfl).append ((name.passesTo led listed).cons rfl body)
  | ofEnum name lines solid =>
    have opening : recognizer.Passes ['{', '\n'] := led.passes_of_forall (by decide)
    have closing : recognizer.Passes ['}', ';', '\n'] := led.passes_of_forall (by decide)
    rw [text_ofEnum, ← List.append_assoc]
    exact (opened _ (by decide) rfl).append ((name.passesTo led listed).cons rfl (opening.append
      ((passes_flatMap fun line _ => line.passes led listed).append closing)))
  | ofFunction type name parameters =>
    have each : ∀ part ∈ parameters.map TypedName.text, recognizer.PassesTo part := by
      intro part member
      obtain ⟨parameter, _, rfl⟩ := List.mem_map.mp member
      exact parameter.passesTo led listed
    have closing : recognizer.Passes [';', '\n'] := led.passes_of_forall (by decide)
    rw [text_ofFunction]
    exact (type.passesTo led listed).cons rfl ((name.passesTo led listed).cons rfl
      ((led.passesTo_joinWith each).cons rfl closing))

end Passing

theorem Identifier.no_exportMacro (identifier : Identifier) : ¬exportSuffix <:+: identifier.text :=
  identifier.not_infix exportSuffix (by decide)

/-! ### Classes -/

/-- A word is found in a base list when neither an identifier nor template arguments go on behind
it. -/
theorem items_baseNames_word {word rest : Text} {c : Char} (solid : word ≠ [])
    (inside : ∀ c ∈ word, Text.isWord c = true) (ends : continuesBase c = false) :
    baseNames.items (word ++ c :: rest) = word :: baseNames.items rest := by
  have wordEnds : Text.Ends continuesBase (c :: rest) := Text.ends_cons.mpr ends
  have missing : baseNames.read? (c :: rest) = none := by
    show readBaseName? (c :: rest) = none
    rw [readBaseName?, Text.leadingWord,
      Text.takeWhile_of_ends (ends_isWord_of_continuesBase wordEnds)]
  have found := items_baseNames_append solid inside .none wordEnds
  rwa [List.append_nil, items_cons rfl missing] at found

/-- The base classes behind the first one, each with its specifier. -/
def furtherBases (bases : List BaseName) : Text :=
  bases.flatMap fun base => [',', ' '] ++ ("public".toList ++ ' ' :: base.text)

theorem furtherBases_cons_append (base : BaseName) (bases : List BaseName) (rest : Text) :
    furtherBases (base :: bases) ++ rest =
      ',' :: ' ' :: ("public".toList ++ ' ' :: (base.text ++ (furtherBases bases ++ rest))) := by
  simp only [furtherBases, List.flatMap_cons, List.append_assoc, List.cons_append, List.nil_append]

theorem baseClause_cons (base : BaseName) (bases : List BaseName) :
    baseClause (base :: bases) =
      ' ' :: ':' :: ' ' :: ("public".toList ++ ' ' :: (base.text ++ furtherBases bases)) := by
  have joined := Text.joinWith_cons [',', ' '] ("public".toList ++ ' ' :: base.text)
    (bases.map fun base => "public".toList ++ ' ' :: base.text)
  rw [List.flatMap_map, List.append_assoc, List.cons_append] at joined
  exact congrArg (fun list => ' ' :: ':' :: ' ' :: list) joined

theorem items_baseNames_furtherBases (base : BaseName) (bases : List BaseName) :
    baseNames.items (base.text ++ (furtherBases bases ++ ['\n'])) =
      base.text :: bases.flatMap fun base => ["public".toList, base.text] := by
  induction bases generalizing base with
  | nil =>
    exact items_baseNames_word base.ne_nil base.isWord rfl
  | cons next bases inductionHypothesis =>
    have specifier : baseNames.items (' ' :: ("public".toList ++ ' ' ::
        (next.text ++ (furtherBases bases ++ ['\n'])))) =
          "public".toList :: baseNames.items (next.text ++ (furtherBases bases ++ ['\n'])) := by
      rw [items_cons rfl rfl]
      exact items_baseNames_word (by decide) (by decide) rfl
    rw [furtherBases_cons_append, items_baseNames_word base.ne_nil base.isWord rfl,
      specifier, inductionHypothesis, List.flatMap_cons]
    rfl

/-- The bases of a class are those that are listed behind their specifiers. -/
theorem parseBaseClasses_furtherBases (base : BaseName) (bases : List BaseName) :
    parseBaseClasses (base.text ++ (furtherBases bases ++ ['\n'])) =
      (base :: bases).map fun base => base.text := by
  have kept : ∀ base : BaseName, (!accessSpecifiers.contains base.text) = true := by
    intro base
    rw [Bool.not_eq_true', ← Bool.not_eq_true, List.contains_iff_mem]
    exact base.not_specifier
  have dropped : (!accessSpecifiers.contains "public".toList) = false := by decide
  rw [parseBaseClasses, items_baseNames_furtherBases, List.filter_cons, if_pos (kept base),
    List.map_cons]
  congr 1
  induction bases with
  | nil => rfl
  | cons next bases inductionHypothesis =>
    rw [List.flatMap_cons, List.map_cons, List.filter_append, inductionHypothesis,
      List.filter_cons, if_neg (by rw [dropped]; exact Bool.false_ne_true), List.filter_cons,
      if_pos (kept next)]
    rfl

/-- The clause that is read behind the name of a class. -/
def clause? : List BaseName → Option BaseClause
  | [] => none
  | base :: bases =>
    some ⟨' ' :: ':' :: ' ' :: ("public".toList ++ [' ']),
      base.text ++ (furtherBases bases ++ ['\n'])⟩

theorem divide?_append {list rest : Text} (solid : list ≠ [])
    (inside : ∀ c ∈ list, isBaseListChar c = true)
    (start : Text.Ends Text.isBlank (list ++ '{' :: rest)) :
    BaseClause.divide? (' ' :: (list ++ '{' :: rest)) = some ([' '], list) := by
  have blanks : Text.leadingBlanks ([' '] ++ (list ++ '{' :: rest)) = [' '] :=
    Text.takeWhile_append_of_ends (by decide) start
  have behind : Text.skipBlanks ([' '] ++ (list ++ '{' :: rest)) = list ++ '{' :: rest :=
    Text.dropWhile_append_of_ends (by decide) start
  have reached : (list ++ '{' :: rest).takeWhile isBaseListChar = list :=
    Text.takeWhile_append_of_ends inside (Text.ends_cons.mpr rfl)
  show BaseClause.divide? ([' '] ++ (list ++ '{' :: rest)) = _
  simp only [BaseClause.divide?, blanks, behind, reached]
  cases list with
  | nil => exact absurd rfl solid
  | cons c list => rfl

theorem read?_public {rest blanks list : Text}
    (divided : BaseClause.divide? rest = some (blanks, list)) :
    BaseClause.read? (' ' :: ':' :: ' ' :: ("public".toList ++ rest)) =
      some ⟨' ' :: ':' :: ' ' :: ("public".toList ++ blanks), list⟩ := by
  have opened : Text.after? "public".toList ("public".toList ++ rest) = some rest :=
    Text.after?_eq_some_iff.mpr rfl
  have notBlank : Text.skipBlanks (' ' :: ("public".toList ++ rest)) =
      "public".toList ++ rest := rfl
  rw [BaseClause.read?_eq]
  show BaseClause.behindColon? [' '] (' ' :: ("public".toList ++ rest)) = _
  rw [BaseClause.behindColon?, accessSpecifiers, List.findSome?_cons, notBlank, opened,
    Option.bind_some, divided]
  rfl

theorem isBaseListChar_furtherBases (bases : List BaseName) :
    ∀ c ∈ furtherBases bases, isBaseListChar c = true := by
  intro c member
  obtain ⟨base, _, inside⟩ := List.mem_flatMap.mp member
  have fixed : ∀ c ∈ [',', ' '] ++ ("public".toList ++ [' ']), isBaseListChar c = true := by decide
  rw [List.append_cons, ← List.append_assoc, List.mem_append] at inside
  rcases inside with here | named
  · exact fixed c here
  · simp only [isBaseListChar, base.isWord c named, Bool.true_or]

theorem read?_baseClause (bases : List BaseName) (rest : Text) :
    BaseClause.read? (baseClause bases ++ '\n' :: '{' :: rest) = clause? bases := by
  cases bases with
  | nil => rfl
  | cons base bases =>
    have whole : baseClause (base :: bases) ++ '\n' :: '{' :: rest =
        ' ' :: ':' :: ' ' :: ("public".toList ++
          ' ' :: (base.text ++ (furtherBases bases ++ ['\n']) ++ '{' :: rest)) := by
      simp only [baseClause_cons, List.append_assoc, List.cons_append, List.nil_append]
    have inside : ∀ c ∈ base.text ++ (furtherBases bases ++ ['\n']), isBaseListChar c = true := by
      simp only [List.forall_mem_append, List.forall_mem_singleton]
      refine ⟨fun c member => ?_, isBaseListChar_furtherBases bases, rfl⟩
      simp only [isBaseListChar, base.isWord c member, Bool.true_or]
    rw [whole]
    refine read?_public (divide?_append ?_ inside ?_)
    · exact List.append_ne_nil_of_left_ne_nil base.ne_nil _
    · rw [List.append_assoc]
      exact Text.ends_isBlank_of_isWord base.ne_nil base.isWord

/-- What is read of a class. -/
def readClass (name : Identifier) (bases : List BaseName) : ClassDeclaration where
  gap := [' ']
  exportMacro := []
  innerGap := []
  name := name.text
  bases := clause? bases

theorem text_readClass (name : Identifier) (bases : List BaseName) :
    ∃ left, (Declaration.ofClass name bases).text = (readClass name bases).text ++ left ∧
      ∀ c ∈ left, Text.isWord c = false := by
  have head : (readClass name bases).headText = "class".toList ++ ([' '] ++ name.text) := by
    simp only [ClassDeclaration.headText, readClass, List.append_nil, List.append_assoc]
    rfl
  rw [ClassDeclaration.text, head, Declaration.text_ofClass]
  cases bases with
  | nil =>
    refine ⟨emptyBody, ?_, by decide⟩
    simp only [readClass, clause?, baseClause, Option.map_none, Option.getD_none, List.append_nil,
      List.nil_append, List.append_assoc]
  | cons base bases =>
    refine ⟨['{', '\n', '}', ';', '\n'], ?_, by decide⟩
    simp only [readClass, clause?, baseClause_cons, emptyBody, BaseClause.text, Option.map_some,
      Option.getD_some, List.append_assoc, List.cons_append, List.nil_append]

theorem read?_class (name : Identifier) (bases : List BaseName) (rest : Text) :
    ClassDeclaration.read? ((Declaration.ofClass name bases).text ++ rest) =
      some (readClass name bases) := by
  have ends : Text.Ends Text.isWord (baseClause bases ++ (emptyBody ++ rest)) := by
    cases bases with
    | nil => exact Text.ends_cons.mpr rfl
    | cons base bases => exact Text.ends_cons.mpr rfl
  rw [Declaration.text_ofClass, List.append_assoc, List.append_assoc, List.append_assoc,
    List.append_assoc, ClassDeclaration.read?_eq]
  refine (readHeaded?_append _ (List.cons_ne_nil _ _) (by decide) name.ne_nil name.isWord
    name.no_exportMacro ends).trans ?_
  rw [ClassDeclaration.ofParts]
  exact congrArg (fun bases => some { readClass name [] with bases }) (read?_baseClause bases _)

theorem record_readClass (name : Identifier) (bases : List BaseName) (filePath : String) :
    (readClass name bases).record filePath = {
      name := String.ofList name.text
      baseClasses := bases.map fun base => String.ofList base.text
      access := .public
      members := []
      filePath } := by
  cases bases with
  | nil => rfl
  | cons base bases =>
    have parsed := parseBaseClasses_furtherBases base bases
    rw [ClassDeclaration.record]
    simp only [readClass, clause?, parsed, List.map_map]
    rfl

theorem recognizeClasses_append (declaration : Declaration) (rest : Text) (filePath : String) :
    recognizeClasses (declaration.text ++ rest) filePath =
      (declaration.records filePath).classes ++ recognizeClasses rest filePath := by
  have passed : declaration.keyword? ≠ some ClassDeclaration.keyword →
      recognizeClasses (declaration.text ++ rest) filePath = recognizeClasses rest filePath := by
    intro other
    rw [recognizeClasses, declaration.passes ClassDeclaration.recognizer_ledBy (by decide) other]
    rfl
  cases declaration with
  | ofClass name bases =>
    obtain ⟨left, whole, foreign⟩ := text_readClass name bases
    rw [recognizeClasses, ClassDeclaration.recognizer_ledBy.items_append whole foreign
      (read?_class name bases rest), List.map_cons, record_readClass]
    rfl
  | ofStruct name => exact passed (by rw [Declaration.keyword?]; decide)
  | ofEnum name lines solid => exact passed (by rw [Declaration.keyword?]; decide)
  | ofFunction type name parameters => exact passed nofun

/-! ### Structs -/

/-- What is read of a struct. -/
def readStruct (name : Identifier) : StructDeclaration where
  gap := [' ']
  exportMacro := []
  innerGap := []
  name := name.text
  opening := ['\n', '{']

theorem text_readStruct (name : Identifier) :
    (Declaration.ofStruct name).text = (readStruct name).text ++ ['\n', '}', ';', '\n'] := by
  rw [Declaration.text_ofStruct]
  simp only [StructDeclaration.text, readStruct, emptyBody, List.append_nil, List.append_assoc,
    List.cons_append, List.nil_append]
  rfl

theorem read?_struct (name : Identifier) (rest : Text) :
    StructDeclaration.read? ((Declaration.ofStruct name).text ++ rest) =
      some (readStruct name) := by
  rw [Declaration.text_ofStruct, List.append_assoc, List.append_assoc, List.append_assoc,
    StructDeclaration.read?_eq]
  exact readHeaded?_append _ (List.cons_ne_nil _ _) (by decide) name.ne_nil name.isWord
    name.no_exportMacro (Text.ends_cons.mpr rfl)

theorem recognizeStructs_append (declaration : Declaration) (rest : Text) (filePath : String) :
    recognizeStructs (declaration.text ++ rest) filePath =
      (declaration.records filePath).structs ++ recognizeStructs rest filePath := by
  have passed : declaration.keyword? ≠ some StructDeclaration.keyword →
      recognizeStructs (declaration.text ++ rest) filePath = recognizeStructs rest filePath := by
    intro other
    rw [recognizeStructs, declaration.passes StructDeclaration.recognizer_ledBy (by decide) other]
    rfl
  cases declaration with
  | ofClass name bases => exact passed (by rw [Declaration.keyword?]; decide)
  | ofStruct name =>
    rw [recognizeStructs, StructDeclaration.recognizer_ledBy.items_append (text_readStruct name)
      (by decide) (read?_struct name rest)]
    rfl
  | ofEnum name lines solid => exact passed (by rw [Declaration.keyword?]; decide)
  | ofFunction type name parameters => exact passed nofun

/-! ### Enumerations -/

/-- What is read of an enumerator. -/
def readLine (line : EnumeratorLine) : EnumeratorText where
  name := line.name.text
  equals := if line.value.isSome then [' ', '=', ' '] else []
  value := (line.value.map Digits.text).getD []

theorem Digits.isWord (digits : Digits) : ∀ c ∈ digits.text, Text.isWord c = true :=
  fun c member => isWord_of_isDigit (digits.isDigit c member)

theorem text_readLine (line : EnumeratorLine) :
    line.text = '\t' :: ((readLine line).text ++ [',', '\n']) := by
  obtain ⟨name, value⟩ := line
  rw [EnumeratorLine.text, EnumeratorText.text, readLine, List.append_assoc (name.text),
    List.cons_append]
  cases value <;> rfl

theorem wellFormed_readLine (line : EnumeratorLine) : (readLine line).WellFormed where
  name_ne_nil := line.name.ne_nil
  name_word := line.name.isWord
  isValued := by
    obtain ⟨name, value⟩ := line
    cases value with
    | none => exact .none
    | some digits =>
      have inside : ∀ c ∈ digits.text, EnumeratorText.isValueChar c = true := by
        intro c member
        rw [EnumeratorText.isValueChar, Bool.and_eq_true, bne_iff_ne, bne_iff_ne]
        exact ⟨fun same => Text.not_mem_of_isWord digits.isWord rfl (same ▸ member),
          fun same => Text.not_mem_of_isWord digits.isWord rfl (same ▸ member)⟩
      have start := @Text.ends_isBlank_of_isWord _ [] digits.ne_nil digits.isWord
      rw [List.append_nil] at start
      exact @EnumeratorText.IsValued.some [' '] [' '] _ (by decide) (by decide) digits.ne_nil start
        inside

/-- An enumerator is found on its line. -/
theorem items_enumerators_line (line : EnumeratorLine) (rest : Text) :
    EnumeratorText.recognizer.items (line.text ++ rest) =
      readLine line :: EnumeratorText.recognizer.items rest := by
  have indented : EnumeratorText.recognizer.Passes ['\t'] := EnumeratorText.passes_singleton rfl
  have ended : EnumeratorText.recognizer.Passes ['\n'] := EnumeratorText.passes_singleton rfl
  have whole : line.text ++ rest = ['\t'] ++ ((readLine line).text ++ ',' :: (['\n'] ++ rest)) := by
    rw [text_readLine, List.cons_append, List.append_assoc]
    rfl
  rw [whole, indented, EnumeratorText.items_text_append_comma (wellFormed_readLine line), ended]

/-- The enumerators of a body are those on its lines. -/
theorem parseEnumBody_lines (lines : List EnumeratorLine) :
    parseEnumBody ('\n' :: lines.flatMap EnumeratorLine.text) =
      lines.map fun line =>
        ⟨String.ofList line.name.text, String.ofList ((line.value.map Digits.text).getD [])⟩ := by
  have found : EnumeratorText.recognizer.items (lines.flatMap EnumeratorLine.text) =
      lines.map readLine := by
    induction lines with
    | nil => rfl
    | cons line lines inductionHypothesis =>
      rw [List.flatMap_cons, items_enumerators_line, inductionHypothesis, List.map_cons]
  rw [parseEnumBody, ← List.singleton_append, EnumeratorText.passes_singleton rfl, found,
    List.map_map]
  refine List.map_congr_left fun line _ => ?_
  have trimmed : Text.IsTrimmed ((line.value.map Digits.text).getD []) := by
    refine Text.isTrimmed_of_forall ?_
    cases line.value with
    | none => exact nofun
    | some digits => exact fun c member => Text.isBlank_eq_false_of_isWord (digits.isWord c member)
  rw [Function.comp_apply, EnumeratorText.record, readLine, trimmed.trim_eq]

/-- What is read of an enumeration. -/
def readEnum (name : Identifier) (lines : List EnumeratorLine) : EnumDeclaration where
  lead := [' ']
  name := name.text
  gap := ['\n']
  body := '\n' :: lines.flatMap EnumeratorLine.text

theorem text_readEnum (name : Identifier) (lines : List EnumeratorLine) (solid : lines ≠ []) :
    (Declaration.ofEnum name lines solid).text = (readEnum name lines).text ++ [';', '\n'] := by
  rw [Declaration.text_ofEnum]
  simp only [EnumDeclaration.text, readEnum, List.append_assoc, List.cons_append, List.nil_append]
  rfl

theorem not_mem_line (line : EnumeratorLine) {c : Char} (foreign : Text.isWord c = false)
    (other : c ∉ ['\t', ' ', '=', ',', '\n']) : c ∉ line.text := by
  have name : c ∉ line.name.text := Text.not_mem_of_isWord line.name.isWord foreign
  obtain ⟨_, value⟩ := line
  cases value with
  | none =>
    simp only [EnumeratorLine.text, EnumeratorLine.valueText, List.mem_append, List.mem_cons,
      List.not_mem_nil, or_false, not_or] at other name ⊢
    exact ⟨⟨other.1, name⟩, other.2.2.2.1, other.2.2.2.2⟩
  | some digits =>
    have digit : c ∉ digits.text := Text.not_mem_of_isWord digits.isWord foreign
    simp only [EnumeratorLine.text, EnumeratorLine.valueText, List.mem_append, List.mem_cons,
      List.not_mem_nil, or_false, not_or] at other name ⊢
    exact ⟨⟨⟨other.1, name⟩, other.2.1, other.2.2.1, other.2.1, digit⟩, other.2.2.2.1,
      other.2.2.2.2⟩

theorem read?_enum (name : Identifier) (lines : List EnumeratorLine) (solid : lines ≠ [])
    (rest : Text) :
    EnumDeclaration.read? ((Declaration.ofEnum name lines solid).text ++ rest) =
      some (readEnum name lines) := by
  have openBody : '}' ∉ (readEnum name lines).body := by
    intro member
    rcases List.mem_cons.mp member with same | inside
    · exact absurd same (by decide)
    · obtain ⟨line, _, here⟩ := List.mem_flatMap.mp inside
      exact not_mem_line line rfl (by decide) here
  have wellFormed : (readEnum name lines).WellFormed :=
    { name_ne_nil := name.ne_nil
      name_word := name.isWord
      gap_blank := List.forall_mem_singleton.mpr rfl
      body_ne_nil := List.cons_ne_nil _ _
      body_open := openBody }
  rw [text_readEnum, List.append_assoc]
  exact EnumDeclaration.read?_text_append wellFormed (List.cons_ne_nil _ _)
    (List.forall_mem_singleton.mpr rfl) _

theorem recognizeEnums_append (declaration : Declaration) (rest : Text) (filePath : String) :
    recognizeEnums (declaration.text ++ rest) filePath =
      (declaration.records filePath).enums ++ recognizeEnums rest filePath := by
  have passed : declaration.keyword? ≠ some EnumDeclaration.keyword →
      recognizeEnums (declaration.text ++ rest) filePath = recognizeEnums rest filePath := by
    intro other
    rw [recognizeEnums, declaration.passes EnumDeclaration.recognizer_ledBy (by decide) other]
    rfl
  cases declaration with
  | ofClass name bases => exact passed (by rw [Declaration.keyword?]; decide)
  | ofStruct name => exact passed (by rw [Declaration.keyword?]; decide)
  | ofEnum name lines solid =>
    rw [recognizeEnums, EnumDeclaration.recognizer_ledBy.items_append
      (text_readEnum name lines solid) (by decide) (read?_enum name lines solid rest),
      List.map_cons, EnumDeclaration.record, readEnum, parseEnumBody_lines]
    rfl
  | ofFunction type name parameters => exact passed nofun

end EngineDocs.Header.Canonical
