/-
This file reads scalars, the texts of a YAML document: plain ones, quoted ones and blocks. Inside a
plain or a quoted scalar a single line break becomes a space, and of several line breaks the first
one is dropped; a folded block does the same between its ordinary lines.
-/

import EngineDocs.Yaml.Cursor

namespace EngineDocs.Yaml

/-! ### Folding lines -/

/-- A scalar while it is read: its text so far, in reverse, and the blanks and line breaks behind
it, of which it is not yet known what they stand for. -/
structure Fold where
  text : Text := []
  gaps : Text := []
  broken : Bool := false
  firstBreak : Text := []
  moreBreaks : Text := []

namespace Fold

/-- What the blanks and breaks stand for when more text follows. -/
def joint (fold : Fold) : Text :=
  if fold.broken then
    if fold.firstBreak == ['\n'] then
      if fold.moreBreaks.isEmpty then [' '] else fold.moreBreaks
    else fold.firstBreak ++ fold.moreBreaks
  else fold.gaps.reverse

/-- Takes the blanks and breaks into the text. -/
def settle (fold : Fold) : Fold := { text := fold.joint.reverse ++ fold.text }

/-- Adds a character of text. -/
def push (fold : Fold) (c : Char) : Fold := { text := c :: fold.settle.text }

/-- Adds a space or a tab. Those at the start of a line count for nothing. -/
def addGap (fold : Fold) (c : Char) : Fold :=
  if fold.broken then fold else { fold with gaps := c :: fold.gaps }

/-- Adds a line break. -/
def addBreak (fold : Fold) (lineBreak : Text) : Fold :=
  if fold.broken then { fold with moreBreaks := fold.moreBreaks ++ lineBreak }
  else { fold with gaps := [], broken := true, firstBreak := lineBreak }

/-- Adds a line break that is escaped and counts for nothing. -/
def addEscapedBreak (fold : Fold) : Fold := { fold.settle with broken := true }

end Fold

/-! ### Quoted scalars -/

/-- The character of an escape that is given by its code. -/
def codeEscape? (digits : Nat) (text : Text) : Option (Char × Nat) :=
  if (text.take digits).length < digits then none
  else
    (Text.readDigits? 16 (text.take digits)).bind fun code =>
      if (0xD800 ≤ code && code ≤ 0xDFFF) || 0x10FFFF < code then none
      else some (Char.ofNat code, digits + 1)

/-- The character of an escape behind its backslash, and how many characters the escape has. -/
def escape? (text : Text) : Option (Char × Nat) :=
  match text with
  | '0' :: _ => some ('\x00', 1)
  | 'a' :: _ => some ('\x07', 1)
  | 'b' :: _ => some ('\x08', 1)
  | 't' :: _ => some ('\t', 1)
  | '\t' :: _ => some ('\t', 1)
  | 'n' :: _ => some ('\n', 1)
  | 'v' :: _ => some ('\x0b', 1)
  | 'f' :: _ => some ('\x0c', 1)
  | 'r' :: _ => some ('\r', 1)
  | 'e' :: _ => some ('\x1b', 1)
  | ' ' :: _ => some (' ', 1)
  | '"' :: _ => some ('"', 1)
  | '/' :: _ => some ('/', 1)
  | '\\' :: _ => some ('\\', 1)
  | 'N' :: _ => some (Char.ofNat 0x85, 1)
  | '_' :: _ => some (Char.ofNat 0xA0, 1)
  | 'L' :: _ => some (Char.ofNat 0x2028, 1)
  | 'P' :: _ => some (Char.ofNat 0x2029, 1)
  | 'x' :: rest => codeEscape? 2 rest
  | 'u' :: rest => codeEscape? 4 rest
  | 'U' :: rest => codeEscape? 8 rest
  | _ => none

/-- Reads a quoted scalar behind its opening quote, up to and with its closing one. The first
`pending` characters have been dealt with. -/
def readQuoted? (single : Bool) (fold : Fold) (mark : Mark) (pending : Nat) :
    Text → Option (Text × Cursor)
  | [] => none
  | c :: rest =>
    let behind (count : Nat) : Mark := mark.past ((c :: rest).take count)
    let nextLine (count : Nat) : Mark := mark.nextLine ((c :: rest).take count)
    match pending with
    | pending + 1 => readQuoted? single fold mark pending rest
    | 0 =>
      if mark.column == 0 && isDocumentMark (c :: rest) then none
      else if c == (if single then '\'' else '"') then
        if single && rest.head? == some '\'' then
          readQuoted? single (fold.push '\'') (behind 2) 1 rest
        else some (fold.settle.text.reverse, ⟨rest, behind 1⟩)
      else if isGap c then readQuoted? single (fold.addGap c) (behind 1) 0 rest
      else match lineBreak? (c :: rest) with
        | some (lineBreak, count) =>
          readQuoted? single (fold.addBreak lineBreak) (nextLine count) (count - 1) rest
        | none =>
          if c == '\\' && !single then
            match lineBreak? rest with
            | some (_, count) =>
              readQuoted? single fold.addEscapedBreak (nextLine (count + 1)) count rest
            | none =>
              match escape? rest with
              | some (escaped, count) =>
                readQuoted? single (fold.push escaped) (behind (count + 1)) count rest
              | none => none
          else readQuoted? single (fold.push c) (behind 1) 0 rest

/-! ### Plain scalars -/

/-- The characters that end a plain scalar inside brackets. -/
def isFlowIndicator (c : Char) : Bool :=
  c == ',' || c == '[' || c == ']' || c == '{' || c == '}'

/-- Reads a plain scalar, inside brackets or not. Its later lines have to start at the column
`indent` or behind it; `boundary` says that a gap or a line break has just been passed. The result
is the scalar as it is folded and the place where it ends, blanks and breaks included. -/
def readPlain? (inFlow : Bool) (indent : Int) (fold : Fold) (mark : Mark) (boundary : Bool)
    (pending : Nat) : Text → Option (Fold × Cursor)
  | [] => some (fold, ⟨[], mark⟩)
  | c :: rest =>
    match pending with
    | pending + 1 => readPlain? inFlow indent fold mark boundary pending rest
    | 0 =>
      let stop : Option (Fold × Cursor) := some (fold, ⟨c :: rest, mark⟩)
      if isGap c then
        if fold.broken && mark.column < indent && c == '\t' then none
        else readPlain? inFlow indent (fold.addGap c) (mark.past [c]) true 0 rest
      else match lineBreak? (c :: rest) with
        | some (lineBreak, count) =>
          readPlain? inFlow indent (fold.addBreak lineBreak)
            (mark.nextLine ((c :: rest).take count)) true (count - 1) rest
        | none =>
          if boundary && ((!inFlow && mark.column < indent) || c == '#' ||
              (mark.column == 0 && isDocumentMark (c :: rest))) then stop
          else if inFlow && c == ':' &&
              ((rest.head?.map fun next => isFlowIndicator next || next == '?').getD false) then
            none
          else if (c == ':' && endsWord rest) || (inFlow && isFlowIndicator c) then stop
          else readPlain? inFlow indent (fold.push c) (mark.past [c]) false 0 rest

/-! ### Blocks -/

/-- What becomes of the line breaks at the end of a block. -/
inductive Chomping where
  | clip
  | strip
  | keep
  deriving DecidableEq

/-- The chomping that an indicator stands for. -/
def chomping? : Char → Option Chomping
  | '+' => some .keep
  | '-' => some .strip
  | _ => none

/-- Reads the indicators of a block in either order: the chomping and the indentation, zero when
none is given. -/
def readBlockHeader? (cursor : Cursor) : Option (Chomping × Nat × Cursor) :=
  let digit? (text : Text) : Option Nat :=
    (text.head?.filter Text.isDigit).map fun c => c.toNat - 48
  match cursor.rest.head?.bind chomping? with
  | some chomping =>
    let cursor := cursor.forward 1
    match digit? cursor.rest with
    | some 0 => none
    | some increment => some (chomping, increment, cursor.forward 1)
    | none => some (chomping, 0, cursor)
  | none =>
    match digit? cursor.rest with
    | some 0 => none
    | some increment =>
      let cursor := cursor.forward 1
      match cursor.rest.head?.bind chomping? with
      | some chomping => some (chomping, increment, cursor.forward 1)
      | none => some (.clip, increment, cursor)
    | none => some (.clip, 0, cursor)

/-- Passes over empty lines and the indentation of the next line, at most `fuel` lines. An
indentation of zero is not known yet. The result has the line breaks and the largest column that
was reached. -/
def passEmptyLines? : (fuel : Nat) → (indent widest : Nat) → (breaks : Text) → Cursor →
    Option (Nat × Text × Cursor)
  | 0, _, _, _, _ => none
  | fuel + 1, indent, widest, breaks, cursor =>
    let spaces := (cursor.rest.takeWhile (· == ' ')).length
    let cursor := cursor.forward
      (if indent == 0 then spaces else min spaces (indent - cursor.mark.column))
    let widest := max widest cursor.mark.column
    if (indent == 0 || cursor.mark.column < indent) && cursor.rest.head? == some '\t' then none
    else match cursor.passBreak with
      | ([], _) => some (widest, breaks, cursor)
      | (lineBreak, next) => passEmptyLines? fuel indent widest (breaks ++ lineBreak) next

/-- Reads the lines of a block, at most `fuel` of them. `text` is what was read, in reverse;
`lastBreak` ended the line before, which began with a blank if `afterBlank` says so, and `breaks`
are those of the empty lines behind it. -/
def readBlockLines? (folded : Bool) (indent : Nat) : (fuel : Nat) → (text lastBreak : Text) →
    (afterBlank : Bool) → (breaks : Text) → Cursor → Option (Text × Text × Text × Cursor)
  | 0, _, _, _, _, _ => none
  | fuel + 1, text, lastBreak, afterBlank, breaks, cursor =>
    if cursor.mark.column != indent || cursor.rest.isEmpty then
      some (text, lastBreak, breaks, cursor)
    else
      let blank := (cursor.rest.head?.map isGap).getD false
      let joint :=
        if folded && lastBreak == ['\n'] && !afterBlank && !blank then
          if breaks.isEmpty then [' '] else breaks
        else lastBreak ++ breaks
      let line := cursor.rest.takeWhile (!isBreak ·)
      let (lineBreak, next) := (cursor.forward line.length).passBreak
      match passEmptyLines? (next.rest.length + 1) indent 0 [] next with
      | none => none
      | some (_, breaks, next) =>
        readBlockLines? folded indent fuel (line.reverse ++ joint.reverse ++ text) lineBreak blank
          breaks next

/-- Reads a block behind its indicator, inside something that is indented by `outer`. -/
def readBlock? (folded : Bool) (outer : Int) (cursor : Cursor) : Option (Text × Cursor) := do
  let (chomping, increment, cursor) ← readBlockHeader? cursor
  let cursor ← cursor.finishLine?
  let given := if increment == 0 then 0 else (max outer 0).toNat + increment
  let (widest, breaks, cursor) ← passEmptyLines? (cursor.rest.length + 1) given 0 [] cursor
  let indent := if given == 0 then max (max widest (outer + 1).toNat) 1 else given
  let (text, lastBreak, breaks, cursor) ←
    readBlockLines? folded indent (cursor.rest.length + 1) [] [] false breaks cursor
  let tail := match chomping with
    | .strip => []
    | .clip => lastBreak
    | .keep => lastBreak ++ breaks
  return (text.reverse ++ tail, cursor)

end EngineDocs.Yaml
