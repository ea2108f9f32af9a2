/-
This file cuts YAML text into tokens. Indentation becomes tokens that open and close blocks. A key
is known as such only by the colon behind it, so the places where a key may have begun are
remembered, and its tokens are put there once the colon is found; such a key has to stand on one
line.
-/

import EngineDocs.Yaml.Scalar
import EngineDocs.Yaml.Tag

namespace EngineDocs.Yaml

/-- How a scalar is written, as far as its meaning depends on that. -/
inductive Style where
  | plain
  | literal
  | other
  deriving DecidableEq

/-- A token of YAML text. -/
inductive Token where
  | versionDirective (major minor : Nat)
  | tagDirective (handle : Text) (expansion : Tag)
  | documentStart
  | documentEnd
  | blockSequenceStart
  | blockMappingStart
  | blockEnd
  | flowSequenceStart
  | flowSequenceEnd
  | flowMappingStart
  | flowMappingEnd
  | blockEntry
  | flowEntry
  | key
  | value
  | alias (name : Text)
  | anchor (name : Text)
  | tag (handle : Text) (suffix : Tag)
  | scalar (style : Style) (text : Text)
  deriving DecidableEq

/-- Tokens to which more can be added, also behind an earlier one. -/
structure TokenList where
  /-- The tokens, the last one first. -/
  reversed : List Token := []
  size : Nat := 0

namespace TokenList

/-- Adds a token at the end. -/
def push (tokens : TokenList) (token : Token) : TokenList :=
  ⟨token :: tokens.reversed, tokens.size + 1⟩

/-- Puts a token behind the first `count` ones. -/
def insert (tokens : TokenList) (count : Nat) (token : Token) : TokenList :=
  let (behind, before) := tokens.reversed.splitAt (tokens.size - count)
  ⟨behind ++ token :: before, tokens.size + 1⟩

/-- The tokens in their order. -/
def toList (tokens : TokenList) : List Token := tokens.reversed.reverse

end TokenList

/-- A place where a key may have begun: how many tokens come before it, and whether there has to be
a key because the place is at the indentation of a mapping. -/
structure KeyPlace where
  required : Bool
  tokenCount : Nat
  mark : Mark

/-- The text that is left, the tokens so far, and what decides on the next one. -/
structure Scan where
  cursor : Cursor
  /-- The column of the innermost block, and those of the blocks around it. -/
  indent : Int := -1
  outerIndents : List Int := []
  /-- Whether a key may begin here. -/
  keyAllowed : Bool := true
  /-- The place of a possible key outside of brackets and inside each of them, the innermost
  first. -/
  places : List (Option KeyPlace) := [none]
  tokens : TokenList := {}

namespace Scan

/-! ### Blocks and keys -/

/-- Whether the text is inside brackets. -/
def inFlow (scan : Scan) : Bool := 1 < scan.places.length

/-- Adds a token at the end. -/
def emit (scan : Scan) (token : Token) : Scan := { scan with tokens := scan.tokens.push token }

/-- Puts a token behind the first `count` ones. -/
def emitAt (scan : Scan) (count : Nat) (token : Token) : Scan :=
  { scan with tokens := scan.tokens.insert count token }

/-- Passes over characters of the line. -/
def forward (scan : Scan) (count : Nat) : Scan :=
  { scan with cursor := scan.cursor.forward count }

/-- Closes blocks that are indented further than a column. -/
def closeBlocks (column : Int) : (indent : Int) → (outer : List Int) → TokenList →
    Int × List Int × TokenList
  | indent, next :: outer, tokens =>
    if column < indent then closeBlocks column next outer (tokens.push .blockEnd)
    else (indent, next :: outer, tokens)
  | indent, [], tokens => (indent, [], tokens)

/-- Closes the blocks that a column ends. Brackets keep blocks open. -/
def unroll (scan : Scan) (column : Int) : Scan :=
  if scan.inFlow then scan
  else
    let (indent, outerIndents, tokens) :=
      closeBlocks column scan.indent scan.outerIndents scan.tokens
    { scan with indent, outerIndents, tokens }

/-- Opens a block at a column that is further in than the innermost block, with its token behind
the first `count` ones. -/
def roll (scan : Scan) (column count : Nat) (token : Token) : Scan :=
  if scan.inFlow || (column : Int) ≤ scan.indent then scan
  else
    { (scan.emitAt count token) with
      indent := column
      outerIndents := scan.indent :: scan.outerIndents }

/-- Gives up the possible key of the innermost brackets; it must not be a required one. -/
def dropPlace? (scan : Scan) : Option Scan :=
  match scan.places with
  | some place :: places =>
    if place.required then none else some { scan with places := none :: places }
  | _ => some scan

/-- Remembers that a key may begin here. -/
def savePlace? (scan : Scan) : Option Scan :=
  if scan.keyAllowed then
    let place : KeyPlace := {
      required := !scan.inFlow && scan.indent == scan.cursor.mark.column
      tokenCount := scan.tokens.size
      mark := scan.cursor.mark }
    scan.dropPlace?.map fun scan => { scan with places := some place :: scan.places.tail }
  else some scan

/-- The most bytes that a key may have. -/
def maxKeyLength : Nat := 1024

/-- Gives up a possible key that has become too long or has left its line; it must not be a
required one. -/
def freshPlace? (mark : Mark) (place : Option KeyPlace) : Option (Option KeyPlace) :=
  match place with
  | none => some none
  | some place =>
    if place.mark.line < mark.line || place.mark.index + maxKeyLength < mark.index then
      if place.required then none else some none
    else some (some place)

/-- Gives up all possible keys that can be none any more. -/
def dropStale? (scan : Scan) : Option Scan :=
  (scan.places.mapM (freshPlace? scan.cursor.mark)).map fun places => { scan with places }

/-! ### Blanks and comments -/

/-- Passes over blanks, comments and line breaks, at most `fuel` lines. A tab may not stand where a
key may begin. -/
def skipToToken : (fuel : Nat) → Scan → Scan
  | 0, scan => scan
  | fuel + 1, scan =>
    let cursor := scan.cursor
    let cursor :=
      if cursor.mark.column == 0 && (cursor.rest.head?.map Char.toNat) == some 0xFEFF then
        cursor.forward 1
      else cursor
    let cursor := cursor.skipWhile fun c =>
      c == ' ' || (c == '\t' && (scan.inFlow || !scan.keyAllowed))
    let cursor := cursor.skipComment
    match cursor.passBreak with
    | ([], _) => { scan with cursor }
    | (_, next) =>
      skipToToken fuel
        { scan with cursor := next, keyAllowed := if scan.inFlow then scan.keyAllowed else true }

/-! ### Names -/

/-- Reads an anchor or an alias behind its indicator. -/
def readAnchor? (cursor : Cursor) : Option (Text × Cursor) :=
  let name := cursor.rest.takeWhile isNameChar
  let next := cursor.forward name.length
  let ends := match next.rest with
    | [] => true
    | c :: _ => isGap c || isBreak c || ['?', ':', ',', ']', '}', '%', '@', '`'].contains c
  if name.isEmpty || !ends then none else some (name, next)

/-- The characters of a tag. -/
def isTagChar (verbatim : Bool) (c : Char) : Bool :=
  isNameChar c ||
    [';', '/', '?', ':', '@', '&', '=', '+', '$', '.', '%', '!', '~', '*', '\'', '(', ')'].contains
      c ||
    (verbatim && [',', '[', ']'].contains c)

/-- Reads the handle of a tag: an exclamation mark, or a name between two. The mark at the end may
be missing. -/
def readHandle? (cursor : Cursor) : Option (Text × Cursor) :=
  match cursor.rest with
  | '!' :: rest =>
    let name := rest.takeWhile isNameChar
    let handle := '!' :: name ++ if (rest.drop name.length).head? == some '!' then ['!'] else []
    some (handle, cursor.forward handle.length)
  | _ => none

/-- Reads a tag: its handle, which is empty for a complete one, and its suffix. An exclamation mark
alone is complete. -/
def readTag? (cursor : Cursor) : Option (Text × Tag × Cursor) :=
  match cursor.rest with
  | '!' :: '<' :: rest => do
    let body := rest.takeWhile (isTagChar true)
    let suffix ← Tag.unescape? body
    let next := cursor.forward (body.length + 2)
    if body.isEmpty || next.rest.head? != some '>' then none
    else return ([], suffix.untilZero, next.forward 1)
  | _ => do
    let (handle, next) ← readHandle? cursor
    let body := next.rest.takeWhile (isTagChar false)
    let tail ← Tag.unescape? body
    let next := next.forward body.length
    if 1 < handle.length && handle.getLast? == some '!' then
      if body.isEmpty then none else return (handle, tail.untilZero, next)
    else
      let suffix := (Tag.ofText (handle.drop 1) ++ tail).untilZero
      if suffix.isEmpty then return ([], Tag.ofText ['!'], next) else return (['!'], suffix, next)

/-! ### Directives -/

/-- Reads a number of at most nine digits. -/
def readVersionPart? (cursor : Cursor) : Option (Nat × Cursor) :=
  let digits := cursor.rest.takeWhile Text.isDigit
  if 9 < digits.length then none
  else (Text.readDigits? 10 digits).map fun n => (n, cursor.forward digits.length)

/-- Reads a directive behind its percent sign. -/
def readDirective? (cursor : Cursor) : Option (Token × Cursor) := do
  let name := cursor.rest.takeWhile isNameChar
  let next := cursor.forward name.length
  if !endsWord next.rest then none
  else if name == "YAML".toList then
    let (major, next) ← readVersionPart? next.skipGaps
    if next.rest.head? != some '.' then none
    else
      let (minor, next) ← readVersionPart? (next.forward 1)
      return (.versionDirective major minor, ← next.finishLine?)
  else if name == "TAG".toList then
    let (handle, next) ← readHandle? next.skipGaps
    if (1 < handle.length && handle.getLast? != some '!') ||
        !(next.rest.head?.map isGap).getD false then none
    else
      let next := next.skipGaps
      let body := next.rest.takeWhile (isTagChar true)
      let expansion ← Tag.unescape? body
      let next := next.forward body.length
      if body.isEmpty || !endsWord next.rest then none
      else return (.tagDirective handle expansion.untilZero, ← next.finishLine?)
  else none

/-! ### Fetching tokens -/

/-- Takes a token at the very start of a line, which ends all blocks. -/
def leaveBlocks? (scan : Scan) : Option Scan :=
  (scan.unroll (-1)).dropPlace?.map fun scan => { scan with keyAllowed := false }

/-- Takes an opening bracket. -/
def openFlow? (scan : Scan) (token : Token) : Option Scan :=
  scan.savePlace?.map fun scan =>
    { ((scan.emit token).forward 1) with keyAllowed := true, places := none :: scan.places }

/-- Takes a closing bracket. -/
def closeFlow? (scan : Scan) (token : Token) : Option Scan :=
  scan.dropPlace?.map fun scan =>
    { ((scan.emit token).forward 1) with
      keyAllowed := false
      places := if scan.inFlow then scan.places.tail else scan.places }

/-- Takes the comma between entries in brackets. -/
def takeFlowEntry? (scan : Scan) : Option Scan :=
  scan.dropPlace?.map fun scan => { ((scan.emit .flowEntry).forward 1) with keyAllowed := true }

/-- Takes the dash of an entry. -/
def takeBlockEntry? (scan : Scan) : Option Scan :=
  if !scan.inFlow && !scan.keyAllowed then none
  else
    (scan.roll scan.cursor.mark.column scan.tokens.size .blockSequenceStart).dropPlace?.map
      fun scan => { ((scan.emit .blockEntry).forward 1) with keyAllowed := true }

/-- Takes the question mark of a key. -/
def takeKey? (scan : Scan) : Option Scan :=
  if !scan.inFlow && !scan.keyAllowed then none
  else
    (scan.roll scan.cursor.mark.column scan.tokens.size .blockMappingStart).dropPlace?.map
      fun scan => { ((scan.emit .key).forward 1) with keyAllowed := !scan.inFlow }

/-- Takes the colon of a value. When a key may have begun before it on the line, that was one. -/
def takeValue? (scan : Scan) : Option Scan :=
  match scan.places with
  | some place :: places =>
    let scan := { (scan.emitAt place.tokenCount .key) with places := none :: places }
    let scan := scan.roll place.mark.column place.tokenCount .blockMappingStart
    some { ((scan.emit .value).forward 1) with keyAllowed := false }
  | _ =>
    if !scan.inFlow && !scan.keyAllowed then none
    else
      let scan := scan.roll scan.cursor.mark.column scan.tokens.size .blockMappingStart
      some { ((scan.emit .value).forward 1) with keyAllowed := !scan.inFlow }

/-- Takes a token that may begin a key and was read together with its end. -/
def takeNode? (scan : Scan) (read? : Cursor → Option (Token × Cursor)) : Option Scan := do
  let scan ← scan.savePlace?
  let (token, cursor) ← read? scan.cursor
  return { (scan.emit token) with cursor, keyAllowed := false }

/-- Takes a plain scalar. A key may begin on the line behind it. -/
def takePlain? (scan : Scan) : Option Scan := do
  let scan ← scan.savePlace?
  let (fold, cursor) ← readPlain? scan.inFlow (scan.indent + 1) {} scan.cursor.mark false 0
    scan.cursor.rest
  return { (scan.emit (.scalar .plain fold.text.reverse)) with cursor, keyAllowed := fold.broken }

/-- Takes a block. -/
def takeBlock? (scan : Scan) (folded : Bool) : Option Scan := do
  let scan ← scan.dropPlace?
  let (text, cursor) ← readBlock? folded scan.indent (scan.cursor.forward 1)
  return {
    (scan.emit (.scalar (if folded then .other else .literal) text)) with
    cursor
    keyAllowed := true }

/-- Reads a quoted scalar. -/
def readQuotedToken? (single : Bool) (cursor : Cursor) : Option (Token × Cursor) :=
  (readQuoted? single {} (cursor.mark.past (cursor.rest.take 1)) 0 (cursor.rest.drop 1)).map
    fun (text, next) => (.scalar .other text, next)

/-- Reads a tag, behind which a gap, a line break or, in brackets, a comma has to come. -/
def readTagToken? (inFlow : Bool) (cursor : Cursor) : Option (Token × Cursor) := do
  let (handle, suffix, next) ← readTag? cursor
  if endsWord next.rest || (inFlow && next.rest.head? == some ',') then
    return (.tag handle suffix, next)
  else none

/-- The characters that do not begin a plain scalar. -/
def isIndicator (c : Char) : Bool :=
  ['-', '?', ':', ',', '[', ']', '{', '}', '#', '&', '*', '!', '|', '>', '\'', '"', '%', '@',
   '`'].contains c

/-- Whether a plain scalar begins here. -/
def beginsPlain (scan : Scan) : Bool :=
  match scan.cursor.rest with
  | [] => false
  | c :: rest =>
    (!endsWord (c :: rest) && !isIndicator c) ||
      (c == '-' && !(rest.head?.map isGap).getD false) ||
      (!scan.inFlow && (c == '?' || c == ':') && !endsWord rest)

/-- Takes the token that begins with a character at some column. -/
def takeToken? (scan : Scan) (c : Char) (rest : Text) : Option Scan :=
  let atStart := scan.cursor.mark.column == 0
  let word := scan.inFlow || endsWord rest
  if atStart && c == '%' then do
    let scan ← scan.leaveBlocks?
    let (token, cursor) ← readDirective? (scan.cursor.forward 1)
    return { (scan.emit token) with cursor }
  else if atStart && isDocumentMark (c :: rest) then
    scan.leaveBlocks?.map fun scan =>
      (scan.emit (if c == '-' then .documentStart else .documentEnd)).forward 3
  else if c == '[' then scan.openFlow? .flowSequenceStart
  else if c == '{' then scan.openFlow? .flowMappingStart
  else if c == ']' then scan.closeFlow? .flowSequenceEnd
  else if c == '}' then scan.closeFlow? .flowMappingEnd
  else if c == ',' then scan.takeFlowEntry?
  else if c == '-' && endsWord rest then scan.takeBlockEntry?
  else if c == '?' && word then scan.takeKey?
  else if c == ':' && word then scan.takeValue?
  else if c == '*' then scan.takeNode? fun cursor =>
    (readAnchor? (cursor.forward 1)).map fun (name, next) => (.alias name, next)
  else if c == '&' then scan.takeNode? fun cursor =>
    (readAnchor? (cursor.forward 1)).map fun (name, next) => (.anchor name, next)
  else if c == '!' then scan.takeNode? (readTagToken? scan.inFlow)
  else if c == '|' && !scan.inFlow then scan.takeBlock? false
  else if c == '>' && !scan.inFlow then scan.takeBlock? true
  else if c == '\'' then scan.takeNode? (readQuotedToken? true)
  else if c == '"' then scan.takeNode? (readQuotedToken? false)
  else if scan.beginsPlain then scan.takePlain?
  else none

/-- Takes tokens to the end of the text, at most `fuel` of them, each behind at most as many
lines. -/
def takeAll? : (fuel : Nat) → Scan → Option (List Token)
  | 0, _ => none
  | fuel + 1, scan => do
    let scan ← (skipToToken (fuel + 1) scan).dropStale?
    let scan := scan.unroll scan.cursor.mark.column
    match scan.cursor.rest with
    | [] => return (← scan.leaveBlocks?).tokens.toList
    | c :: rest => takeAll? fuel (← scan.takeToken? c rest)

end Scan

/-- The tokens of a text; none when it is not YAML. -/
def tokens? (text : Text) : Option (List Token) :=
  if text.all isPrintable then Scan.takeAll? (text.length + 1) { cursor := ⟨text, {}⟩ } else none

end EngineDocs.Yaml
