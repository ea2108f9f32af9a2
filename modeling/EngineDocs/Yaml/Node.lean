/-
This file reads the document of a YAML text out of its tokens. What is left out where a node may
stand is an empty plain scalar. An alias stands for an anchored node; which one is known only when
the whole document has been read, so the aliases stay in the nodes and are resolved in the document.
-/

import EngineDocs.Yaml.Token

namespace EngineDocs.Yaml

/-- A node of a document. Of tags only those of scalars are kept, since they alone change what a
node stands for. -/
inductive Node where
  | scalar (style : Style) (tag : Option Tag) (text : Text)
  | sequence (items : List Node)
  | mapping (pairs : List (Node × Node))
  /-- The anchored node with this number. -/
  | alias (number : Nat)

/-- The node that stands where nothing is written. -/
def Node.empty : Node := .scalar .plain none []

/-- A document: its node, and the anchored nodes with their numbers in the order in which they
begin. -/
structure Document where
  root : Node
  anchored : List (Nat × Node) := []

/-- The node that a node stands for. An alias stands for the last node that has its number. -/
def Document.resolve (document : Document) : Node → Node
  | .alias number =>
    match document.anchored.reverse.find? fun (entry : Nat × Node) => entry.1 == number with
    | some (_, node) => node
    | none => .alias number
  | node => node

/-! ### Tags -/

/-- What handles of tags stand for. -/
abbrev Handles := List (Text × Tag)

/-- What handles stand for when no directive says otherwise. -/
def defaultHandles : Handles :=
  [("!".toList, Tag.ofText "!".toList), ("!!".toList, Tag.ofKind "")]

/-- The tag that a handle and a suffix stand for. An empty handle stands for nothing; any other one
has to be known. -/
def expandTag? (handles : Handles) (handle : Text) (suffix : Tag) : Option Tag :=
  if handle.isEmpty then some suffix
  else (handles.find? fun (entry : Text × Tag) => entry.1 == handle).map fun entry =>
    entry.2 ++ suffix

/-! ### Steps of reading -/

/-- The tokens that are left, the number that each name of an anchor stands for at this place, and
the anchored nodes with their numbers in the order in which they begin. -/
structure Reading where
  tokens : List Token
  names : List (Text × Nat) := []
  anchored : List (Nat × Node) := []

/-- A step of reading that gives a result and what is left. -/
abbrev Reader (α : Type) := Reading → Option (α × Reading)

namespace Reading

/-- Goes on with other tokens. -/
def go (reading : Reading) (tokens : List Token) : Reading := { reading with tokens }

/-- Whether a token comes next that the test accepts. -/
def nextIs (reading : Reading) (test : Token → Bool) : Bool :=
  match reading.tokens with
  | [] => false
  | token :: _ => test token

/-- The number that the name of an anchor stands for. -/
def number? (reading : Reading) (name : Text) : Option Nat :=
  (reading.names.find? fun (entry : Text × Nat) => entry.1 == name).map Prod.snd

/-- Begins a node, which may have an anchor. Its number is the number of names that there are. A
name that is given again does not add to them, so the next new one gets the same number. -/
def begin (reading : Reading) (anchor : Option Text) (node : Node) : Reading :=
  match anchor with
  | some name =>
    let number := reading.names.length
    let names :=
      if (reading.number? name).isSome then
        reading.names.map fun (entry : Text × Nat) =>
          if entry.1 == name then (name, number) else entry
      else reading.names ++ [(name, number)]
    { reading with names, anchored := reading.anchored ++ [(number, node)] }
  | none => reading

/-- Puts a node that has become complete into the place that was kept for it. -/
def complete (reading : Reading) (place : Nat) (anchor : Option Text) (node : Node) : Reading :=
  if anchor.isSome then
    { reading with anchored := reading.anchored.modify place fun entry => (entry.1, node) }
  else reading

end Reading

/-- Reads a node unless a token comes next before which it may be left out. -/
def orEmpty? (ends : Token → Bool) (read? : Reader Node) : Reader Node := fun reading =>
  if reading.nextIs ends then some (Node.empty, reading) else read? reading

/-- Reads the value behind a colon. It may be left out, and so may the colon. -/
def readValue? (ends : Token → Bool) (read? : Reader Node) : Reader Node := fun reading =>
  match reading.tokens with
  | .value :: tokens => orEmpty? ends read? (reading.go tokens)
  | _ => some (Node.empty, reading)

/-- Reads what is between the mark of a key and the end of its value. -/
def readPair? (endsKey endsValue : Token → Bool) (read? : Reader Node) : Reader (Node × Node) :=
  fun reading => do
    let (key, reading) ← orEmpty? endsKey read? reading
    let (value, reading) ← readValue? endsValue read? reading
    return ((key, value), reading)

/-- Reads the only pair of a mapping that is written as an item in brackets. When the key is left
out, the token in its place is lost. -/
def readItemPair? (read? : Reader Node) : Reader (Node × Node) := fun reading =>
  let endsKey token := token == .value || token == .flowEntry || token == .flowSequenceEnd
  let endsValue token := token == .flowEntry || token == .flowSequenceEnd
  if reading.nextIs endsKey then
    (readValue? endsValue read? (reading.go (reading.tokens.drop 1))).map fun (value, reading) =>
      ((Node.empty, value), reading)
  else readPair? endsKey endsValue read? reading

/-- Reads what is written in front of a node in either order: its anchor and its tag. -/
def readProperties : List Token → Option Text × Option (Text × Tag) × List Token
  | .anchor name :: .tag handle suffix :: tokens => (some name, some (handle, suffix), tokens)
  | .tag handle suffix :: .anchor name :: tokens => (some name, some (handle, suffix), tokens)
  | .anchor name :: tokens => (some name, none, tokens)
  | .tag handle suffix :: tokens => (none, some (handle, suffix), tokens)
  | tokens => (none, none, tokens)

/-- Reads a node of which only an anchor or a tag is written. -/
def bareNode? (anchor : Option Text) (tag : Option Tag) : Reader Node := fun reading =>
  let node := Node.scalar .plain tag []
  if anchor.isNone && tag.isNone then none else some (node, reading.begin anchor node)

/-- The tokens behind the comma that has to come before every entry in brackets but the first. At
the end of the brackets it may be missing. -/
def passComma? (first : Bool) (closing : Token) (tokens : List Token) : Option (List Token) :=
  match tokens with
  | .flowEntry :: rest => if first then some tokens else some rest
  | _ => if first || tokens.head? == some closing then some tokens else none

/-! ### Nodes -/

/-- Where a node stands. A sequence that is part of a pair need not be indented. -/
inductive Place where
  | block
  | pair
  | flow
  deriving DecidableEq

mutual

/-- Reads a node. Each step into the document takes one of `fuel`. -/
def readNode? (handles : Handles) : (fuel : Nat) → Place → Reader Node
  | 0, _, _ => none
  | fuel + 1, place, reading =>
    match reading.tokens with
    | .alias name :: tokens =>
      (reading.number? name).map fun number => (.alias number, reading.go tokens)
    | tokens =>
      let (anchor, properties, tokens) := readProperties tokens
      match properties.mapM fun (handle, suffix) => expandTag? handles handle suffix with
      | none => none
      | some tag =>
        let inside := reading.begin anchor .empty
        let finish (result : Node × Reading) : Node × Reading :=
          (result.1, result.2.complete reading.anchored.length anchor result.1)
        match place, tokens with
        | _, .scalar style text :: tokens =>
          let node := Node.scalar style tag text
          some (node, (reading.go tokens).begin anchor node)
        | .pair, .blockEntry :: _ =>
          (readBlockItems? handles true fuel [] (inside.go tokens)).map finish
        | _, .flowSequenceStart :: tokens =>
          (readFlowItems? handles fuel true [] (inside.go tokens)).map finish
        | _, .flowMappingStart :: tokens =>
          (readFlowPairs? handles fuel true [] (inside.go tokens)).map finish
        | .flow, _ => bareNode? anchor tag (reading.go tokens)
        | _, .blockSequenceStart :: tokens =>
          (readBlockItems? handles false fuel [] (inside.go tokens)).map finish
        | _, .blockMappingStart :: tokens =>
          (readBlockPairs? handles fuel [] (inside.go tokens)).map finish
        | _, _ => bareNode? anchor tag (reading.go tokens)

/-- Reads the items of a block behind those in `items`, which are in reverse order. Without an
indentation of its own the block ends where no item comes next. -/
def readBlockItems? (handles : Handles) (unindented : Bool) :
    (fuel : Nat) → (items : List Node) → Reader Node
  | 0, _, _ => none
  | fuel + 1, items, reading =>
    match reading.tokens with
    | .blockEntry :: tokens =>
      let ends token := token == .blockEntry || token == .blockEnd ||
        (unindented && (token == .key || token == .value))
      match orEmpty? ends (readNode? handles fuel .block) (reading.go tokens) with
      | some (item, reading) => readBlockItems? handles unindented fuel (item :: items) reading
      | none => none
    | tokens =>
      if unindented then some (.sequence items.reverse, reading)
      else match tokens with
        | .blockEnd :: tokens => some (.sequence items.reverse, reading.go tokens)
        | _ => none

/-- Reads the pairs of a block behind those in `pairs`. -/
def readBlockPairs? (handles : Handles) :
    (fuel : Nat) → (pairs : List (Node × Node)) → Reader Node
  | 0, _, _ => none
  | fuel + 1, pairs, reading =>
    match reading.tokens with
    | .key :: tokens =>
      let ends token := token == .key || token == .value || token == .blockEnd
      match readPair? ends ends (readNode? handles fuel .pair) (reading.go tokens) with
      | some (pair, reading) => readBlockPairs? handles fuel (pair :: pairs) reading
      | none => none
    | .blockEnd :: tokens => some (.mapping pairs.reverse, reading.go tokens)
    | _ => none

/-- Reads the items in brackets behind those in `items`. -/
def readFlowItems? (handles : Handles) :
    (fuel : Nat) → (first : Bool) → (items : List Node) → Reader Node
  | 0, _, _, _ => none
  | fuel + 1, first, items, reading =>
    match passComma? first .flowSequenceEnd reading.tokens with
    | none => none
    | some (.flowSequenceEnd :: tokens) => some (.sequence items.reverse, reading.go tokens)
    | some (.key :: tokens) =>
      match readItemPair? (readNode? handles fuel .flow) (reading.go tokens) with
      | some (pair, reading) => readFlowItems? handles fuel false (.mapping [pair] :: items) reading
      | none => none
    | some tokens =>
      match readNode? handles fuel .flow (reading.go tokens) with
      | some (item, reading) => readFlowItems? handles fuel false (item :: items) reading
      | none => none

/-- Reads the pairs in braces behind those in `pairs`. A key without a mark has no value. -/
def readFlowPairs? (handles : Handles) :
    (fuel : Nat) → (first : Bool) → (pairs : List (Node × Node)) → Reader Node
  | 0, _, _, _ => none
  | fuel + 1, first, pairs, reading =>
    match passComma? first .flowMappingEnd reading.tokens with
    | none => none
    | some (.flowMappingEnd :: tokens) => some (.mapping pairs.reverse, reading.go tokens)
    | some (.key :: tokens) =>
      let endsValue token := token == .flowEntry || token == .flowMappingEnd
      let endsKey token := token == .value || endsValue token
      match readPair? endsKey endsValue (readNode? handles fuel .flow) (reading.go tokens) with
      | some (pair, reading) => readFlowPairs? handles fuel false (pair :: pairs) reading
      | none => none
    | some tokens =>
      match readNode? handles fuel .flow (reading.go tokens) with
      | some (key, reading) =>
        readFlowPairs? handles fuel false ((key, Node.empty) :: pairs) reading
      | none => none

end

/-! ### Documents -/

/-- Reads the directives in front of a document: what the handles of tags stand for. There is at
most one version, and a handle is declared at most once. -/
def readDirectives? (versioned : Bool) (handles : Handles) :
    List Token → Option (Handles × List Token)
  | .versionDirective major minor :: tokens =>
    if versioned || major != 1 || (minor != 1 && minor != 2) then none
    else readDirectives? true handles tokens
  | .tagDirective handle expansion :: tokens =>
    if handles.any fun (entry : Text × Tag) => entry.1 == handle then none
    else readDirectives? versioned (handles ++ [(handle, expansion)]) tokens
  | tokens => some (handles, tokens)

/-- Whether a document has no content before a token. -/
def endsDocument : Token → Bool
  | .versionDirective .. | .tagDirective .. | .documentStart | .documentEnd => true
  | _ => false

/-- The only document that the tokens hold; `some none` when there are none at all. Directives need
the mark of the start of a document behind them. -/
def document? (tokens : List Token) : Option (Option Document) :=
  if tokens.isEmpty then some none
  else
    match readDirectives? false [] tokens with
    | none => none
    | some (handles, body) =>
      let read? := readNode? (handles ++ defaultHandles) (2 * tokens.length + 2) .block
      let result : Option (Node × Reading) := match body with
        | .documentStart :: [] => some (Node.empty, { tokens := [] })
        | .documentStart :: content => orEmpty? endsDocument read? { tokens := content }
        | _ => if body.length < tokens.length then none else read? { tokens }
      match result with
      | some (root, reading) =>
        if reading.tokens.all (· == .documentEnd) then some (some ⟨root, reading.anchored⟩)
        else none
      | none => none

/-- The only document of a text; `some none` when there is none at all. -/
def read? (text : Text) : Option (Option Document) := (tokens? text).bind document?

end EngineDocs.Yaml
