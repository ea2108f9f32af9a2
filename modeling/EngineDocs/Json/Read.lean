/-
This file reads JSON text. The tokens are taken one by one; the containers that are still open
stand in a list, the innermost first, and each token either completes a value, which goes into the
innermost container, or changes what may come next. A text of which only some fields matter can be
skimmed: then the values of its other fields only have to be written like values.
-/

import EngineDocs.Json.Token
import EngineDocs.Json.Value

namespace EngineDocs.Json

/-- A container that is still open, with its contents in reverse order. A `field` is an object in
which the value of `name` has yet to come. -/
inductive Frame where
  | array (items : List Json)
  | object (fields : List (String × Json))
  | field (fields : List (String × Json)) (name : String)

/-- What may come next. -/
inductive Expectation where
  /-- A value. -/
  | value
  /-- A value, or the end of the array that was just opened. -/
  | firstItem
  /-- The name of a field, or the end of the object that was just opened. -/
  | firstName
  /-- The name of a field. -/
  | name
  /-- The colon behind the name of a field. -/
  | colon
  /-- A comma, or the end of the innermost container. -/
  | continuation
  /-- Nothing: the text is complete and has this value. -/
  | nothing (value : Json)

/-- The open containers and what may come next. -/
structure Reading where
  frames : List Frame
  expected : Expectation

/-- How a text is read. -/
structure Manner where
  /-- Containers may be open inside each other up to this number, if there is one. -/
  maxDepth : Option Nat := some 127
  /-- The fields of the outermost object whose values are skimmed. -/
  skims : String → Bool := fun _ => false

/-- Whether the value of a field that is skimmed has begun. -/
def Reading.isSkimming (manner : Manner) (reading : Reading) : Bool :=
  match reading.frames.getLast? with
  | some (.field _ name) => manner.skims name
  | _ => false

/-- Puts a complete value into the innermost open container. -/
def place (value : Json) : List Frame → Option Reading
  | [] => some ⟨[], .nothing value⟩
  | .array items :: frames => some ⟨.array (value :: items) :: frames, .continuation⟩
  | .field fields name :: frames =>
    some ⟨.object ((name, value) :: fields) :: frames, .continuation⟩
  | .object _ :: _ => none

/-- Opens a container. -/
def enter (manner : Manner) (frame : Frame) (expected : Expectation) (frames : List Frame) :
    Option Reading :=
  if manner.maxDepth.all (frames.length < ·) then some ⟨frame :: frames, expected⟩ else none

/-- Takes a token where a value is expected. -/
def beginValue (manner : Manner) (token : Token) (frames : List Frame) : Option Reading :=
  match token with
  | .null => place .null frames
  | .bool value => place (.bool value) frames
  | .int value => place (.int value) frames
  | .real literal => place (.real (String.ofList literal)) frames
  | .str value => place (.str (String.ofList value)) frames
  | .openArray => enter manner (.array []) .firstItem frames
  | .openObject => enter manner (.object []) .firstName frames
  | _ => none

/-- Ends the innermost array. -/
def endArray : List Frame → Option Reading
  | .array items :: frames => place (.arr items.reverse) frames
  | _ => none

/-- Ends the innermost object. -/
def endObject : List Frame → Option Reading
  | .object fields :: frames => place (.obj fields.reverse) frames
  | _ => none

/-- Takes the name of a field. -/
def beginField (name : Text) : List Frame → Option Reading
  | .object fields :: frames => some ⟨.field fields (String.ofList name) :: frames, .colon⟩
  | _ => none

/-- Takes one token that can be read. -/
def take (manner : Manner) (reading : Reading) (token : Token) : Option Reading :=
  match reading.expected, token with
  | .value, token => beginValue manner token reading.frames
  | .firstItem, .closeArray => endArray reading.frames
  | .firstItem, token => beginValue manner token reading.frames
  | .firstName, .closeObject => endObject reading.frames
  | .firstName, .str name => beginField name reading.frames
  | .name, .str name => beginField name reading.frames
  | .colon, .colon => some ⟨reading.frames, .value⟩
  | .continuation, .comma =>
    match reading.frames with
    | .array _ :: _ => some ⟨reading.frames, .value⟩
    | .object _ :: _ => some ⟨reading.frames, .name⟩
    | _ => none
  | .continuation, .closeArray => endArray reading.frames
  | .continuation, .closeObject => endObject reading.frames
  | _, _ => none

/-- Takes one token. One that cannot be read may stand only in what is skimmed, where it counts as
an empty string. -/
def step (manner : Manner) (reading : Reading) (token : Token) : Option Reading :=
  match token with
  | .unreadable =>
    if reading.isSkimming manner then take manner reading (.str []) else none
  | token => take manner reading token

/-- Takes tokens one after another. -/
def run (manner : Manner) (reading : Reading) : List Token → Option Reading
  | [] => some reading
  | token :: tokens => (step manner reading token).bind fun next => run manner next tokens

/-- The value of a JSON text that is read in some manner. -/
def readAs? (manner : Manner) (text : Text) : Option Json := do
  let tokens ← tokens? text
  match ← run manner ⟨[], .value⟩ tokens with
  | ⟨_, .nothing value⟩ => some value
  | _ => none

/-- The value of a JSON text; none when the text is not JSON. -/
def read? (text : Text) : Option Json := readAs? {} text

/-- The value of a JSON text of which only some fields matter. -/
def skim? (names : List String) (text : Text) : Option Json :=
  readAs? { maxDepth := none, skims := fun name => !names.contains name } text

end EngineDocs.Json
