/-
This file holds the patterns by which directories are left out. In a pattern `?` stands for one
character, `*` for any run of characters, a bracket for one character of a set, and `**`, which has
to be a whole component, for any number of components. Everything else stands for itself.
-/

import EngineDocs.Text.Digits

namespace EngineDocs.Glob

/-! ### Patterns -/

/-- A member of a bracketed set. -/
inductive Member where
  | single (c : Char)
  | range (first last : Char)
  deriving DecidableEq

namespace Member

/-- Whether a character is the one or lies in the range. -/
def contains (c : Char) : Member → Bool
  | single only => only == c
  | range first last => first.toNat ≤ c.toNat && c.toNat ≤ last.toNat

end Member

/-- A piece of a pattern. -/
inductive Piece where
  | char (c : Char)
  | anyChar
  | anySequence
  | anyComponents
  | within (members : List Member)
  | except (members : List Member)
  deriving DecidableEq

/-- Why a text is not a pattern. -/
inductive Reason where
  | wildcards
  | recursiveWildcards
  | invalidRange
  deriving DecidableEq

namespace Reason

/-- The wording of a reason. -/
def message : Reason → String
  | wildcards => "wildcards are either regular `*` or recursive `**`"
  | recursiveWildcards => "recursive wildcards must form a single path component"
  | invalidRange => "invalid range pattern"

end Reason

/-- A text that is not a pattern: the reason, and the number of characters before the place where
it shows. -/
structure Error where
  position : Nat
  reason : Reason
  deriving DecidableEq

namespace Error

/-- The wording of an error. -/
def message (error : Error) : String :=
  "Pattern syntax error near position " ++ String.ofList (Text.decimal error.position) ++ ": " ++
    error.reason.message

end Error

/-! ### Reading patterns -/

/-- The members of a bracketed set. A dash between two characters makes a range. -/
def members : Text → List Member
  | first :: '-' :: last :: text => .range first last :: members text
  | c :: text => .single c :: members text
  | [] => []

/-- Reads the inside of a bracket up to the first closing bracket behind its first character. -/
def readSet? (text : Text) : Option Text :=
  match text with
  | [] => none
  | first :: rest =>
    let inside := rest.takeWhile (· != ']')
    if inside.length < rest.length then some (first :: inside) else none

/-- Reads a bracketed set behind its opening bracket: the piece and the number of characters it
takes, the opening bracket left out. -/
def readBracket? (text : Text) : Option (Piece × Nat) :=
  match text with
  | '!' :: rest => (readSet? rest).map fun inside => (.except (members inside), inside.length + 2)
  | _ => (readSet? text).map fun inside => (.within (members inside), inside.length + 1)

/-- Reads a run of stars whose first one stands at `position` behind the character `before`: the
piece and the number of characters it takes, the first star left out. -/
def readStars (position : Nat) (before : Option Char) (text : Text) :
    Except Error (Piece × Nat) :=
  let more := (text.takeWhile (· == '*')).length
  if more == 0 then .ok (.anySequence, 0)
  else if 1 < more then .error ⟨position + 2, .wildcards⟩
  else if before != none && before != some '/' then .error ⟨position - 1, .recursiveWildcards⟩
  else match text.drop 1 with
    | [] => .ok (.anyComponents, 1)
    | '/' :: _ => .ok (.anyComponents, 2)
    | _ => .error ⟨position + 2, .recursiveWildcards⟩

/-- The pieces of a text that starts at `position` behind the character `before`, of which the
first `pending` characters belong to an earlier piece. -/
def readFrom (position : Nat) (before : Option Char) (pending : Nat) :
    Text → Except Error (List Piece)
  | [] => .ok []
  | c :: text =>
    match pending with
    | pending + 1 => readFrom (position + 1) (some c) pending text
    | 0 =>
      match c with
      | '?' => (readFrom (position + 1) (some c) 0 text).map (.anyChar :: ·)
      | '*' => do
        let (piece, length) ← readStars position before text
        let rest ← readFrom (position + 1) (some c) length text
        return piece :: rest
      | '[' =>
        match readBracket? text with
        | some (piece, length) =>
          (readFrom (position + 1) (some c) length text).map (piece :: ·)
        | none => .error ⟨position, .invalidRange⟩
      | c => (readFrom (position + 1) (some c) 0 text).map (.char c :: ·)

/-- A pattern. -/
structure Pattern where
  pieces : List Piece
  deriving DecidableEq

namespace Pattern

/-- Reads a pattern. -/
def read (text : Text) : Except Error Pattern := (readFrom 0 none 0 text).map Pattern.mk

/-! ### Matching

A pattern is matched from its last piece to its first. Each step has a row of verdicts, one for
every end of the text, the whole text first: whether the pieces from there on stand for exactly that
end. So no end is tried twice with the same piece. -/

/-- The verdicts when no pieces are left: only the empty end is accepted. -/
def noPieces : Text → List Bool
  | [] => [true]
  | _ :: text => false :: noPieces text

/-- The verdicts when a character that satisfies the test comes before what the row accepts. -/
def oneChar (test : Char → Bool) : Text → List Bool → List Bool
  | c :: text, _ :: row => (test c && row.headD false) :: oneChar test text row
  | _, _ => [false]

/-- The verdicts when any characters may come before what the row accepts. -/
def anyChars : List Bool → List Bool
  | [] => []
  | accepted :: row =>
    let later := anyChars row
    (accepted || later.headD false) :: later

/-- The verdicts when what the row accepts is behind some slash, or is the empty end. -/
def behindSlash : Text → List Bool → List Bool
  | c :: text, _ :: row =>
    let later := behindSlash text row
    ((c == '/' && row.headD false) || later.headD false) :: later
  | _, row => row

/-- The verdicts with one more piece in front. -/
def addPiece (text : Text) (piece : Piece) (row : List Bool) : List Bool :=
  match piece with
  | .char expected => oneChar (expected == ·) text row
  | .anyChar => oneChar (fun _ => true) text row
  | .within members => oneChar (fun c => members.any (·.contains c)) text row
  | .except members => oneChar (fun c => !members.any (·.contains c)) text row
  | .anySequence => anyChars row
  | .anyComponents => List.zipWith (· || ·) row (behindSlash text row)

/-- Whether a pattern stands for exactly the text. -/
def accepts (pattern : Pattern) (text : Text) : Bool :=
  (pattern.pieces.foldr (addPiece text) (noPieces text)).headD false

end Pattern

end EngineDocs.Glob
