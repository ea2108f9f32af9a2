/-
This file holds the text of paths: how two are joined, which components one has, and its parent,
last name and extension. Nothing here looks at a disk. Components are separated by slashes, and a
path is absolute when it starts with one.
-/

import EngineDocs.Text.Basic

namespace EngineDocs.Path

/-- A component of a path. -/
inductive Component where
  | root
  | current
  | parent
  | name (text : Text)
  deriving DecidableEq

namespace Component

/-- The characters of a component. -/
def text : Component → Text
  | root => ['/']
  | current => ['.']
  | parent => ['.', '.']
  | name text => text

end Component

/-- Whether a path starts at the root. -/
def isAbsolute (path : String) : Bool := path.toList.head? == some '/'

/-- The path of `part` seen from `base`. An absolute part stands for itself. -/
def join (base part : String) : String :=
  if isAbsolute part || base.isEmpty then part
  else if base.toList.getLast? == some '/' then base ++ part
  else base ++ "/" ++ part

/-- The stretches between slashes. -/
def segments (path : String) : List Text := Text.pieces (· == '/') path.toList

/-- The component that a segment stands for when it is not the first of its path. Empty segments
and single dots stand for none. -/
def innerComponent? (segment : Text) : Option Component :=
  if segment.isEmpty || segment == ['.'] then none
  else if segment == ['.', '.'] then some .parent
  else some (.name segment)

/-- The component that the first segment of a path stands for. A dot counts only here. -/
def firstComponent? (absolute : Bool) (segment : Text) : Option Component :=
  if absolute then some .root
  else if segment == ['.'] then some .current
  else innerComponent? segment

/-- The segments of a path, each with the component that it stands for. -/
def labelled (path : String) : List (Text × Option Component) :=
  match segments path with
  | [] => []
  | first :: rest =>
    (first, firstComponent? (isAbsolute path) first) ::
      rest.map fun segment => (segment, innerComponent? segment)

/-- The components of a path in order. -/
def components (path : String) : List Component := (labelled path).filterMap Prod.snd

/-- The text of the leading segments of a path, given from the last to the first. -/
def ofReversed (segments : List Text) : String :=
  match segments with
  | [[]] => "/"
  | _ => String.ofList (Text.joinWith ['/'] segments.reverse)

/-- The path without its last component, and without the segments before it that stand for none.
The root and the empty path have no parent. -/
def parent? (path : String) : Option String :=
  let backwards := (labelled path).reverse.dropWhile (·.2.isNone)
  match backwards with
  | [] | (_, some .root) :: _ => none
  | _ :: before => some (ofReversed ((before.dropWhile (·.2.isNone)).map Prod.fst))

/-- The last component, when it is a name. -/
def lastName? (path : String) : Option Text :=
  match (components path).getLast? with
  | some (.name text) => some text
  | _ => none

/-- The part of the last name behind its last dot. A dot at the start of the name does not
count. -/
def extension? (path : String) : Option Text :=
  (lastName? path).bind fun name =>
    let backwards := name.reverse
    match backwards.drop (backwards.takeWhile (· != '.')).length with
    | '.' :: _ :: _ => some (backwards.takeWhile (· != '.')).reverse
    | _ => none

/-- The path, its parent, the parent of that, and so on, as far as `count` steps go. -/
def ancestorsWithin : (count : Nat) → (path : String) → List String
  | 0, path => [path]
  | count + 1, path =>
    path :: match parent? path with
      | some parent => ancestorsWithin count parent
      | none => []

/-- The path and all that it lies in, from the inside out. -/
def ancestors (path : String) : List String := ancestorsWithin (segments path).length path

end EngineDocs.Path
