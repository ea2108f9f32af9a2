/-
This file holds the file tree that a run reads and changes. The tree is a value: a map from
locations, the names on the way down from the root, to what stands there. A path is a text that
leads to a location, from the root when it is absolute and from the working directory otherwise,
and finding its location can fail.

There are no links of either kind, and all names are texts. A file may be locked, and a directory may
be one that the program cannot enter or cannot list. Whatever directory the program may enter it may
also change.
-/

import EngineDocs.FileTree.Fault
import EngineDocs.Path
import EngineDocs.Text.Utf8
import Std.Data.TreeMap

namespace EngineDocs

/-- The names on the way from the root of a tree down to a place. -/
abbrev Location := List String

namespace Location

/-- Names are ordered by their characters. -/
def compareNames (a b : String) : Ordering := Text.compare a.toList b.toList

/-- Locations are ordered name by name, so that a directory comes right before what is in it. -/
def compare : Location → Location → Ordering
  | [], [] => .eq
  | [], _ :: _ => .lt
  | _ :: _, [] => .gt
  | a :: left, b :: right =>
    match compareNames a b with
    | .eq => compare left right
    | order => order

/-- The rest of a location that lies below a directory, or is the directory itself. -/
def below? : (directory location : Location) → Option Location
  | [], location => some location
  | _ :: _, [] => none
  | a :: directory, b :: location => if a = b then below? directory location else none

end Location

/-- What stands at a location. A locked file is one whose bytes may not be read or replaced. -/
inductive Item where
  | file (bytes : ByteArray)
  | locked
  | directory

namespace Item

/-- Whether this is a regular file. -/
def isFile : Item → Bool
  | directory => false
  | _ => true

/-- Whether this is a directory. -/
def isDirectory : Item → Bool
  | directory => true
  | _ => false

end Item

/-- What the program is not allowed to do with some directories. No path leads through a closed one,
and of an unlisted one it is not told what it holds. -/
structure Restrictions where
  closed : List Location := []
  unlisted : List Location := []

/-- A file tree and the directory from which relative paths lead. The root is always there. -/
structure FileTree where
  items : Std.TreeMap Location Item Location.compare := {}
  workingDirectory : Location := []
  restrictions : Restrictions := {}

namespace FileTree

/-! ### Locations -/

/-- What stands at a location. -/
def at? (tree : FileTree) (location : Location) : Option Item :=
  if location.isEmpty then some .directory else tree.items[location]?

/-- The tree with an item put at a location. -/
def put (tree : FileTree) (location : Location) (item : Item) : FileTree :=
  { tree with items := tree.items.insert location item }

/-- Whether a place stays when a location and all that lies below it goes. The root always stays. -/
def stays (location other : Location) : Bool := other.isEmpty || (location.below? other).isNone

/-- The tree without a location and all that lies below it. -/
def erase (tree : FileTree) (location : Location) : FileTree :=
  { tree with
    items := tree.items.filter fun other _ => stays location other
    restrictions := {
      closed := tree.restrictions.closed.filter (stays location)
      unlisted := tree.restrictions.unlisted.filter (stays location) } }

/-- What lies below a location, with the names on the way down, in the order of locations. -/
def contents (tree : FileTree) (location : Location) : List (Location × Item) :=
  tree.items.toList.filterMap fun (other, item) =>
    match location.below? other with
    | some (name :: names) => some (name :: names, item)
    | _ => none

/-! ### What a walk shows -/

/-- Whether a directory may be entered, so that paths lead through it. -/
def mayEnter (tree : FileTree) (location : Location) : Bool :=
  !tree.restrictions.closed.contains location

/-- Whether a directory that a path leads to can be listed. -/
def mayList (tree : FileTree) (location : Location) : Bool :=
  !tree.restrictions.unlisted.contains location

/-- Whether a walk through a directory comes to the end of some names below it. For that each
directory on the way has to be listed, and has to be entered when the way goes on. -/
def shows (tree : FileTree) (location : Location) : List String → Bool
  | [] => true
  | name :: names => tree.mayList location &&
    (names.isEmpty || tree.mayEnter location && shows tree (location ++ [name]) names)

/-- What a walk through a directory shows of what lies below it, in the order of locations. A
directory that cannot be listed is passed over. -/
def shown (tree : FileTree) (location : Location) : List (Location × Item) :=
  (tree.contents location).filter fun (names, _) => tree.shows location names

/-- The names in a directory with what they stand for, in the order of names. None are told when
the directory cannot be listed. -/
def entries (tree : FileTree) (location : Location) : List (String × Item) :=
  (tree.shown location).filterMap fun (names, item) =>
    match names with
    | [name] => some (name, item)
    | _ => none

/-! ### Paths -/

/-- The most bytes that a name may have. -/
def maxNameLength : Nat := 255

/-- The number of bytes at which a path is refused. -/
def pathLimit : Nat := 4096

/-- The segments of a path that say something. A path has none when it is empty or consists of
slashes. -/
def steps (path : String) : List String :=
  ((Path.segments path).filter (!·.isEmpty)).map String.ofList

/-- Enters what stands at a location, which has to be a directory for that. -/
def enter (tree : FileTree) (location : Location) : Except Fault Unit :=
  match tree.at? location with
  | none => .error .noEntry
  | some .directory => if tree.mayEnter location then .ok () else .error .denied
  | some _ => .error .notDirectory

/-- Follows steps from a location. Every step leads out of a directory that may be entered; the
place where the last one leads need not exist. -/
def follow (tree : FileTree) (location : Location) : List String → Except Fault Location
  | [] => .ok location
  | step :: steps =>
    match tree.enter location with
    | .error fault => .error fault
    | .ok () =>
      if step = "." then follow tree location steps
      else if step = ".." then follow tree location.dropLast steps
      else if maxNameLength < step.utf8ByteSize then .error .nameTooLong
      else follow tree (location ++ [step]) steps

/-- Where the first step of a path starts. -/
def start (tree : FileTree) (path : String) : Location :=
  if Path.isAbsolute path then [] else tree.workingDirectory

/-- Refuses the paths that are no paths at all. -/
def checkPath (path : String) : Except Fault Unit :=
  if path.toList.contains '\x00' then .error .nulInPath
  else if path.isEmpty then .error .noEntry
  else if pathLimit ≤ path.utf8ByteSize then .error .nameTooLong
  else .ok ()

/-- Whether a path can only mean a directory, because it ends in a slash or a dot. -/
def meansDirectory (path : String) : Bool :=
  match (Path.segments path).getLast? with
  | some last => last.isEmpty || last == ['.'] || last == ['.', '.']
  | none => false

/-- What a path leads to. -/
def lookup (tree : FileTree) (path : String) : Except Fault (Location × Item) := do
  checkPath path
  let location ← tree.follow (tree.start path) (steps path)
  match tree.at? location with
  | none => throw .noEntry
  | some .directory => return (location, .directory)
  | some item => if meansDirectory path then throw .notDirectory else return (location, item)

/-- Whether a path leads to a regular file. -/
def isFile (tree : FileTree) (path : String) : Bool :=
  match tree.lookup path with
  | .ok (_, item) => item.isFile
  | .error _ => false

/-- Whether a path leads to a directory. -/
def isDirectory (tree : FileTree) (path : String) : Bool :=
  match tree.lookup path with
  | .ok (_, item) => item.isDirectory
  | .error _ => false

/-! ### Reading -/

/-- The bytes of the file that a path leads to. -/
def readBytes (tree : FileTree) (path : String) : Except Fault ByteArray := do
  match ← tree.lookup path with
  | (_, .file bytes) => return bytes
  | (_, .locked) => throw .denied
  | (location, .directory) => throw (if tree.mayList location then .isDirectory else .denied)

/-- The text of the file that a path leads to. -/
def readText (tree : FileTree) (path : String) : Except Fault String := do
  match String.fromUTF8? (← tree.readBytes path) with
  | some text => return text
  | none => throw .invalidText

/-- The text of the file that a path leads to, with bytes that are not text replaced. -/
def readLossyText (tree : FileTree) (path : String) : Except Fault String :=
  (tree.readBytes path).map Text.decodeLossy

end FileTree

end EngineDocs
