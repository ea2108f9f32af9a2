/-
This file finds the headers below a directory and reads the declarations of all of them. A header
that cannot be read is skipped and told of; reading a directory of headers never fails.
-/

import EngineDocs.Discovery.DisplayPath
import EngineDocs.Failure
import EngineDocs.FileTree.Basic
import EngineDocs.Header

namespace EngineDocs.Headers

/-! ### Finding headers -/

/-- Whether a path is that of a header that is read: its extension is `h`, and it was not generated
by the reflection tool. -/
def isHeader (path : String) : Bool :=
  Path.extension? path == some ['h'] &&
    !((Path.lastName? path).map (Text.endsWith ".generated.h".toList)).getD false

/-- The path that leads from a root down along names. -/
def descend (root : String) (names : List String) : String := names.foldl Path.join root

/-- Whether the directory that holds the end of some names below a root can be listed. One whose
path is too long cannot. -/
def isListed (root : String) (names : List String) : Bool :=
  (FileTree.checkPath (descend root names.dropLast)).isOk

/-- The headers at or below a root, in the order of locations. -/
def find (tree : FileTree) (root : String) : List String :=
  match tree.lookup root with
  | .error _ => []
  | .ok (location, .directory) =>
    (tree.shown location).filterMap fun (names, item) =>
      let path := descend root names
      if item.isFile && isHeader path && isListed root names then some path else none
  | .ok _ => if isHeader root then [root] else []

/-! ### Reading headers -/

/-- The declarations of many headers, how many could be read, and which could not. -/
structure Parsed where
  declarations : DeclarationSet := {}
  filesParsed : Nat := 0
  skipped : List (String × Failure) := []

/-- The declarations of one header. -/
def parseFile (tree : FileTree) (path : String) : Except Failure DeclarationSet :=
  match tree.readLossyText path with
  | .ok content => .ok (Header.extractAll content (DisplayPath.ofHeader path))
  | .error fault => .error (.io fault)

/-- Adds what is read from one header. -/
def Parsed.add (tree : FileTree) (parsed : Parsed) (path : String) : Parsed :=
  match parseFile tree path with
  | .ok set =>
    { parsed with
      declarations := parsed.declarations ++ set
      filesParsed := parsed.filesParsed + 1 }
  | .error failure => { parsed with skipped := parsed.skipped ++ [(path, failure)] }

/-- The declarations of all headers at or below a root, in the order of the headers. -/
def parse (tree : FileTree) (root : String) : Parsed :=
  (find tree root).foldl (Parsed.add tree) {}

end EngineDocs.Headers
