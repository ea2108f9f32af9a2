/-
This file holds the paths that documents show. They start at the directory called `Engine` where
there is one, so that they read the same wherever the engine lives.
-/

import EngineDocs.Path

namespace EngineDocs.DisplayPath

/-- The name at which a path for display starts. -/
def anchor : Text := "Engine".toList

/-- The part of a path from the first segment called `Engine` on, joined by slashes. Segments are
separated by slashes or backslashes. -/
def engineRelative? (path : String) : Option String :=
  match (Text.pieces (fun c => c == '/' || c == '\\') path.toList).dropWhile (· != anchor) with
  | [] => none
  | segments => some (String.ofList (Text.joinWith ['/'] segments))

/-- The path for a header: from `Engine` on, or else as it is. -/
def ofHeader (path : String) : String := (engineRelative? path).getD path

/-- Drops the leading components that two paths share from the first one. -/
def dropShared : List Path.Component → List Path.Component → List Path.Component
  | a :: path, b :: root => if a = b then dropShared path root else a :: path
  | path, _ => path

/-- The path for a module: from `Engine` on, or else without what it shares with the root. -/
def ofModule (path root : String) : String :=
  (engineRelative? path).getD (String.ofList (Text.joinWith ['/']
    ((dropShared (Path.components path) (Path.components root)).map Path.Component.text)))

end EngineDocs.DisplayPath
