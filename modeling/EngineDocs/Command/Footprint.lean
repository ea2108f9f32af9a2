/-
This file says which part of a file tree a command can depend on: the places that its paths lead
through, what lies below some of them, and which of the files there are read at all.
-/

import EngineDocs.Command.Run

namespace EngineDocs

namespace FileTree

/-- The places that steps lead through, in order. -/
def placesFrom (location : Location) : List String → List Location
  | [] => []
  | step :: steps =>
    let next :=
      if step = "." then location
      else if step = ".." then location.dropLast
      else location ++ [step]
    next :: placesFrom next steps

/-- The places that a path leads through, the last being the one that it leads to. -/
def places (tree : FileTree) (path : String) : List Location :=
  placesFrom (tree.start path) (steps path)

end FileTree

namespace Command

/-- The paths that a command names, below which it looks around. -/
def roots (command : Command) (settings : Settings) : List String :=
  match command with
  | generate _ => settings.sourceDir :: settings.outputDir :: settings.pluginsDir.toList
  | scan _ _ => settings.sourceDir :: settings.pluginsDir.toList
  | parse path _ => [path]
  | deps path _ => [path]

/-- Whether a file below a root is read, going by its name. Of all others it only matters that they
are there. -/
def readsFile (name : String) : Bool :=
  Headers.isHeader name || (Scanner.rulesName? name).isSome || name == FingerprintStore.fileName

/-- The names that a scan asks for in a directory even when it cannot list it. -/
def askedFor (directory : Location) : List String :=
  directory.getLast?.toList.map (· ++ String.ofList Scanner.rulesSuffix) ++ ["Public", "Private"]

end Command

end EngineDocs
