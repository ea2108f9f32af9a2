/-
This file holds the command line. A command is a function of the file tree, so what it can depend on
is read from the disk first; afterwards the places at which the tree has changed are written back.
-/

import EngineDocs.Command.Footprint
import Std.Time.DateTime.Timestamp

namespace EngineDocs.CommandLine

/-! ### Reading the disk -/

/-- The path of a location on the disk. -/
def diskPath (location : Location) : String := "/" ++ String.intercalate "/" location

/-- Puts a directory at a location, and notes what the program may not do with it. -/
def putDirectory (tree : FileTree) (location : Location) (entered listed : Bool) : FileTree :=
  { tree.put location .directory with
    restrictions := {
      closed := if entered then tree.restrictions.closed else location :: tree.restrictions.closed
      unlisted :=
        if listed then tree.restrictions.unlisted else location :: tree.restrictions.unlisted } }

/-- Takes what stands at a location into the tree, and with `below` all that lies below it. A file
whose bytes do not matter is taken as an empty one. Links below a directory are not followed. What
cannot be looked at is passed over, so a directory that can be listed but not entered is taken as
one that shows nothing. -/
partial def load (below wanted : Bool) (tree : FileTree) (location : Location) : IO FileTree := do
  let .ok path ← (IO.FS.realPath (diskPath location)).toBaseIO | return tree
  let .ok data ← path.metadata.toBaseIO | return tree
  match data.type with
  | .dir =>
    let entered ← (path / ".").metadata.toBaseIO
    let entries ← path.readDir.toBaseIO
    let mut tree := putDirectory tree location entered.isOk entries.isOk
    if below then
      let names : List String := match entries with
        | .ok entries => entries.toList.map IO.FS.DirEntry.fileName
        | .error _ => Command.askedFor location
      for name in names do
        let .ok data ← (path / name).symlinkMetadata.toBaseIO | continue
        match data.type with
        | .symlink => pure ()
        | _ => tree ← load true (Command.readsFile name) tree (location ++ [name])
    return tree
  | .file =>
    if wanted then
      match ← (IO.FS.readBinFile path).toBaseIO with
      | .ok bytes => return tree.put location (.file bytes)
      | .error _ => return tree.put location .locked
    else return tree.put location (.file ByteArray.empty)
  | _ => return tree

/-- Takes the places that a path leads through into the tree. -/
def loadPlaces (tree : FileTree) (path : String) : IO FileTree :=
  (tree.places path).foldlM (load false false) tree

/-- Takes the places that a path leads through into the tree, and what lies below the last one. -/
def loadPath (tree : FileTree) (path : String) : IO FileTree := do
  (tree.places path).getLast?.toList.foldlM (load true true) (← loadPlaces tree path)

/-- The part of the disk that a call of the program can depend on. -/
def loadFor (arguments : List String) : IO FileTree := do
  let working := (← IO.FS.realPath ".").toString
  let tree : FileTree := { workingDirectory := FileTree.steps working }
  match Invocation.read arguments with
  | .error _ => return tree
  | .ok invocation =>
    let tree ← loadPlaces tree working
    let tree ← invocation.configFile.toList.foldlM loadPath tree
    match invocation.command.resolveSettings tree invocation.configFile with
    | .error _ => return tree
    | .ok settings => (invocation.command.roots settings).foldlM loadPath tree

/-! ### Writing to the disk -/

/-- Writes the places to the disk at which the tree has changed. A directory comes before what is in
it. -/
def store (before after : FileTree) : IO Unit :=
  for (location, item) in after.contents [] do
    match before.at? location, item with
    | none, .directory => IO.FS.createDir (diskPath location)
    | some (.file old), .file new => if old != new then IO.FS.writeBinFile (diskPath location) new
    | none, .file new => IO.FS.writeBinFile (diskPath location) new
    | _, _ => pure ()

end EngineDocs.CommandLine

/-- Runs the program. The times that it reports are those of reading the disk. -/
def main (arguments : List String) : IO UInt32 := do
  let now ← Std.Time.Timestamp.now
  let some moment := EngineDocs.Moment.ofMillis? now.toMillisecondsSinceUnixEpoch.val
    | throw (IO.userError "the clock shows no date")
  let begun ← IO.monoNanosNow
  let before ← EngineDocs.CommandLine.loadFor arguments
  let nanos := (← IO.monoNanosNow) - begun
  let elapsed : EngineDocs.Duration := ⟨nanos / 1000000000, nanos % 1000000000⟩
  let clock : EngineDocs.Generation.Clock := {
    moment
    extracting := elapsed
    total := elapsed }
  let (after, outcome) := EngineDocs.Command.run arguments clock before
  EngineDocs.CommandLine.store before after
  IO.print outcome.output
  match outcome.error with
  | some line => IO.eprintln line
  | none => pure ()
  return outcome.status.toUInt32
