/-
This file holds the two ways in which a run changes a file tree: it makes a directory with all that
lead to it, and it writes a file. A plan is a list of such changes. It is carried out in order up
to the first change that fails, and what was changed before stays changed.
-/

import EngineDocs.FileTree.Basic

namespace EngineDocs

namespace FileTree

/-- Divides a path into the place where its last step starts and that step. -/
def divideLast (tree : FileTree) (path : String) : Except Fault (Location × Option String) := do
  checkPath path
  let all := steps path
  let location ← tree.follow (tree.start path) all.dropLast
  match all.getLast? with
  | none => return (location, none)
  | some last =>
    tree.enter location
    return (location, some last)

/-- Whether a step goes nowhere or up, so that it names nothing that could be made. -/
def isMove (step : String) : Bool := step = "." || step = ".."

/-- Makes one directory in a directory that exists. -/
def makeDirectory (tree : FileTree) (path : String) : Except Fault FileTree := do
  match ← tree.divideLast path with
  | (_, none) => throw .alreadyExists
  | (location, some name) =>
    if isMove name then throw .alreadyExists
    else if maxNameLength < name.utf8ByteSize then throw .nameTooLong
    else match tree.at? (location ++ [name]) with
      | some _ => throw .alreadyExists
      | none => return tree.put (location ++ [name]) .directory

/-- Writes a file in a directory that exists, in place of the one that may be there. -/
def writeBytes (tree : FileTree) (path : String) (bytes : ByteArray) : Except Fault FileTree := do
  match ← tree.divideLast path with
  | (_, none) => throw .isDirectory
  | (location, some name) =>
    if isMove name || meansDirectory path then throw .isDirectory
    else if maxNameLength < name.utf8ByteSize then throw .nameTooLong
    else match tree.at? (location ++ [name]) with
      | some .directory => throw .isDirectory
      | some .locked => throw .denied
      | _ => return tree.put (location ++ [name]) (.file bytes)

/-- Makes the first directory of a list whose later members lead to it. A directory is made only
when the attempt shows that those before it are missing, and one that exists already is no
fault. -/
def makeDirectories (tree : FileTree) : List String → FileTree × Option Fault
  | [] => (tree, some .noEntry)
  | path :: outer =>
    if path.isEmpty then (tree, none)
    else match tree.makeDirectory path with
      | .ok made => (made, none)
      | .error .noEntry =>
        match tree.makeDirectories outer with
        | (tree, some fault) => (tree, some fault)
        | (tree, none) =>
          match tree.makeDirectory path with
          | .ok made => (made, none)
          | .error fault => if tree.isDirectory path then (tree, none) else (tree, some fault)
      | .error fault => if tree.isDirectory path then (tree, none) else (tree, some fault)

end FileTree

/-- One change of a file tree. -/
inductive Change where
  /-- Make a directory and all that lead to it, unless they exist. -/
  | directory (path : String)
  /-- Write a text file. -/
  | file (path : String) (content : String)
  deriving DecidableEq

namespace Change

/-- Carries out one change. -/
def perform (tree : FileTree) : Change → FileTree × Option Fault
  | directory path => tree.makeDirectories (Path.ancestors path)
  | file path content =>
    match tree.writeBytes path content.toUTF8 with
    | .ok written => (written, none)
    | .error fault => (tree, some fault)

/-- Carries out changes up to the first that fails. -/
def performAll (tree : FileTree) : List Change → FileTree × Option Fault
  | [] => (tree, none)
  | change :: changes =>
    match change.perform tree with
    | (tree, none) => performAll tree changes
    | (tree, some fault) => (tree, some fault)

end Change

end EngineDocs
