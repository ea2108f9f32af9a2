/-
This file holds the fingerprints by which a run knows which modules did not change since the one
before. They are stored in a file together with the digest of the context that the documents were
made in; fingerprints of another context count for nothing.
-/

import EngineDocs.FileTree.Write
import EngineDocs.Json.Read
import EngineDocs.Module

namespace EngineDocs

/-- Fingerprints by the names of modules, in the order of names. -/
abbrev FingerprintMap := Std.TreeMap String String Location.compareNames

/-- The contents of a fingerprint file. -/
structure StoredFingerprints where
  context : String
  modules : FingerprintMap

namespace StoredFingerprints

/-- The fields of a fingerprint file. Others may be there and count for nothing. -/
def fields : List String := ["context", "modules"]

/-- The contents of a fingerprint file as JSON. -/
def toJson (stored : StoredFingerprints) : Json :=
  .obj [("context", .str stored.context),
    ("modules", .obj (stored.modules.toList.map fun (name, fingerprint) =>
      (name, .str fingerprint)))]

/-- Whether a field is given more than once. -/
def isRepeated (name : String) : Json → Bool
  | .obj fields => 1 < (fields.filter (·.1 == name)).length
  | _ => false

/-- Reads a field whose value is a text. -/
def readField? (field : String × Json) : Option (String × String) :=
  field.2.asString?.map fun fingerprint => (field.1, fingerprint)

/-- Reads the fingerprints of modules; the last one counts when a name is repeated. -/
def readModules? : Json → Option FingerprintMap
  | .obj fields =>
    (fields.mapM readField?).map fun pairs =>
      pairs.foldl (fun (modules : FingerprintMap) pair => modules.insert pair.1 pair.2) {}
  | _ => none

/-- Reads the contents of a fingerprint file. -/
def ofJson? (value : Json) : Option StoredFingerprints :=
  if isRepeated "context" value || isRepeated "modules" value then none
  else match value.record? fields with
    | some [context, modules] => do
      return ⟨← context.bind Json.asString?, ← modules.bind readModules?⟩
    | _ => none

end StoredFingerprints

/-- The fingerprints of the run before and those of this run. -/
structure FingerprintStore where
  path : String
  context : String
  previous : FingerprintMap := {}
  current : FingerprintMap := {}

namespace FingerprintStore

/-- The name of the fingerprint file. -/
def fileName : String := ".fingerprints.json"

/-- The fingerprints in a file, when it is one and has the context. -/
def previousOf (content context : String) : FingerprintMap :=
  match (Json.skim? StoredFingerprints.fields content.toList).bind StoredFingerprints.ofJson? with
  | some stored => if stored.context == context then stored.modules else {}
  | none => {}

/-- Opens the store in a directory. A file that is missing, is no fingerprint file or has another
context gives no fingerprints. -/
def load (tree : FileTree) (directory context : String) : FingerprintStore :=
  let path := Path.join directory fileName
  let context := Digest.ofString context
  { path, context
    previous :=
      match tree.readText path with
      | .ok content => previousOf content context
      | .error _ => {} }

/-- Whether a module had the same fingerprint in the run before. -/
def isUnchanged (store : FingerprintStore) (name fingerprint : String) : Bool :=
  store.previous[name]? == some fingerprint

/-- Notes the fingerprint of a module for the next run. -/
def record (store : FingerprintStore) (name fingerprint : String) : FingerprintStore :=
  { store with current := store.current.insert name fingerprint }

/-- The number of modules that are noted. -/
def size (store : FingerprintStore) : Nat := store.current.size

/-- Writes the fingerprints of this run in place of those of the run before. -/
def changes (store : FingerprintStore) : List Change :=
  (match Path.parent? store.path with
    | some parent => [.directory parent]
    | none => []) ++
  [.file store.path (String.ofList
    (StoredFingerprints.toJson ⟨store.context, store.current⟩).pretty)]

end FingerprintStore

end EngineDocs
