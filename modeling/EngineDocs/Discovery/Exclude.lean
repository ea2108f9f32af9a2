/-
This file holds the list of directory names that are left out of a scan.
-/

import EngineDocs.Failure

namespace EngineDocs

/-- Patterns for the names that are left out. -/
structure ExcludeList where
  patterns : List Glob.Pattern := []
  deriving DecidableEq

namespace ExcludeList

/-- Reads one entry of a list. -/
def readEntry (entry : String) : Except ConfigError Glob.Pattern :=
  match Glob.Pattern.read entry.toList with
  | .ok pattern => .ok pattern
  | .error error => .error (.badExclude entry error)

/-- Reads a list; the first entry that is not a pattern is reported. -/
def read (entries : List String) : Except ConfigError ExcludeList :=
  (entries.mapM readEntry).map ExcludeList.mk

/-- Whether a name is left out. -/
def excludes (list : ExcludeList) (name : String) : Bool :=
  list.patterns.any (·.accepts name.toList)

end ExcludeList

end EngineDocs
