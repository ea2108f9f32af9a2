/-
This file holds the causes for which a command fails, and their wording. Causes that only spoil one
module or one document are no failures; they end up in the report of a run.
-/

import EngineDocs.FileTree.Fault
import EngineDocs.Glob

namespace EngineDocs

/-- What is wrong with a configuration. -/
inductive ConfigError where
  | noCategories
  | noFormats
  | noThreads
  | badExclude (pattern : String) (error : Glob.Error)
  deriving DecidableEq

namespace ConfigError

/-- The wording of a fault in a configuration. -/
def message : ConfigError → String
  | noCategories => "at least one module category is required"
  | noFormats => "at least one output format is required"
  | noThreads => "parallel_threads must be at least 1"
  | badExclude pattern error =>
    "Invalid exclude pattern '" ++ pattern ++ "': " ++ error.message

end ConfigError

/-- Why a command fails. -/
inductive Failure where
  /-- A file could not be used. -/
  | io (fault : Fault)
  /-- A configuration file is not one. -/
  | yaml
  /-- A configuration makes no sense. -/
  | config (error : ConfigError)
  /-- The source directory is not a directory. -/
  | sourceNotFound (path : String)
  /-- There is no module to document. -/
  | noModules (path : String)
  deriving DecidableEq

namespace Failure

/-- The wording of a failure. What is wrong in a configuration file is not told. -/
def message : Failure → String
  | io fault => "IO error: " ++ fault.message
  | yaml => "Config file error"
  | config error => "Invalid configuration: " ++ error.message
  | sourceNotFound path => "Source directory not found: " ++ path
  | noModules path => "No modules found under " ++ path

end Failure

end EngineDocs
