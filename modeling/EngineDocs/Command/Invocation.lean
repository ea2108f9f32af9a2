/-
This file holds the commands of the program and how they are called.
-/

import EngineDocs.Command.Arguments
import EngineDocs.Settings
import EngineDocs.Text.Digits

namespace EngineDocs

open Arguments

/-- What the program is asked to do. -/
inductive Command where
  /-- Write the documents of all modules. -/
  | generate (layer : Overrides)
  /-- List the modules. -/
  | scan (layer : Overrides) (format : String)
  /-- Show the declarations of a header or of a directory of headers. -/
  | parse (path format : String)
  /-- Show the dependencies in a rules file. -/
  | deps (path format : String)
  deriving DecidableEq

/-- A command with the options that all commands share. -/
structure Invocation where
  command : Command
  configFile : Option String
  verbose : Bool
  deriving DecidableEq

namespace Invocation

/-! ### Values -/

/-- A path has at least one character. -/
def isPathValue (value : String) : Bool := !value.isEmpty

/-- The number that a value stands for, of at most 64 bits. -/
def readCount? (value : String) : Option Nat :=
  let digits := match value.toList with
    | '+' :: rest => rest
    | all => all
  if digits.all Text.isDigit then
    (Text.readDigits? 10 digits).bind fun n => if n < UInt64.size then some n else none
  else none

/-! ### Grammars -/

/-- The options that all commands share. -/
def sharedOptions : List OptionSpec :=
  [{ name := "config", arity := .one, accepts := isPathValue },
   { name := "verbose", arity := .none, letter := some 'v' }]

/-- The options that say where modules are. -/
def sourceOptions : List OptionSpec :=
  [{ name := "source-dir", arity := .one, accepts := isPathValue },
   { name := "plugins-dir", arity := .one, accepts := isPathValue },
   { name := "categories", arity := .some, repeatable := true },
   { name := "exclude-dirs", arity := .some, repeatable := true }]

/-- The option that says how a result is shown. -/
def formatOption : OptionSpec := { name := "format", arity := .one }

/-- The options before the name of a command. -/
def topGrammar : Grammar :=
  { options := sharedOptions, stopsAtWord := true, hasVersion := true }

/-- The arguments of the command that writes documents. -/
def generateGrammar : Grammar :=
  { options := sharedOptions ++ sourceOptions ++
      [{ name := "output-dir", arity := .one, accepts := isPathValue },
       { name := "engine-version", arity := .one },
       { name := "formats", arity := .one, repeatable := true, commas := true
         accepts := fun value => (OutputFormat.ofLabel? value).isSome },
       { name := "threads", arity := .one, accepts := fun value => (readCount? value).isSome },
       { name := "incremental", arity := .none },
       { name := "no-incremental", arity := .none }] }

/-- The arguments of the command that lists modules. -/
def scanGrammar : Grammar := { options := sharedOptions ++ sourceOptions ++ [formatOption] }

/-- The grammar of the commands that take one path. -/
def pathGrammar : Grammar :=
  { options := sharedOptions ++ [formatOption], maxWords := 1, acceptsWord := isPathValue }

/-! ### Commands -/

/-- The layer of settings that the source options make. -/
def sourceLayer (given : Given) : Overrides :=
  { sourceDir := given.value? "source-dir"
    pluginsDir := given.value? "plugins-dir"
    moduleCategories := given.values? "categories"
    excludeDirs := given.values? "exclude-dirs" }

/-- The layer of settings that the options of a generation make. -/
def generateLayer (given : Given) : Overrides :=
  { sourceLayer given with
    outputDir := given.value? "output-dir"
    engineVersion := given.value? "engine-version"
    formats := (given.values? "formats").map fun values => values.filterMap OutputFormat.ofLabel?
    parallelThreads := (given.value? "threads").bind readCount?
    incremental :=
      if given.has "incremental" then some true
      else if given.has "no-incremental" then some false
      else none }

/-- The format in which a result is shown. -/
def formatOf (given : Given) : String := (given.value? "format").getD "text"

/-- The names of all commands, with the one that explains the others. -/
def commandNames : List String := ["generate", "scan", "parse", "deps", "help"]

/-- Reads the arguments of the command with a name. -/
def readCommand (name : String) (arguments : List String) : Except Stop (Command × Given) :=
  match name with
  | "generate" => do
    let (given, _) ← Arguments.read generateGrammar arguments
    if given.has "incremental" && given.has "no-incremental" then throw .usage
    return (.generate (generateLayer given), given)
  | "scan" => do
    let (given, _) ← Arguments.read scanGrammar arguments
    return (.scan (sourceLayer given) (formatOf given), given)
  | "parse" => do
    let (given, _) ← Arguments.read pathGrammar arguments
    match given.words with
    | [path] => return (.parse path (formatOf given), given)
    | _ => throw .usage
  | "deps" => do
    let (given, _) ← Arguments.read pathGrammar arguments
    match given.words with
    | [path] => return (.deps path (formatOf given), given)
    | _ => throw .usage
  | "help" =>
    match arguments with
    | [] => .error .help
    | [topic] => if commandNames.contains topic then .error .help else .error .usage
    | _ => .error .usage
  | _ => .error .usage

/-- Reads the arguments of the program. A shared option given behind the name of the command
replaces one given before it. -/
def read (arguments : List String) : Except Stop Invocation := do
  let (shared, rest) ← Arguments.read topGrammar arguments
  match rest with
  | [] => throw .usage
  | name :: arguments =>
    let (command, given) ← readCommand name arguments
    return {
      command
      configFile := (given.value? "config").or (shared.value? "config")
      verbose := given.has "verbose" || shared.has "verbose" }

end Invocation

end EngineDocs
