/-
This file reads the arguments of a command by the options that it knows. An option is given by its
long name with two dashes, with a value behind it or behind an equality sign, or by one letter with
one dash. Behind two dashes alone, everything is a plain word.
-/

import EngineDocs.Text.Basic

namespace EngineDocs.Arguments

/-- How many values an option takes each time it is given. -/
inductive Arity where
  | none
  | one
  | some
  deriving DecidableEq

/-- An option that a command knows. -/
structure OptionSpec where
  name : String
  arity : Arity
  letter : Option Char := .none
  /-- Whether the option may be given more than once. -/
  repeatable : Bool := false
  /-- Which values the option takes. -/
  accepts : String → Bool := fun _ => true
  /-- Whether a comma separates values. -/
  commas : Bool := false

/-- What a command knows. -/
structure Grammar where
  options : List OptionSpec
  /-- How many plain words the command takes, and which. -/
  maxWords : Nat := 0
  acceptsWord : String → Bool := fun _ => true
  /-- Whether the first plain word and all behind it are left to another command. -/
  stopsAtWord : Bool := false
  /-- Whether the command tells its version. -/
  hasVersion : Bool := false

/-- Why there are no arguments to go on with. -/
inductive Stop where
  /-- They make no sense. -/
  | usage
  /-- They ask for help. -/
  | help
  /-- They ask for the version. -/
  | version
  deriving DecidableEq

/-- The options given so far with their values, and the plain words. -/
structure Given where
  options : List (String × List String) := []
  words : List String := []
  deriving DecidableEq

namespace Given

/-- Whether an option was given. -/
def has (given : Given) (name : String) : Bool := given.options.any (·.1 == name)

/-- All values of an option; none when it was not given. -/
def values? (given : Given) (name : String) : Option (List String) :=
  if given.has name then
    some ((given.options.filter (·.1 == name)).flatMap Prod.snd)
  else none

/-- The value of an option that takes one. -/
def value? (given : Given) (name : String) : Option String :=
  (given.values? name).bind List.head?

end Given

/-- An option whose values are still being read. -/
abbrev Pending := Option (OptionSpec × List String)

/-- Notes that an option was given with values. -/
def note (given : Given) (option : OptionSpec) (values : List String) : Except Stop Given :=
  let values := if option.commas then
      values.flatMap fun value => (Text.pieces (· == ',') value.toList).map String.ofList
    else values
  if given.has option.name && !option.repeatable then .error .usage
  else if values.all option.accepts then
    .ok { given with options := given.options ++ [(option.name, values)] }
  else .error .usage

/-- Ends the option whose values are being read; it has to have one. -/
def settle (given : Given) : Pending → Except Stop Given
  | none => .ok given
  | some (_, []) => .error .usage
  | some (option, values) => note given option values

/-- Takes a word as a value of the option whose values are being read. -/
def addValue (given : Given) (option : OptionSpec) (values : List String) (word : String) :
    Except Stop (Given × Pending) :=
  if option.arity = .some then .ok (given, some (option, values ++ [word]))
  else (note given option (values ++ [word])).map (·, none)

/-- Takes a plain word. -/
def addWord (grammar : Grammar) (given : Given) (word : String) : Except Stop Given :=
  if given.words.length < grammar.maxWords && grammar.acceptsWord word then
    .ok { given with words := given.words ++ [word] }
  else .error .usage

/-- Takes an option given by its long name, with the value behind its equality sign. -/
def addLong (grammar : Grammar) (given : Given) (body : Text) : Except Stop (Given × Pending) :=
  let name := String.ofList (body.takeWhile (· != '='))
  let attached : Option String :=
    match body.dropWhile (· != '=') with
    | _ :: value => some (String.ofList value)
    | [] => none
  match grammar.options.find? (·.name == name), attached with
  | some option, some value =>
    if option.arity = .none then .error .usage else (note given option [value]).map (·, none)
  | some option, none =>
    if option.arity = .none then (note given option []).map (·, none)
    else .ok (given, some (option, []))
  | none, some _ => .error .usage
  | none, none =>
    if name == "help" then .error .help
    else if name == "version" && grammar.hasVersion then .error .version
    else .error .usage

/-- Takes options given by letters. -/
def addLetters (grammar : Grammar) : Given → Text → Except Stop Given
  | given, [] => .ok given
  | given, letter :: letters =>
    match grammar.options.find? (·.letter == some letter) with
    | some option => do addLetters grammar (← note given option []) letters
    | none =>
      if letter == 'h' then .error .help
      else if letter == 'V' && grammar.hasVersion then .error .version
      else .error .usage

/-- Takes plain words behind two dashes. -/
def addWords (grammar : Grammar) (given : Given) (words : List String) : Except Stop Given :=
  words.foldlM (addWord grammar) given

/-- Reads arguments from left to right. What is left is not empty only for a command that leaves
words to another one. -/
def readFrom (grammar : Grammar) (given : Given) (pending : Pending) :
    List String → Except Stop (Given × List String)
  | [] => (settle given pending).map (·, [])
  | argument :: rest => do
    match argument.toList with
    | ['-', '-'] =>
      let given ← settle given pending
      return (← addWords grammar given rest, [])
    | '-' :: '-' :: body =>
      let given ← settle given pending
      let (given, pending) ← addLong grammar given body
      readFrom grammar given pending rest
    | '-' :: letter :: letters =>
      let given ← settle given pending
      let given ← addLetters grammar given (letter :: letters)
      readFrom grammar given none rest
    | _ =>
      match pending with
      | some (option, values) =>
        let (given, pending) ← addValue given option values argument
        readFrom grammar given pending rest
      | none =>
        if grammar.stopsAtWord then return (given, argument :: rest)
        else readFrom grammar (← addWord grammar given argument) none rest

/-- Reads all arguments. -/
def read (grammar : Grammar) (arguments : List String) : Except Stop (Given × List String) :=
  readFrom grammar {} none arguments

end EngineDocs.Arguments
