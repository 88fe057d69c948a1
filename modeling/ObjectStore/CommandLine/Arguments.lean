import ObjectStore.Decimal.Reading

/-!
# Arguments

The arguments of a command line are options and at most one command, which
takes the arguments behind it. An option is written with two dashes and its
name, or with one dash and its letter; letters may be put together. A flag
has no value. The value of any other option stands behind an equals sign,
right behind the letter, or in the next argument.

An option is settled when the next one begins or the arguments end, and only
then is its value looked at. So an argument that nothing is known about is
reported before a bad value in front of it.
-/

namespace ObjectStore

/-- Why a command line is not carried out. -/
inductive Stop where
  /-- Help was asked for. -/
  | help
  /-- The version was asked for. -/
  | version
  /-- A word that is no command. -/
  | unknownCommand
  /-- An argument that nothing is known about. -/
  | unknownArgument
  /-- An option that the command needs was not given. -/
  | missingOption
  /-- An option without its value. -/
  | missingValue
  /-- A value of the wrong form. -/
  | invalidValue
  /-- An option that was given twice. -/
  | repeated
  /-- A value for a flag. -/
  | unwantedValue
deriving DecidableEq, Inhabited

namespace Stop

/-- The word for the reason. -/
def word : Stop → String
  | help => "DisplayHelp"
  | version => "DisplayVersion"
  | unknownCommand => "InvalidSubcommand"
  | unknownArgument => "UnknownArgument"
  | missingOption => "MissingRequiredArgument"
  | missingValue => "InvalidValue"
  | invalidValue => "ValueValidation"
  | repeated => "ArgumentConflict"
  | unwantedValue => "TooManyValues"

/-- Whether the reason is no mistake. -/
def isAnswer : Stop → Bool
  | help | version => true
  | _ => false

/-- How the program ends: with zero unless the command line is wrong. -/
def exitCode (stop : Stop) : Nat := if stop.isAnswer then 0 else 2

end Stop

/-- What an option does. -/
inductive OptionRole where
  | flag
  /-- Has a path, which is not empty. -/
  | path
  /-- Has any text. -/
  | text
  /-- Has a number. -/
  | number
  | help
  | version
deriving DecidableEq, Inhabited

/-- Whether the option has a value. -/
def OptionRole.hasValue : OptionRole → Bool
  | path | text | number => true
  | flag | help | version => false

/-- An option that may be given. -/
structure OptionSpec where
  name : String
  letter : Option Char
  role : OptionRole
deriving DecidableEq, Inhabited

/-- What may be given: options, and commands if any. -/
structure Grammar where
  options : List OptionSpec
  commands : List String

/-- The options that were given, with their values. -/
abbrev Given := List (String × String)

namespace Arguments

/-! ## Options -/

/-- What has been read. The pending option is not settled yet, and may still
lack its value. -/
structure Reading where
  given : Given
  pending : Option (OptionSpec × Option String)

/-- Nothing has been read. -/
def start : Reading := ⟨[], none⟩

/-- Why a value is not one of the option's. -/
def refusal (role : OptionRole) (value : String) : Option Stop :=
  match role with
  | .path => if value = "" then some .missingValue else none
  | .number => if (Decimal.parse? value).isNone then some .invalidValue else none
  | _ => none

/-- Settles an option. -/
def accept (spec : OptionSpec) (value : String) (r : Reading) : Except Stop Reading :=
  if r.given.any (·.1 = spec.name) then .error .repeated
  else
    match refusal spec.role value with
    | some stop => .error stop
    | none => .ok { given := r.given ++ [(spec.name, value)], pending := none }

/-- Settles the pending option. -/
def settle (r : Reading) : Except Stop Reading :=
  match r.pending with
  | none => .ok r
  | some (_, none) => .error .missingValue
  | some (spec, some value) => accept spec value r

/-- Reads an option without value. -/
def readFlag (spec : OptionSpec) (r : Reading) : Except Stop Reading := do
  let r ← settle r
  match spec.role with
  | .help => throw .help
  | .version => throw .version
  | _ => accept spec "" r

/-- Reads an option with its value. -/
def readWith (spec : OptionSpec) (value : String) (r : Reading) : Except Stop Reading := do
  accept spec value (← settle r)

/-- Reads an option whose value is to follow. -/
def readOpen (spec : OptionSpec) (r : Reading) : Except Stop Reading := do
  return { (← settle r) with pending := some (spec, none) }

/-- Reads an option that is written with its name. -/
def readNamed (grammar : Grammar) (text : List Char) (r : Reading) : Except Stop Reading :=
  let (name, rest) := text.span (· ≠ '=')
  match grammar.options.find? (·.name.toList = name), rest with
  | none, _ => .error .unknownArgument
  | some spec, [] => if spec.role.hasValue then readOpen spec r else readFlag spec r
  | some spec, _ :: value =>
      if spec.role.hasValue then readWith spec (String.ofList value) r else .error .unwantedValue

/-- Reads options that are written with their letters. -/
def readLetters (grammar : Grammar) : List Char → Reading → Except Stop Reading
  | [], r => .ok r
  | c :: rest, r =>
      match grammar.options.find? (·.letter = some c) with
      | none => .error .unknownArgument
      | some spec =>
          if spec.role.hasValue then
            match rest with
            | [] => readOpen spec r
            | '=' :: value => readWith spec (String.ofList value) r
            | value => readWith spec (String.ofList value) r
          else do readLetters grammar rest (← readFlag spec r)

/-! ## Whole lists -/

/-- What an argument is refused with that is neither an option nor a
value. -/
def stray (grammar : Grammar) : Stop :=
  if grammar.commands.isEmpty then .unknownArgument else .unknownCommand

/-- What arguments behind two dashes are refused with. There are no options
among them, and a command may not be one either. -/
def readBehindDashes (grammar : Grammar) (r : Reading) : List String → Except Stop Reading
  | [] => .ok r
  | word :: _ =>
      .error (if grammar.commands.contains word then .unknownArgument else stray grammar)

/-- Reads arguments up to a command, which comes with the arguments behind
it. The pending option is left as it is. -/
def read (grammar : Grammar) (r : Reading) :
    List String → Except Stop (Reading × Option (String × List String))
  | [] => .ok (r, none)
  | word :: rest =>
      let awaiting :=
        match r.pending with
        | some (spec, none) => some spec
        | _ => none
      if awaiting.isNone && grammar.commands.contains word then .ok (r, some (word, rest))
      else
        match word.toList with
        | ['-', '-'] => (readBehindDashes grammar r rest).map fun r => (r, none)
        | '-' :: '-' :: text => do read grammar (← readNamed grammar text r) rest
        | '-' :: c :: letters => do read grammar (← readLetters grammar (c :: letters) r) rest
        | _ =>
            match awaiting with
            | some spec => read grammar { r with pending := some (spec, some word) } rest
            | none => .error (stray grammar)

/-- What asking for help about a command leads to. -/
def helpAbout (commands : List String) : List String → Stop
  | [] => .help
  | [command] => if commands.contains command then .help else .unknownCommand
  | _ => .unknownCommand

end Arguments

end ObjectStore
