import ObjectStore.CommandLine.Arguments

/-!
# Invocations

An invocation is a command with its options, and the options that all
commands have. Options of the latter kind may stand in front of the command
or behind it; behind it they take precedence.
-/

namespace ObjectStore

/-- What is to be done. -/
inductive Command where
  /-- Make a new store, also in place of a former one if forced. -/
  | init (force : Bool)
  /-- Show a summary of the store. -/
  | status
  /-- List the stored types. -/
  | types
  /-- Check the records and their references. -/
  | check
  /-- Write the dictionary to a file. -/
  | exportDictionary (output : String)
  /-- Add the types of a dictionary file. -/
  | importDictionary (input : String)
  /-- Suggest how the types of one dictionary file lead to those of
  another. -/
  | suggest (source target : String) (typeName : Option String) (threshold : Option Float)

/-- A command with the options that all commands have. -/
structure Invocation where
  database : String
  config : String
  json : Bool
  command : Command

namespace Invocation

/-! ## The grammar -/

/-- The options that all commands have. -/
def sharedOptions : List OptionSpec :=
  [⟨"database", some 'D', .path⟩, ⟨"config", some 'c', .path⟩, ⟨"json", none, .flag⟩,
    ⟨"help", some 'h', .help⟩]

/-- The commands with their own options. -/
def commandOptions : List (String × List OptionSpec) :=
  [("init", [⟨"force", some 'f', .flag⟩]),
    ("status", []),
    ("types", []),
    ("check", []),
    ("export-dictionary", [⟨"output", some 'o', .path⟩]),
    ("import-dictionary", [⟨"input", some 'i', .path⟩]),
    ("suggest",
      [⟨"from", none, .path⟩, ⟨"to", none, .path⟩, ⟨"type-name", some 't', .text⟩,
        ⟨"threshold", none, .number⟩])]

/-- The names of all commands, and that of help about them. -/
def commandNames : List String := commandOptions.map Prod.fst ++ ["help"]

/-- What may stand in front of a command. -/
def frontGrammar : Grammar :=
  ⟨sharedOptions ++ [⟨"version", some 'V', .version⟩], commandNames⟩

/-- What may stand behind a command. -/
def commandGrammar (command : String) : Grammar :=
  ⟨sharedOptions ++ ((commandOptions.lookup command).getD []), []⟩

/-! ## Reading -/

/-- The value of an option, if it was given. -/
def value? (given : Given) (name : String) : Option String := given.lookup name

/-- The value of an option that must be given. -/
def value (given : Given) (name : String) : Except Stop String :=
  match value? given name with
  | some v => .ok v
  | none => .error .missingOption

/-- The command of a name, with its options. -/
def commandOf (name : String) (given : Given) : Except Stop Command :=
  match name with
  | "init" => .ok (.init (value? given "force").isSome)
  | "types" => .ok .types
  | "check" => .ok .check
  | "export-dictionary" => (value given "output").map .exportDictionary
  | "import-dictionary" => (value given "input").map .importDictionary
  | "suggest" => do
      let source ← value given "from"
      let target ← value given "to"
      return .suggest source target (value? given "type-name")
        ((value? given "threshold").bind Decimal.parse?)
  | _ => .ok .status

/-- The invocation of a command, given the options in front of it and behind
it. -/
def make (command : Command) (front back : Given) : Invocation where
  database := ((value? back "database").or (value? front "database")).getD "lodestore.redb"
  config := ((value? back "config").or (value? front "config")).getD "lodestore.toml"
  json := (value? back "json").isSome || (value? front "json").isSome
  command

/-- The command and the options behind its name. -/
def parseCommand (name : String) (arguments : List String) : Except Stop (Command × Given) := do
  let (r, _) ← Arguments.read (commandGrammar name) Arguments.start arguments
  let r ← Arguments.settle r
  return (← commandOf name r.given, r.given)

/-- The invocation that arguments stand for. Without a command the status is
shown. -/
def parse (arguments : List String) : Except Stop Invocation := do
  let (front, command) ← Arguments.read frontGrammar Arguments.start arguments
  match command with
  | none => return make .status (← Arguments.settle front).given []
  | some ("help", about) => throw (Arguments.helpAbout commandNames about)
  | some (name, rest) =>
      let (command, back) ← parseCommand name rest
      return make command (← Arguments.settle front).given back

end Invocation

end ObjectStore
