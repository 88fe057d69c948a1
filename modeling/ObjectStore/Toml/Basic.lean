import ObjectStore.Text.Quoted
import ObjectStore.Toml.Number

/-!
# TOML documents

A TOML document is a table: names with values, which may be tables again.
The same table may be written in several pieces, but not every piece may be
added to every table; so a table remembers how it came into being.
-/

namespace ObjectStore

namespace Toml

/-- Why a text is no document. -/
inductive Fault where
  /-- The text ends where more is expected. -/
  | endOfText
  /-- A character that cannot stand where it does. -/
  | unexpected (c : Char)
  /-- An escape that stands for no character. -/
  | invalidEscape
  /-- A word that is no value. -/
  | invalidValue (word : String)
  /-- Values that contain each other too often, or a name with too many
  parts. -/
  | tooDeep
  /-- A name that is already taken. -/
  | taken (name : String)
  /-- A name of something that nothing can be added to. -/
  | closed (name : String)
deriving DecidableEq, Inhabited

/-- The wording of the fault. -/
def Fault.message : Fault → String
  | endOfText => "unexpected end of text"
  | unexpected c => "unexpected character " ++ Quoted.quote (String.singleton c)
  | invalidEscape => "invalid escape sequence"
  | invalidValue word => "invalid value " ++ Quoted.quote word
  | tooDeep => "values nested too deeply"
  | taken name => "duplicate key " ++ Quoted.quote name
  | closed name => "nothing can be added to " ++ Quoted.quote name

/-- How a table came into being. -/
inductive Origin where
  /-- By its own header. -/
  | header
  /-- By the header of a table inside it. -/
  | path
  /-- By a dotted name. -/
  | dotted
  /-- By a value between braces. -/
  | inline
deriving DecidableEq, Inhabited

/-- A value. Of the tables under one repeated header the newest comes
first. -/
inductive Value where
  | text (s : String)
  | number (n : Number)
  | boolean (b : Bool)
  /-- A date, a time or both, as it is written. -/
  | moment (written : String)
  | array (items : List Value)
  | table (origin : Origin) (entries : List (String × Value))
  | tables (newestFirst : List Value)
deriving Inhabited

/-- How often values may contain each other, and how many parts a name may
have. -/
def maxDepth : Nat := 80

/-- The names of a table with their values, in the order in which the names
were met. -/
abbrev Entries := List (String × Value)

/-- The value of a name. -/
def Entries.get? (entries : Entries) (name : String) : Option Value :=
  (entries.find? (·.1 = name)).map Prod.snd

/-- Replaces the value of a name, or adds the name at the end. -/
def Entries.set (entries : Entries) (name : String) (value : Value) : Entries :=
  if entries.any (·.1 = name) then
    entries.map fun entry => if entry.1 = name then (name, value) else entry
  else entries ++ [(name, value)]

end Toml

end ObjectStore
