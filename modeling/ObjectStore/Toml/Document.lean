import ObjectStore.Toml.Scalar
import ObjectStore.Toml.Table

/-!
# Reading documents

A document is read line by line into statements, from which its table is
built. Values may contain values, up to a depth that no document needs.
Between braces there may be line breaks and comments around the sign between
a name and its value; elsewhere there are only blanks.
-/

namespace ObjectStore

namespace Toml

namespace Scan

/-! ## Values -/

/-- The items of an array up to its closing bracket. -/
def items (value : Scan Value) : Scan Value :=
  loop (fun found => do
    gaps
    if ← word? [']'] then return .inr (.array found.reverse)
    let found := (← value) :: found
    gaps
    if ← word? [','] then return .inl found
    char ']'
    return .inr (.array found.reverse)) []

/-- A name with its value. `space` takes what may stand around the sign
between them. -/
def assignment (space : Scan Unit) (value : Scan Value) : Scan (List String × String × Value) := do
  let (path, name) ← dottedName
  space
  char '='
  space
  return (path, name, ← value)

/-- The entries of a table up to its closing brace. -/
def members (value : Scan Value) : Scan Value :=
  loop (fun (table : Value) => do
    gaps
    if ← word? ['\x7d'] then return .inr table
    let (path, name, value) ← assignment gaps value
    let table ← (table.changeWith (addValue path name value) : Except Fault Value)
    gaps
    if ← word? [','] then return .inl table
    char '\x7d'
    return .inr table) (.table .inline [])

/-- A value that holds no values. -/
def flat : Scan Value := do
  match ← peek? with
  | some '"' => return .text (← quotedText '"' true)
  | some '\'' => return .text (← quotedText '\'' false)
  | _ => scalar

/-- A value in which values contain each other at most `depth` times. -/
def value : (depth : Nat) → Scan Value
  | 0 => do
      match ← peek? with
      | some '[' | some '\x7b' => refuse .tooDeep
      | _ => flat
  | depth + 1 => do
      if ← word? ['['] then items (value depth)
      else if ← word? ['\x7b'] then members (value depth)
      else flat

/-! ## Lines -/

/-- One statement. -/
def statement : Scan Statement := do
  if ← word? ['[', '['] then
    let (path, name) ← dottedName
    char ']'
    char ']'
    return .repeated path name
  else if ← word? ['['] then
    let (path, name) ← dottedName
    char ']'
    return .header path name
  else
    let (path, name, value) ← assignment blanks (value maxDepth)
    return .assign path name value

/-- All statements of a document. -/
def statements : Scan (List Statement) :=
  loop (fun found => do
    gaps
    if (← rest).isEmpty then return .inr found.reverse
    let found := (← statement) :: found
    lineEnd
    return .inl found) []

end Scan

/-- The table that a text stands for. A mark of the byte order in front of it
does not count. -/
def parse (text : String) : Except Fault Value := do
  let text :=
    match text.toList with
    | '\ufeff' :: rest => rest
    | all => all
  let (statements, _) ← Scan.statements.start text
  ofStatements statements

end Toml

end ObjectStore
