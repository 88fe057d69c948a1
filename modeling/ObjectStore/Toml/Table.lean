import ObjectStore.Toml.Basic

/-!
# Building tables

A document is a sequence of statements: a header opens a table, and an
assignment adds a value to the open one. Headers and names may have several
parts; the tables on the way to the last part come into being as needed.

What may be added to what follows three rules. A table has one header at
most. A dotted name leads through tables that came into being by dotted
names, or on the way to a header, and ends in one of the former. Nothing is
added to a value between braces or to an array that is written out.
-/

namespace ObjectStore

namespace Toml

/-- A change of a table, given how it came into being. -/
abbrev Change := Origin → Entries → Except Fault Value

/-- Changes the table that a path leads to. `dotted` says whether the path
is part of an assignment. -/
def descend (dotted : Bool) (change : Change) : List String → Change
  | [], origin, entries => change origin entries
  | name :: rest, origin, entries => do
      let value ←
        match entries.get? name with
        | none => descend dotted change rest (if dotted then .dotted else .path) []
        | some (.table inner innerEntries) =>
            if inner = .inline then throw (.closed name)
            else if dotted && inner = .header then throw (.taken name)
            else descend dotted change rest inner innerEntries
        | some (.tables (.table inner innerEntries :: older)) => do
            let newest ← descend dotted change rest inner innerEntries
            pure (.tables (newest :: older))
        | some _ => throw (.closed name)
      return .table origin (entries.set name value)

/-- Adds a value to the table that the name before its last part leads
to. -/
def addValue (path : List String) (name : String) (value : Value) : Change :=
  descend true
    (fun origin entries =>
      if !path.isEmpty && origin ≠ .dotted then .error (.taken name)
      else if (entries.get? name).isSome then .error (.taken name)
      else .ok (.table origin (entries.set name value)))
    path

/-- Gives a table its header. -/
def openTable (path : List String) (name : String) : Change :=
  descend false
    (fun origin entries =>
      match entries.get? name with
      | none => .ok (.table origin (entries.set name (.table .header [])))
      | some (.table .path inner) => .ok (.table origin (entries.set name (.table .header inner)))
      | some _ => .error (.taken name))
    path

/-- Adds a table to those under a repeated header. -/
def addTable (path : List String) (name : String) : Change :=
  descend false
    (fun origin entries =>
      let fresh := Value.table .header []
      match entries.get? name with
      | none => .ok (.table origin (entries.set name (.tables [fresh])))
      | some (.tables older) => .ok (.table origin (entries.set name (.tables (fresh :: older))))
      | some _ => .error (.taken name))
    path

/-- What a line says. -/
inductive Statement where
  /-- A name, given by its parts before the last and the last, has a
  value. -/
  | assign (path : List String) (name : String) (value : Value)
  /-- A table begins. -/
  | header (path : List String) (name : String)
  /-- One more table under a repeated header begins. -/
  | repeated (path : List String) (name : String)

/-- A document under construction. -/
structure Draft where
  root : Value
  /-- The path of the open table. -/
  current : List String

/-- Changes a table, which all values of a draft's root are. -/
def Value.changeWith (change : Change) : Value → Except Fault Value
  | .table origin entries => change origin entries
  | other => .ok other

/-- The draft with one more statement. -/
def Draft.add (draft : Draft) : Statement → Except Fault Draft
  | .assign path name value => do
      let root ← draft.root.changeWith (descend false (addValue path name value) draft.current)
      return { draft with root }
  | .header path name => do
      return ⟨← draft.root.changeWith (openTable path name), path ++ [name]⟩
  | .repeated path name => do
      return ⟨← draft.root.changeWith (addTable path name), path ++ [name]⟩

/-- The document that statements make up. -/
def ofStatements (statements : List Statement) : Except Fault Value := do
  let draft ← statements.foldlM Draft.add ⟨.table .header [], []⟩
  return draft.root

end Toml

end ObjectStore
