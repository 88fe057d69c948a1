import ObjectStore.Refactoring.NameSimilarity
import ObjectStore.Toml.Document

/-!
# Configuration

A configuration says how legacy members are matched. It is a TOML document
with two tables:

* `refactoring` has the `entries` of the refactoring table, each with a
  `source` and, unless the name was removed, a `target`;
* `similarity` has the `threshold` of matches, and under `types` the scores
  of pairs of types, each with a `source`, a `target` and a `score`.

Everything but `source`, and the `target` and `score` of a pair, may be left
out; other names than these are refused. A table may also be written as an
array of its values in the order given here.
-/

namespace ObjectStore

/-- How alike two types are said to be. -/
structure TypeScore where
  source : String
  target : String
  score : SignedFloat
deriving BEq

/-- How legacy members are matched. -/
structure Config where
  /-- The entries of the refactoring table, in the order of the file. -/
  entries : List (String × Option String)
  threshold : SignedFloat
  types : List TypeScore
deriving BEq

namespace Config

/-- The configuration that says nothing. -/
def default : Config := ⟨[], ⟨false, Matcher.defaultThreshold⟩, []⟩

/-- The refactoring table. -/
def table (c : Config) : RenameTable := RenameTable.ofList c.entries

/-- The table of type similarities. -/
def similarity (c : Config) : TypeSimilarity :=
  TypeSimilarity.ofList (c.types.map fun t => (t.source, t.target, t.score.toFloat))

/-- The matcher that the configuration asks for, with another threshold if
one is given. -/
def matcher (c : Config) (threshold : Option Float) : Matcher :=
  (Matcher.of (Refactoring.ofTable c.table) c.similarity).withThreshold
    (threshold.getD c.threshold.toFloat)

/-! ## Decoding -/

/-- What a document says about a value, or why it says nothing. -/
abbrev Decode (α : Type) := Toml.Value → Except String α

namespace Decode

/-- A text. -/
def text : Decode String
  | .text s => .ok s
  | _ => .error "expected a text"

/-- A number as a float. -/
def number : Decode SignedFloat
  | .number n =>
      match n.value? with
      | some x => .ok x
      | none => .error "number out of range"
  | _ => .error "expected a number"

/-- A list. -/
def list {α : Type} (item : Decode α) : Decode (List α)
  | .array items => items.mapM item
  | .tables newestFirst => newestFirst.reverse.mapM item
  | _ => .error "expected an array"

/-- The values of the given names. A table has no other names; an array
gives the values in order. -/
def fields (names : List String) : Decode (List (Option Toml.Value))
  | .table _ entries =>
      match entries.find? fun entry => !names.contains entry.1 with
      | some (name, _) => .error ("unknown field " ++ Quoted.quote name)
      | none => .ok (names.map (Toml.Entries.get? entries))
  | .array items => .ok ((List.range names.length).map (items[·]?))
  | .tables newestFirst => .ok ((List.range names.length).map (newestFirst.reverse[·]?))
  | _ => .error "expected a table"

/-- A value that must be given. -/
def required {α : Type} (value : Decode α) : Option Toml.Value → Except String α
  | some v => value v
  | none => .error "missing field"

/-- A value that may be left out. -/
def optional {α : Type} (value : Decode α) (otherwise : α) :
    Option Toml.Value → Except String α
  | some v => value v
  | none => .ok otherwise

/-- An entry of the refactoring table. -/
def entry : Decode (String × Option String) := fun v => do
  match ← fields ["source", "target"] v with
  | [source, target] =>
      return (← required text source, ← optional (fun v => (text v).map some) none target)
  | _ => throw "expected a refactoring entry"

/-- The entries of the refactoring table. -/
def refactoring : Decode (List (String × Option String)) := fun v => do
  match ← fields ["entries"] v with
  | [entries] => optional (list entry) [] entries
  | _ => throw "expected a refactoring table"

/-- How alike two types are. -/
def typeScore : Decode TypeScore := fun v => do
  match ← fields ["source", "target", "score"] v with
  | [source, target, score] =>
      return ⟨← required text source, ← required text target, ← required number score⟩
  | _ => throw "expected a type score"

/-- The threshold and the type scores. -/
def similarity : Decode (SignedFloat × List TypeScore) := fun v => do
  match ← fields ["threshold", "types"] v with
  | [threshold, types] =>
      return (← optional number default.threshold threshold,
        ← optional (list typeScore) [] types)
  | _ => throw "expected a similarity table"

/-- A whole configuration. -/
def config : Decode Config := fun v => do
  match ← fields ["refactoring", "similarity"] v with
  | [entries, scores] =>
      let entries ← optional refactoring [] entries
      let (threshold, types) ← optional similarity (default.threshold, []) scores
      return ⟨entries, threshold, types⟩
  | _ => throw "expected a configuration"

end Decode

/-- The configuration that a text stands for. -/
def parse (content : String) : Except Error Config :=
  match Toml.parse content with
  | .error fault => .error (.config (.malformed fault.message))
  | .ok document =>
      match Decode.config document with
      | .ok config => .ok config
      | .error reason => .error (.config (.malformed reason))

end Config

end ObjectStore
