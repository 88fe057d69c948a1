import ObjectStore.Config.Basic
import ObjectStore.Dictionary.Basic

/-!
# Suggestions

Before a program is moved to new types, one wants to see what would become
of the stored ones. For every type of a legacy dictionary a suggestion says
which type of the current dictionary it leads to, and how its members are
matched. It is made by the same rules as the conversion of records.
-/

namespace ObjectStore

/-- What is suggested for a legacy type. -/
inductive Resolution where
  /-- It keeps its name. -/
  | unchanged
  /-- It gets another name. -/
  | renamed
  /-- It was removed on purpose. -/
  | deleted
  /-- There is no current type of its name. -/
  | missing
deriving DecidableEq, Inhabited

namespace Resolution

/-- The word for it in reports. -/
def word : Resolution → String
  | unchanged => "unchanged"
  | renamed => "renamed"
  | deleted => "deleted"
  | missing => "missing"

end Resolution

/-- What is suggested for a legacy type and its members. -/
structure Suggestion where
  source : String
  /-- The current type it leads to, if any. -/
  target : Option String
  resolution : Resolution
  matching : Matching

namespace Suggestion

/-- The suggestion for a type that leads nowhere. -/
def withoutTarget (source : String) (resolution : Resolution) : Suggestion :=
  ⟨source, none, resolution, ⟨[], [], []⟩⟩

/-- The suggestion for one legacy type. -/
def ofDefinition (matcher : Matcher) (current : Dictionary) (legacy : Definition) :
    Except Error Suggestion :=
  match matcher.refactoring.typeFate legacy with
  | .deleted => .ok (withoutTarget legacy.name .deleted)
  | fate => do
      match ← matcher.refactoring.currentType legacy current.current? with
      | none => return withoutTarget legacy.name .missing
      | some target =>
          let resolution := if fate = .unchanged then .unchanged else .renamed
          return ⟨legacy.name, some target.name, resolution, ← matcher.run legacy target⟩

/-- The suggestions for all legacy types, or those with a name, in the order
of their identifiers. -/
def all (matcher : Matcher) (legacy current : Dictionary) (name : Option String) :
    Except Error (List Suggestion) :=
  let asked := legacy.definitions.filter fun d => (name.map (· == d.name)).getD true
  asked.mapM (ofDefinition matcher current)

end Suggestion

end ObjectStore
