import ObjectStore.Definition

/-!
# Refactoring tables

When types and members are renamed, old records still carry the old names. A
refactoring table says what became of them: an entry leads from the written
name of a legacy type or member to that of its current counterpart, or to
nothing if it was removed on purpose. Removal is not the same as having no
entry, which says that the name still applies.

One type or member can be written in several ways, more or less specific. A
`Refactoring` is a table with the ways in which names are written, the most
specific first; the first way that the table has an entry for decides.

## Main results

* `Refactoring.typeEntry?_eq_some`: which entry decides about a type.
* `Refactoring.findTarget_eq_some`: what is found is a member of the type
  that is written as asked.
-/

namespace ObjectStore

open Std

/-! ## The table -/

/-- What became of the legacy names. A later entry replaces an earlier one of
the same source. -/
structure RenameTable where
  entries : ExtTreeMap String (Option String)
deriving Inhabited

namespace RenameTable

/-- The table without entries. -/
def empty : RenameTable := ⟨∅⟩

/-- Adds an entry. An entry without target says that the name was removed. -/
def insert (t : RenameTable) (source : String) (target : Option String) : RenameTable :=
  ⟨t.entries.insert source target⟩

/-- The table of the entries, added in order. -/
def ofList (entries : List (String × Option String)) : RenameTable :=
  entries.foldl (fun t entry => t.insert entry.1 entry.2) empty

/-- The entry of a name. -/
def get? (t : RenameTable) (source : String) : Option (Option String) := t.entries[source]?

/-- All entries, in the order of their sources. -/
def toList (t : RenameTable) : List (String × Option String) := t.entries.toList

/-- The number of entries. -/
def size (t : RenameTable) : Nat := t.entries.size

/-- Whether there is no entry. -/
def isEmpty (t : RenameTable) : Bool := t.entries.isEmpty

end RenameTable

/-! ## Written names -/

/-- A way to write a type, for types that can be written in it. -/
abbrev TypeKey := Definition → Option String

/-- A way to write a member of a type, for members that can be written in
it. -/
abbrev MemberKey := Definition → Member → Option String

namespace TypeKey

/-- The name with the identifier in front, as in `1000:Customer`. -/
def withId : TypeKey := fun d => some s!"{d.id}:{d.name}"

/-- The name alone. -/
def nameOnly : TypeKey := fun d => some d.name

end TypeKey

namespace MemberKey

/-- The member behind identifier and name of its type, as in
`1000:Customer#city`. -/
def withTypeId : MemberKey := fun d m => some s!"{d.id}:{d.name}#{m.id.render}"

/-- The name of the member behind its qualifier, or behind the name of its
type if it has none, as in `Customer#city`. -/
def withQualifier : MemberKey := fun d m =>
  some ((m.id.qualifier.getD d.name) ++ "#" ++ m.id.name)

/-- The name of the member alone, as in `#city`. -/
def nameOnly : MemberKey := fun _ m => some ("#" ++ m.id.name)

/-- All ways to write a member, the most specific first. -/
def all : List MemberKey := [withTypeId, withQualifier, nameOnly]

end MemberKey

/-! ## Refactorings -/

/-- What became of a legacy type. -/
inductive TypeFate where
  /-- Its name still applies. -/
  | unchanged
  /-- It has another name now. -/
  | renamed (name : String)
  /-- It was removed on purpose. -/
  | deleted
deriving DecidableEq, Inhabited

/-- A table with the ways in which names are written, the most specific
first. -/
structure Refactoring where
  table : RenameTable
  typeKeys : List TypeKey
  sourceKeys : List MemberKey
  targetKeys : List MemberKey

namespace Refactoring

/-- The refactoring of a table in which names are written in all ways. -/
def ofTable (table : RenameTable) : Refactoring :=
  ⟨table, [TypeKey.withId, TypeKey.nameOnly], MemberKey.all, MemberKey.all⟩

/-- The entry that decides about a type, with the name it is found under. -/
def typeEntry? (r : Refactoring) (d : Definition) : Option (String × Option String) :=
  r.typeKeys.findSome? fun key => do
    let name ← key d
    let entry ← r.table.get? name
    return (name, entry)

/-- What became of a type. -/
def typeFate (r : Refactoring) (d : Definition) : TypeFate :=
  match r.typeEntry? d with
  | none => .unchanged
  | some (_, none) => .deleted
  | some (_, some target) => if target = d.name then .unchanged else .renamed target

/-- The current type that a legacy type leads to, found by name. There is
none if it was removed, or if no current type has its name. An entry whose
target is unknown is a fault in the table. -/
def currentType {α : Type} (r : Refactoring) (d : Definition) (lookup : String → Option α) :
    Except Error (Option α) :=
  match r.typeEntry? d with
  | none => .ok (lookup d.name)
  | some (_, none) => .ok none
  | some (source, some target) =>
      match lookup target with
      | some current => .ok (some current)
      | none => .error (.unresolvableType source target)

/-- The first member of a type that is written as the target, in any way. -/
def findTarget (r : Refactoring) (d : Definition) (target : String) : Option Member :=
  d.members.find? fun m => r.targetKeys.any fun key => key d m = some target

/-- The entry that decides about a member, with the name it is found under. -/
def memberEntry? (r : Refactoring) (d : Definition) (m : Member) :
    Option (String × Option String) :=
  r.sourceKeys.findSome? fun key => do
    let name ← key d m
    let entry ← r.table.get? name
    return (name, entry)

/-- What became of a member: nothing is known about it, it was removed, or it
leads to a member of the current type. An entry whose target is unknown is a
fault in the table. -/
def memberTarget (r : Refactoring) (source : Definition) (m : Member) (target : Definition) :
    Except Error (Option (Option Member)) :=
  match r.memberEntry? source m with
  | none => .ok none
  | some (_, none) => .ok (some none)
  | some (name, some targetName) =>
      match r.findTarget target targetName with
      | some found => .ok (some (some found))
      | none => .error (.unresolvableMember name targetName)

theorem typeEntry?_eq_some {r : Refactoring} {d : Definition} {name : String}
    {entry : Option String} (h : r.typeEntry? d = some (name, entry)) :
    ∃ key ∈ r.typeKeys, key d = some name ∧ r.table.get? name = some entry := by
  obtain ⟨before, key, after, hKeys, hKey, -⟩ := List.findSome?_eq_some_iff.1 h
  refine ⟨key, by simp [hKeys], ?_⟩
  simp only [Option.bind_eq_bind, Option.bind_eq_some_iff, Option.pure_def,
    Option.some.injEq, Prod.mk.injEq] at hKey
  obtain ⟨n, hn, e, he, rfl, rfl⟩ := hKey
  exact ⟨hn, he⟩

theorem findTarget_eq_some {r : Refactoring} {d : Definition} {target : String} {m : Member}
    (h : r.findTarget d target = some m) :
    m ∈ d.members ∧ ∃ key ∈ r.targetKeys, key d m = some target := by
  refine ⟨List.mem_of_find?_eq_some h, ?_⟩
  have hAny := List.find?_some h
  simpa using hAny

end Refactoring

end ObjectStore
