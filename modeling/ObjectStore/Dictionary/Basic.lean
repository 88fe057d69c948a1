import ObjectStore.Definition

/-!
# Type dictionaries

A dictionary is the catalogue of the types whose records a store may hold.
Several types may carry one name: they are the versions of that type. The
highest identifier is the current version, and the others are kept so that
old records can be read.

## Main results

* `Dictionary.get?_register`: what a successful registration adds.
-/

namespace ObjectStore

open Std

/-- A catalogue of type definitions, by identifier and by name. -/
structure Dictionary where
  byId : ExtTreeMap TypeId Definition
  /-- For each name, the highest identifier that carries it. -/
  currentByName : ExtTreeMap String TypeId
deriving Inhabited

namespace Dictionary

/-- The dictionary of no types. -/
def empty : Dictionary := ⟨∅, ∅⟩

/-- The definition of a type. -/
def get? (d : Dictionary) (id : TypeId) : Option Definition := d.byId[id]?

/-- The current definition with a name. -/
def current? (d : Dictionary) (name : String) : Option Definition :=
  d.currentByName[name]?.bind d.get?

/-- All definitions, in the order of their identifiers. -/
def definitions (d : Dictionary) : List Definition := d.byId.toList.map Prod.snd

/-- All definitions with a name, the oldest first. -/
def versions (d : Dictionary) (name : String) : List Definition :=
  d.definitions.filter (·.name = name)

/-- The highest type identifier. -/
def highestId? (d : Dictionary) : Option TypeId := d.byId.maxKey?

/-- The number of definitions. -/
def size (d : Dictionary) : Nat := d.byId.size

/-- Whether there is no definition. -/
def isEmpty (d : Dictionary) : Bool := d.byId.isEmpty

/-- The identifier that carries the name of a definition once the definition
is added. -/
def currentWith (d : Dictionary) (definition : Definition) : TypeId :=
  match d.currentByName[definition.name]? with
  | some current => if compare definition.id current = .gt then definition.id else current
  | none => definition.id

/-- Adds a definition. A layout that is already known is not added again, and
another layout under a known identifier is refused. -/
def register (d : Dictionary) (definition : Definition) : Except Error Dictionary :=
  match d.get? definition.id with
  | some existing =>
      if existing.isLayoutEqual definition then .ok d
      else .error (.definitionMismatch definition.id definition.name)
  | none =>
      .ok
        { byId := d.byId.insert definition.id definition
          currentByName :=
            d.currentByName.insert definition.name (d.currentWith definition) }

/-- The dictionary of the definitions, added in order. -/
def ofList (definitions : List Definition) : Except Error Dictionary :=
  definitions.foldlM register empty

/-- A free identifier is taken, and the name leads to the highest identifier
that carries it. -/
theorem register_of_free {d : Dictionary} {definition : Definition}
    (hFree : d.get? definition.id = none) :
    d.register definition = .ok
      { byId := d.byId.insert definition.id definition
        currentByName := d.currentByName.insert definition.name (d.currentWith definition) } := by
  simp only [register, hFree]

theorem get?_register {d d' : Dictionary} {definition : Definition}
    (h : d.register definition = .ok d') (id : TypeId) :
    d'.get? id =
      if definition.id = id ∧ d.get? id = none then some definition else d.get? id := by
  unfold register at h
  split at h
  · rename_i existing hGet
    split at h
    · cases h
      by_cases hId : definition.id = id
      · subst hId
        simp [hGet]
      · simp [hId]
    · cases h
  · rename_i hGet
    cases h
    by_cases hId : definition.id = id
    · subst hId
      rw [hGet]
      simp [get?]
    · simp [get?, ExtTreeMap.getElem?_insert, hId]

end Dictionary

end ObjectStore
