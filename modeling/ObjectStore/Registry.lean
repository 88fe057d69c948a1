import ObjectStore.Dictionary.Basic
import ObjectStore.Handler.Basic

/-!
# The registry

The registry knows all types of a program. For every type identifier it has
a definition, which is enough to check and to walk records, and for some it
has a handler, which loads and stores instances. A type without handler is a
legacy type: it is known from a stored dictionary only.

A handler is bound to one type identifier and one runtime type, and stays
bound. Registering it again is no fault if it is the very same handler, and
a dictionary may be bound twice if it is the very same dictionary; which
object a value comes from is told by the token that the caller gives it.

All changes are attempts on the registry that either succeed or leave it as
it was.

## Main results

* `Registry.check_eq_ok_iff`: when a definition is compatible with what is
  registered.
-/

namespace ObjectStore

open Std

/-- A value with the token of the object that holds it. -/
structure Shared (α : Type) where
  token : Nat
  value : α

/-- The dictionary a registry is bound to. One that the library read itself
has no token and is the same as no other. -/
structure BoundDictionary where
  token : Option Nat
  dictionary : Dictionary

/-- All types of a program. -/
structure Registry (ι : Type) where
  bound : Option BoundDictionary
  definitions : ExtTreeMap TypeId Definition
  handlers : ExtTreeMap TypeId (Shared (Handler ι))
  runtimeTypes : ExtTreeMap RuntimeType TypeId

namespace Registry

variable {ι : Type}

/-- The registry that knows no type. -/
def empty : Registry ι := ⟨none, ∅, ∅, ∅⟩

/-! ## Look-up -/

/-- The definition of a type. -/
def definition? (r : Registry ι) (id : TypeId) : Option Definition := r.definitions[id]?

/-- The handler of a type. -/
def handler? (r : Registry ι) (id : TypeId) : Option (Handler ι) :=
  r.handlers[id]?.map Shared.value

/-- The handler of a runtime type. -/
def handlerFor? (r : Registry ι) (runtime : RuntimeType) : Option (Handler ι) :=
  r.runtimeTypes[runtime]?.bind r.handler?

/-- The type identifier that a runtime type is bound to. -/
def typeOf? (r : Registry ι) (runtime : RuntimeType) : Option TypeId :=
  (r.handlerFor? runtime).map Handler.id

/-- All definitions, in the order of their identifiers. -/
def allDefinitions (r : Registry ι) : List Definition := r.definitions.toList.map Prod.snd

/-- All handlers, in the order of their type identifiers. -/
def allHandlers (r : Registry ι) : List (Handler ι) :=
  r.handlers.toList.map fun entry => entry.2.value

/-- The definition with the highest identifier among those with a name. -/
def current? (r : Registry ι) (name : String) : Option Definition :=
  r.allDefinitions.reverse.find? (·.name = name)

/-- The highest type identifier. -/
def highestId? (r : Registry ι) : Option TypeId := r.definitions.maxKey?

/-- Whether the type is known from a stored dictionary only. -/
def isLegacy (r : Registry ι) (id : TypeId) : Bool :=
  (r.handler? id).isNone && (r.definition? id).isSome

/-- All definitions, as a dictionary. -/
def snapshot (r : Registry ι) : Except Error Dictionary := Dictionary.ofList r.allDefinitions

/-! ## Validation -/

/-- Checks a definition against the registered one with its identifier, which
is returned if there is one. -/
def check (r : Registry ι) (d : Definition) : Except Error (Option Definition) :=
  match r.definition? d.id with
  | none => .ok none
  | some existing =>
      if existing.isLayoutEqual d then .ok (some existing)
      else .error (.definitionMismatch d.id d.name)

/-- Fails unless the type is known. -/
def validateTypeId (r : Registry ι) (id : TypeId) : Except Error Unit :=
  if (r.definition? id).isSome then .ok () else .error (.unhandledTypeId id)

/-- Checks what the header of a record says, and returns the definition of
its type. -/
def validateEntity (r : Registry ι) (length : UInt64) (id : TypeId) (object : ObjectId) :
    Except Error Definition := do
  match r.definition? id with
  | none => throw (.unknownEntityType id object length)
  | some d =>
      d.validateLength length object
      return d

/-- Fails unless every definition of a dictionary is compatible with what is
registered. -/
def validate (r : Registry ι) (d : Dictionary) : Except Error Unit :=
  d.definitions.forM fun definition => do let _ ← r.check definition

/-! ## Registration -/

/-- Registers a definition, unless it is known already. The result is the
registered definition, and whether it was known. -/
def addType (d : Definition) : Attempt (Registry ι) (Definition × Bool) :=
  Attempt.of fun r =>
    match r.definition? d.id with
    | none => (.ok (d, false), { r with definitions := r.definitions.insert d.id d })
    | some existing =>
        if existing.isLayoutEqual d then (.ok (existing, true), r)
        else (.error (.typeIdTaken d.id existing.name), r)

/-- Binds a handler to its type identifier and its runtime type. -/
def addHandler (handler : Shared (Handler ι)) : Attempt (Registry ι) Unit :=
  Attempt.modify fun r => do
    let h := handler.value
    let definition ← h.definition
    match r.handlers[h.id]? with
    | some existing =>
        if existing.token = handler.token then return r
        else throw (.typeIdTaken h.id existing.value.name)
    | none =>
        if let some runtime := h.runtime? then
          if let some id := r.runtimeTypes[runtime]? then
            throw (.runtimeTypeTaken runtime id)
        let registered := (← r.check definition).getD definition
        return { r with
          definitions := r.definitions.insert h.id registered
          handlers := r.handlers.insert h.id handler
          runtimeTypes :=
            match h.runtime? with
            | some runtime => r.runtimeTypes.insert runtime h.id
            | none => r.runtimeTypes }

/-- Binds the registry to a dictionary and registers all of its types. -/
def bindDictionary (b : BoundDictionary) : Attempt (Registry ι) Unit :=
  Attempt.modify fun r =>
    match r.bound with
    | some current =>
        if current.token.isSome && current.token = b.token then .ok r
        else .error .dictionaryTaken
    | none => do
        r.validate b.dictionary
        let added := b.dictionary.definitions.filter fun d => (r.definition? d.id).isNone
        return { r with
          bound := some b
          definitions := added.foldl (fun ds d => ds.insert d.id d) r.definitions }

theorem check_eq_ok_iff {r : Registry ι} {d : Definition} :
    (∃ existing, r.check d = .ok existing) ↔
      ∀ existing, r.definition? d.id = some existing → existing.isLayoutEqual d = true := by
  unfold check
  split
  · rename_i h
    simp [h]
  · rename_i existing h
    by_cases hEqual : existing.isLayoutEqual d = true
    · simp [h, hEqual]
    · simp [h, hEqual]

end Registry

end ObjectStore
