import ObjectStore.Handler.Object

/-!
# Handlers

The handler of a persisted type is an object handler, or a placeholder. A
placeholder keeps a name and an identifier in the dictionary for a type that
has no instances of its own, such as a common supertype; it refuses to store
or load anything.
-/

namespace ObjectStore

/-- The handler of a persisted type. -/
inductive Handler (ι : Type) where
  | object (handler : ObjectHandler ι)
  | placeholder (definition : Definition)

namespace Handler

variable {ι : Type}

/-- The placeholder with an identifier and a name. -/
def makePlaceholder (id : TypeId) (name : String) : Except Error (Handler ι) :=
  (Definition.make id name none []).map placeholder

/-! ## Description -/

/-- The identifier of the type. -/
def id : Handler ι → TypeId
  | object h => h.id
  | placeholder d => d.id

/-- The name of the type. -/
def name : Handler ι → String
  | object h => h.name
  | placeholder d => d.name

/-- The runtime type of the instances, if there are any. -/
def runtime? : Handler ι → Option RuntimeType
  | object h => some h.runtime
  | placeholder _ => none

/-- The definition of the type. -/
def definition : Handler ι → Except Error Definition
  | object h => h.definition
  | placeholder d => .ok d

/-- Whether records of the type hold references. -/
def hasReferences : Handler ι → Bool
  | object h => h.hasReferences
  | placeholder _ => false

/-! ## Storing and loading -/

/-- The record of an instance. -/
def store [Instance ι] {σ : Type} (handler : Handler ι) (identify : Ref → Attempt σ ObjectId)
    (object : ObjectId) (x : ι) : Attempt σ Bytes :=
  match handler with
  | .object h => h.store identify object x
  | .placeholder d => throw (.notPersistable d.name)

/-- A new instance with the values of the record. -/
def create (handler : Handler ι) (r : Record) : Except Error ι :=
  match handler with
  | .object h => h.create r
  | .placeholder d => .error (.notPersistable d.name)

/-- Sets the references of a new instance. -/
def connect [Instance ι] (handler : Handler ι) (lookup : Lookup) (r : Record) :
    Attempt ι Unit :=
  match handler with
  | .object h => h.connect lookup r
  | .placeholder d => throw (.notPersistable d.name)

/-- Brings an instance that is already there up to date. -/
def refresh [Instance ι] (handler : Handler ι) (lookup : Lookup) (r : Record) :
    Attempt ι Unit :=
  match handler with
  | .object h => h.refresh lookup r
  | .placeholder d => throw (.notPersistable d.name)

/-- Runs the hook of the type. -/
def complete [Instance ι] (handler : Handler ι) : Attempt ι Unit :=
  match handler with
  | .object h => h.complete
  | .placeholder _ => pure ()

/-! ## References -/

/-- The references that an instance holds. -/
def instanceReferences [Instance ι] (handler : Handler ι) (x : ι) : Except Error (List Ref) :=
  match handler with
  | .object h => h.instanceReferences x
  | .placeholder _ => .ok []

/-- The references that a record of the type holds. -/
def recordReferences (handler : Handler ι) (r : Record) : Enumeration ObjectId :=
  match handler with
  | .object h => h.recordReferences r
  | .placeholder _ => Enumeration.ok []

end Handler

/-! ## The storage side -/

namespace Definition

/-- The references that a record of the type holds, as far as its definition
alone tells. -/
def references (d : Definition) (r : Record) : Enumeration ObjectId := r.references d.members

end Definition

end ObjectStore
