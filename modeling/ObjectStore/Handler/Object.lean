import ObjectStore.Definition
import ObjectStore.Handler.Access

/-!
# Object handlers

An object handler moves the instances of one runtime type between memory and
records. It is given by the fields of the type; its layout and definition
follow from them. Cyclic object graphs are loaded in phases:

* `create` makes an instance and sets its values;
* `connect` sets its references, once all instances exist;
* `refresh` does both for an instance that is already there, or, if the type
  has no settable member at all, checks that the record says the same;
* `complete` runs the hook of the type, if it has one, at the very end.

`connect`, `refresh` and `complete` are attempts on the instance: members
that were set before a failure stay set.

## Main results

* `ObjectHandler.derived_definition`: the definition of a handler carries
  its identifier, its name and its runtime type.
-/

namespace ObjectStore

/-! ## Values of a record by name -/

/-- The members of a record, for a type that is constructed whole. -/
structure RecordValues where
  typeName : String
  members : List Member
  record : Record

namespace RecordValues

/-- The first member with a name, which must have the kind, and its offset. -/
def member (values : RecordValues) (name : String) (kind : FieldKind) : Except Error UInt64 := do
  match values.members.find? (·.id.name = name) with
  | none => throw (.unknownField values.typeName name)
  | some m =>
      let offset ← m.place
      if m.kind = kind then return offset
      else
        throw (.instanceTypeMismatch
          s!"{kind.defaultTypeName} field {m.id.render} of {values.typeName}")

/-- The value of a primitive member. -/
def value (values : RecordValues) (kind : PrimitiveKind) (name : String) :
    Except Error kind.Value := do
  let offset ← values.member name (.primitive kind)
  let bytes ← Access.orCorrupt (values.record.slice offset.toNat kind.width)
  Access.orCorrupt (kind.decode bytes)

/-- The payload of a bytes member. -/
def bytes (values : RecordValues) (name : String) : Except Error Bytes := do
  let offset ← values.member name .bytes
  Access.orCorrupt (values.record.readVariable offset.toNat)

/-- The content of a text member. -/
def text (values : RecordValues) (name : String) : Except Error String := do
  let offset ← values.member name .text
  let payload ← Access.orCorrupt (values.record.readVariable offset.toNat)
  Access.orCorrupt (Access.decodeText payload)

/-- The identifier of the recorded object. -/
def objectId (values : RecordValues) : ObjectId := values.record.object

end RecordValues

/-! ## Handlers -/

/-- How an instance comes into being. -/
inductive Construction (ι : Type) where
  /-- From a blank one, whose members are then set. -/
  | blank (prototype : ι)
  /-- From the members of its record, in one step. -/
  | fromValues (construct : RecordValues → Except Error ι)

/-- What moves the instances of one runtime type to and from records. -/
structure ObjectHandler (ι : Type) where
  id : TypeId
  name : String
  runtime : RuntimeType
  construction : Construction ι
  fields : List (Field ι)
  /-- Run on every loaded instance once all references are set. -/
  onComplete : Option (ι → ι)

namespace ObjectHandler

variable {ι : Type}

/-- What follows from the fields of a type. -/
structure Derived (ι : Type) where
  /-- The fields in stored order, with their offsets. -/
  fields : List (Declaration (Access ι))
  layout : Layout
  definition : Definition

/-- Lays out the fields of the type. -/
def derived (h : ObjectHandler ι) : Except Error (Derived ι) :=
  match Layout.derive h.name (h.fields.map Field.declaration) with
  | (_, .error e) => .error e
  | (fields, .ok layout) => do
      let definition ←
        Definition.make h.id h.name (some h.runtime.name) (fields.map Declaration.member)
      return ⟨fields, layout, definition⟩

/-- The definition of the type. -/
def definition (h : ObjectHandler ι) : Except Error Definition :=
  h.derived.map Derived.definition

/-- The instance, if it is one of the handler's runtime type. -/
def expect [Instance ι] (h : ObjectHandler ι) (x : ι) : Except Error ι :=
  if Instance.runtimeType x = h.runtime then .ok x
  else .error (.instanceTypeMismatch h.runtime.name)

/-! ## Storing -/

/-- The content length of the record of an instance. -/
def contentLength (d : Derived ι) (x : ι) : UInt64 :=
  let trailing := d.layout.variableMember.bind (d.fields[·]?)
  Word.addSat d.layout.fixedLength ((trailing.map (·.payload.length x)).getD 0)

/-- The record of an instance. `identify` turns its references into object
identifiers. -/
def store [Instance ι] {σ : Type} (h : ObjectHandler ι) (identify : Ref → Attempt σ ObjectId)
    (object : ObjectId) (x : ι) : Attempt σ Bytes := do
  let d ← Attempt.lift h.derived
  let x ← Attempt.lift (h.expect x)
  let front ← Attempt.lift (Header.begin ⟨contentLength d x, h.id, object⟩)
  let parts ← d.fields.mapM fun field => field.payload.write identify x
  return front ++ parts.flatten

/-! ## Loading -/

/-- Changes a field of the instance by what stands at the field's offset. -/
def change (field : Declaration (Access ι)) (set : Access ι → Nat → ι → Except Error ι) :
    Attempt ι Unit :=
  Attempt.modify fun x => do
    let offset ← field.member.place
    set field.payload offset.toNat x

/-- Sets the settable values of an instance, field by field. -/
def setValues (d : Derived ι) (r : Record) : Attempt ι Unit :=
  (d.fields.filter fun f => f.settable && !f.member.kind.hasReferences).forM fun f =>
    change f fun access offset => access.setValue offset r

/-- Sets the settable references of an instance, field by field. -/
def setReferences (d : Derived ι) (lookup : Lookup) (r : Record) : Attempt ι Unit :=
  (d.fields.filter fun f => f.settable && f.member.kind.hasReferences).forM fun f =>
    change f fun access offset => access.setReferences lookup offset r

/-- Fails at the first field in which the instance differs from its record. -/
def checkStored (typeName : String) (lookup : Lookup) (r : Record) (x : ι) :
    List (Declaration (Access ι)) → Except Error Unit
  | [] => .ok ()
  | f :: rest => do
      let offset ← f.member.place
      if ← f.payload.matchesStored lookup offset.toNat r x then
        checkStored typeName lookup r x rest
      else throw (.stateMismatch typeName f.member.id.render r.object)

/-- A new instance with the values of the record. -/
def create (h : ObjectHandler ι) (r : Record) : Except Error ι := do
  let d ← h.derived
  let x ←
    match h.construction with
    | .blank x => pure x
    | .fromValues construct => construct ⟨h.name, d.definition.members, r⟩
  let (result, x) := (setValues d r).start x
  result
  return x

/-- Fails unless the instance is one of the handler's runtime type. -/
def guard [Instance ι] (h : ObjectHandler ι) : Attempt ι Unit :=
  Attempt.modify h.expect

/-- Sets the references of a new instance. -/
def connect [Instance ι] (h : ObjectHandler ι) (lookup : Lookup) (r : Record) :
    Attempt ι Unit := do
  let d ← Attempt.lift h.derived
  h.guard
  setReferences d lookup r

/-- Brings an instance that is already there up to date. -/
def refresh [Instance ι] (h : ObjectHandler ι) (lookup : Lookup) (r : Record) :
    Attempt ι Unit := do
  let d ← Attempt.lift h.derived
  h.guard
  if d.layout.hasSettable then
    setValues d r
    setReferences d lookup r
  else
    Attempt.modify fun x => do
      checkStored h.name lookup r x d.fields
      return x

/-- Runs the hook of the type. -/
def complete [Instance ι] (h : ObjectHandler ι) : Attempt ι Unit :=
  match h.onComplete with
  | none => pure ()
  | some hook => do
      h.guard
      Attempt.modify fun x => .ok (hook x)

/-! ## References -/

/-- Whether records of the type hold references. -/
def hasReferences (h : ObjectHandler ι) : Bool :=
  match h.derived with
  | .ok d => !d.layout.references.isEmpty
  | .error _ => false

/-- The references that an instance holds, field by field. -/
def instanceReferences [Instance ι] (h : ObjectHandler ι) (x : ι) : Except Error (List Ref) := do
  let d ← h.derived
  if d.layout.references.isEmpty then return []
  let x ← h.expect x
  return d.fields.flatMap (·.payload.held x)

/-- The references that a record of the type holds, field by field. -/
def recordReferences (h : ObjectHandler ι) (r : Record) : Enumeration ObjectId :=
  match h.derived with
  | .ok d => r.references d.definition.members
  | .error e => Enumeration.error e

theorem derived_definition {h : ObjectHandler ι} {d : Derived ι} (hd : h.derived = .ok d) :
    d.definition.id = h.id ∧ d.definition.name = h.name ∧
      d.definition.runtime = some h.runtime.name := by
  unfold derived at hd
  split at hd
  · cases hd
  · rename_i fields layout hLayout
    unfold Definition.make at hd
    split at hd
    · cases hd
      exact ⟨rfl, rfl, rfl⟩
    · cases hd

end ObjectHandler

end ObjectStore
