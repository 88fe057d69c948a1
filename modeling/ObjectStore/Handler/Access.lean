import ObjectStore.Attempt
import ObjectStore.Layout
import ObjectStore.Primitive
import ObjectStore.Record.Reading

/-!
# Accessors

A field binds a member to the instances of a runtime type: how its value is
read from an instance and, unless it is read-only, how it is put back. The
accessors of all fields of a type are everything the library knows about its
instances; it never looks inside them.

References are positions in the object graph in memory and object
identifiers in a record. Writing and reading them takes a function from the
one to the other, which the caller supplies.
-/

namespace ObjectStore

/-- The in-memory values that can be stored: each has a runtime type. -/
class Instance (ι : Type) where
  runtimeType : ι → RuntimeType

/-- Leads from a stored object to its instance. The absent reference leads
nowhere, and so may others. -/
abbrev Lookup := ObjectId → Except Error (Option Ref)

/-- How one member is read from an instance, and how it is put back. A
member without setter is read-only. -/
inductive Access (ι : Type) where
  | value (kind : PrimitiveKind) (get : ι → kind.Value) (set : Option (kind.Value → ι → ι))
  | reference (get : ι → Option Ref) (set : Option (Option Ref → ι → ι))
  | bytes (get : ι → Bytes) (set : Option (Bytes → ι → ι))
  | text (get : ι → String) (set : Option (String → ι → ι))
  | references (get : ι → List Ref) (set : Option (List Ref → ι → ι))

namespace Access

variable {ι : Type}

/-- The kind of the member. -/
def kind : Access ι → FieldKind
  | value kind _ _ => .primitive kind
  | reference _ _ => .reference
  | bytes _ _ => .bytes
  | text _ _ => .text
  | references _ _ => .referenceList

/-- Whether the member can be put back. -/
def isSettable : Access ι → Bool
  | value _ _ set => set.isSome
  | reference _ set => set.isSome
  | bytes _ set => set.isSome
  | text _ set => set.isSome
  | references _ set => set.isSome

/-- The references that the member of an instance holds. -/
def held (access : Access ι) (x : ι) : List Ref :=
  match access with
  | reference get _ => (get x).toList
  | references get _ => get x
  | _ => []

/-! ## Writing -/

/-- The bytes that the member of an instance will occupy. -/
def length (access : Access ι) (x : ι) : UInt64 :=
  match access with
  | value kind _ _ => UInt64.ofNat kind.width
  | reference _ _ => referenceLength
  | bytes get _ => Word.addSat lengthPrefixLength (Word.ofNatSat (get x).length)
  | text get _ => Word.addSat lengthPrefixLength (Word.ofNatSat (get x).utf8ByteSize)
  | references get _ => Word.addSat lengthPrefixLength (Word.ofNatSat (8 * (get x).length))

/-- The bytes of the member of an instance. Every reference is turned into an
object identifier, in order. -/
def write {σ : Type} (access : Access ι) (identify : Ref → Attempt σ ObjectId) (x : ι) :
    Attempt σ Bytes :=
  match access with
  | value kind get _ => pure (kind.encode (get x))
  | reference get _ =>
      match get x with
      | some ref => do return Word.ofWord (← identify ref).value
      | none => pure (Word.ofWord ObjectId.null.value)
  | bytes get _ => pure (writeVariable (get x))
  | text get _ => pure (writeVariable (Text.encode (get x)))
  | references get _ => do return writeObjectIds (← (get x).mapM identify)

/-! ## Reading -/

/-- The text that a payload stands for. -/
def decodeText (payload : Bytes) : Except Corruption String :=
  match Text.decode payload with
  | .ok decoded => .ok decoded
  | .error fault => .error (.invalidText fault)

/-- What cannot be read from a record makes the operation fail. -/
def orCorrupt {α : Type} : Except Corruption α → Except Error α
  | .ok a => .ok a
  | .error cause => .error (.corruptRecord cause)

/-- The instances of a stored reference list. Such a list never holds the
absent reference. Objects that lead nowhere are left out. -/
def resolveAll (lookup : Lookup) (ids : List ObjectId) : Except Error (List Ref) :=
  if ids.any (·.isNull) then .error (.corruptRecord .nullInReferenceList)
  else do return (← ids.mapM lookup).filterMap id

/-- Puts back a member that is no reference. Other members and read-only ones
stay as they are. -/
def setValue (access : Access ι) (offset : Nat) (r : Record) (x : ι) : Except Error ι :=
  match access with
  | value kind _ (some set) => do
      let bytes ← orCorrupt (r.slice offset kind.width)
      return set (← orCorrupt (kind.decode bytes)) x
  | bytes _ (some set) => do return set (← orCorrupt (r.readVariable offset)) x
  | text _ (some set) => do
      let payload ← orCorrupt (r.readVariable offset)
      return set (← orCorrupt (decodeText payload)) x
  | _ => .ok x

/-- Puts back a member that holds references. Other members and read-only ones
stay as they are. -/
def setReferences (access : Access ι) (lookup : Lookup) (offset : Nat) (r : Record) (x : ι) :
    Except Error ι :=
  match access with
  | reference _ (some set) => do
      let id ← orCorrupt (r.readObjectId offset)
      return set (← lookup id) x
  | references _ (some set) => do
      let ids ← orCorrupt (r.readObjectIds offset)
      return set (← resolveAll lookup ids) x
  | _ => .ok x

/-- Whether the member of an instance is what the record says. -/
def matchesStored (access : Access ι) (lookup : Lookup) (offset : Nat) (r : Record) (x : ι) :
    Except Error Bool :=
  match access with
  | value kind get _ => do
      let bytes ← orCorrupt (r.slice offset kind.width)
      return bytes = kind.encode (get x)
  | reference get _ => do
      let id ← orCorrupt (r.readObjectId offset)
      return (← lookup id) = get x
  | bytes get _ => do
      let payload ← orCorrupt (r.readVariable offset)
      return payload = get x
  | text get _ => do
      let payload ← orCorrupt (r.readVariable offset)
      return payload = Text.encode (get x)
  | references get _ => do
      let ids ← orCorrupt (r.readObjectIds offset)
      if ids.length = (get x).length then
        return (← ids.mapM lookup) = (get x).map some
      else return false

end Access

/-! ## Fields -/

/-- A declared member with its accessors. -/
structure Field (ι : Type) where
  id : MemberId
  /-- The declared type name, if it is not that of the kind. -/
  typeName : Option String
  access : Access ι

namespace Field

variable {ι : Type}

/-- The member that the field declares. -/
def member (field : Field ι) : Member :=
  { id := field.id
    kind := field.access.kind
    typeName := field.typeName.getD field.access.kind.defaultTypeName
    offset := none }

/-- The declaration that is laid out. -/
def declaration (field : Field ι) : Declaration (Access ι) :=
  ⟨field.member, field.access.isSettable, field.access⟩

end Field

end ObjectStore
