/-!
# Member kinds

The kind of a member says how its value stands in a record. Fixed kinds
have a width; variable kinds are a length prefix followed by a payload. The
kinds are all the storage side needs to know of a type.
-/

namespace ObjectStore

/-- The bytes that a reference occupies. -/
def referenceLength : UInt64 := 8

/-- The bytes that the length prefix of a variable member occupies. -/
def lengthPrefixLength : UInt64 := 8

/-- The largest content a record may have, in bytes. -/
def maxContentLength : UInt64 := 1073741824

/-- The fixed-width value kinds. -/
inductive PrimitiveKind where
  | bool
  | i8
  | u8
  | i16
  | u16
  | i32
  | u32
  | i64
  | u64
  | f32
  | f64
  | char
deriving DecidableEq, Inhabited

namespace PrimitiveKind

/-- The bytes a value of the kind occupies. -/
def width : PrimitiveKind → Nat
  | bool | i8 | u8 => 1
  | i16 | u16 => 2
  | i32 | u32 | f32 | char => 4
  | i64 | u64 | f64 => 8

/-- The name of the kind in a dictionary. -/
def name : PrimitiveKind → String
  | bool => "bool"
  | i8 => "i8"
  | u8 => "u8"
  | i16 => "i16"
  | u16 => "u16"
  | i32 => "i32"
  | u32 => "u32"
  | i64 => "i64"
  | u64 => "u64"
  | f32 => "f32"
  | f64 => "f64"
  | char => "char"

/-- All kinds, in the order in which a dictionary file numbers them. -/
def all : List PrimitiveKind :=
  [bool, i8, u8, i16, u16, i32, u32, i64, u64, f32, f64, char]

theorem mem_all (kind : PrimitiveKind) : kind ∈ all := by
  cases kind <;> decide

end PrimitiveKind

/-- The kind of a persisted member. -/
inductive FieldKind where
  /-- A value of fixed width. -/
  | primitive (kind : PrimitiveKind)
  /-- A single reference. -/
  | reference
  /-- Raw bytes. -/
  | bytes
  /-- Text, stored as UTF-8. -/
  | text
  /-- A list of references. -/
  | referenceList
deriving DecidableEq, Inhabited

namespace FieldKind

/-- Whether the stored length differs from instance to instance. -/
def isVariable : FieldKind → Bool
  | bytes | text | referenceList => true
  | primitive _ | reference => false

/-- Whether the member is a single reference. -/
def isReference : FieldKind → Bool
  | reference => true
  | _ => false

/-- Whether the member holds references, one or many. -/
def hasReferences : FieldKind → Bool
  | reference | referenceList => true
  | _ => false

/-- The least number of bytes a member of the kind occupies: a variable one
has at least its length prefix. -/
def minLength : FieldKind → UInt64
  | primitive kind => UInt64.ofNat kind.width
  | reference => referenceLength
  | bytes | text | referenceList => lengthPrefixLength

/-- The largest number of bytes a member of the kind may occupy. -/
def maxLength (kind : FieldKind) : UInt64 :=
  if kind.isVariable then maxContentLength else kind.minLength

/-- The type name that a declaration without one gets. -/
def defaultTypeName : FieldKind → String
  | primitive kind => kind.name
  | reference => "ref"
  | bytes => "bytes"
  | text => "text"
  | referenceList => "ref[]"

/-- All kinds. -/
def all : List FieldKind :=
  PrimitiveKind.all.map primitive ++ [reference, bytes, text, referenceList]

theorem mem_all (kind : FieldKind) : kind ∈ all := by
  cases kind with
  | primitive kind => simp [all, PrimitiveKind.mem_all]
  | _ => decide

/-- The kind whose declarations get a type name. -/
def named? (typeName : String) : Option FieldKind :=
  all.find? (·.defaultTypeName = typeName)

/-- No two kinds have one name. -/
theorem named?_defaultTypeName (kind : FieldKind) : named? kind.defaultTypeName = some kind := by
  cases kind with
  | primitive kind => cases kind <;> decide
  | _ => decide

end FieldKind

end ObjectStore
