import ObjectStore.Error

/-!
# Primitive values

A primitive value is stored in the little-endian bytes of its kind's width.
Integers and floats use every byte sequence of that width; floats are their
bit patterns here, so that no value is lost or merged. A boolean is the byte
zero or one, and a character is the 32-bit code of a Unicode scalar value;
all other bytes of the right width are refused.
-/

namespace ObjectStore

namespace PrimitiveKind

/-- The values of a kind. Floats are given by their bit patterns. -/
abbrev Value : PrimitiveKind → Type
  | bool => Bool
  | i8 => Int8
  | u8 => UInt8
  | i16 => Int16
  | u16 => UInt16
  | i32 => Int32
  | u32 => UInt32
  | i64 => Int64
  | u64 => UInt64
  | f32 => UInt32
  | f64 => UInt64
  | char => Char

instance : (kind : PrimitiveKind) → Inhabited kind.Value
  | bool => ⟨false⟩
  | i8 | u8 | i16 | u16 | i32 | u32 | i64 | u64 | f32 | f64 => ⟨0⟩
  | char => ⟨'\x00'⟩

/-- The number whose bytes represent a value. -/
def code : (kind : PrimitiveKind) → kind.Value → Nat
  | bool, v => v.toNat
  | i8, v => v.toUInt8.toNat
  | u8, v => v.toNat
  | i16, v => v.toUInt16.toNat
  | u16, v => v.toNat
  | i32, v => v.toUInt32.toNat
  | u32, v => v.toNat
  | i64, v => v.toUInt64.toNat
  | u64, v => v.toNat
  | f32, v => v.toNat
  | f64, v => v.toNat
  | char, v => v.toNat

/-- The value that a number below 256 to the width represents. -/
def ofCode : (kind : PrimitiveKind) → Nat → Except Corruption kind.Value
  | bool, n =>
      match n with
      | 0 => .ok false
      | 1 => .ok true
      | _ => .error (.invalidBool (UInt8.ofNat n))
  | i8, n => .ok (UInt8.ofNat n).toInt8
  | u8, n => .ok (UInt8.ofNat n)
  | i16, n => .ok (UInt16.ofNat n).toInt16
  | u16, n => .ok (UInt16.ofNat n)
  | i32, n => .ok (UInt32.ofNat n).toInt32
  | u32, n => .ok (UInt32.ofNat n)
  | i64, n => .ok (UInt64.ofNat n).toInt64
  | u64, n => .ok (UInt64.ofNat n)
  | f32, n => .ok (UInt32.ofNat n)
  | f64, n => .ok (UInt64.ofNat n)
  | char, n => if n.isValidChar then .ok (Char.ofNat n) else .error (.invalidChar n)

/-- The bytes of a value. -/
def encode (kind : PrimitiveKind) (value : kind.Value) : Bytes :=
  Word.encode kind.width (kind.code value)

/-- The value that the bytes stand for. -/
def decode (kind : PrimitiveKind) (bytes : Bytes) : Except Corruption kind.Value :=
  if bytes.length = kind.width then kind.ofCode (Word.decode bytes)
  else .error (.widthMismatch kind bytes.length)

@[simp] theorem length_encode (kind : PrimitiveKind) (value : kind.Value) :
    (kind.encode value).length = kind.width :=
  Word.length_encode _ _

end PrimitiveKind

end ObjectStore
