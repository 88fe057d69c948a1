import Mathlib.Algebra.Group.Int.Defs
import Mathlib.Algebra.Group.Nat.Defs
import ObjectStore.Proofs.Record.Values

/-!
# Primitive codecs

The written form of a primitive value is as wide as its kind, and its bytes
are the digits of a number to the base 256, the least significant first. A
negative number has the digits of its two's complement, a float those of its
bit pattern, and a character those of its code.

All bytes of the right width are read but for two kinds: a boolean is the byte
zero or one, and a character is the code of a Unicode scalar value. Bytes that
are refused name what is wrong with them.

## Main results

* `Word.spells_iff`: the digits of a number determine it modulo the span of
  the width.
* `PrimitiveKind.encode_eq_iff`: the written form of a value, byte by byte.
* `PrimitiveKind.admits_or_misfit`: bytes stand for a value, or there is a
  cause to refuse them.
* `PrimitiveKind.codec_exact`: reading and writing are inverse to each other,
  which bytes are read, and why all others are refused.
-/

namespace ObjectStore

/-! ## Digits -/

namespace Word

/-- The bytes are the digits of a number to the base 256, the least significant
first. Those of a negative number are the digits of its two's complement. -/
def Spells (n : Int) (bytes : Bytes) : Prop :=
  ∀ (i : Nat) (h : i < bytes.length), (bytes[i].toNat : Int) = n / 256 ^ i % 256

theorem spells_cons {n : Int} {byte : UInt8} {rest : Bytes} :
    Spells n (byte :: rest) ↔ (byte.toNat : Int) = n % 256 ∧ Spells (n / 256) rest := by
  have hShift (i : Nat) : n / 256 / 256 ^ i = n / 256 ^ (i + 1) := by
    rw [Int.ediv_ediv_of_nonneg (by decide), Int.pow_succ, Int.mul_comm]
  constructor
  · intro h
    refine ⟨by simpa using h 0 (Nat.succ_pos _), fun i hi => ?_⟩
    rw [hShift]
    exact h (i + 1) (Nat.succ_lt_succ hi)
  · rintro ⟨hFirst, hRest⟩ i hi
    cases i with
    | zero => simpa using hFirst
    | succ i =>
        rw [← hShift]
        exact hRest i (Nat.lt_of_succ_lt_succ hi)

/-- A number is its last digit and what stands in front of it. -/
theorem emod_span_succ (n : Int) (width : Nat) :
    n % span (width + 1) = n % 256 + 256 * (n / 256 % span width) := by
  have hSpan : (span (width + 1) : Int) = 256 * span width := Int.natCast_mul 256 _
  rw [hSpan, Int.emod_def n (_ * _), Int.emod_def n 256, Int.emod_def (n / 256),
    Int.ediv_ediv_of_nonneg (by decide), Int.mul_assoc, Int.mul_sub]
  omega

/-- Bytes have the digits of all numbers that are congruent to what they denote. -/
theorem spells_iff {n : Int} {bytes : Bytes} :
    Spells n bytes ↔ (decode bytes : Int) = n % span bytes.length := by
  induction bytes generalizing n with
  | nil =>
      have hNone : Spells n [] := fun i h => absurd h (Nat.not_lt_zero i)
      simp [hNone, decode, span]
  | cons byte rest ih =>
      have hByte : byte.toNat < 256 := byte.toNat_lt
      rw [spells_cons, ih, List.length_cons, emod_span_succ, decode]
      omega

theorem spells_iff_of_lt {n : Nat} {bytes : Bytes} (h : n < span bytes.length) :
    Spells n bytes ↔ decode bytes = n := by
  have hFits : (n : Int) % span bytes.length = n := Int.emod_eq_of_lt (by omega) (by omega)
  rw [spells_iff, hFits]
  omega

/-- The unsigned reading of a word is the signed one modulo the span. -/
theorem toNat_eq_toInt_emod {w : Nat} (x : BitVec w) :
    (x.toNat : Int) = x.toInt % (2 ^ w : Nat) := by
  rw [BitVec.toInt_eq_toNat_bmod, Int.bmod_emod]
  exact (Int.emod_eq_of_lt (Int.natCast_nonneg _) (Int.ofNat_lt.2 x.isLt)).symm

end Word

namespace PrimitiveKind

/-! ## The written form -/

/-- The number that a value stands for. A boolean is zero or one, a float is its
bit pattern, and a character is its code. -/
def number : (kind : PrimitiveKind) → kind.Value → Int
  | bool, v => v.toNat
  | i8, v => v.toInt
  | u8, v => v.toNat
  | i16, v => v.toInt
  | u16, v => v.toNat
  | i32, v => v.toInt
  | u32, v => v.toNat
  | i64, v => v.toInt
  | u64, v => v.toNat
  | f32, v => v.toNat
  | f64, v => v.toNat
  | char, v => v.toNat

theorem code_eq_emod (kind : PrimitiveKind) (value : kind.Value) :
    (kind.code value : Int) = kind.number value % Word.span kind.width := by
  have hLt := kind.code_lt value
  -- Only signed integers can be negative; all else is its own code.
  cases kind with
  | i8 => exact Word.toNat_eq_toInt_emod (Int8.toBitVec value)
  | i16 => exact Word.toNat_eq_toInt_emod (Int16.toBitVec value)
  | i32 => exact Word.toNat_eq_toInt_emod (Int32.toBitVec value)
  | i64 => exact Word.toNat_eq_toInt_emod (Int64.toBitVec value)
  | _ => exact (Int.emod_eq_of_lt (Int.natCast_nonneg _) (Int.ofNat_lt.2 hLt)).symm

/-- The written form of a value is as wide as its kind, and its bytes are the
digits of the number. -/
theorem encode_eq_iff {kind : PrimitiveKind} {value : kind.Value} {bytes : Bytes} :
    kind.encode value = bytes ↔
      bytes.length = kind.width ∧ Word.Spells (kind.number value) bytes := by
  constructor
  · rintro rfl
    refine ⟨length_encode kind value, Word.spells_iff.2 ?_⟩
    rw [length_encode, encode, Word.decode_encode_of_lt (kind.code_lt value), code_eq_emod]
  · rintro ⟨hLength, hSpells⟩
    have hDigits := Word.spells_iff.1 hSpells
    rw [hLength, ← code_eq_emod] at hDigits
    have hCode : Word.decode bytes = kind.code value := Int.ofNat.inj hDigits
    rw [encode, ← hCode, ← hLength, Word.encode_decode]

/-- Bytes are read as a value exactly if they are its written form. -/
theorem decode_eq_ok_iff {kind : PrimitiveKind} {bytes : Bytes} {value : kind.Value} :
    kind.decode bytes = .ok value ↔ kind.encode value = bytes :=
  ⟨encode_of_decode, fun h => h ▸ kind.decode_encode value⟩

/-! ## What is read and what is refused -/

/-- The bytes stand for a value of the kind: they are as many as it is wide, a
boolean is the byte zero or one, and a character is the code of a Unicode scalar
value. -/
structure Admits (kind : PrimitiveKind) (bytes : Bytes) : Prop where
  width : bytes.length = kind.width
  boolean : kind = .bool → bytes = [0] ∨ bytes = [1]
  scalar : kind = .char → ∃ code : Nat, code.isValidChar ∧ Word.Spells code bytes

/-- Why bytes stand for no value of a kind. -/
inductive Misfit : PrimitiveKind → Bytes → Corruption → Prop where
  /-- There are fewer bytes than the kind is wide, or more. -/
  | width {kind : PrimitiveKind} {bytes : Bytes} (h : bytes.length ≠ kind.width) :
      Misfit kind bytes (.widthMismatch kind bytes.length)
  /-- The byte is neither false nor true. -/
  | boolean {byte : UInt8} (hFalse : byte ≠ 0) (hTrue : byte ≠ 1) :
      Misfit .bool [byte] (.invalidBool byte)
  /-- The code is a surrogate, or lies behind the last character. -/
  | scalar {code : Nat} {bytes : Bytes} (hLength : bytes.length = 4)
      (hWord : code < Word.span 4) (hSpells : Word.Spells code bytes) (h : ¬code.isValidChar) :
      Misfit .char bytes (.invalidChar code)

theorem decode_of_length {kind : PrimitiveKind} {bytes : Bytes}
    (h : bytes.length = kind.width) : kind.decode bytes = kind.ofCode (Word.decode bytes) :=
  if_pos h

/-- A character has a code of at most 21 bits. -/
theorem lt_span_of_isValidChar {code : Nat} (h : code.isValidChar) : code < Word.span 4 := by
  have hLast : code < 1114112 := by
    rcases h with h | ⟨-, h⟩ <;> omega
  exact Nat.lt_trans hLast (by decide)

theorem ofCode_bool_of_ne {byte : UInt8} (hFalse : byte ≠ 0) (hTrue : byte ≠ 1) :
    ofCode .bool byte.toNat = .error (.invalidBool byte) := by
  have hZero : byte.toNat ≠ 0 := mt (UInt8.toNat_inj (b := 0)).1 hFalse
  have hOne : byte.toNat ≠ 1 := mt (UInt8.toNat_inj (b := 1)).1 hTrue
  simp only [ofCode, UInt8.ofNat_toNat]

theorem Admits.decode {kind : PrimitiveKind} {bytes : Bytes} (h : kind.Admits bytes) :
    ∃ value, kind.decode bytes = .ok value := by
  cases kind with
  | bool =>
      rcases h.boolean rfl with rfl | rfl
      · exact ⟨false, rfl⟩
      · exact ⟨true, rfl⟩
  | char =>
      obtain ⟨code, hValid, hSpells⟩ := h.scalar rfl
      have hLt : code < Word.span bytes.length := h.width ▸ lt_span_of_isValidChar hValid
      refine ⟨Char.ofNat code, ?_⟩
      rw [decode_of_length h.width, (Word.spells_iff_of_lt hLt).1 hSpells, ofCode, if_pos hValid]
  | _ => exact ⟨_, decode_of_length h.width⟩

theorem Misfit.decode {kind : PrimitiveKind} {bytes : Bytes} {cause : Corruption}
    (h : Misfit kind bytes cause) : kind.decode bytes = .error cause := by
  cases h with
  | width hWidth => exact if_neg hWidth
  | boolean hFalse hTrue =>
      rw [decode_of_length rfl]
      exact ofCode_bool_of_ne hFalse hTrue
  | scalar hLength hWord hSpells hInvalid =>
      rw [decode_of_length hLength, (Word.spells_iff_of_lt (hLength ▸ hWord)).1 hSpells, ofCode,
        if_neg hInvalid]

theorem admits_or_misfit (kind : PrimitiveKind) (bytes : Bytes) :
    kind.Admits bytes ∨ ∃ cause, Misfit kind bytes cause := by
  by_cases hLength : bytes.length = kind.width
  · cases kind with
    | bool =>
        obtain ⟨byte, rfl⟩ := List.length_eq_one_iff.1 hLength
        by_cases hFalse : byte = 0
        · exact Or.inl ⟨rfl, fun _ => Or.inl (congrArg (fun b => [b]) hFalse), nofun⟩
        by_cases hTrue : byte = 1
        · exact Or.inl ⟨rfl, fun _ => Or.inr (congrArg (fun b => [b]) hTrue), nofun⟩
        · exact Or.inr ⟨_, .boolean hFalse hTrue⟩
    | char =>
        have hLt := Word.decode_lt bytes
        have hSpells := (Word.spells_iff_of_lt hLt).2 rfl
        by_cases hValid : (Word.decode bytes).isValidChar
        · exact Or.inl ⟨hLength, nofun, fun _ => ⟨_, hValid, hSpells⟩⟩
        · rw [hLength] at hLt
          exact Or.inr ⟨_, .scalar hLength hLt hSpells hValid⟩
    | _ => exact Or.inl ⟨hLength, nofun, nofun⟩
  · exact Or.inr ⟨_, .width hLength⟩

theorem decode_isOk_iff {kind : PrimitiveKind} {bytes : Bytes} :
    (∃ value, kind.decode bytes = .ok value) ↔ kind.Admits bytes := by
  refine ⟨?_, Admits.decode⟩
  rintro ⟨value, hValue⟩
  rcases admits_or_misfit kind bytes with hAdmits | ⟨cause, hMisfit⟩
  · exact hAdmits
  · rw [hMisfit.decode] at hValue
    cases hValue

theorem decode_eq_error_iff {kind : PrimitiveKind} {bytes : Bytes} {cause : Corruption} :
    kind.decode bytes = .error cause ↔ Misfit kind bytes cause := by
  refine ⟨fun h => ?_, Misfit.decode⟩
  rcases admits_or_misfit kind bytes with hAdmits | ⟨found, hMisfit⟩
  · obtain ⟨value, hValue⟩ := hAdmits.decode
    rw [hValue] at h
    cases h
  · rw [hMisfit.decode] at h
    cases h
    exact hMisfit

/-! ## Exactness -/

/-- Exactly the bytes that stand for a value of the kind are read, and all others
are refused for what is wrong with them. Bytes are read as a value exactly if
they are what is written for it, and that is its digits over the whole width. -/
theorem codec_exact (kind : PrimitiveKind) :
    (∀ bytes, (∃ value, kind.decode bytes = .ok value) ↔ kind.Admits bytes) ∧
    (∀ bytes cause, kind.decode bytes = .error cause ↔ Misfit kind bytes cause) ∧
    (∀ bytes value, kind.decode bytes = .ok value ↔ kind.encode value = bytes) ∧
    (∀ value bytes, kind.encode value = bytes ↔
      bytes.length = kind.width ∧ Word.Spells (kind.number value) bytes) := by
  refine ⟨fun bytes => ?accepted, fun bytes cause => ?refused, fun bytes value => ?inverse,
    fun value bytes => ?written⟩
  case accepted => exact decode_isOk_iff
  case refused => exact decode_eq_error_iff
  case inverse => exact decode_eq_ok_iff
  case written => exact encode_eq_iff

/-- The sign of a number stands in its last byte. -/
example : decode .i16 [254, 255] = .ok (-2 : Int16) := rfl

/-- The first surrogate is no character, although its code is below others. -/
example : decode .char [0, 216, 0, 0] = .error (.invalidChar 55296) := rfl

end PrimitiveKind

end ObjectStore
