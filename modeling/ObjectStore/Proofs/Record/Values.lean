import ObjectStore.Primitive
import ObjectStore.Record.Reading

/-!
# Values and their bytes

Every primitive value is read back from its bytes, and so is every list of
object identifiers. The lengths of the written forms are what layout
derivation counts with.

## Main results

* `PrimitiveKind.decode_encode`: a written value is read back.
* `PrimitiveKind.encode_of_decode`: what is read as a value is its written
  form.
* `readIds_writeIds`: written identifiers are read back.
-/

namespace ObjectStore

/-! ## Lengths -/

theorem Word.toNat_ofNatSat (n : Nat) : (Word.ofNatSat n).toNat = min n Word.max.toNat := by
  have hMax : Word.max.toNat = 18446744073709551615 := by decide
  unfold Word.ofNatSat
  split
  · rename_i h
    have hMod : n % 2 ^ 64 = n := Nat.mod_eq_of_lt (by omega)
    rw [UInt64.toNat_ofNat', hMod]
    omega
  · omega

theorem PrimitiveKind.toNat_width (kind : PrimitiveKind) :
    (UInt64.ofNat kind.width).toNat = kind.width := by
  cases kind <;> decide

/-- The least length of a kind as a number. -/
theorem FieldKind.toNat_minLength (kind : FieldKind) :
    kind.minLength.toNat = match kind with
      | .primitive k => k.width
      | _ => 8 := by
  cases kind with
  | primitive k => exact k.toNat_width
  | _ => decide

/-- A variable member has at least its length prefix. -/
theorem FieldKind.toNat_minLength_of_isVariable {kind : FieldKind} (h : kind.isVariable = true) :
    kind.minLength.toNat = 8 := by
  cases kind with
  | primitive k => cases h
  | reference | bytes | text | referenceList => decide

/-! ## Primitive values -/

namespace PrimitiveKind

theorem code_lt (kind : PrimitiveKind) (value : kind.Value) :
    kind.code value < Word.span kind.width := by
  cases kind with
  | bool => cases value <;> decide
  | i8 => exact value.toUInt8.toNat_lt
  | u8 => exact UInt8.toNat_lt value
  | i16 => exact value.toUInt16.toNat_lt
  | u16 => exact UInt16.toNat_lt value
  | i32 => exact value.toUInt32.toNat_lt
  | u32 => exact UInt32.toNat_lt value
  | i64 => exact value.toUInt64.toNat_lt
  | u64 => exact UInt64.toNat_lt value
  | f32 => exact UInt32.toNat_lt value
  | f64 => exact UInt64.toNat_lt value
  | char => exact Char.val value |>.toNat_lt

theorem ofCode_code (kind : PrimitiveKind) (value : kind.Value) :
    kind.ofCode (kind.code value) = .ok value := by
  cases kind with
  | bool => cases value <;> rfl
  | char =>
      have hValid : (Char.toNat value).isValidChar := Char.valid value
      simp only [code, ofCode, hValid, if_true]
      exact congrArg Except.ok (Char.ofNat_toNat value)
  | _ => simp [code, ofCode]

/-- A written value is read back. -/
theorem decode_encode (kind : PrimitiveKind) (value : kind.Value) :
    kind.decode (kind.encode value) = .ok value := by
  rw [decode, if_pos (length_encode kind value), encode,
    Word.decode_encode_of_lt (kind.code_lt value), ofCode_code]

/-- No two numbers represent one value. -/
theorem code_of_ofCode {kind : PrimitiveKind} {n : Nat} {value : kind.Value}
    (hLt : n < Word.span kind.width) (h : kind.ofCode n = .ok value) : kind.code value = n := by
  cases kind with
  | bool =>
      simp only [ofCode] at h
      split at h
      · cases h
        rfl
      · cases h
        rfl
      · cases h
  | char =>
      simp only [ofCode] at h
      split at h
      · rename_i hValid
        cases h
        show (Char.ofNat n).toNat = n
        rw [Char.ofNat, dif_pos hValid]
        rfl
      · cases h
  | _ =>
      cases h
      simpa [code, width, Word.span] using hLt

/-- What is read as a value is its written form. -/
theorem encode_of_decode {kind : PrimitiveKind} {bytes : Bytes} {value : kind.Value}
    (h : kind.decode bytes = .ok value) : kind.encode value = bytes := by
  unfold decode at h
  split at h
  · rename_i hLength
    have hLt : Word.decode bytes < Word.span kind.width := hLength ▸ Word.decode_lt bytes
    rw [encode, code_of_ofCode hLt h, ← hLength, Word.encode_decode]
  · cases h

end PrimitiveKind

/-! ## Object identifiers -/

theorem readIds_cons (w : UInt64) (rest : Bytes) :
    readIds (Word.ofWord w ++ rest) = ⟨w⟩ :: readIds rest := by
  -- The eight bytes of the word are those that are read as one identifier.
  show readIds (_ :: _ :: _ :: _ :: _ :: _ :: _ :: _ :: rest) = _
  rw [readIds]
  exact congrArg (fun word => ObjectId.mk word :: readIds rest) (Word.toWord_ofWord w)

/-- Written identifiers are read back. -/
theorem readIds_writeIds (ids : List ObjectId) : readIds (writeIds ids) = ids := by
  induction ids with
  | nil => rfl
  | cons id rest ih =>
      show readIds (Word.ofWord id.value ++ writeIds rest) = id :: rest
      rw [readIds_cons, ih]

end ObjectStore
