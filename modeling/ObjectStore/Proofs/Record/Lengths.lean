import Mathlib.Algebra.GroupWithZero.Nat
import ObjectStore.Proofs.Record.Chunk
import ObjectStore.Proofs.Record.Places

/-!
# Lengths of contents

A definition bounds the length of its records: each member has at least the
bytes that its kind needs, and at most those that its kind has room for. The
bound of a variable member alone is as large as any content may be. So a
content that is put together from the parts of the members, and that readers
accept at all, lies within the bounds.

## Main results

* `Definition.acceptsLength_of_parts`: a record that is made of the parts of
  its members.
-/

namespace ObjectStore

theorem Word.toNat_foldl_addSat {α : Type} (length : α → UInt64) (as : List α) (start : UInt64) :
    (as.foldl (fun total a => addSat total (length a)) start).toNat =
      min (start.toNat + (as.map fun a => (length a).toNat).sum) Word.max.toNat := by
  induction as generalizing start with
  | nil =>
      have hLt := start.toNat_lt
      have hMax : Word.max.toNat = 18446744073709551615 := by decide
      simp only [List.foldl_nil, List.map_nil, List.sum_nil]
      omega
  | cons a rest ih =>
      rw [List.foldl_cons, ih, toNat_addSat, List.map_cons, List.sum_cons]
      omega

theorem FieldKind.toNat_maxLength (kind : FieldKind) :
    kind.maxLength.toNat =
      if kind.isVariable then maxContentLength.toNat else kind.minLength.toNat := by
  unfold maxLength
  split <;> rfl

namespace Definition

theorem toNat_minLength (d : Definition) : d.minLength.toNat =
    min (d.members.map fun m => m.kind.minLength.toNat).sum Word.max.toNat := by
  rw [minLength, Word.toNat_foldl_addSat, UInt64.toNat_zero, Nat.zero_add]

theorem toNat_maxLength (d : Definition) : d.maxLength.toNat =
    min (d.members.map fun m => m.kind.maxLength.toNat).sum Word.max.toNat := by
  rw [maxLength, Word.toNat_foldl_addSat, UInt64.toNat_zero, Nat.zero_add]

end Definition

/-- The part of a fixed member has the length of its kind, and that of a
variable one begins with eight bytes that say how long it is. -/
structure Record.Measures (m : Member) (part : Bytes) : Prop where
  fixed : Record.Fills m part
  counted : m.kind.isVariable = true → 8 ≤ part.length

theorem Record.Measures.lower {m : Member} {part : Bytes} (h : Record.Measures m part) :
    m.kind.minLength.toNat ≤ part.length := by
  cases hKind : m.kind.isVariable with
  | false => exact Nat.le_of_eq (h.fixed hKind).symm
  | true => exact FieldKind.toNat_minLength_of_isVariable hKind ▸ h.counted hKind

/-- A part that fits into a content at all is not too long for its kind. -/
theorem Record.Measures.upper {m : Member} {part : Bytes} (h : Record.Measures m part)
    (hSmall : part.length ≤ maxContentLength.toNat) : part.length ≤ m.kind.maxLength.toNat := by
  rw [FieldKind.toNat_maxLength]
  cases hKind : m.kind.isVariable with
  | false => exact Nat.le_of_eq (h.fixed hKind)
  | true => exact hSmall

theorem Record.length_flatten_bounds {members : List Member} {parts : List Bytes}
    (h : List.Forall₂ Record.Measures members parts)
    (hSmall : parts.flatten.length ≤ maxContentLength.toNat) :
    (members.map fun m => m.kind.minLength.toNat).sum ≤ parts.flatten.length ∧
      parts.flatten.length ≤ (members.map fun m => m.kind.maxLength.toNat).sum := by
  induction h with
  | nil => exact ⟨Nat.le_refl _, Nat.le_refl _⟩
  | @cons m part members parts hPart _ ih =>
      rw [List.flatten_cons, List.length_append] at hSmall ⊢
      obtain ⟨hLower, hUpper⟩ := ih (by omega)
      have hPartLower := hPart.lower
      have hPartUpper := hPart.upper (by omega)
      rw [List.map_cons, List.sum_cons, List.map_cons, List.sum_cons]
      omega

/-- A definition accepts the length of a record that is made of the parts of
its members. -/
theorem Definition.acceptsLength_of_parts {d : Definition} {parts : List Bytes} {r : Record}
    (hParts : List.Forall₂ Record.Measures d.members parts) (hContent : r.content = parts.flatten)
    (hAcceptable : Chunk.Acceptable r) : d.acceptsLength r.length = true := by
  have hLength : r.length.toNat = parts.flatten.length := by
    rw [Record.toNat_length (Chunk.fits_of_acceptable hAcceptable), hContent]
  have hSmall : parts.flatten.length ≤ maxContentLength.toNat := hContent ▸ hAcceptable
  obtain ⟨hLower, hUpper⟩ := Record.length_flatten_bounds hParts hSmall
  have hWord := r.length.toNat_lt
  have hMax : Word.max.toNat = 18446744073709551615 := by decide
  simp only [acceptsLength, Bool.and_eq_true, decide_eq_true_eq, UInt64.le_iff_toNat_le,
    toNat_minLength, toNat_maxLength, hLength]
  omega

end ObjectStore
