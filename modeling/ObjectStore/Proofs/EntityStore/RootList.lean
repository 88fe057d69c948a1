import ObjectStore.EntityStore
import ObjectStore.Proofs.Bytes.Codec

/-!
# Root lists

A store has its roots in a written form. What was written is read back, the
roots in their order and with their repeats. Only a list that is longer than
any that a program can hold cannot be written.

## Main results

* `RootList.read_write`: a root list is read back.
* `RootList.fits_of_length`: which root lists can be written.
-/

namespace ObjectStore

open Reader

namespace Codec

theorem faithful_objectId : objectId.Faithful := faithful_through faithful_word fun _ => rfl

theorem visible_objectId : objectId.Visible := fun id => visible_word id.value

end Codec

namespace RootList

variable {roots : List ObjectId} {bytes : Bytes}

theorem write_eq_ok : write roots = .ok bytes ↔ Fits roots ∧ bytes = codec.write roots := by
  unfold write
  split
  · rename_i hFits
    simp only [Except.ok.injEq, hFits, true_and]
    exact eq_comm
  · rename_i hLong
    simp [hLong]

/-- A root list that was written is read back. -/
theorem read_write (h : write roots = .ok bytes) : read bytes = .ok roots := by
  obtain ⟨hFits, rfl⟩ := write_eq_ok.1 h
  have hFaithful := Codec.faithful_list Codec.faithful_objectId Codec.visible_objectId
  obtain ⟨c, hRead, -⟩ := hFaithful roots hFits (Cursor.start ⟨(codec.write roots).toArray⟩) [] (by
    rw [Cursor.rest_start, List.append_nil]
    rfl)
  unfold read
  rw [show codec.read = (Codec.list Codec.objectId).read from rfl, hRead]

/-- No root takes more than ten bytes. -/
theorem length_flatMap_le (roots : List ObjectId) :
    (roots.flatMap Codec.objectId.write).length ≤ 10 * roots.length := by
  induction roots with
  | nil => exact Nat.le_refl 0
  | cons root rest ih =>
      have hRoot : (Codec.objectId.write root).length ≤ 10 :=
        Varint.length_write_le_ten root.value.toNat_lt
      rw [List.flatMap_cons, List.length_append, List.length_cons]
      omega

/-- A list of less than two to the sixtieth roots can be written. -/
theorem fits_of_length (h : roots.length < 1152921504606846976) : Fits roots := by
  have hLength : (codec.write roots).length =
      (Varint.write roots.length).length + (roots.flatMap Codec.objectId.write).length :=
    List.length_append
  have hCount : (Varint.write roots.length).length ≤ 10 := by
    apply Varint.length_write_le_ten
    rw [Varint.limit]
    omega
  have hRoots := length_flatMap_le roots
  show (codec.write roots).length < Varint.limit
  simp only [Varint.limit]
  omega

end RootList

namespace EntityStore

variable {s : EntityStore} {roots : List ObjectId}

/-- The roots of a store are those whose written form it has. -/
theorem readRoots_of_write (hList : s.rootList = some (RootList.codec.write roots))
    (hFits : RootList.Fits roots) : s.readRoots = .ok roots := by
  rw [readRoots, hList]
  exact RootList.read_write (RootList.write_eq_ok.2 ⟨hFits, rfl⟩)

end EntityStore

end ObjectStore
