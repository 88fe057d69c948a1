import Mathlib.Data.List.Nodup
import Mathlib.Data.List.Perm.Subperm
import ObjectStore.Proofs.Storing.Chunk

/-!
# Fresh identifiers

A store operation takes the identifiers that it assigns from the counter,
one after the other. So they are above everything that was bound before, and
there can be no more of them than the counter has left: the largest word is
never assigned, and the counter does not wrap.

## Main results

* `storeObjects_issues`: where the identifiers come from that a store
  operation has assigned.
* `ObjectIds.Issues.room`: how many instances can get one.
-/

namespace ObjectStore

namespace ObjectIds

variable {ids ids' ids'' : ObjectIds}

/-- All bound identifiers are below the counter. -/
def Below (ids : ObjectIds) : Prop :=
  ∀ id ref, ids.ref? id = some ref → id.value.toNat < ids.next.toNat

/-- What `ids'` has bound and `ids` has not, the counter has passed in
between. -/
structure Issues (ids ids' : ObjectIds) : Prop where
  next : ids.next.toNat ≤ ids'.next.toNat
  fresh : ∀ id ref, ids'.ref? id = some ref → ids.ref? id = some ref ∨
    ids.next.toNat ≤ id.value.toNat ∧ id.value.toNat < ids'.next.toNat

theorem below_startingAt (next : UInt64) : (startingAt next).Below := by
  intro id ref h
  simp [startingAt, ref?] at h

theorem Issues.refl (ids : ObjectIds) : ids.Issues ids :=
  ⟨Nat.le_refl _, fun _ _ h => Or.inl h⟩

theorem Issues.trans (h : ids.Issues ids') (h' : ids'.Issues ids'') : ids.Issues ids'' where
  next := Nat.le_trans h.next h'.next
  fresh := by
    intro id ref hRef
    rcases h'.fresh id ref hRef with hMiddle | ⟨hFrom, hTo⟩
    · rcases h.fresh id ref hMiddle with hBefore | ⟨hFrom, hTo⟩
      · exact Or.inl hBefore
      · exact Or.inr ⟨hFrom, Nat.lt_of_lt_of_le hTo h'.next⟩
    · exact Or.inr ⟨Nat.le_trans h.next hFrom, hTo⟩

theorem Below.issues (h : ids.Below) (hIssues : ids.Issues ids') : ids'.Below := by
  intro id ref hRef
  rcases hIssues.fresh id ref hRef with hBefore | ⟨-, hTo⟩
  · exact Nat.lt_of_lt_of_le (h id ref hBefore) hIssues.next
  · exact hTo

/-- The next identifier is assigned, and the counter goes on by one. -/
theorem issues_ensure {ref : Ref} {id : ObjectId} {fresh : Bool}
    (h : (ensure ref).start ids = (.ok (id, fresh), ids')) : ids.Issues ids' := by
  rcases ensure_cases h with ⟨-, -, rfl⟩ | ⟨-, -, hNext, rfl, rfl⟩
  · exact Issues.refl _
  · have hSucc : (ids.extend ⟨ids.next⟩ ref (ids.next + 1)).next.toNat = ids.next.toNat + 1 :=
      toNat_next_succ hNext
    refine ⟨by omega, ?_⟩
    intro other ref' hRef
    rw [ref?_extend] at hRef
    split at hRef
    · rename_i hOther
      right
      rw [← hOther, hSucc]
      exact ⟨Nat.le_refl _, Nat.lt_succ_self _⟩
    · exact Or.inl hRef

/-- An instance that got its identifier in between has one that the counter
has passed. -/
theorem Issues.objectId? (h : ids.Issues ids') (hIds : ids.WellFormed) (hIds' : ids'.WellFormed)
    {ref : Ref} {id : ObjectId} (hFree : ids.objectId? ref = none)
    (hNamed : ids'.objectId? ref = some id) :
    ids.next.toNat ≤ id.value.toNat ∧ id.value.toNat < ids'.next.toNat := by
  rcases h.fresh id ref ((hIds'.inverse id ref).2 hNamed) with hBefore | hFresh
  · rw [(hIds.inverse id ref).1 hBefore] at hFree
    cases hFree
  · exact hFresh

/-- Different instances get different identifiers, so the counter goes on by
at least one for each of them. -/
theorem Issues.room (h : ids.Issues ids') (hIds : ids.WellFormed) (hIds' : ids'.WellFormed)
    {refs : List Ref} (hNodup : refs.Nodup) (hFree : ∀ ref ∈ refs, ids.objectId? ref = none)
    (hNamed : ∀ ref ∈ refs, ∃ id, ids'.objectId? ref = some id) :
    ids.next.toNat + refs.length ≤ ids'.next.toNat := by
  have hRange : ∀ ref ∈ refs, ids.next.toNat ≤ (ids'.nameOf ref).value.toNat ∧
      (ids'.nameOf ref).value.toNat < ids'.next.toNat := by
    intro ref hRef
    obtain ⟨id, hId⟩ := hNamed ref hRef
    rw [nameOf_of_object hId]
    exact h.objectId? hIds hIds' (hFree ref hRef) hId
  have hDistinct : (refs.map fun ref => (ids'.nameOf ref).value.toNat).Nodup := by
    apply hNodup.map_on
    intro ref hRef other hOther hEq
    obtain ⟨id, hId⟩ := hNamed ref hRef
    obtain ⟨otherId, hOtherId⟩ := hNamed other hOther
    rw [nameOf_of_object hId, nameOf_of_object hOtherId] at hEq
    have hSame : id = otherId := ObjectId.eq_of_value_eq (UInt64.toNat.inj hEq)
    have hRef' := (hIds'.inverse id ref).2 hId
    rw [hSame, (hIds'.inverse otherId other).2 hOtherId] at hRef'
    exact (Option.some.inj hRef').symm
  have hSubset : (refs.map fun ref => (ids'.nameOf ref).value.toNat) ⊆
      List.range' ids.next.toNat (ids'.next.toNat - ids.next.toNat) := by
    intro n hn
    obtain ⟨ref, hRef, rfl⟩ := List.mem_map.1 hn
    obtain ⟨hFrom, hTo⟩ := hRange ref hRef
    exact List.mem_range'_1.2 ⟨hFrom, by omega⟩
  have hLength := (hDistinct.subperm hSubset).length_le
  rw [List.length_map, List.length_range'] at hLength
  have hNext := h.next
  omega

end ObjectIds

namespace Storing

theorem issues_identify (ids : ObjectIds) (ref : Ref) :
    Attempt.Keeps (fun s : State => ids.Issues s.ids) (identify ref) := by
  intro s h
  simp only [identify, Attempt.start_of]
  split
  · rename_i id fresh ids' hEnsure
    exact h.trans (ObjectIds.issues_ensure hEnsure)
  · rename_i e ids' hEnsure
    rw [ObjectIds.ensure_error hEnsure]
    exact h

end Storing

open Storing

/-- The identifiers that a store operation has assigned were taken from the
counter. -/
theorem storeObjects_issues {ι : Type} [Instance ι] {registry : Registry ι} {g : Graph ι}
    {roots : List Ref} {ids ids' : ObjectIds} {chunk : StoredChunk}
    (h : (storeObjects registry g roots).start ids = (.ok chunk, ids')) : ids.Issues ids' := by
  have hKeeps := keeps_storeReachable (issues_identify ids) (fun _ _ h => h) registry g roots
    ⟨ids, [], #[]⟩ (ObjectIds.Issues.refl ids)
  simp only [storeObjects, Attempt.start_of] at h
  split at h
  · rename_i chunk' s hStore
    obtain ⟨-, rfl⟩ := Prod.mk.inj h
    rw [hStore] at hKeeps
    exact hKeeps
  · cases h

end ObjectStore
