import ObjectStore.Proofs.Identity.Bijection

/-!
# Giving back identifiers

An operation that fails gives back the identifiers that it has bound, one
after the other, and sets the counter back. Giving back an identifier takes
it out of one map, and takes the instance that it leads to out of the other.

What an operation has added is described for tables that need not be
bijections. `ObjectIds.Adds` looks at the identifiers only.
`ObjectIds.AddsNew` says moreover that the instances of the added identifiers
had none before, so that taking them out undoes what was done to them.

## Main results

* `ObjectIds.AddsNew.release`: giving back what was added restores the former
  table.
* `ObjectIds.release_of_grows`: the same for tables that are bijections.
-/

namespace ObjectStore

open Std

namespace ObjectIds

variable {ids ids' : ObjectIds} {bound : List ObjectId}

/-! ## What is left after giving back -/

theorem ref?_unbind (ids : ObjectIds) (id other : ObjectId) :
    (ids.unbind id).ref? other = if id = other then none else ids.ref? other := by
  unfold unbind
  split
  · simp only [ref?, ExtTreeMap.getElem?_erase, ObjectId.compare_eq_iff]
  · rename_i hNone
    by_cases hEq : id = other
    · rw [if_pos hEq, ← hEq, hNone]
    · rw [if_neg hEq]

theorem objectId?_unbind (ids : ObjectIds) (id : ObjectId) (ref : Ref) :
    (ids.unbind id).objectId? ref =
      if ids.ref? id = some ref then none else ids.objectId? ref := by
  unfold unbind
  split
  · rename_i bound hBound
    simp only [objectId?, ExtTreeMap.getElem?_erase, LawfulEqCmp.compare_eq_iff_eq, hBound,
      Option.some.injEq]
  · rename_i hNone
    simp [hNone]

theorem ref?_unbindAll (ids : ObjectIds) (bound : List ObjectId) (other : ObjectId) :
    (bound.foldl unbind ids).ref? other = if other ∈ bound then none else ids.ref? other := by
  induction bound generalizing ids with
  | nil => simp
  | cons id rest ih =>
      rw [List.foldl_cons, ih, ref?_unbind]
      by_cases hEq : id = other
      · simp [hEq]
      · have hNe : other ≠ id := fun h => hEq h.symm
        simp [hEq, hNe]

/-- An instance keeps its identifier if none of the identifiers that are given
back leads to it. -/
theorem objectId?_unbindAll (ids : ObjectIds) (bound : List ObjectId) (ref : Ref) :
    (bound.foldl unbind ids).objectId? ref =
      if ∃ id ∈ bound, ids.ref? id = some ref then none else ids.objectId? ref := by
  induction bound generalizing ids with
  | nil => simp
  | cons id rest ih =>
      rw [List.foldl_cons, ih, objectId?_unbind]
      by_cases hHead : ids.ref? id = some ref
      · simp [hHead]
      · have hSame : (∃ other ∈ rest, (ids.unbind id).ref? other = some ref) ↔
            ∃ other ∈ rest, ids.ref? other = some ref := by
          constructor
          · rintro ⟨other, hOther, hRef⟩
            rw [ref?_unbind] at hRef
            split at hRef
            · cases hRef
            · exact ⟨other, hOther, hRef⟩
          · rintro ⟨other, hOther, hRef⟩
            refine ⟨other, hOther, ?_⟩
            rw [ref?_unbind, if_neg, hRef]
            rintro rfl
            exact hHead hRef
        simp [hHead, hSame]

theorem Ordered.next_release (h : ids.Ordered) (ids' : ObjectIds) (bound : List ObjectId) :
    (ids'.release bound ids.next).next = ids.next := by
  have hPositive := h.positive
  have hFirst : ObjectId.first.value.toNat = 1 := by decide
  apply UInt64.toNat.inj
  show (max ids.next ObjectId.first.value).toNat = ids.next.toNat
  rw [toNat_max]
  omega

/-! ## Added identifiers -/

/-- The table `ids'` is `ids` with bindings of the identifiers `bound` added. -/
structure Adds (ids : ObjectIds) (bound : List ObjectId) (ids' : ObjectIds) : Prop where
  ordered : ids'.Ordered
  same : ∀ id, id ∉ bound → ids'.ref? id = ids.ref? id
  fresh : ∀ id ∈ bound, ids.ref? id = none

namespace Adds

theorem refl (h : ids.Ordered) : Adds ids [] ids := ⟨h, fun _ _ => rfl, by simp⟩

theorem extend (h : Adds ids bound ids') {id : ObjectId} {ref : Ref} {next : UInt64}
    (hFree : ids'.ref? id = none) (hExtended : (ids'.extend id ref next).Ordered) :
    Adds ids (bound ++ [id]) (ids'.extend id ref next) where
  ordered := hExtended
  same := by
    intro other hOther
    rw [List.mem_append, List.mem_singleton, not_or] at hOther
    rw [ref?_extend, if_neg (fun hEq => hOther.2 hEq.symm), h.same other hOther.1]
  fresh := by
    intro other hOther
    by_cases hBound : other ∈ bound
    · exact h.fresh other hBound
    · rw [List.mem_append, List.mem_singleton] at hOther
      rw [← h.same other hBound, hOther.resolve_left hBound, hFree]

theorem ref?_release (h : Adds ids bound ids') (id : ObjectId) :
    (ids'.release bound ids.next).ref? id = ids.ref? id := by
  show (bound.foldl unbind ids').ref? id = ids.ref? id
  rw [ref?_unbindAll]
  split
  · rename_i hIn
    exact (h.fresh id hIn).symm
  · rename_i hOut
    exact h.same id hOut

theorem ordered_release (h : Adds ids bound ids') (hIds : ids.Ordered) :
    (ids'.release bound ids.next).Ordered where
  notNull := by
    intro id ref hRef
    rw [h.ref?_release] at hRef
    exact hIds.notNull id ref hRef
  below := by
    intro id ref hRef
    rw [h.ref?_release] at hRef
    rw [hIds.next_release]
    exact hIds.below id ref hRef
  positive := by
    rw [hIds.next_release]
    exact hIds.positive

end Adds

/-- The added identifiers are those of instances that had none before. -/
structure AddsNew (ids : ObjectIds) (bound : List ObjectId) (ids' : ObjectIds) : Prop
    extends Adds ids bound ids' where
  kept : ∀ ref id, ids.objectId? ref = some id → ids'.objectId? ref = some id
  added : ∀ ref id, ids'.objectId? ref = some id →
    ids.objectId? ref = some id ∨ id ∈ bound ∧ ids'.ref? id = some ref
  apart : ∀ id ∈ bound, ∀ ref, ids'.ref? id = some ref → ids.objectId? ref = none

namespace AddsNew

theorem refl (h : ids.Ordered) : AddsNew ids [] ids where
  toAdds := Adds.refl h
  kept := fun _ _ hId => hId
  added := fun _ _ hId => Or.inl hId
  apart := by simp

/-- An instance without an identifier may be bound. -/
theorem extend (h : AddsNew ids bound ids') {id : ObjectId} {ref : Ref} {next : UInt64}
    (hFree : ids'.ref? id = none) (hRef : ids'.objectId? ref = none)
    (hExtended : (ids'.extend id ref next).Ordered) :
    AddsNew ids (bound ++ [id]) (ids'.extend id ref next) where
  toAdds := h.toAdds.extend hFree hExtended
  kept := by
    intro ref' other hOther
    have hKept := h.kept ref' other hOther
    rw [objectId?_extend, if_neg, hKept]
    rintro rfl
    rw [hRef] at hKept
    cases hKept
  added := by
    intro ref' other hOther
    rw [objectId?_extend] at hOther
    split at hOther
    · rename_i hEq
      cases hOther
      exact Or.inr ⟨by simp, by rw [ref?_extend, if_pos rfl, hEq]⟩
    · rcases h.added ref' other hOther with hBefore | ⟨hIn, hBound⟩
      · exact Or.inl hBefore
      · refine Or.inr ⟨List.mem_append_left _ hIn, ?_⟩
        rw [ref?_extend, if_neg, hBound]
        rintro rfl
        rw [hFree] at hBound
        cases hBound
  apart := by
    intro other hOther ref' hBound
    rw [ref?_extend] at hBound
    split at hBound
    · cases hBound
      cases hBefore : ids.objectId? ref with
      | none => rfl
      | some first =>
          rw [h.kept ref first hBefore] at hRef
          cases hRef
    · rename_i hNe
      rw [List.mem_append, List.mem_singleton] at hOther
      exact h.apart other (hOther.resolve_right (Ne.symm hNe)) ref' hBound

theorem objectId?_release (h : AddsNew ids bound ids') (ref : Ref) :
    (ids'.release bound ids.next).objectId? ref = ids.objectId? ref := by
  show (bound.foldl unbind ids').objectId? ref = ids.objectId? ref
  rw [objectId?_unbindAll]
  split
  · rename_i hAdded
    obtain ⟨id, hIn, hBound⟩ := hAdded
    exact (h.apart id hIn ref hBound).symm
  · rename_i hNot
    apply Option.ext
    intro id
    refine ⟨fun hId => ?_, h.kept ref id⟩
    rcases h.added ref id hId with hBefore | ⟨hIn, hBound⟩
    · exact hBefore
    · exact absurd ⟨id, hIn, hBound⟩ hNot

/-- Giving back what an operation has added restores the former table. -/
theorem release (h : AddsNew ids bound ids') (hIds : ids.Ordered) :
    ids'.release bound ids.next = ids := by
  have hById : (ids'.release bound ids.next).byId = ids.byId :=
    ExtTreeMap.ext_getElem? fun {id} => h.ref?_release id
  have hByRef : (ids'.release bound ids.next).byRef = ids.byRef :=
    ExtTreeMap.ext_getElem? fun {ref} => h.objectId?_release ref
  have hNext := hIds.next_release ids' bound
  generalize ids'.release bound ids.next = after at hById hByRef hNext
  cases after
  cases ids
  simp only at hById hByRef hNext
  rw [hById, hByRef, hNext]

end AddsNew

/-! ## Bijections -/

theorem Grows.addsNew (h : Grows ids bound ids') (hIds : ids.WellFormed) :
    AddsNew ids bound ids' where
  ordered := h.wellFormed.ordered
  same := h.same
  fresh := h.fresh
  kept := fun _ _ hId => h.objectId? hIds hId
  added := by
    intro ref id hId
    have hRef := (h.wellFormed.inverse id ref).2 hId
    by_cases hIn : id ∈ bound
    · exact Or.inr ⟨hIn, hRef⟩
    · rw [h.same id hIn] at hRef
      exact Or.inl ((hIds.inverse id ref).1 hRef)
  apart := by
    intro id hIn ref hRef
    have hId := (h.wellFormed.inverse id ref).1 hRef
    cases hBefore : ids.objectId? ref with
    | none => rfl
    | some first =>
        have hEq : id = first := by
          rw [h.objectId? hIds hBefore] at hId
          exact (Option.some.inj hId).symm
        have hBound := (hIds.inverse first ref).2 hBefore
        rw [← hEq, h.fresh id hIn] at hBound
        cases hBound

/-- Giving back what an operation has added restores the former table. -/
theorem release_of_grows (hIds : ids.WellFormed) (h : Grows ids bound ids') :
    ids'.release bound ids.next = ids :=
  (h.addsNew hIds).release hIds.ordered

end ObjectIds

end ObjectStore
