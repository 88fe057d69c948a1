import ObjectStore.ObjectIds

/-!
# Identifiers and instances correspond

No instance is bound to the absent reference, and the counter is above every
bound identifier unless all identifiers are used up. `ObjectIds.Ordered` says
so, of every table that there is. `ObjectIds.WellFormed` says moreover that
the two maps are inverse to each other. An assignment on demand keeps it, and
so does binding an instance that has no identifier yet.

`ObjectIds.Grows` describes a table that an operation has added bindings to.
All former bindings are still there.

## Main results

* `ObjectIds.grows_ensure`, `ObjectIds.grows_bind`: an operation that binds an
  instance only adds to the table.
-/

namespace ObjectStore

open Std

namespace ObjectIds

/-! ## The invariant -/

/-- The maps are inverse, and the counter is above what is bound. -/
structure WellFormed (ids : ObjectIds) : Prop where
  inverse : ∀ id ref, ids.ref? id = some ref ↔ ids.objectId? ref = some id
  notNull : ∀ id ref, ids.ref? id = some ref → id ≠ ObjectId.null
  below : ∀ id ref, ids.ref? id = some ref →
    id.value.toNat < ids.next.toNat ∨ ids.next = Word.max
  positive : 0 < ids.next.toNat

/-- Only instances of a graph of the size are bound. -/
def Within (ids : ObjectIds) (size : Nat) : Prop :=
  ∀ id ref, ids.ref? id = some ref → ref.index < size

/-- No object is the absent reference, and the counter is above what is
bound. -/
structure Ordered (ids : ObjectIds) : Prop where
  notNull : ∀ id ref, ids.ref? id = some ref → id ≠ ObjectId.null
  below : ∀ id ref, ids.ref? id = some ref →
    id.value.toNat < ids.next.toNat ∨ ids.next = Word.max
  positive : 0 < ids.next.toNat

theorem WellFormed.ordered {ids : ObjectIds} (h : ids.WellFormed) : ids.Ordered :=
  ⟨h.notNull, h.below, h.positive⟩

theorem Ordered.wellFormed {ids : ObjectIds} (h : ids.Ordered)
    (hInverse : ∀ id ref, ids.ref? id = some ref ↔ ids.objectId? ref = some id) :
    ids.WellFormed :=
  ⟨hInverse, h.notNull, h.below, h.positive⟩

theorem toNat_max (a b : UInt64) : (max a b).toNat = max a.toNat b.toNat := by
  show (if a ≤ b then b else a).toNat = _
  split
  · rename_i h
    rw [UInt64.le_iff_toNat_le] at h
    omega
  · rename_i h
    rw [UInt64.le_iff_toNat_le] at h
    omega

theorem toNat_startingAt (next : UInt64) :
    (startingAt next).next.toNat = max next.toNat 1 := toNat_max next ObjectId.first.value

theorem ref?_startingAt (next : UInt64) (id : ObjectId) : (startingAt next).ref? id = none := by
  simp [startingAt, ref?]

theorem objectId?_startingAt (next : UInt64) (ref : Ref) :
    (startingAt next).objectId? ref = none := by
  simp [startingAt, objectId?]

theorem ordered_startingAt (next : UInt64) : (startingAt next).Ordered where
  notNull := by simp [ref?_startingAt]
  below := by simp [ref?_startingAt]
  positive := by
    rw [toNat_startingAt]
    omega

theorem wellFormed_startingAt (next : UInt64) : (startingAt next).WellFormed := by
  apply (ordered_startingAt next).wellFormed
  intro id ref
  simp [ref?_startingAt, objectId?_startingAt]

theorem within_startingAt (next : UInt64) (size : Nat) : (startingAt next).Within size := by
  intro id ref h
  rw [ref?_startingAt] at h
  cases h

/-! ## Adding a binding -/

/-- The table with one more binding and another counter. -/
def extend (ids : ObjectIds) (id : ObjectId) (ref : Ref) (next : UInt64) : ObjectIds where
  byRef := ids.byRef.insert ref id
  byId := ids.byId.insert id ref
  next := next

theorem ref?_extend (ids : ObjectIds) (id : ObjectId) (ref : Ref) (next : UInt64)
    (other : ObjectId) :
    (ids.extend id ref next).ref? other = if id = other then some ref else ids.ref? other := by
  simp only [ref?, extend, ExtTreeMap.getElem?_insert, ObjectId.compare_eq_iff]

theorem objectId?_extend (ids : ObjectIds) (id : ObjectId) (ref : Ref) (next : UInt64)
    (other : Ref) :
    (ids.extend id ref next).objectId? other =
      if ref = other then some id else ids.objectId? other := by
  simp only [objectId?, extend, ExtTreeMap.getElem?_insert, LawfulEqCmp.compare_eq_iff_eq]

theorem Ordered.extend {ids : ObjectIds} (h : ids.Ordered) {id : ObjectId} {ref : Ref}
    {next : UInt64} (hNull : id ≠ ObjectId.null) (hNext : ids.next.toNat ≤ next.toNat)
    (hBelow : id.value.toNat < next.toNat ∨ next = Word.max) :
    (ids.extend id ref next).Ordered where
  notNull := by
    intro other ref' hOther
    rw [ref?_extend] at hOther
    by_cases hEq : id = other
    · exact hEq ▸ hNull
    · rw [if_neg hEq] at hOther
      exact h.notNull other ref' hOther
  below := by
    intro other ref' hOther
    rw [ref?_extend] at hOther
    by_cases hEq : id = other
    · exact hEq ▸ hBelow
    · rw [if_neg hEq] at hOther
      rcases h.below other ref' hOther with hLt | hMax
      · exact Or.inl (Nat.lt_of_lt_of_le hLt hNext)
      · right
        apply UInt64.toNat.inj
        have hTop : next.toNat ≤ Word.max.toNat := Nat.le_of_lt_succ next.toNat_lt
        rw [hMax] at hNext
        exact Nat.le_antisymm hTop hNext
  positive := Nat.lt_of_lt_of_le h.positive hNext

theorem WellFormed.extend {ids : ObjectIds} (h : ids.WellFormed) {id : ObjectId} {ref : Ref}
    {next : UInt64} (hId : ids.ref? id = none) (hRef : ids.objectId? ref = none)
    (hExtended : (ids.extend id ref next).Ordered) : (ids.extend id ref next).WellFormed := by
  apply hExtended.wellFormed
  intro other ref'
  rw [ref?_extend, objectId?_extend]
  by_cases hOther : id = other
  · subst hOther
    by_cases hRef' : ref = ref'
    · simp [hRef']
    · have hFree : ids.objectId? ref' ≠ some id := by
        intro hBound
        rw [(h.inverse id ref').2 hBound] at hId
        cases hId
      simp [hRef', hFree]
  · by_cases hRef' : ref = ref'
    · subst hRef'
      have hFree : ids.ref? other ≠ some ref := by
        intro hBound
        rw [(h.inverse other ref).1 hBound] at hRef
        cases hRef
      simp [hOther, hFree]
    · simp [hOther, hRef', h.inverse]

/-! ## Growing tables -/

/-- The table `ids'` is `ids` with bindings of the identifiers `bound`
added. -/
structure Grows (ids : ObjectIds) (bound : List ObjectId) (ids' : ObjectIds) : Prop where
  wellFormed : ids'.WellFormed
  same : ∀ id, id ∉ bound → ids'.ref? id = ids.ref? id
  fresh : ∀ id ∈ bound, ids.ref? id = none
  next : ids.next.toNat ≤ ids'.next.toNat

namespace Grows

variable {ids ids' ids'' : ObjectIds} {bound : List ObjectId}

theorem refl (h : ids.WellFormed) : Grows ids [] ids :=
  ⟨h, fun _ _ => rfl, by simp, Nat.le_refl _⟩

/-- Former bindings are kept. -/
theorem ref? (h : Grows ids bound ids') {id : ObjectId} {ref : Ref}
    (hBound : ids.ref? id = some ref) : ids'.ref? id = some ref := by
  rw [h.same id ?_]
  · exact hBound
  · intro hIn
    rw [h.fresh id hIn] at hBound
    cases hBound

/-- Former bindings are kept, seen from the instances. -/
theorem objectId? (h : Grows ids bound ids') (hIds : ids.WellFormed) {id : ObjectId} {ref : Ref}
    (hBound : ids.objectId? ref = some id) : ids'.objectId? ref = some id :=
  (h.wellFormed.inverse id ref).1 (h.ref? ((hIds.inverse id ref).2 hBound))

theorem trans {more : List ObjectId} (h : Grows ids bound ids') (h' : Grows ids' more ids'') :
    Grows ids (bound ++ more) ids'' where
  wellFormed := h'.wellFormed
  same := by
    intro id hOut
    rw [List.mem_append, not_or] at hOut
    rw [h'.same id hOut.2, h.same id hOut.1]
  fresh := by
    intro id hIn
    by_cases hBound : id ∈ bound
    · exact h.fresh id hBound
    · rcases List.mem_append.1 hIn with hIn | hIn
      · exact h.fresh id hIn
      · rw [← h.same id hBound, h'.fresh id hIn]
  next := Nat.le_trans h.next h'.next

end Grows

/-! ## Assigning and binding -/

variable {ids ids' : ObjectIds} {bound : List ObjectId}

/-- One more binding is added. -/
theorem grows_extend (h : ids.WellFormed) {id : ObjectId} {ref : Ref} {next : UInt64}
    (hId : ids.ref? id = none) (hRef : ids.objectId? ref = none)
    (hNext : ids.next.toNat ≤ next.toNat) (hExtended : (ids.extend id ref next).Ordered) :
    Grows ids [id] (ids.extend id ref next) where
  wellFormed := h.extend hId hRef hExtended
  same := by
    intro other hOther
    rw [List.mem_singleton] at hOther
    rw [ref?_extend, if_neg (fun hEq => hOther hEq.symm)]
  fresh := by
    intro other hOther
    rw [List.mem_singleton.1 hOther, hId]
  next := hNext

/-- An identifier that is assigned on demand is the one the instance has, or
it is added to the table. -/
theorem ensure_cases {ref : Ref} {id : ObjectId} {fresh : Bool}
    (h : (ensure ref).start ids = (.ok (id, fresh), ids')) :
    (ids.objectId? ref = some id ∧ fresh = false ∧ ids' = ids) ∨
      (ids.objectId? ref = none ∧ fresh = true ∧ ids.next ≠ Word.max ∧ id = ⟨ids.next⟩ ∧
        ids' = ids.extend id ref (ids.next + 1)) := by
  simp only [ensure, Attempt.start_of] at h
  split at h
  · rename_i known hKnown
    simp only [Prod.mk.injEq, Except.ok.injEq] at h
    obtain ⟨⟨rfl, rfl⟩, rfl⟩ := h
    exact Or.inl ⟨hKnown, rfl, rfl⟩
  · rename_i hNone
    split at h
    · cases h
    · rename_i hNext
      simp only [Prod.mk.injEq, Except.ok.injEq] at h
      obtain ⟨⟨rfl, rfl⟩, rfl⟩ := h
      exact Or.inr ⟨hNone, rfl, hNext, rfl, rfl⟩

/-- A refused assignment leaves the table alone. -/
theorem ensure_error {ref : Ref} {e : Error} (h : (ensure ref).start ids = (.error e, ids')) :
    ids' = ids := by
  simp only [ensure, Attempt.start_of] at h
  split at h
  · cases h
  · split at h
    · cases h
      rfl
    · cases h

/-- The next identifier is not bound while there is one left. -/
theorem Ordered.ref?_next (h : ids.Ordered) (hNext : ids.next ≠ Word.max) :
    ids.ref? ⟨ids.next⟩ = none := by
  cases hRef : ids.ref? ⟨ids.next⟩ with
  | none => rfl
  | some ref =>
      rcases h.below _ _ hRef with hLt | hMax
      · exact absurd hLt (Nat.lt_irrefl _)
      · exact absurd hMax hNext

theorem toNat_next_succ (hNext : ids.next ≠ Word.max) :
    (ids.next + 1).toNat = ids.next.toNat + 1 := by
  have hLt : ids.next.toNat < Word.max.toNat := by
    have hLe : ids.next.toNat ≤ Word.max.toNat := Nat.le_of_lt_succ ids.next.toNat_lt
    have hNe : ids.next.toNat ≠ Word.max.toNat := fun hEq => hNext (UInt64.toNat.inj hEq)
    omega
  have hMax : Word.max.toNat = 18446744073709551615 := by decide
  rw [UInt64.toNat_add]
  exact Nat.mod_eq_of_lt (by show ids.next.toNat + 1 < 2 ^ 64; omega)

/-- The next identifier may be assigned. -/
theorem Ordered.extend_next (h : ids.Ordered) (ref : Ref) (hNext : ids.next ≠ Word.max) :
    (ids.extend ⟨ids.next⟩ ref (ids.next + 1)).Ordered := by
  have hSucc := toNat_next_succ hNext
  apply h.extend
  · intro hNull
    have hZero : ids.next = 0 := congrArg ObjectId.value hNull
    have hPositive := h.positive
    rw [hZero] at hPositive
    exact absurd hPositive (by decide)
  · omega
  · exact Or.inl (by show ids.next.toNat < _; omega)

theorem grows_ensure (h : ids.WellFormed) {ref : Ref} {id : ObjectId} {fresh : Bool}
    (hEnsure : (ensure ref).start ids = (.ok (id, fresh), ids')) :
    Grows ids (if fresh then [id] else []) ids' ∧ ids'.objectId? ref = some id := by
  rcases ensure_cases hEnsure with ⟨hKnown, rfl, rfl⟩ | ⟨hNone, rfl, hNext, rfl, rfl⟩
  · exact ⟨Grows.refl h, hKnown⟩
  · have hSucc := toNat_next_succ hNext
    refine ⟨?_, by simp [objectId?_extend]⟩
    exact grows_extend h (h.ordered.ref?_next hNext) hNone (by omega)
      (h.ordered.extend_next ref hNext)

/-- The counter after an identifier has been bound. -/
def above (ids : ObjectIds) (id : ObjectId) : UInt64 :=
  if ids.next ≤ id.value then Word.addSat id.value 1 else ids.next

theorem next_le_above (ids : ObjectIds) (id : ObjectId) :
    ids.next.toNat ≤ (ids.above id).toNat := by
  have hMax : Word.max.toNat = 18446744073709551615 := by decide
  have hOne : (1 : UInt64).toNat = 1 := by decide
  have hId : id.value.toNat < 18446744073709551616 := id.value.toNat_lt
  unfold above
  split
  · rename_i hLe
    rw [UInt64.le_iff_toNat_le] at hLe
    rw [Word.toNat_addSat]
    omega
  · exact Nat.le_refl _

/-- The counter has passed the identifier already. -/
theorem above_of_lt {ids : ObjectIds} {id : ObjectId} (h : id.value.toNat < ids.next.toNat) :
    ids.above id = ids.next := by
  unfold above
  rw [if_neg]
  rw [UInt64.le_iff_toNat_le]
  omega

theorem lt_above (ids : ObjectIds) (id : ObjectId) :
    id.value.toNat < (ids.above id).toNat ∨ ids.above id = Word.max := by
  have hMax : Word.max.toNat = 18446744073709551615 := by decide
  have hOne : (1 : UInt64).toNat = 1 := by decide
  have hId : id.value.toNat < 18446744073709551616 := id.value.toNat_lt
  unfold above
  split
  · by_cases hTop : id.value.toNat = Word.max.toNat
    · right
      apply UInt64.toNat.inj
      rw [Word.toNat_addSat]
      omega
    · left
      rw [Word.toNat_addSat]
      omega
  · rename_i hLe
    left
    rw [UInt64.le_iff_toNat_le] at hLe
    omega

/-- Binding adds to the table. -/
theorem bind_ok {id : ObjectId} {ref : Ref} (h : (bind id ref).start ids = (.ok (), ids')) :
    id ≠ ObjectId.null ∧ ids.ref? id = none ∧ ids' = ids.extend id ref (ids.above id) := by
  simp only [bind, Attempt.modify, Attempt.start_of] at h
  split at h
  · rename_i ids₁ hResult
    simp only [Prod.mk.injEq, true_and] at h
    subst h
    split at hResult
    · cases hResult
    · rename_i hNull
      split at hResult
      · cases hResult
      · rename_i hBound
        cases hResult
        exact ⟨by simpa using hNull, by simpa using hBound, rfl⟩
  · cases h

/-- A refused binding leaves the table alone. -/
theorem bind_error {id : ObjectId} {ref : Ref} {e : Error}
    (h : (bind id ref).start ids = (.error e, ids')) : ids' = ids := by
  simp only [bind, Attempt.modify, Attempt.start_of] at h
  split at h
  · cases h
  · cases h
    rfl

/-- An identifier that is free can be bound. -/
theorem bind_of_free {id : ObjectId} (ref : Ref) (hNull : id ≠ ObjectId.null)
    (hFree : ids.ref? id = none) : ∃ ids', (bind id ref).start ids = (.ok (), ids') := by
  have hNot : ¬id.isNull = true := by simpa using hNull
  have hNone : ¬(ids.ref? id).isSome = true := by simp [hFree]
  refine ⟨ids.extend id ref (ids.above id), Attempt.start_modify_ok ?_⟩
  rw [if_neg hNot, if_neg hNone]
  rfl

/-- An object that is not the absent reference may be bound. -/
theorem Ordered.extend_above (h : ids.Ordered) {id : ObjectId} (ref : Ref)
    (hNull : id ≠ ObjectId.null) : (ids.extend id ref (ids.above id)).Ordered :=
  h.extend hNull (next_le_above ids id) (lt_above ids id)

theorem grows_bind (h : ids.WellFormed) {id : ObjectId} {ref : Ref}
    (hRef : ids.objectId? ref = none) (hBind : (bind id ref).start ids = (.ok (), ids')) :
    Grows ids [id] ids' ∧ ids'.ref? id = some ref := by
  obtain ⟨hNull, hFree, rfl⟩ := bind_ok hBind
  refine ⟨?_, by simp [ref?_extend]⟩
  exact grows_extend h hFree hRef (next_le_above ids id) (h.ordered.extend_above ref hNull)

end ObjectIds

end ObjectStore
