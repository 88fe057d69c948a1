import ObjectStore.Proofs.Identity.Bijection

/-!
# Tables that calls have led to

The identifier table is open to the program around it: identifiers may be
assigned on demand and instances may be bound, in any order, and each call
may succeed or fail. Assigning looks at the instance and binding looks at the
identifier, so an instance that has an identifier can be bound to a second
one. Its first identifier then still leads to it, but the instance leads to
the second.

What is true of every table that calls have led to is `ObjectIds.Coherent`.
The calls that bind an instance once more are what stands between it and a
bijection: there are as many identifiers without a way back as there were
such calls.

## Main results

* `ObjectIds.perform_cases`: what a call does.
* `ObjectIds.Coherent.performAll`: what is true whatever the calls were.
* `ObjectIds.performAll_bindings`: how far the table is a bijection.
-/

namespace ObjectStore

open Std

namespace ObjectIds

/-! ## Calls -/

/-- A call that may change the table. -/
inductive Call where
  /-- Assigns an identifier on demand. -/
  | ensure (ref : Ref)
  /-- Binds an instance to an identifier. -/
  | bind (id : ObjectId) (ref : Ref)

/-- The table after a call, which may have failed. -/
def perform (ids : ObjectIds) : Call → ObjectIds
  | .ensure ref => ((ensure ref).start ids).2
  | .bind id ref => ((bind id ref).start ids).2

/-- The table after calls. -/
def performAll (ids : ObjectIds) (calls : List Call) : ObjectIds := calls.foldl perform ids

/-- Whether a call binds an instance that already has an identifier. -/
def rebinds (ids : ObjectIds) : Call → Bool
  | .ensure _ => false
  | .bind id ref => !id.isNull && (ids.ref? id).isNone && (ids.objectId? ref).isSome

/-- How many of the calls bind an instance that already has an identifier. -/
def countRebinds (ids : ObjectIds) : List Call → Nat
  | [] => 0
  | call :: rest => (ids.rebinds call).toNat + (ids.perform call).countRebinds rest

variable {ids : ObjectIds} {id : ObjectId} {ref : Ref} {next : UInt64}

theorem perform_ensure (ids : ObjectIds) (ref : Ref) :
    ids.perform (.ensure ref) = ids ∨
      ids.objectId? ref = none ∧ ids.next ≠ Word.max ∧
        ids.perform (.ensure ref) = ids.extend ⟨ids.next⟩ ref (ids.next + 1) := by
  cases hEnsure : (ensure ref).start ids with
  | mk result ids' =>
      have hAfter : ids.perform (.ensure ref) = ids' := congrArg Prod.snd hEnsure
      rw [hAfter]
      cases result with
      | error e => exact Or.inl (ensure_error hEnsure)
      | ok named =>
          rcases ensure_cases hEnsure with ⟨-, -, hSame⟩ | ⟨hNone, -, hNext, hId, hExtended⟩
          · exact Or.inl hSame
          · rw [hId] at hExtended
            exact Or.inr ⟨hNone, hNext, hExtended⟩

theorem perform_bind_of_free (ref : Ref) (hNull : id ≠ ObjectId.null)
    (hFree : ids.ref? id = none) :
    ids.perform (.bind id ref) = ids.extend id ref (ids.above id) := by
  obtain ⟨ids', hBind⟩ := bind_of_free ref hNull hFree
  obtain ⟨-, -, hExtended⟩ := bind_ok hBind
  rw [← hExtended]
  exact congrArg Prod.snd hBind

theorem perform_bind_of_taken (ref : Ref) (hTaken : id = ObjectId.null ∨ ids.ref? id ≠ none) :
    ids.perform (.bind id ref) = ids := by
  cases hBind : (bind id ref).start ids with
  | mk result ids' =>
      have hAfter : ids.perform (.bind id ref) = ids' := congrArg Prod.snd hBind
      rw [hAfter]
      cases result with
      | error e => exact bind_error hBind
      | ok u =>
          obtain ⟨hNull, hFree, -⟩ := bind_ok hBind
          rcases hTaken with hEq | hNe
          · exact absurd hEq hNull
          · exact absurd hFree hNe

/-- A call leaves the table alone, or it adds a binding of an identifier that
was free. -/
theorem perform_cases (h : ids.Ordered) (call : Call) :
    (ids.perform call = ids ∧ ids.rebinds call = false) ∨
      ∃ id ref next, ids.perform call = ids.extend id ref next ∧ ids.ref? id = none ∧
        (ids.extend id ref next).Ordered ∧
        ids.rebinds call = (ids.objectId? ref).isSome := by
  cases call with
  | ensure ref =>
      rcases perform_ensure ids ref with hSame | ⟨hNone, hNext, hExtended⟩
      · exact Or.inl ⟨hSame, rfl⟩
      · right
        refine ⟨⟨ids.next⟩, ref, ids.next + 1, hExtended, h.ref?_next hNext,
          h.extend_next ref hNext, ?_⟩
        rw [hNone]
        rfl
  | bind id ref =>
      by_cases hTaken : id = ObjectId.null ∨ ids.ref? id ≠ none
      · refine Or.inl ⟨perform_bind_of_taken ref hTaken, ?_⟩
        rcases hTaken with rfl | hBound
        · rfl
        · simp [rebinds, hBound]
      · rw [not_or, Decidable.not_not] at hTaken
        obtain ⟨hNull, hFree⟩ := hTaken
        right
        refine ⟨id, ref, ids.above id, perform_bind_of_free ref hNull hFree, hFree,
          h.extend_above ref hNull, ?_⟩
        have hNotNull : id.isNull = false := by simpa [← Bool.not_eq_true] using hNull
        simp [rebinds, hNotNull, hFree]

/-! ## What is true of every table -/

/-- An instance leads to an identifier that leads back to it, and an
identifier leads to an instance that has one. -/
structure Coherent (ids : ObjectIds) : Prop where
  ordered : ids.Ordered
  back : ∀ ref id, ids.objectId? ref = some id → ids.ref? id = some ref
  named : ∀ id ref, ids.ref? id = some ref → (ids.objectId? ref).isSome = true

theorem coherent_startingAt (next : UInt64) : (startingAt next).Coherent where
  ordered := ordered_startingAt next
  back := by simp [objectId?_startingAt]
  named := by simp [ref?_startingAt]

theorem Coherent.extend (h : ids.Coherent) (hFree : ids.ref? id = none)
    (hExtended : (ids.extend id ref next).Ordered) : (ids.extend id ref next).Coherent where
  ordered := hExtended
  back := by
    intro ref' other hOther
    rw [objectId?_extend] at hOther
    rw [ref?_extend]
    by_cases hRef : ref = ref'
    · rw [if_pos hRef] at hOther
      rw [if_pos (Option.some.inj hOther), hRef]
    · rw [if_neg hRef] at hOther
      have hBound := h.back ref' other hOther
      rw [if_neg, hBound]
      rintro rfl
      rw [hFree] at hBound
      cases hBound
  named := by
    intro other ref' hOther
    rw [ref?_extend] at hOther
    rw [objectId?_extend]
    by_cases hRef : ref = ref'
    · rw [if_pos hRef]
      rfl
    · rw [if_neg hRef]
      by_cases hEq : id = other
      · rw [if_pos hEq] at hOther
        exact absurd (Option.some.inj hOther) hRef
      · rw [if_neg hEq] at hOther
        exact h.named other ref' hOther

theorem Coherent.perform (h : ids.Coherent) (call : Call) : (ids.perform call).Coherent := by
  rcases perform_cases h.ordered call with ⟨hSame, -⟩ | ⟨id, ref, next, hAfter, hFree, hOrdered, -⟩
  · rw [hSame]
    exact h
  · rw [hAfter]
    exact h.extend hFree hOrdered

theorem Coherent.performAll (h : ids.Coherent) (calls : List Call) :
    (ids.performAll calls).Coherent := by
  induction calls generalizing ids with
  | nil => exact h
  | cons call rest ih => exact ih (h.perform call)

/-! ## Counting -/

/-- The number of bound instances. -/
def countRefs (ids : ObjectIds) : Nat := ids.byRef.size

theorem size_extend (hFree : ids.ref? id = none) :
    (ids.extend id ref next).size = ids.size + 1 := by
  have hNot : ids.byId.contains id = false := by
    rw [ExtTreeMap.contains_eq_isSome_getElem?]
    exact congrArg Option.isSome hFree
  simp [size, extend, ExtTreeMap.size_insert, hNot]

theorem countRefs_extend (ids : ObjectIds) (id : ObjectId) (ref : Ref) (next : UInt64) :
    (ids.extend id ref next).countRefs + (ids.objectId? ref).isSome.toNat =
      ids.countRefs + 1 := by
  have hContains : ids.byRef.contains ref = (ids.objectId? ref).isSome :=
    ExtTreeMap.contains_eq_isSome_getElem?
  simp only [countRefs, extend, ExtTreeMap.size_insert, hContains]
  cases (ids.objectId? ref).isSome <;> rfl

theorem size_perform (h : ids.Ordered) (call : Call) :
    (ids.perform call).size + ids.countRefs =
      (ids.perform call).countRefs + ids.size + (ids.rebinds call).toNat := by
  rcases perform_cases h call with ⟨hSame, hNot⟩ | ⟨id, ref, next, hAfter, hFree, -, hRebinds⟩
  · rw [hSame, hNot, Nat.add_comm]
    rfl
  · have hRefs := countRefs_extend ids id ref next
    rw [hAfter, hRebinds, size_extend hFree]
    omega

/-- Each call that binds an instance once more adds an identifier, but no
instance. -/
theorem size_performAll (h : ids.Coherent) (calls : List Call) :
    (ids.performAll calls).size + ids.countRefs =
      (ids.performAll calls).countRefs + ids.size + ids.countRebinds calls := by
  induction calls generalizing ids with
  | nil => exact Nat.add_comm _ _
  | cons call rest ih =>
      have hStep := size_perform h.ordered call
      have hRest := ih (h.perform call)
      show ((ids.perform call).performAll rest).size + ids.countRefs =
        ((ids.perform call).performAll rest).countRefs + ids.size +
          ((ids.rebinds call).toNat + (ids.perform call).countRebinds rest)
      omega

/-! ## Identifiers without a way back -/

/-- Some identifier leads to an instance that leads to another identifier, or
to none. -/
def Stale (ids : ObjectIds) : Prop := ∃ id ref, ids.ref? id = some ref ∧ ids.objectId? ref ≠ some id

/-- Apart from such identifiers, the maps are inverse to each other. -/
theorem Coherent.inverse_iff (h : ids.Coherent) :
    (∀ id ref, ids.ref? id = some ref ↔ ids.objectId? ref = some id) ↔ ¬ids.Stale := by
  constructor
  · rintro hInverse ⟨id, ref, hRef, hOther⟩
    exact hOther ((hInverse id ref).1 hRef)
  · intro hNot id ref
    refine ⟨fun hRef => ?_, h.back ref id⟩
    exact Decidable.byContradiction fun hOther => hNot ⟨id, ref, hRef, hOther⟩

/-- What has no way back gets none from a binding of another identifier. -/
theorem Stale.extend (h : ids.Stale) (hFree : ids.ref? id = none) :
    (ids.extend id ref next).Stale := by
  obtain ⟨other, ref', hOther, hAway⟩ := h
  have hNe : id ≠ other := by
    rintro rfl
    rw [hFree] at hOther
    cases hOther
  refine ⟨other, ref', ?_, ?_⟩
  · rw [ref?_extend, if_neg hNe, hOther]
  · rw [objectId?_extend]
    split
    · exact fun hEq => hNe (Option.some.inj hEq)
    · exact hAway

/-- The first identifier of an instance that is bound once more has no way
back. -/
theorem Coherent.stale_extend (h : ids.Coherent) (hFree : ids.ref? id = none)
    (hBound : (ids.objectId? ref).isSome = true) : (ids.extend id ref next).Stale := by
  obtain ⟨first, hFirst⟩ := Option.isSome_iff_exists.1 hBound
  have hBack := h.back ref first hFirst
  have hNe : id ≠ first := by
    rintro rfl
    rw [hFree] at hBack
    cases hBack
  refine ⟨first, ref, ?_, ?_⟩
  · rw [ref?_extend, if_neg hNe, hBack]
  · rw [objectId?_extend, if_pos rfl]
    exact fun hEq => hNe (Option.some.inj hEq)

theorem stale_perform (h : ids.Coherent) (call : Call) :
    (ids.perform call).Stale ↔ ids.Stale ∨ ids.rebinds call = true := by
  rcases perform_cases h.ordered call with
    ⟨hSame, hNot⟩ | ⟨id, ref, next, hAfter, hFree, hOrdered, hRebinds⟩
  · simp [hSame, hNot]
  · rw [hAfter, hRebinds]
    constructor
    · intro hStale
      by_cases hNot : ids.Stale
      · exact Or.inl hNot
      right
      -- An instance that is bound for the first time would keep the bijection.
      cases hNone : ids.objectId? ref with
      | some first => rfl
      | none =>
          have hWellFormed := h.ordered.wellFormed (h.inverse_iff.2 hNot)
          have hInverse := (hWellFormed.extend hFree hNone hOrdered).inverse
          exact absurd hStale ((h.extend hFree hOrdered).inverse_iff.1 hInverse)
    · rintro (hStale | hBound)
      · exact hStale.extend hFree
      · exact h.stale_extend hFree hBound

theorem stale_performAll (h : ids.Coherent) (calls : List Call) :
    (ids.performAll calls).Stale ↔ ids.Stale ∨ ids.countRebinds calls ≠ 0 := by
  induction calls generalizing ids with
  | nil => simp [performAll, countRebinds]
  | cons call rest ih =>
      show ((ids.perform call).performAll rest).Stale ↔ _
      rw [ih (h.perform call), stale_perform h call, countRebinds]
      cases ids.rebinds call <;> simp

/-- Whatever the calls were, an instance leads to an identifier that leads
back to it, an identifier leads to an instance that has one, and no instance
is bound to the absent reference. There is one more identifier than there
are instances for each call that has bound an instance once more, and the
table is a bijection exactly if there was no such call. -/
theorem performAll_bindings (start : UInt64) (calls : List Call) :
    let before := startingAt start
    let after := before.performAll calls
    (∀ ref id, after.objectId? ref = some id → after.ref? id = some ref) ∧
      (∀ id ref, after.ref? id = some ref →
        id ≠ ObjectId.null ∧ ∃ current, after.objectId? ref = some current) ∧
      after.size = after.countRefs + before.countRebinds calls ∧
      ((∀ id ref, after.ref? id = some ref ↔ after.objectId? ref = some id) ↔
        before.countRebinds calls = 0) := by
  intro before after
  have hBefore : before.Coherent := coherent_startingAt start
  have hAfter : after.Coherent := hBefore.performAll calls
  have hSize := size_performAll hBefore calls
  have hStale := stale_performAll hBefore calls
  have hNotStale : ¬before.Stale := by
    rintro ⟨id, ref, hRef, -⟩
    rw [ref?_startingAt] at hRef
    cases hRef
  refine ⟨hAfter.back, ?_, ?_, ?_⟩
  · intro id ref hRef
    exact ⟨hAfter.ordered.notNull id ref hRef,
      Option.isSome_iff_exists.1 (hAfter.named id ref hRef)⟩
  · have hEmpty : before.size = 0 ∧ before.countRefs = 0 :=
      ⟨ExtTreeMap.size_empty, ExtTreeMap.size_empty⟩
    rw [hEmpty.1, hEmpty.2] at hSize
    exact hSize
  · rw [hAfter.inverse_iff, hStale]
    simp [hNotStale]

/-- An instance that is bound to a second identifier leads to that one, and
its first identifier still leads to it. -/
theorem performAll_not_bijective :
    let ids := (startingAt 1).performAll [.bind ⟨5⟩ ⟨0⟩, .bind ⟨6⟩ ⟨0⟩]
    ids.ref? ⟨5⟩ = some ⟨0⟩ ∧ ids.objectId? ⟨0⟩ = some ⟨6⟩ ∧ ids.size = 2 ∧ ids.countRefs = 1 := by
  decide

end ObjectIds

end ObjectStore
