import ObjectStore.Proofs.Handler.Naming
import ObjectStore.Proofs.Identity.Undoing
import ObjectStore.Storing

/-!
# Identifiers that are assigned while storing

A store operation assigns identifiers on demand: to the instance it writes,
and to the instances that one refers to. Assigned identifiers stay, so the
bytes that were written with the identifiers of some moment are also those
of every later moment. `Storing.Names` says what a step has named.

## Main results

* `Storing.naming`: a store operation names the instances it comes upon.
* `Storing.names_store`: what storing an instance names, and the bytes it gives.
* `Storing.keeps_store`: what assigning keeps, all of this keeps, also when it
  fails.
-/

namespace ObjectStore

/-- The identifier of an instance, or the absent reference if it has none. -/
def ObjectIds.nameOf (ids : ObjectIds) (ref : Ref) : ObjectId :=
  (ids.objectId? ref).getD ObjectId.null

theorem ObjectIds.nameOf_of_object {ids : ObjectIds} {ref : Ref} {id : ObjectId}
    (h : ids.objectId? ref = some id) : ids.nameOf ref = id := by
  rw [ObjectIds.nameOf, h]
  rfl

/-- An identifier that is known stays. -/
theorem ObjectIds.Grows.nameOf {ids ids' : ObjectIds} {bound : List ObjectId}
    (h : ids.Grows bound ids') (hIds : ids.WellFormed) {ref : Ref}
    (hNamed : (ids.objectId? ref).isSome = true) : ids'.nameOf ref = ids.nameOf ref := by
  obtain ⟨id, hId⟩ := Option.isSome_iff_exists.1 hNamed
  rw [ObjectIds.nameOf_of_object hId, ObjectIds.nameOf_of_object (h.objectId? hIds hId)]

namespace Storing

variable {ι : Type} {s s' s'' : State} {ref : Ref} {refs : List Ref}

/-! ## States -/

/-- The state `s'` has added bindings to `s`, and has kept account of them. -/
def Grown (s s' : State) : Prop :=
  ∃ added, s'.assigned = s.assigned ++ added ∧ s.ids.Grows added s'.ids

theorem Grown.refl (h : s.ids.WellFormed) : Grown s s :=
  ⟨[], by simp, ObjectIds.Grows.refl h⟩

theorem Grown.trans (h : Grown s s') (h' : Grown s' s'') : Grown s s'' := by
  obtain ⟨added, hAssigned, hGrows⟩ := h
  obtain ⟨more, hMore, hGrows'⟩ := h'
  exact ⟨added ++ more, by rw [hMore, hAssigned, List.append_assoc], hGrows.trans hGrows'⟩

theorem Grown.wellFormed (h : Grown s s') : s'.ids.WellFormed := by
  obtain ⟨added, -, hGrows⟩ := h
  exact hGrows.wellFormed

/-- The state `s'` has named the instances `refs`, and no others. -/
structure Names (s : State) (refs : List Ref) (s' : State) : Prop where
  grown : Grown s s'
  named : ∀ ref ∈ refs, (s'.ids.objectId? ref).isSome = true
  only : ∀ ref id, s'.ids.objectId? ref = some id → s.ids.objectId? ref = some id ∨ ref ∈ refs

theorem Names.refl (h : s.ids.WellFormed) : Names s [] s :=
  ⟨Grown.refl h, by simp, fun _ _ h => Or.inl h⟩

/-- Instances that have identifiers keep them. -/
theorem Grown.named (h : Grown s s') (hIds : s.ids.WellFormed)
    (hNamed : (s.ids.objectId? ref).isSome = true) : (s'.ids.objectId? ref).isSome = true := by
  obtain ⟨added, -, hGrows⟩ := h
  obtain ⟨id, hId⟩ := Option.isSome_iff_exists.1 hNamed
  rw [hGrows.objectId? hIds hId]
  rfl

theorem Grown.nameOf (h : Grown s s') (hIds : s.ids.WellFormed)
    (hNamed : (s.ids.objectId? ref).isSome = true) : s'.ids.nameOf ref = s.ids.nameOf ref := by
  obtain ⟨added, -, hGrows⟩ := h
  exact hGrows.nameOf hIds hNamed

theorem Names.trans {more : List Ref} (h : Names s refs s') (h' : Names s' more s'') :
    Names s (refs ++ more) s'' where
  grown := h.grown.trans h'.grown
  named := by
    intro ref hRef
    rcases List.mem_append.1 hRef with hIn | hIn
    · exact h'.grown.named h.grown.wellFormed (h.named ref hIn)
    · exact h'.named ref hIn
  only := by
    intro ref id hId
    rcases h'.only ref id hId with hId' | hIn
    · rcases h.only ref id hId' with hBefore | hIn
      · exact Or.inl hBefore
      · exact Or.inr (List.mem_append_left _ hIn)
    · exact Or.inr (List.mem_append_right _ hIn)

/-! ## Single identifiers -/

theorem identify_ok {id : ObjectId} (hIds : s.ids.WellFormed)
    (h : (identify ref).start s = (.ok id, s')) :
    Names s [ref] s' ∧ s'.ids.objectId? ref = some id ∧ s'.records = s.records := by
  simp only [identify, Attempt.start_of] at h
  split at h
  · rename_i id' fresh ids hEnsure
    obtain ⟨hId, rfl⟩ := Prod.mk.inj h
    cases hId
    obtain ⟨hGrows, hNamed⟩ := ObjectIds.grows_ensure hIds hEnsure
    refine ⟨⟨?_, ?_, ?_⟩, hNamed, rfl⟩
    · refine ⟨if fresh then [id] else [], ?_, hGrows⟩
      cases fresh <;> simp
    · intro other hOther
      rw [List.mem_singleton.1 hOther, hNamed]
      rfl
    · intro other id' hId'
      rcases ObjectIds.ensure_cases hEnsure with ⟨-, -, rfl⟩ | ⟨-, -, -, -, rfl⟩
      · exact Or.inl hId'
      · rw [ObjectIds.objectId?_extend] at hId'
        by_cases hEq : ref = other
        · exact Or.inr (by simp [hEq])
        · rw [if_neg hEq] at hId'
          exact Or.inl hId'
  · cases h

/-! ## Members and records -/

/-- The states of a store operation follow each other by naming instances. -/
def naming : Naming identify where
  Valid s := s.ids.WellFormed
  name s := s.ids.nameOf
  Names s refs s' := Names s refs s' ∧ s'.records = s.records
  refl hIds := ⟨Names.refl hIds, rfl⟩
  trans := fun ⟨hNames, hRecords⟩ ⟨hNames', hRecords'⟩ =>
    ⟨hNames.trans hNames', hRecords'.trans hRecords⟩
  valid := fun ⟨hNames, _⟩ => hNames.grown.wellFormed
  named := by
    intro s ref id s' hIds h
    obtain ⟨hNames, hId, hRecords⟩ := identify_ok hIds h
    exact ⟨⟨hNames, hRecords⟩, ObjectIds.nameOf_of_object hId⟩
  stays := by
    intro s s' s'' refs more ⟨hNames, _⟩ ⟨hNames', _⟩ ref hRef
    exact hNames'.grown.nameOf hNames.grown.wellFormed (hNames.named ref hRef)

theorem mapM_identify_ok {ids : List ObjectId} (hIds : s.ids.WellFormed)
    (h : (refs.mapM identify).start s = (.ok ids, s')) :
    Names s refs s' ∧ ids = refs.map s'.ids.nameOf ∧ s'.records = s.records := by
  obtain ⟨⟨hNames, hRecords⟩, hAll⟩ := naming.mapM_ok hIds h
  exact ⟨hNames, hAll, hRecords⟩

/-! ## What storing keeps -/

/-- Assigning only adds identifiers of instances that had none, and keeps
account of them, also if it fails. -/
theorem addsNew_identify (ids : ObjectIds) (ref : Ref) :
    Attempt.Keeps (fun s : State => ids.AddsNew s.assigned s.ids) (identify ref) := by
  intro s h
  rw [identify, Attempt.start_of]
  cases hEnsure : (ObjectIds.ensure ref).start s.ids with
  | mk result ids' =>
      cases result with
      | error e =>
          rw [ObjectIds.ensure_error hEnsure]
          exact h
      | ok named =>
          rcases ObjectIds.ensure_cases hEnsure with
            ⟨-, hOld, rfl⟩ | ⟨hNone, hFresh, hNext, hId, rfl⟩
          · simp only [hOld]
            exact h
          · simp only [hFresh, hId]
            exact h.extend (h.ordered.ref?_next hNext) hNone (h.ordered.extend_next ref hNext)

/-! ## Whole records -/

variable [Instance ι] {h : ObjectHandler ι} {object : ObjectId} {x : ι}

/-- What storing an instance writes and names. -/
theorem names_store {bytes : Bytes} (hIds : s.ids.WellFormed)
    (hStore : (h.store identify object x).start s = (.ok bytes, s')) :
    ∃ d, h.derived = .ok d ∧ Instance.runtimeType x = h.runtime ∧
      Names s (d.fields.flatMap fun f => f.payload.held x) s' ∧
      bytes = (h.recordOf d s'.ids.nameOf object x).encode ∧
      Chunk.Acceptable (h.recordOf d s'.ids.nameOf object x) ∧ s'.records = s.records := by
  obtain ⟨d, hDerived, hTyped, ⟨hNames, hRecords⟩, hBytes, hAcceptable⟩ :=
    naming.store_ok hIds hStore
  exact ⟨d, hDerived, hTyped, hNames, hBytes, hAcceptable, hRecords⟩

theorem keeps_store {P : State → Prop} (hIdentify : ∀ ref, Attempt.Keeps P (identify ref))
    (handler : Handler ι) (object : ObjectId) (x : ι) :
    Attempt.Keeps P (handler.store identify object x) := by
  cases handler with
  | placeholder d => exact fun _ h => h
  | object h => exact h.keeps_store hIdentify object x

end Storing

end ObjectStore
