import ObjectStore.Proofs.Handler.Restoring
import ObjectStore.Proofs.Migration.Evolution
import ObjectStore.Proofs.Storing.Naming

/-!
# Identifiers and instances

Two sets of identifiers may give one object different instances: those it had
when it was stored, and those it has after it was loaded, or those of two
loads. `ObjectIds.across` leads from the one instance to the other. A load
resolves the identifiers in a record, so what it sets are the counterparts of
the instances that the identifiers named.

## Main results

* `ObjectIds.WellFormed.leads`: written references are resolved to
  counterparts.
* `ObjectIds.WellFormed.map_resolver`: what two loads resolve one identifier to
  are counterparts.
* `ObjectHandler.HoldsAll.mirrors`: what two loads have made of one record
  mirrors each other.
-/

namespace ObjectStore

open Loading

/-! ## Counterparts -/

namespace ObjectIds

/-- The instance that other identifiers give to the object of an
instance. -/
def across (ids ids' : ObjectIds) (ref : Ref) : Option Ref := (ids.objectId? ref).bind ids'.ref?

variable {ids ids' : ObjectIds}

theorem across_of_object {ref : Ref} {id : ObjectId} (h : ids.objectId? ref = some id) :
    ids.across ids' ref = ids'.ref? id := by
  rw [across, h]
  rfl

/-- Different instances have different counterparts. -/
theorem WellFormed.across_inj (h : ids.WellFormed) (h' : ids'.WellFormed) {ref ref' target : Ref}
    (hTarget : ids.across ids' ref = some target) (hTarget' : ids.across ids' ref' = some target) :
    ref = ref' := by
  obtain ⟨id, hId, hRef⟩ := Option.bind_eq_some_iff.1 hTarget
  obtain ⟨id', hId', hRef'⟩ := Option.bind_eq_some_iff.1 hTarget'
  have hSame := (h'.inverse id target).1 hRef
  rw [(h'.inverse id' target).1 hRef'] at hSame
  cases hSame
  rw [← h.inverse] at hId hId'
  rw [hId] at hId'
  exact Option.some.inj hId'

/-- References are resolved to counterparts. -/
theorem WellFormed.leads (h : ids.WellFormed) {counterpart : Ref → Option Ref} {targets : List Ref}
    (hKnown : ∀ target ∈ targets, ∃ id ref, ids.objectId? target = some id ∧
      counterpart target = some ref ∧ ids'.ref? id = some ref) :
    Access.Leads (resolver ids' []) ids.nameOf counterpart targets := by
  have hNotNull : ∀ target ∈ targets, ids.nameOf target ≠ ObjectId.null := by
    intro target hTarget
    obtain ⟨id, ref, hId, -⟩ := hKnown target hTarget
    rw [nameOf_of_object hId]
    exact h.notNull id target ((h.inverse id target).2 hId)
  refine ⟨hNotNull, ?_⟩
  intro target hTarget
  obtain ⟨id, ref, hId, hCounterpart, hRef⟩ := hKnown target hTarget
  have hName := hNotNull target hTarget
  rw [nameOf_of_object hId, ne_eq, ← ObjectId.isNull_iff] at hName
  refine ⟨ref, hCounterpart, ?_⟩
  rw [nameOf_of_object hId]
  simp [resolver, hName, hRef]

/-- Two loads that drop the same objects resolve an identifier to
counterparts, or both to nothing. -/
theorem WellFormed.map_resolver (h : ids.WellFormed) {dropped dropped' : List ObjectId}
    (hDropped : ∀ id, id ∈ dropped ↔ id ∈ dropped') {id : ObjectId} {target target' : Option Ref}
    (hTarget : resolver ids dropped id = .ok target)
    (hTarget' : resolver ids' dropped' id = .ok target') :
    target'.map some = target.map (ids.across ids') := by
  obtain ⟨hAbsent, hBound⟩ := Access.resolver_ok hTarget
  obtain ⟨hAbsent', hBound'⟩ := Access.resolver_ok hTarget'
  have hBoth : target = none ↔ target' = none := by
    rw [hAbsent, hAbsent', hDropped id]
  cases target with
  | none => rw [hBoth.1 rfl, Option.map_none, Option.map_none]
  | some ref =>
      obtain ⟨ref', rfl⟩ := Option.ne_none_iff_exists'.1 fun hNone => nomatch hBoth.2 hNone
      have hObject := (h.inverse id ref).1 (hBound ref rfl)
      rw [Option.map_some, Option.map_some, across_of_object hObject, hBound' ref' rfl]

end ObjectIds

/-! ## Members of two loads -/

namespace Access

variable {ι : Type} {access : Access ι} {lookup lookup' : Lookup} {counterpart : Ref → Option Ref}
  {r : Record} {offset : Nat} {x y : ι}

theorem map_resolveAll {list : List ObjectId} {targets targets' : List Ref}
    (hCounterparts : ∀ id target target', lookup id = .ok target → lookup' id = .ok target' →
      target'.map some = target.map counterpart)
    (h : resolveAll lookup list = .ok targets) (h' : resolveAll lookup' list = .ok targets') :
    targets'.map some = targets.map counterpart := by
  obtain ⟨-, found, hFound, rfl⟩ := resolveAll_eq_ok.1 h
  obtain ⟨-, found', hFound', rfl⟩ := resolveAll_eq_ok.1 h'
  rw [mapM_eq_ok] at hFound hFound'
  clear h h'
  induction hFound generalizing found' with
  | nil =>
      cases hFound'
      rfl
  | @cons object target rest found hHead _ ih =>
      obtain _ | @⟨_, target', _, found', hHead', hRest'⟩ := hFound'
      have hRest := ih found' hRest'
      have hTarget := hCounterparts object target target' hHead hHead'
      cases target with
      | none =>
          rw [Option.map_none, Option.map_eq_none_iff] at hTarget
          rw [hTarget]
          exact hRest
      | some ref =>
          obtain ⟨ref', rfl, hRef⟩ := Option.map_eq_some_iff.1 hTarget
          rw [List.filterMap_cons_some (f := id) rfl, List.filterMap_cons_some (f := id) rfl,
            List.map_cons, List.map_cons, hRest, hRef]

/-- Members that hold what one record says mirror each other, if its
identifiers lead to counterparts. -/
theorem Holds.mirrors
    (hCounterparts : ∀ id target target', lookup id = .ok target → lookup' id = .ok target' →
      target'.map some = target.map counterpart)
    (h : access.Holds lookup r offset x) (h' : access.Holds lookup' r offset y) :
    access.Mirrors counterpart x y := by
  cases access with
  | value kind get set =>
      obtain ⟨bytes, hSlice, hDecode⟩ := h
      obtain ⟨bytes', hSlice', hDecode'⟩ := h'
      cases hSlice.symm.trans hSlice'
      exact Except.ok.inj (hDecode'.symm.trans hDecode)
  | bytes get set => exact Except.ok.inj (h'.symm.trans h)
  | text get set =>
      obtain ⟨payload, hRead, hDecode⟩ := h
      obtain ⟨payload', hRead', hDecode'⟩ := h'
      cases hRead.symm.trans hRead'
      exact Except.ok.inj (hDecode'.symm.trans hDecode)
  | reference get set =>
      obtain ⟨id, hRead, hLookup⟩ := h
      obtain ⟨id', hRead', hLookup'⟩ := h'
      cases hRead.symm.trans hRead'
      exact hCounterparts id _ _ hLookup hLookup'
  | references get set =>
      obtain ⟨list, hRead, hResolve⟩ := h
      obtain ⟨list', hRead', hResolve'⟩ := h'
      cases hRead.symm.trans hRead'
      exact map_resolveAll hCounterparts hResolve hResolve'

end Access

/-- Instances that hold what one record says mirror each other. -/
theorem ObjectHandler.HoldsAll.mirrors {ι : Type} {h : ObjectHandler ι}
    {d : ObjectHandler.Derived ι} {lookup lookup' : Lookup} {counterpart : Ref → Option Ref}
    {r : Record} {x y : ι} (hDerived : h.derived = .ok d)
    (hCounterparts : ∀ id target target', lookup id = .ok target → lookup' id = .ok target' →
      target'.map some = target.map counterpart)
    (hHolds : HoldsAll lookup r d x) (hHolds' : HoldsAll lookup' r d y) :
    ∀ field ∈ h.fields, field.access.Mirrors counterpart x y := by
  intro field hField
  obtain ⟨f, hf, hAccess⟩ := derived_of_declared (derived_eq_ok hDerived) hField
  obtain ⟨offset, hOffset, hHeld⟩ := hHolds f hf
  obtain ⟨offset', hOffset', hHeld'⟩ := hHolds' f hf
  rw [hOffset] at hOffset'
  cases hOffset'
  rw [← hAccess]
  exact Access.Holds.mirrors hCounterparts hHeld hHeld'

end ObjectStore
