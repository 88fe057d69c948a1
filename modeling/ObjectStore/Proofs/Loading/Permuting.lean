import ObjectStore.Proofs.Handler.Reading
import ObjectStore.Proofs.Loading.Resolving
import ObjectStore.Proofs.Migration.Survivors

/-!
# Records in another order

The records of a chunk refer to each other by their identifiers, so a load
does not need them in any particular order. If it succeeds with one order, it
succeeds with every other one: the same records pass their checks, there is
room for as many instances, and once all of them are placed, the same
identifiers are known. The instances are at other positions then, but those of
one object mirror each other: they are of one type, their values are the same,
and their references lead to instances of the same objects.

## Main results

* `Loading.prepare_perm`: the same records are planned, in another order.
* `Loading.loadObjects_isOk_of_perm`: a load of new objects succeeds in every
  order.
* `Loading.Performed.mirrors`: what two loads of the same records have made.
* `loadObjects_perm`: the order of the records makes no difference.
-/

namespace ObjectStore

open MigratedChunk

namespace Loading

variable {ι : Type} {registry : Registry ι} {matcher : Option Matcher} {bytes : Bytes}
  {ids : ObjectIds} {planned planned' : List (PlannedRecord ι)} {dropped dropped' : List ObjectId}

/-! ## Checking -/

/-- A chunk that passes the checks can be split to its end. -/
theorem fault_of_prepare (h : prepare registry matcher ids bytes = .ok (planned, dropped)) :
    (Chunk.split bytes).fault = none := by
  obtain ⟨chunk, hChunk, hPlan, -⟩ := prepare_ok_iff.1 h
  obtain ⟨hFault, -⟩ := plan_eq_ok hPlan
  cases matcher with
  | none =>
      cases hChunk
      exact hFault
  | some m =>
      rcases fault_of_migrate hChunk with rfl | hWhole
      · exact hFault
      · exact hWhole

/-- If the records come in another order, so do the planned ones. -/
theorem prepare_perm {rs rs' : List Record} (hFits : ∀ r ∈ rs, r.Fits) (hPerm : rs.Perm rs')
    (h : prepare registry matcher ids (Chunk.join rs) = .ok (planned, dropped)) :
    ∃ planned' dropped', prepare registry matcher ids (Chunk.join rs') = .ok (planned', dropped') ∧
      planned.Perm planned' ∧ ∀ id, id ∈ dropped ↔ id ∈ dropped' := by
  have hAcceptable := Chunk.acceptable_of_split_join hFits (fault_of_prepare h)
  obtain ⟨chunk, hChunk, hPlan, rfl⟩ := prepare_ok_iff.1 h
  obtain ⟨chunk', records, records', hChunk', hBytes, hBytes', hLeft, hLeftAcceptable, hDropped⟩ :=
    prepared_perm hAcceptable hPerm hChunk
  obtain ⟨-, hRecords, hNodup, hChecked⟩ := plan_eq_ok hPlan
  rw [hBytes, Chunk.split_join hLeftAcceptable] at hRecords
  change planned.map (·.record) = records at hRecords
  subst hRecords
  have hEach : List.Forall₂ (fun r p => PlannedRecord.record p = r)
      (planned.map (·.record)) planned := by
    rw [List.forall₂_map_left_iff, List.forall₂_same]
    exact fun p _ => rfl
  obtain ⟨planned', hEach', hPlanned⟩ := List.perm_comp_forall₂ hLeft.symm hEach
  have hRecords' : planned'.map (·.record) = records' := by
    rw [← List.map_id records']
    exact map_eq_of_forall₂ (hEach'.flip)
  have hPlan' : plan registry ids chunk'.bytes = .ok planned' := by
    rw [hBytes', ← hRecords']
    apply plan_join
    · intro p hp
      exact hLeftAcceptable _ (List.mem_map_of_mem (hPlanned.mem_iff.1 hp))
    · exact (hPlanned.map _).nodup_iff.2 hNodup
    · exact fun p hp => hChecked p (hPlanned.mem_iff.1 hp)
  exact ⟨planned', chunk'.dropped, prepare_ok_iff.2 ⟨chunk', hChunk', hPlan', rfl⟩,
    hPlanned.symm, hDropped⟩

/-! ## Room -/

theorem size_placeAll_le {s s' : State ι} {refs : List Ref}
    (hRoom : s.live.graph.size ≤ Graph.capacity)
    (h : (planned.mapM place).start s = (.ok refs, s')) :
    s'.live.graph.size ≤ Graph.capacity := by
  induction planned generalizing s refs with
  | nil =>
      cases h
      exact hRoom
  | cons p rest ih =>
      obtain ⟨ref, restRefs, s₁, hHead, hRest, rfl⟩ := Attempt.start_mapM_cons_ok.1 h
      refine ih ?_ hRest
      rcases place_ok hHead with ⟨-, rfl⟩ | ⟨-, -, hFree, x, ids, -, -, rfl⟩
      · exact hRoom
      · show (s.live.graph.push x).size ≤ Graph.capacity
        rw [Graph.size_push]
        omega

variable [Instance ι] {live live' before after after' : Live ι} {refs refs' : List Ref}
  {s s' : State ι} {g g' : Graph ι}

/-- After a load that has succeeded, the graph is not too large. -/
theorem size_loadObjects_le (hRoom : live.graph.size ≤ Graph.capacity)
    (hPrepare : prepare registry matcher live.ids bytes = .ok (planned, dropped))
    (h : (loadObjects registry matcher bytes).start live = (.ok refs, live')) :
    live.graph.size + (newcomers planned).length ≤ Graph.capacity := by
  obtain ⟨planned₁, dropped₁, s, hPrepare₁, hApply, -⟩ := loadObjects_eq_ok.1 h
  rw [hPrepare] at hPrepare₁
  cases hPrepare₁
  obtain ⟨s₁, g, g', hPlace, -⟩ := apply_ok.1 hApply
  have hSize := size_placeAll_le (s := ⟨live, []⟩) hRoom hPlace
  rwa [(count_placeAll hPlace).1] at hSize

/-! ## Success -/

omit [Instance ι] in
theorem resolver_isOk {id : ObjectId}
    (h : (id = ObjectId.null ∨ id ∈ dropped) ∨ ∃ ref, ids.ref? id = some ref) :
    ∃ target, resolver ids dropped id = .ok target := by
  unfold resolver
  split
  · exact ⟨none, rfl⟩
  · rename_i hPresent
    obtain ⟨ref, hRef⟩ := h.resolve_left (by simpa using hPresent)
    rw [hRef]
    exact ⟨some ref, rfl⟩

/-- What was known after a load of new objects is known again as soon as the
objects of its records are. -/
theorem Performed.resolver_isOk
    (h : Performed registry before planned dropped refs s g after)
    (hFresh : ∀ id, before.ids.ref? id = none) (hDropped : ∀ id, id ∈ dropped ↔ id ∈ dropped')
    (hKnown : ∀ p ∈ planned, ∃ ref, ids.ref? p.record.object = some ref) {id : ObjectId}
    {target : Option Ref} (hTarget : resolver after.ids dropped id = .ok target) :
    ∃ target', resolver ids dropped' id = .ok target' := by
  apply Loading.resolver_isOk
  obtain ⟨hAbsent, hBound⟩ := Access.resolver_ok hTarget
  cases target with
  | none => exact Or.inl ((hAbsent.1 rfl).imp_right (hDropped id).1)
  | some ref =>
      rcases h.isBound_iff.1 ⟨ref, hBound ref rfl⟩ with ⟨ref', hRef'⟩ | hIn
      · rw [hFresh id] at hRef'
        cases hRef'
      · obtain ⟨p, hp, rfl⟩ := List.mem_map.1 hIn
        exact Or.inr (hKnown p hp)

/-- If a load of new objects succeeds, it does so with the records in every
other order. -/
theorem loadObjects_isOk_of_perm (hLive : live.WellFormed) (hLawful : Lawful registry)
    (hFresh : ∀ id, live.ids.ref? id = none) (hRoom : live.graph.size ≤ Graph.capacity)
    {bytes' : Bytes} (hPrepare : prepare registry matcher live.ids bytes = .ok (planned, dropped))
    (hPrepare' : prepare registry matcher live.ids bytes' = .ok (planned', dropped'))
    (hPlanned : planned.Perm planned') (hDropped : ∀ id, id ∈ dropped ↔ id ∈ dropped')
    (h : (loadObjects registry matcher bytes).start live = (.ok refs, live')) :
    ∃ refs' live', (loadObjects registry matcher bytes').start live = (.ok refs', live') := by
  have hSize := size_loadObjects_le hRoom hPrepare h
  obtain ⟨planned₁, dropped₁, s, g, hPrepare₁, hPerformed⟩ := performed_of_loadObjects hLive h
  rw [hPrepare] at hPrepare₁
  cases hPrepare₁
  have hNone : ∀ p ∈ planned, p.existing = none := fun p hp =>
    (hPerformed.checked p hp).existing.trans (hFresh _)
  have hNewcomers : newcomers planned = planned :=
    List.filter_eq_self.2 fun p hp => Option.isNone_iff_eq_none.2 (hNone p hp)
  have hReflects : ∀ p ∈ planned, ∃ ref hd d x,
      Reflects (resolver live'.ids dropped) live'.graph p ref hd d x := by
    intro p hp
    obtain ⟨ref, -, hReflected⟩ := forall₂_exists_right (hPerformed.reflects hLawful) hp
    exact ⟨ref, hReflected⟩
  refine loadObjects_isOk hLive hLawful hPrepare' ?_ ?_ ?_ ?_
  · exact fun p hp => hNone p (hPlanned.mem_iff.2 hp)
  · rwa [← hPlanned.length_eq, ← hNewcomers]
  · intro p hp
    have hIn := hPlanned.mem_iff.2 hp
    obtain ⟨ref, hd, d, x, hReflect⟩ := hReflects p hIn
    obtain ⟨ref', -, hPlaced⟩ := forall₂_exists_right hPerformed.placed hIn
    obtain ⟨-, x', hCreate, -⟩ := hPlaced.created (hNone p hIn)
    rw [hReflect.handler] at hCreate
    exact ⟨hd, x', hReflect.handler, hCreate⟩
  · intro ids hKnown p hp hd x hHandler hCreate
    have hIn := hPlanned.mem_iff.2 hp
    obtain ⟨ref, hd', d, y, hReflect⟩ := hReflects p hIn
    cases hHandler.symm.trans hReflect.handler
    have hLaw := hLawful _ hd (hPerformed.handler hIn hHandler)
    obtain ⟨-, -, hTyped, -⟩ := ObjectHandler.create_regular hLaw.toRegular hCreate
    have hReadable : ∀ f ∈ d.fields, f.settable = true →
        ObjectHandler.ReadableAt (resolver ids dropped') p.record f := fun f hf _ =>
      (hReflect.holds f hf).readable.mono fun id target hTarget =>
        hPerformed.resolver_isOk hFresh hDropped
          (fun q hq => hKnown q (hPlanned.mem_iff.1 hq)) hTarget
    obtain ⟨z, hSet⟩ := ObjectHandler.setReferences_isOk hReadable x
    exact ⟨z, ObjectHandler.connect_ok.2 ⟨d, hReflect.derived, hTyped, hSet⟩⟩

end Loading

/-! ## Mirrored graphs -/

variable {ι : Type} [Instance ι]

/-- The two live sides have instances of the same objects. Those of one object
are of one type, and each field of the one mirrors that of the other: values
are the same, and references lead to instances of the same objects. -/
structure Live.Mirrors (registry : Registry ι) (live live' : Live ι) : Prop where
  objects : ∀ id, (∃ ref, live.ids.ref? id = some ref) ↔ ∃ ref, live'.ids.ref? id = some ref
  instances : ∀ id ref ref', live.ids.ref? id = some ref → live'.ids.ref? id = some ref' →
    ∃ h x y, live.graph.get? ref = some x ∧ live'.graph.get? ref' = some y ∧
      Instance.runtimeType y = Instance.runtimeType x ∧
      registry.handlerFor? (Instance.runtimeType x) = some (.object h) ∧
      ∀ field ∈ h.fields, field.access.Mirrors (live.ids.across live'.ids) x y

namespace Loading

variable {registry : Registry ι} {before after after' : Live ι} {refs refs' : List Ref}
  {planned planned' : List (PlannedRecord ι)} {dropped dropped' : List ObjectId}
  {s s' : State ι} {g g' : Graph ι}

/-- What two loads have made of the same records mirrors each other. -/
theorem Performed.mirrors (h : Performed registry before planned dropped refs s g after)
    (h' : Performed registry before planned' dropped' refs' s' g' after')
    (hRegistry : registry.WellFormed) (hLawful : Lawful registry)
    (hFresh : ∀ id, before.ids.ref? id = none) (hPlanned : planned.Perm planned')
    (hDropped : ∀ id, id ∈ dropped ↔ id ∈ dropped') : after.Mirrors registry after' := by
  have hObjects : ∀ id, (∃ ref, after.ids.ref? id = some ref) ↔
      id ∈ planned.map (·.record.object) := fun id =>
    h.isBound_iff.trans (or_iff_right (by simp [hFresh]))
  have hObjects' : ∀ id, (∃ ref, after'.ids.ref? id = some ref) ↔
      id ∈ planned'.map (·.record.object) := fun id =>
    h'.isBound_iff.trans (or_iff_right (by simp [hFresh]))
  refine ⟨?_, ?_⟩
  · intro id
    rw [hObjects, hObjects', (hPlanned.map _).mem_iff]
  · intro id ref ref' hRef hRef'
    obtain ⟨p, hp, rfl⟩ := List.mem_map.1 ((hObjects id).1 ⟨ref, hRef⟩)
    obtain ⟨ref₁, -, hRef₁, hd, d, x, hReflect⟩ := forall₂_exists_right (h.reflected hLawful) hp
    obtain ⟨ref₂, -, hRef₂, hd', d', y, hReflect'⟩ :=
      forall₂_exists_right (h'.reflected hLawful) (hPlanned.mem_iff.1 hp)
    cases hRef.symm.trans hRef₁
    cases hRef'.symm.trans hRef₂
    cases hReflect.handler.symm.trans hReflect'.handler
    cases hReflect.derived.symm.trans hReflect'.derived
    have hFor := hRegistry.handlerFor?_of_handler? (h.handler hp hReflect.handler) rfl
    exact ⟨hd, x, y, hReflect.get, hReflect'.get, hReflect'.typed.trans hReflect.typed.symm,
      hReflect.typed ▸ hFor, hReflect.holds.mirrors hReflect.derived
        (fun _ _ _ => h.wellFormed.ids.map_resolver hDropped) hReflect'.holds⟩

end Loading

open Loading

/-- If a chunk of records can be loaded into an empty graph, it can be loaded
with the records in every other order. The same objects are live then, and
their instances mirror each other. -/
theorem loadObjects_perm (registrations : List (Registration ι)) (matcher : Option Matcher)
    (start : UInt64) (rs rs' : List Record) (refs : List Ref) (live : Live ι)
    (hLawful : Lawful (Registry.build registrations)) (hFits : ∀ r ∈ rs, r.Fits)
    (hPerm : rs.Perm rs')
    (h : (loadObjects (Registry.build registrations) matcher (Chunk.join rs)).start
      ⟨Graph.empty, ObjectIds.startingAt start⟩ = (.ok refs, live)) :
    ∃ refs' live', (loadObjects (Registry.build registrations) matcher (Chunk.join rs')).start
        ⟨Graph.empty, ObjectIds.startingAt start⟩ = (.ok refs', live') ∧
      live.Mirrors (Registry.build registrations) live' := by
  have hEmpty : (⟨Graph.empty, ObjectIds.startingAt start⟩ : Live ι).WellFormed :=
    Live.wellFormed_empty start
  have hFresh : ∀ id, (ObjectIds.startingAt start).ref? id = none :=
    ObjectIds.ref?_startingAt start
  obtain ⟨planned, dropped, s, g, hPrepare, hPerformed⟩ := performed_of_loadObjects hEmpty h
  obtain ⟨planned', dropped', hPrepare', hPlanned, hDropped⟩ := prepare_perm hFits hPerm hPrepare
  obtain ⟨refs', live', hLoad'⟩ := loadObjects_isOk_of_perm hEmpty hLawful hFresh (Nat.zero_le _)
    hPrepare hPrepare' hPlanned hDropped h
  obtain ⟨planned₁, dropped₁, s', g', hPrepare₁, hPerformed'⟩ :=
    performed_of_loadObjects hEmpty hLoad'
  obtain ⟨rfl, rfl⟩ := Prod.mk.inj (Except.ok.inj (hPrepare'.symm.trans hPrepare₁))
  exact ⟨refs', live', hLoad', hPerformed.mirrors hPerformed'
    (Registry.wellFormed_build registrations) hLawful hFresh hPlanned hDropped⟩

/-! ## A circle of two -/

namespace Slots

/-- Two people who are each other's friends. The first one was stored in the
former layout. -/
def circle : List Record :=
  [⟨⟨900⟩, ⟨1⟩, [2, 0, 0, 0, 0, 0, 0, 0, 5, 0, 0, 0]⟩,
    ⟨⟨1000⟩, ⟨2⟩, [7, 0, 0, 0, 1, 0, 0, 0, 0, 0, 0, 0]⟩]

/-- The plan to load both of them in the current layout. -/
def circlePlan : List (PlannedRecord Slots) :=
  [⟨⟨⟨1000⟩, ⟨1⟩, [5, 0, 0, 0, 2, 0, 0, 0, 0, 0, 0, 0]⟩, .object person, none⟩,
    ⟨⟨⟨1000⟩, ⟨2⟩, [7, 0, 0, 0, 1, 0, 0, 0, 0, 0, 0, 0]⟩, .object person, none⟩]

theorem acceptable_circle : ∀ r ∈ circle, Chunk.Acceptable r := by
  have hSmall : 12 ≤ maxContentLength.toNat := by decide
  exact List.forall_mem_cons.2 ⟨hSmall, List.forall_mem_singleton.2 hSmall⟩

theorem prepare_circle :
    prepare (Registry.build history) (some plainMatcher) (ObjectIds.startingAt 1)
      (Chunk.join circle) = .ok (circlePlan, []) := by
  have hMigrate : migrate (Registry.build history) plainMatcher (Chunk.join circle) =
      .ok ⟨Chunk.join (circlePlan.map (·.record)), []⟩ := by
    simp only [migrate, Chunk.split_join acceptable_circle]
    rfl
  have hSmall : 12 ≤ maxContentLength.toNat := by decide
  have hPlan : plan (Registry.build history) (ObjectIds.startingAt 1)
      (Chunk.join (circlePlan.map (·.record))) = .ok circlePlan :=
    @plan_join _ _ _ circlePlan
      (List.forall_mem_cons.2 ⟨hSmall, List.forall_mem_singleton.2 hSmall⟩) (by decide)
      (List.forall_mem_cons.2 ⟨⟨rfl, ⟨_, rfl⟩, by decide, rfl⟩,
        List.forall_mem_singleton.2 ⟨rfl, ⟨_, rfl⟩, by decide, rfl⟩⟩)
  exact bind_eq_ok.2 ⟨_, hMigrate, bind_eq_ok.2 ⟨_, hPlan, rfl⟩⟩

/-- The friends can be loaded the other way round. -/
theorem loadObjects_perm_circle :
    ∃ live refs' live', Lawful (Registry.build history) ∧ (∀ r ∈ circle, r.Fits) ∧
      circle.Perm circle.reverse ∧
      (loadObjects (Registry.build history) (some plainMatcher) (Chunk.join circle)).start
        ⟨Graph.empty, ObjectIds.startingAt 1⟩ = (.ok [⟨0⟩, ⟨1⟩], live) ∧
      (loadObjects (Registry.build history) (some plainMatcher)
        (Chunk.join circle.reverse)).start ⟨Graph.empty, ObjectIds.startingAt 1⟩ =
          (.ok refs', live') ∧
      live.Mirrors (Registry.build history) live' := by
  have hFits : ∀ r ∈ circle, r.Fits := fun r hr =>
    Chunk.fits_of_acceptable (acceptable_circle r hr)
  have hPerm : circle.Perm circle.reverse := (List.reverse_perm circle).symm
  obtain ⟨live, hLoad⟩ : ∃ live, (loadObjects (Registry.build history) (some plainMatcher)
      (Chunk.join circle)).start ⟨Graph.empty, ObjectIds.startingAt 1⟩ =
        (.ok [⟨0⟩, ⟨1⟩], live) :=
    ⟨_, loadObjects_eq_ok.2 ⟨circlePlan, [], _, prepare_circle, rfl, rfl⟩⟩
  obtain ⟨refs', live', hLoad', hMirrors⟩ :=
    loadObjects_perm history (some plainMatcher) 1 _ _ _ _ lawful_history hFits hPerm hLoad
  exact ⟨live, refs', live', lawful_history, hFits, hPerm, hLoad, hLoad', hMirrors⟩

end Slots

end ObjectStore
