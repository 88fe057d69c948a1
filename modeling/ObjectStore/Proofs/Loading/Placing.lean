import Mathlib.Data.List.Nodup
import ObjectStore.Loading
import ObjectStore.Proofs.Identity.Undoing
import ObjectStore.Proofs.Loading.Changes
import ObjectStore.Proofs.Record.Chunk

/-!
# Placing the records of a chunk

The first two phases of a load check the records and give each of them an
instance. Checking makes sure that no object has two records, so different
records have different instances. Placing only adds to the graph and to the
identifiers, also when it fails half-way; `Loading.Advances` says so, and it
is what makes it possible to give everything back.

## Main results

* `Loading.planRecords_cons`: records are checked one after the other.
* `Loading.planRecords_eq_ok`: what is known of records that were checked.
* `Loading.prepare_ok_iff`, `Loading.prepare_join`: what is planned of a chunk.
* `Loading.prepare_again`: what other identifiers change in a plan.
* `Loading.advances_placeAll`: placing only adds to the former state.
* `Loading.placed_placeAll`: every record has an instance in the end.
* `Loading.rollBack_of_advances`: giving back what was added restores the
  former state.
-/

namespace ObjectStore

variable {ι : Type}

/-! ## Growing live sides -/

namespace Live

/-- The identifiers are in order, and lead to instances of the graph. -/
structure WellFormed (live : Live ι) : Prop where
  ids : live.ids.WellFormed
  within : live.ids.Within live.graph.size

/-- The live side `after` is `before` with instances added, and with
bindings of the identifiers `bound`. -/
structure Extends (before : Live ι) (bound : List ObjectId) (after : Live ι) : Prop where
  ids : before.ids.Grows bound after.ids
  within : after.ids.Within after.graph.size
  size : before.graph.size ≤ after.graph.size
  kept : ∀ ref : Ref, ref.index < before.graph.size →
    after.graph.get? ref = before.graph.get? ref

variable {live before after : Live ι} {bound : List ObjectId}

theorem wellFormed_empty (next : UInt64) :
    (⟨Graph.empty, ObjectIds.startingAt next⟩ : Live ι).WellFormed :=
  ⟨ObjectIds.wellFormed_startingAt next, ObjectIds.within_startingAt next _⟩

theorem Extends.refl (h : live.WellFormed) : Extends live [] live :=
  ⟨ObjectIds.Grows.refl h.ids, h.within, Nat.le_refl _, fun _ _ => rfl⟩

theorem Extends.trans {later : Live ι} {more : List ObjectId} (h : Extends before bound after)
    (h' : Extends after more later) : Extends before (bound ++ more) later where
  ids := h.ids.trans h'.ids
  within := h'.within
  size := Nat.le_trans h.size h'.size
  kept := by
    intro ref hLt
    rw [h'.kept ref (Nat.lt_of_lt_of_le hLt h.size), h.kept ref hLt]

theorem Extends.wellFormed (h : Extends before bound after) : after.WellFormed :=
  ⟨h.ids.wellFormed, h.within⟩

/-- An instance that nothing leads to may be added. -/
theorem WellFormed.extends_push (h : live.WellFormed) (x : ι) :
    Extends live [] ⟨live.graph.push x, live.ids⟩ where
  ids := ObjectIds.Grows.refl h.ids
  within := by
    intro id ref hRef
    have hLt := h.within id ref hRef
    rw [Graph.size_push]
    omega
  size := by
    rw [Graph.size_push]
    exact Nat.le_succ _
  kept := fun ref hLt => Graph.get?_push hLt x

/-- No instance beyond the graph is bound. -/
theorem WellFormed.objectId?_new (h : live.WellFormed) :
    live.ids.objectId? ⟨live.graph.size⟩ = none := by
  cases hId : live.ids.objectId? ⟨live.graph.size⟩ with
  | none => rfl
  | some id =>
      have hRef := (h.ids.inverse id _).2 hId
      exact absurd (h.within id _ hRef) (Nat.lt_irrefl _)

/-- A new instance may be bound. -/
theorem WellFormed.extends_bind (h : live.WellFormed) (x : ι) {id : ObjectId} {ids : ObjectIds}
    (hBind : (ObjectIds.bind id ⟨live.graph.size⟩).start live.ids = (.ok (), ids)) :
    Extends live [id] ⟨live.graph.push x, ids⟩ := by
  have hPush := h.extends_push x
  have hGrows := (ObjectIds.grows_bind h.ids h.objectId?_new hBind).1
  refine ⟨hGrows, ?_, hPush.size, hPush.kept⟩
  intro other ref hRef
  obtain ⟨-, -, rfl⟩ := ObjectIds.bind_ok hBind
  rw [ObjectIds.ref?_extend] at hRef
  split at hRef
  · cases hRef
    show live.graph.size < (live.graph.push x).size
    rw [Graph.size_push]
    exact Nat.lt_succ_self _
  · exact hPush.within other ref hRef

end Live

namespace Loading

variable {registry : Registry ι}

/-! ## Checked records -/

/-- What checking makes sure of for one record. -/
structure Checked (registry : Registry ι) (ids : ObjectIds) (p : PlannedRecord ι) : Prop where
  handler : registry.handler? p.record.type = some p.handler
  valid : ∃ d, registry.validateEntity p.record.length p.record.type p.record.object = .ok d
  notNull : p.record.object ≠ ObjectId.null
  existing : p.existing = ids.ref? p.record.object

/-- The check of one record by itself, which finds its handler. -/
def checkRecord (registry : Registry ι) (r : Record) : Except Error (Handler ι) := do
  let _ ← registry.validateEntity r.length r.type r.object
  match registry.handler? r.type with
  | none => throw (.unhandledTypeId r.type)
  | some handler =>
      if r.object.isNull then throw (.corruptRecord .nullObjectId)
      return handler

theorem checkRecord_eq_ok {r : Record} {handler : Handler ι} :
    checkRecord registry r = .ok handler ↔ registry.handler? r.type = some handler ∧
      (∃ d, registry.validateEntity r.length r.type r.object = .ok d) ∧
      r.object ≠ ObjectId.null := by
  constructor
  · intro h
    obtain ⟨d, hValid, h⟩ := bind_eq_ok.1 h
    cases hHandler : registry.handler? r.type with
    | none =>
        rw [hHandler] at h
        cases h
    | some found =>
        simp only [hHandler] at h
        by_cases hNull : r.object.isNull = true
        · rw [if_pos hNull] at h
          cases h
        · rw [if_neg hNull] at h
          cases h
          exact ⟨rfl, ⟨d, hValid⟩, by simpa using hNull⟩
  · rintro ⟨hHandler, ⟨d, hValid⟩, hNull⟩
    have hNotNull : ¬r.object.isNull = true := by simpa using hNull
    refine bind_eq_ok.2 ⟨d, hValid, ?_⟩
    simp only [hHandler]
    rw [if_neg hNotNull]
    rfl

/-- Records are checked one after the other. -/
theorem planRecords_cons (registry : Registry ι) (ids : ObjectIds) (seen : Std.HashSet ObjectId)
    (r : Record) (rest : List Record) :
    planRecords registry ids seen (r :: rest) =
      checkRecord registry r >>= fun handler =>
        if r.object ∈ seen then .error (.duplicateObjectId r.object)
        else planRecords registry ids (seen.insert r.object) rest >>= fun planned =>
          .ok (⟨r, handler, ids.ref? r.object⟩ :: planned) := by
  simp only [planRecords, checkRecord]
  cases registry.validateEntity r.length r.type r.object with
  | error e => rfl
  | ok definition =>
      cases registry.handler? r.type with
      | none => rfl
      | some handler =>
          by_cases hNull : r.object.isNull = true
          · simp only [hNull]
            rfl
          · simp only [hNull]
            by_cases hSeen : r.object ∈ seen
            · simp only [hSeen]
              rfl
            · simp only [hSeen]
              rfl

theorem planRecords_eq_ok {ids : ObjectIds} {seen : Std.HashSet ObjectId} {records : List Record}
    {planned : List (PlannedRecord ι)}
    (h : planRecords registry ids seen records = .ok planned) :
    planned.map (·.record) = records ∧ (records.map (·.object)).Nodup ∧
      (∀ r ∈ records, r.object ∉ seen) ∧ ∀ p ∈ planned, Checked registry ids p := by
  induction records generalizing seen planned with
  | nil =>
      cases h
      simp
  | cons r rest ih =>
      rw [planRecords_cons] at h
      obtain ⟨handler, hCheck, h⟩ := bind_eq_ok.1 h
      obtain ⟨hHandler, hValid, hNull⟩ := checkRecord_eq_ok.1 hCheck
      by_cases hSeen : r.object ∈ seen
      · rw [if_pos hSeen] at h
        cases h
      · rw [if_neg hSeen] at h
        obtain ⟨plannedRest, hRest, h⟩ := bind_eq_ok.1 h
        cases h
        obtain ⟨hRecords, hNodup, hNew, hChecked⟩ := ih hRest
        refine ⟨by simp [hRecords], ?_, ?_, ?_⟩
        · rw [List.map_cons, List.nodup_cons]
          refine ⟨?_, hNodup⟩
          intro hIn
          obtain ⟨r', hr', hEq⟩ := List.mem_map.1 hIn
          exact hNew r' hr' (by simp [hEq])
        · intro r' hr'
          rcases List.mem_cons.1 hr' with rfl | hIn
          · exact hSeen
          · intro hIn'
            exact hNew r' hIn (Std.HashSet.mem_insert.2 (Or.inr hIn'))
        · intro p hp
          rcases List.mem_cons.1 hp with rfl | hIn
          · exact ⟨hHandler, hValid, hNull, rfl⟩
          · exact hChecked p hIn

theorem planRecords_of_checked {ids : ObjectIds} {seen : Std.HashSet ObjectId}
    {planned : List (PlannedRecord ι)} (hNodup : (planned.map (·.record.object)).Nodup)
    (hNew : ∀ p ∈ planned, p.record.object ∉ seen)
    (hChecked : ∀ p ∈ planned, Checked registry ids p) :
    planRecords registry ids seen (planned.map (·.record)) = .ok planned := by
  induction planned generalizing seen with
  | nil => rfl
  | cons p rest ih =>
      obtain ⟨hHead, hRest⟩ := List.nodup_cons.1 hNodup
      have hOwn := hChecked p List.mem_cons_self
      have hTail := @ih (seen.insert p.record.object) hRest
        (by
          intro q hq hIn
          rcases Std.HashSet.mem_insert.1 hIn with hEq | hSeen
          · exact hHead (List.mem_map.2 ⟨q, hq, (beq_iff_eq.1 hEq).symm⟩)
          · exact hNew q (List.mem_cons_of_mem _ hq) hSeen)
        (fun q hq => hChecked q (List.mem_cons_of_mem _ hq))
      rw [List.map_cons, planRecords_cons]
      refine bind_eq_ok.2
        ⟨p.handler, checkRecord_eq_ok.2 ⟨hOwn.handler, hOwn.valid, hOwn.notNull⟩, ?_⟩
      rw [if_neg (hNew p List.mem_cons_self), hTail, ← hOwn.existing]
      rfl

theorem plan_eq_ok {ids : ObjectIds} {bytes : Bytes} {planned : List (PlannedRecord ι)}
    (h : plan registry ids bytes = .ok planned) :
    (Chunk.split bytes).fault = none ∧ planned.map (·.record) = (Chunk.split bytes).records ∧
      (planned.map (·.record.object)).Nodup ∧ ∀ p ∈ planned, Checked registry ids p := by
  obtain ⟨planned', hPlanned, h⟩ := bind_eq_ok.1 h
  obtain ⟨_, hFault, h⟩ := bind_eq_ok.1 h
  cases h
  obtain ⟨hRecords, hNodup, -, hChecked⟩ := planRecords_eq_ok hPlanned
  refine ⟨Chunk.fault_of_toExcept hFault, hRecords, ?_, hChecked⟩
  rw [← hRecords, List.map_map] at hNodup
  exact hNodup

/-- The chunk that a load checks: the migrated one or, if there is no matcher,
the chunk as it is. -/
def prepared (registry : Registry ι) (matcher : Option Matcher) (bytes : Bytes) :
    Except Error MigratedChunk :=
  match matcher with
  | some m => MigratedChunk.migrate registry m bytes
  | none => .ok (MigratedChunk.unchanged bytes)

/-- A type with a handler is no legacy type. -/
theorem isLegacy_of_handler {id : TypeId} {handler : Handler ι}
    (h : registry.handler? id = some handler) : registry.isLegacy id = false := by
  simp [Registry.isLegacy, h]

/-- A chunk without legacy records is checked as it is. -/
theorem prepared_of_current {matcher : Option Matcher} {bytes : Bytes}
    (h : ∀ r ∈ (Chunk.split bytes).records, registry.isLegacy r.type = false) :
    prepared registry matcher bytes = .ok (MigratedChunk.unchanged bytes) := by
  cases matcher with
  | none => rfl
  | some m => exact MigratedChunk.of_no_legacy h

theorem prepare_eq_bind {matcher : Option Matcher} {ids : ObjectIds} {bytes : Bytes} :
    prepare registry matcher ids bytes =
      prepared registry matcher bytes >>= fun chunk =>
        plan registry ids chunk.bytes >>= fun planned => .ok (planned, chunk.dropped) := by
  cases matcher <;> rfl

theorem prepare_ok_iff {matcher : Option Matcher} {ids : ObjectIds} {bytes : Bytes}
    {planned : List (PlannedRecord ι)} {dropped : List ObjectId} :
    prepare registry matcher ids bytes = .ok (planned, dropped) ↔
      ∃ chunk, prepared registry matcher bytes = .ok chunk ∧
        plan registry ids chunk.bytes = .ok planned ∧ chunk.dropped = dropped := by
  rw [prepare_eq_bind, bind_eq_ok]
  constructor
  · rintro ⟨chunk, hChunk, h⟩
    obtain ⟨planned', hPlan, h⟩ := bind_eq_ok.1 h
    cases h
    exact ⟨chunk, hChunk, hPlan, rfl⟩
  · rintro ⟨chunk, hChunk, hPlan, rfl⟩
    exact ⟨chunk, hChunk, bind_eq_ok.2 ⟨planned, hPlan, rfl⟩⟩

/-- A chunk without legacy records is planned as it is. -/
theorem prepare_of_current {matcher : Option Matcher} {ids : ObjectIds} {bytes : Bytes}
    {planned : List (PlannedRecord ι)} {dropped : List ObjectId}
    (hCurrent : ∀ r ∈ (Chunk.split bytes).records, registry.isLegacy r.type = false)
    (h : prepare registry matcher ids bytes = .ok (planned, dropped)) :
    plan registry ids bytes = .ok planned ∧ dropped = [] := by
  obtain ⟨chunk, hChunk, hPlan, rfl⟩ := prepare_ok_iff.1 h
  rw [prepared_of_current hCurrent] at hChunk
  cases hChunk
  exact ⟨hPlan, rfl⟩

theorem prepare_eq_ok {matcher : Option Matcher} {ids : ObjectIds} {bytes : Bytes}
    {planned : List (PlannedRecord ι)} {dropped : List ObjectId}
    (h : prepare registry matcher ids bytes = .ok (planned, dropped)) :
    ∃ chunk : MigratedChunk,
      (∀ m, matcher = some m → MigratedChunk.migrate registry m bytes = .ok chunk) ∧
        (matcher = none → chunk = MigratedChunk.unchanged bytes) ∧
        plan registry ids chunk.bytes = .ok planned ∧ chunk.dropped = dropped := by
  obtain ⟨chunk, hChunk, hPlan, hDropped⟩ := prepare_ok_iff.1 h
  refine ⟨chunk, ?_, ?_, hPlan, hDropped⟩
  · rintro m rfl
    exact hChunk
  · rintro rfl
    exact (Except.ok.inj hChunk).symm

theorem split_join_planned {planned : List (PlannedRecord ι)}
    (hAcceptable : ∀ p ∈ planned, Chunk.Acceptable p.record) :
    Chunk.split (Chunk.join (planned.map (·.record))) = ⟨planned.map (·.record), none⟩ := by
  apply Chunk.split_join
  intro r hr
  obtain ⟨p, hp, rfl⟩ := List.mem_map.1 hr
  exact hAcceptable p hp

/-- A chunk is planned if each of its records passes its checks. -/
theorem plan_of_checked {ids : ObjectIds} {bytes : Bytes} {planned : List (PlannedRecord ι)}
    (hSplit : Chunk.split bytes = ⟨planned.map (·.record), none⟩)
    (hNodup : (planned.map (·.record.object)).Nodup)
    (hChecked : ∀ p ∈ planned, Checked registry ids p) :
    plan registry ids bytes = .ok planned := by
  refine bind_eq_ok.2 ⟨planned, ?_, ?_⟩
  · rw [hSplit]
    exact planRecords_of_checked hNodup (by simp) hChecked
  · rw [hSplit]
    rfl

theorem plan_join {ids : ObjectIds} {planned : List (PlannedRecord ι)}
    (hAcceptable : ∀ p ∈ planned, Chunk.Acceptable p.record)
    (hNodup : (planned.map (·.record.object)).Nodup)
    (hChecked : ∀ p ∈ planned, Checked registry ids p) :
    plan registry ids (Chunk.join (planned.map (·.record))) = .ok planned :=
  plan_of_checked (split_join_planned hAcceptable) hNodup hChecked

/-- What is planned of a record with other identifiers. -/
def replan (ids : ObjectIds) (p : PlannedRecord ι) : PlannedRecord ι :=
  { p with existing := ids.ref? p.record.object }

/-- Other identifiers make a difference only to which objects are live. -/
theorem prepare_again {matcher : Option Matcher} {ids : ObjectIds} {bytes : Bytes}
    {planned : List (PlannedRecord ι)} {dropped : List ObjectId}
    (h : prepare registry matcher ids bytes = .ok (planned, dropped)) (ids' : ObjectIds) :
    prepare registry matcher ids' bytes = .ok (planned.map (replan ids'), dropped) := by
  obtain ⟨chunk, hChunk, hPlan, hDropped⟩ := prepare_ok_iff.1 h
  obtain ⟨hFault, hRecords, hNodup, hChecked⟩ := plan_eq_ok hPlan
  have hSame : (planned.map (replan ids')).map (·.record) = (Chunk.split chunk.bytes).records := by
    rw [← hRecords, List.map_map]
    rfl
  refine prepare_ok_iff.2 ⟨chunk, hChunk, ?_, hDropped⟩
  apply plan_of_checked
  · rw [hSame, ← hFault]
  · rw [List.map_map]
    exact hNodup
  · intro q hq
    obtain ⟨p, hp, rfl⟩ := List.mem_map.1 hq
    have hOld := hChecked p hp
    exact ⟨hOld.handler, hOld.valid, hOld.notNull, rfl⟩

/-- Records of types with handlers are planned as they are, if each of them
passes its checks. -/
theorem prepare_join {matcher : Option Matcher} {ids : ObjectIds} {planned : List (PlannedRecord ι)}
    (hAcceptable : ∀ p ∈ planned, Chunk.Acceptable p.record)
    (hNodup : (planned.map (·.record.object)).Nodup)
    (hChecked : ∀ p ∈ planned, Checked registry ids p) :
    prepare registry matcher ids (Chunk.join (planned.map (·.record))) = .ok (planned, []) := by
  refine prepare_ok_iff.2
    ⟨_, prepared_of_current ?_, plan_join hAcceptable hNodup hChecked, rfl⟩
  intro r hr
  rw [split_join_planned hAcceptable] at hr
  obtain ⟨p, hp, rfl⟩ := List.mem_map.1 hr
  exact isLegacy_of_handler (hChecked p hp).handler

/-! ## Placing -/

variable {live : Live ι} {s s' : State ι} {p : PlannedRecord ι} {ref : Ref}

/-- The instance of a record is the one it has, or a new one. -/
theorem place_ok (h : (place p).start s = (.ok ref, s')) :
    (p.existing = some ref ∧ s' = s) ∨
      (p.existing = none ∧ ref = ⟨s.live.graph.size⟩ ∧ s.live.graph.size < Graph.capacity ∧
        ∃ x ids, p.handler.create p.record = .ok x ∧
          (ObjectIds.bind p.record.object ref).start s.live.ids = (.ok (), ids) ∧
          s' = ⟨⟨s.live.graph.push x, ids⟩, s.bound ++ [p.record.object]⟩) := by
  unfold place at h
  cases hExisting : p.existing with
  | some ref₁ =>
      simp only [hExisting] at h
      cases h
      exact Or.inl ⟨rfl, rfl⟩
  | none =>
      simp only [hExisting] at h
      by_cases hRuntime : p.handler.runtime?.isNone = true
      · rw [if_pos hRuntime] at h
        cases h
      · rw [if_neg hRuntime] at h
        obtain ⟨x, s₁, hCreate, h⟩ := Attempt.start_bind_ok.1 h
        obtain ⟨hCreated, rfl⟩ := Prod.mk.inj hCreate
        obtain ⟨ref₁, s₂, hInsert, h⟩ := Attempt.start_bind_ok.1 h
        obtain ⟨g, hGraph, rfl⟩ := Attempt.start_within_eq.1 hInsert
        rw [Graph.start_insert] at hGraph
        split at hGraph
        · rename_i hRoom
          obtain ⟨hRef, rfl⟩ := Prod.mk.inj hGraph
          cases hRef
          obtain ⟨_, s₃, hBind, h⟩ := Attempt.start_bind_ok.1 h
          obtain ⟨ids, hIds, rfl⟩ := Attempt.start_within_eq.1 hBind
          cases h
          exact Or.inr ⟨rfl, rfl, hRoom, x, ids, hCreated, hIds, rfl⟩
        · cases hGraph

/-- A record that gets no instance has at most added one that nothing leads
to. -/
theorem place_error {e : Error} (h : (place p).start s = (.error e, s')) :
    s' = s ∨ ∃ x, s' = ⟨⟨s.live.graph.push x, s.live.ids⟩, s.bound⟩ := by
  unfold place at h
  cases hExisting : p.existing with
  | some ref₁ =>
      simp only [hExisting] at h
      cases h
  | none =>
      simp only [hExisting] at h
      by_cases hRuntime : p.handler.runtime?.isNone = true
      · rw [if_pos hRuntime] at h
        cases h
        exact Or.inl rfl
      · rw [if_neg hRuntime] at h
        rcases Attempt.start_bind_error.1 h with hCreate | ⟨x, s₁, hCreate, h⟩
        · exact Or.inl (Prod.mk.inj hCreate).2.symm
        · obtain ⟨-, rfl⟩ := Prod.mk.inj hCreate
          rcases Attempt.start_bind_error.1 h with hInsert | ⟨ref₁, s₂, hInsert, h⟩
          · obtain ⟨g, hGraph, rfl⟩ := Attempt.start_within_eq.1 hInsert
            rw [Graph.start_insert] at hGraph
            split at hGraph
            · cases hGraph
            · obtain ⟨-, rfl⟩ := Prod.mk.inj hGraph
              exact Or.inl rfl
          · obtain ⟨g, hGraph, rfl⟩ := Attempt.start_within_eq.1 hInsert
            rw [Graph.start_insert] at hGraph
            split at hGraph
            · obtain ⟨-, rfl⟩ := Prod.mk.inj hGraph
              rcases Attempt.start_bind_error.1 h with hBind | ⟨_, s₃, hBind, h⟩
              · obtain ⟨ids, hIds, rfl⟩ := Attempt.start_within_eq.1 hBind
                rw [ObjectIds.bind_error hIds]
                exact Or.inr ⟨x, rfl⟩
              · cases h
            · cases hGraph

/-- What adding an instance keeps, with or without a binding of a free object
to it, placing a record keeps. -/
theorem keeps_place_of_steps {P : State ι → Prop}
    (hPush : ∀ s x, P s → P ⟨⟨s.live.graph.push x, s.live.ids⟩, s.bound⟩)
    (hBind : ∀ s x, P s → p.record.object ≠ ObjectId.null →
      s.live.ids.ref? p.record.object = none →
      P ⟨⟨s.live.graph.push x, s.live.ids.extend p.record.object ⟨s.live.graph.size⟩
        (s.live.ids.above p.record.object)⟩, s.bound ++ [p.record.object]⟩) :
    Attempt.Keeps P (place p) := by
  intro s h
  cases hPlace : (place p).start s with
  | mk result s' =>
      cases result with
      | error e =>
          rcases place_error hPlace with rfl | ⟨x, rfl⟩
          · exact h
          · exact hPush s x h
      | ok ref =>
          rcases place_ok hPlace with ⟨-, rfl⟩ | ⟨-, rfl, -, x, ids, -, hBound, rfl⟩
          · exact h
          · obtain ⟨hNull, hFree, rfl⟩ := ObjectIds.bind_ok hBound
            exact hBind s x h hNull hFree

/-! ## What placing adds -/

/-- The state `s'` has added instances and their identifiers to `s`, and
nothing else. -/
def Advances (s s' : State ι) : Prop :=
  ∃ added, s'.bound = s.bound ++ added ∧ s.live.Extends added s'.live

theorem Advances.refl (h : s.live.WellFormed) : Advances s s :=
  ⟨[], by simp, Live.Extends.refl h⟩

theorem Advances.trans {s'' : State ι} (h : Advances s s') (h' : Advances s' s'') :
    Advances s s'' := by
  obtain ⟨added, hBound, hExtends⟩ := h
  obtain ⟨more, hMore, hExtends'⟩ := h'
  exact ⟨added ++ more, by rw [hMore, hBound, List.append_assoc], hExtends.trans hExtends'⟩

theorem Advances.wellFormed (h : Advances s s') : s'.live.WellFormed := by
  obtain ⟨added, -, hExtends⟩ := h
  exact hExtends.wellFormed

theorem advances_place (h : s.live.WellFormed) (p : PlannedRecord ι) :
    Advances s ((place p).start s).2 := by
  cases hPlace : (place p).start s with
  | mk result s' =>
      cases result with
      | ok ref =>
          rcases place_ok hPlace with ⟨-, rfl⟩ | ⟨-, rfl, -, x, ids, -, hBind, rfl⟩
          · exact Advances.refl h
          · exact ⟨[p.record.object], rfl, h.extends_bind x hBind⟩
      | error e =>
          rcases place_error hPlace with rfl | ⟨x, rfl⟩
          · exact Advances.refl h
          · exact ⟨[], by simp, h.extends_push x⟩

/-- Placing only adds to the former state, also when it fails. -/
theorem advances_placeAll (h : s.live.WellFormed) (planned : List (PlannedRecord ι)) :
    Advances s ((planned.mapM place).start s).2 := by
  have hKeeps : Attempt.Keeps (Advances s) (planned.mapM place) := by
    apply Attempt.keeps_mapM
    intro p _ s₁ hs₁
    exact hs₁.trans (advances_place hs₁.wellFormed p)
  exact hKeeps s (Advances.refl h)

/-- Giving back what was added restores the former state. -/
theorem rollBack_of_advances (h : live.WellFormed) (hAdvances : Advances ⟨live, []⟩ s) :
    rollBack live s = live := by
  obtain ⟨added, hBound, hExtends⟩ := hAdvances
  have hAdded : s.bound = added := by simpa using hBound
  have hGraph : s.live.graph.truncate live.graph.size = live.graph := by
    apply Graph.ext_get?
    intro ref
    by_cases hLt : ref.index < live.graph.size
    · rw [Graph.get?_truncate hLt, hExtends.kept ref hLt]
    · have hSize : live.graph.size ≤ s.live.graph.size := hExtends.size
      rw [Graph.get?_eq_none (g := live.graph) (by omega), Graph.get?_eq_none]
      rw [Graph.size_truncate]
      omega
  simp only [rollBack, hGraph, hAdded, ObjectIds.release_of_grows h.ids hExtends.ids]

/-! ## The instances of the records -/

/-- The instance `ref` is the one that a record has been given: the one it
had before, or a new one with its values. -/
structure Placed (before : Live ι) (s : State ι) (p : PlannedRecord ι) (ref : Ref) : Prop where
  bound : s.live.ids.ref? p.record.object = some ref
  existing : ∀ ref', p.existing = some ref' → ref' = ref
  created : p.existing = none → before.graph.size ≤ ref.index ∧
    ∃ x, p.handler.create p.record = .ok x ∧ s.live.graph.get? ref = some x

theorem placed_place (hWellFormed : s.live.WellFormed)
    (hExisting : ∀ ref, p.existing = some ref → s.live.ids.ref? p.record.object = some ref)
    (h : (place p).start s = (.ok ref, s')) : Placed s.live s' p ref := by
  rcases place_ok h with ⟨hRef, rfl⟩ | ⟨hNone, rfl, -, x, ids, hCreate, hBind, rfl⟩
  · refine ⟨hExisting ref hRef, ?_, ?_⟩
    · intro ref' hRef'
      rw [hRef] at hRef'
      exact (Option.some.inj hRef').symm
    · intro hNone
      rw [hNone] at hRef
      cases hRef
  · obtain ⟨-, hBound⟩ := ObjectIds.grows_bind hWellFormed.ids hWellFormed.objectId?_new hBind
    refine ⟨hBound, ?_, ?_⟩
    · intro ref' hRef'
      rw [hNone] at hRef'
      cases hRef'
    · intro _
      exact ⟨Nat.le_refl _, x, hCreate, Graph.get?_push_self _ _⟩

/-- What is placed later does not touch the instance of a record. -/
theorem Placed.advance {before : Live ι} {s'' : State ι} (hWellFormed : s'.live.WellFormed)
    (h : Placed before s' p ref) (hAdvances : Advances s' s'') : Placed before s'' p ref := by
  obtain ⟨added, -, hExtends⟩ := hAdvances
  refine ⟨hExtends.ids.ref? h.bound, h.existing, ?_⟩
  intro hNone
  obtain ⟨hNew, x, hCreate, hGet⟩ := h.created hNone
  refine ⟨hNew, x, hCreate, ?_⟩
  rw [hExtends.kept ref (hWellFormed.within _ _ h.bound)]
  exact hGet

theorem placed_placeAll {planned : List (PlannedRecord ι)} {refs : List Ref}
    (hWellFormed : s.live.WellFormed)
    (hExisting : ∀ p ∈ planned, ∀ ref, p.existing = some ref →
      s.live.ids.ref? p.record.object = some ref)
    (h : (planned.mapM place).start s = (.ok refs, s')) :
    List.Forall₂ (Placed s.live s') planned refs := by
  induction planned generalizing s refs with
  | nil =>
      cases h
      exact List.Forall₂.nil
  | cons p rest ih =>
      obtain ⟨ref, restRefs, s₁, hHead, hRest, rfl⟩ := Attempt.start_mapM_cons_ok.1 h
      have hFirst := advances_place hWellFormed p
      rw [hHead] at hFirst
      have hLater := advances_placeAll hFirst.wellFormed rest
      rw [hRest] at hLater
      obtain ⟨added, -, hExtends⟩ := id hFirst
      have hPlaced := placed_place hWellFormed (hExisting p List.mem_cons_self) hHead
      have hTail := ih hFirst.wellFormed
        (fun q hq ref hRef => hExtends.ids.ref? (hExisting q (List.mem_cons_of_mem _ hq) ref hRef))
        hRest
      refine List.Forall₂.cons (hPlaced.advance hFirst.wellFormed hLater) (hTail.imp ?_)
      intro q qref hq
      refine ⟨hq.bound, hq.existing, ?_⟩
      intro hNone
      obtain ⟨hNew, hCreated⟩ := hq.created hNone
      exact ⟨Nat.le_trans hExtends.size hNew, hCreated⟩

theorem placed_zip {before : Live ι} {planned : List (PlannedRecord ι)} {refs : List Ref}
    (h : List.Forall₂ (Placed before s) planned refs) :
    (planned.zip refs).map Prod.fst = planned ∧ (planned.zip refs).map Prod.snd = refs ∧
      ∀ q ∈ planned.zip refs, Placed before s q.1 q.2 := by
  have hLength : planned.length = refs.length := h.length_eq
  refine ⟨List.map_fst_zip (Nat.le_of_eq hLength),
    List.map_snd_zip (Nat.le_of_eq hLength.symm), ?_⟩
  intro q hq
  exact (List.forall₂_iff_zip.1 h).2 hq

/-- Records of different objects have different instances. -/
theorem nodup_of_placed {before : Live ι} {planned : List (PlannedRecord ι)} {refs : List Ref}
    (hIds : s.live.ids.WellFormed) (hNodup : (planned.map (·.record.object)).Nodup)
    (h : List.Forall₂ (Placed before s) planned refs) : refs.Nodup := by
  have hObjects : refs.map s.live.ids.objectId? = (planned.map (·.record.object)).map some := by
    clear hNodup
    induction h with
    | nil => rfl
    | cons hHead _ ih =>
        have hObject := (hIds.inverse _ _).1 hHead.bound
        simp only [List.map_cons, hObject, ih]
  have hMapped : (refs.map s.live.ids.objectId?).Nodup := by
    rw [hObjects]
    exact hNodup.map (fun _ _ => Option.some.inj)
  exact hMapped.of_map _

/-- A pass over the records with their instances comes to no instance
twice. -/
theorem distinct_of_placed {before : Live ι} {planned : List (PlannedRecord ι)} {refs : List Ref}
    (hIds : s.live.ids.WellFormed) (hNodup : (planned.map (·.record.object)).Nodup)
    (h : List.Forall₂ (Placed before s) planned refs) :
    ((planned.zip refs).map Prod.snd).Nodup := by
  rw [(placed_zip h).2.1]
  exact nodup_of_placed hIds hNodup h

end Loading

end ObjectStore
