import Mathlib.Data.List.Perm.Subperm
import ObjectStore.Proofs.Loading.Resolving
import ObjectStore.Proofs.Loading.Success
import ObjectStore.Proofs.Session.History

/-!
# Loading the records of a history

A store that a session has left can be opened again on a registry that knows
the same types, and every record in it can be loaded: it was written by a
handler of the registry, and the objects that it refers to have records as
well. There is room for all of them, because each was an instance of the
session.

## Main results

* `Session.openStore_again`: the store can be opened again.
* `History.prepare_recorded`, `History.loadObjects_recorded`: the stored
  records pass all checks and can be loaded.
-/

namespace ObjectStore

open Storing Loading

variable {ι : Type} {registry : Registry ι} {d : Dictionary}

/-! ## Identifiers and instances -/

namespace Live

/-- The instances at the positions are those of the objects of the records,
one for each. -/
def Binds (live : Live ι) (records : List Record) (refs : List Ref) : Prop :=
  List.Forall₂ (fun r ref => live.ids.objectId? ref = some r.object) records refs

variable {live : Live ι} {records : List Record} {refs : List Ref}

/-- Different objects have different instances. -/
theorem Binds.nodup (h : live.Binds records refs) (hNodup : (records.map Record.object).Nodup) :
    refs.Nodup := by
  have hObjects : refs.map (live.ids.objectId? ·) = records.map (some ∘ Record.object) :=
    map_eq_of_forall₂ h.flip
  apply List.Nodup.of_map (live.ids.objectId? ·)
  rw [hObjects, ← List.map_map]
  exact hNodup.map (Option.some_injective _)

theorem Binds.subset (h : live.Binds records refs) (hLive : live.WellFormed) :
    refs ⊆ live.graph.refs := by
  intro ref hRef
  obtain ⟨r, -, hId⟩ := forall₂_exists_left h hRef
  exact Graph.mem_refs.2 (hLive.within _ _ ((hLive.ids.inverse _ _).2 hId))

/-- There are no more objects than instances. -/
theorem Binds.length_le (h : live.Binds records refs) (hLive : live.WellFormed)
    (hNodup : (records.map Record.object).Nodup) : records.length ≤ live.graph.size := by
  have hLength := ((h.nodup hNodup).subperm (h.subset hLive)).length_le
  rw [List.Forall₂.length_eq h]
  simpa [Graph.refs] using hLength

/-- If there are as many objects as instances, every instance is that of an
object. -/
theorem Binds.isBound (h : live.Binds records refs) (hLive : live.WellFormed)
    (hNodup : (records.map Record.object).Nodup) (hSize : live.graph.size = records.length)
    {ref : Ref} (hLt : ref.index < live.graph.size) : ∃ id, live.ids.objectId? ref = some id := by
  have hSub := (h.nodup hNodup).subperm (h.subset hLive)
  have hLength : live.graph.refs.length ≤ refs.length := by
    rw [← List.Forall₂.length_eq h, ← hSize]
    simp [Graph.refs]
  have hRef : ref ∈ refs := (hSub.perm_of_length_le hLength).mem_iff.2 (Graph.mem_refs.2 hLt)
  obtain ⟨r, -, hId⟩ := forall₂_exists_left h hRef
  exact ⟨r.object, hId⟩

end Live

/-! ## Opening the store again -/

namespace Registry

/-- The registry, bound to another dictionary. -/
def rebind (registry : Registry ι) (bound : Option BoundDictionary) : Registry ι :=
  { registry with bound }

/-- All object handlers of a registry accept what they have written. -/
def Reconstructs [Instance ι] (registry : Registry ι) : Prop :=
  ∀ id h, registry.handler? id = some (.object h) → h.Reconstructs

theorem WellFormed.rebind (h : registry.WellFormed) (bound : Option BoundDictionary) :
    (registry.rebind bound).WellFormed := ⟨h.keyed, h.handled, h.typed⟩

end Registry

namespace Session

/-- Definitions that are known are not registered again. -/
theorem start_addTypes_known {definitions : List Definition}
    (h : ∀ definition ∈ definitions, ∃ registered,
      registry.definition? definition.id = some registered ∧
        registered.isLayoutEqual definition = true) :
    (definitions.forM fun definition => do
      let _ ← Registry.addType definition).start registry = (.ok (), registry) := by
  induction definitions with
  | nil => rfl
  | cons first rest ih =>
      obtain ⟨registered, hRegistered, hEqual⟩ := h first List.mem_cons_self
      have hRest := ih fun definition hIn => h definition (List.mem_cons_of_mem _ hIn)
      have hAdd : (Registry.addType first).start registry = (.ok (registered, true), registry) := by
        simp only [Registry.addType, Attempt.start_of, hRegistered, hEqual, if_true]
      refine Attempt.start_forM_cons_ok.2 ⟨registry, ?_, hRest⟩
      exact Attempt.start_bind_ok.2 ⟨_, registry, hAdd, rfl⟩

/-- A registry that covers a dictionary adopts it, and knows the same types
as before. -/
theorem start_adopt_known (hCovers : registry.Covers d) :
    ∃ bound, (adopt d).start registry = (.ok (), registry.rebind bound) := by
  have hValid : registry.validate d = .ok () := by
    apply Registry.validate_ok.2
    intro definition hIn existing hExisting
    obtain ⟨registered, hRegistered, hEqual⟩ := hCovers definition hIn
    rw [hExisting] at hRegistered
    cases hRegistered
    exact hEqual
  rw [start_adopt_of_valid hValid]
  by_cases hBound : registry.bound.isNone = true
  · refine ⟨some ⟨none, d⟩, ?_⟩
    have hNone : registry.bound = none := Option.isNone_iff_eq_none.1 hBound
    have hAdded : (d.definitions.filter fun definition =>
        (registry.definition? definition.id).isNone) = [] := by
      apply List.filter_eq_nil_iff.2
      intro definition hIn
      obtain ⟨registered, hRegistered, -⟩ := hCovers definition hIn
      simp [hRegistered]
    rw [if_pos hBound]
    apply Attempt.start_modify_eq_ok.2
    simp only [hNone, hAdded]
    exact bind_eq_ok.2 ⟨(), hValid, rfl⟩
  · rw [if_neg hBound]
    exact ⟨registry.bound, start_addTypes_known hCovers⟩

/-- A store that was left by a session can be opened on a registry that knows
the same types. -/
theorem openStore_again {session : Session ι} (hIntact : session.Intact registry d)
    (hSize : ∀ file, session.store.dictionaryFile = some file →
      file.size ≤ Dictionary.maxFileSize) :
    ∃ bound, (openStore session.store).start registry =
      (.ok (fresh session.store), registry.rebind bound) := by
  rcases hIntact.keeps with hFile | ⟨hNone, -⟩
  · have hDecode := Dictionary.decode_encode hIntact.proper.listed (hSize _ hFile)
    have hStored : session.store.dictionary = .ok (some d) := by
      simp only [EntityStore.dictionary, hFile, hDecode]
      rfl
    obtain ⟨bound, hAdopt⟩ := start_adopt_known hIntact.covers
    refine ⟨bound, ?_⟩
    unfold openStore
    rw [Attempt.start_lift_bind, hStored]
    exact Attempt.start_bind_ok.2 ⟨(), _, hAdopt, rfl⟩
  · exact ⟨registry.bound, start_openStore_of_no_dictionary hNone⟩

end Session

/-! ## The stored records -/

namespace History

variable [Instance ι] {h : History ι} {records : List Record}

/-- A record of the store that is about to be loaded as a new instance. -/
def Recalls (registry : Registry ι) (h : History ι) (r : Record) (p : PlannedRecord ι) : Prop :=
  p.record = r ∧ p.existing = none ∧ ∃ ref x handler derived,
    p.handler = .object handler ∧ Recorded registry h.session ref x handler derived r

/-- Every stored record is that of an instance. -/
theorem recorded_of_lists (hConsistent : h.Consistent registry)
    (hLists : h.session.store.Lists records) {r : Record} (hr : r ∈ records) :
    ∃ ref x handler derived, Recorded registry h.session ref x handler derived r := by
  have hStored := hLists.stored r hr
  obtain ⟨ref, x, hLast, hId⟩ := hConsistent.remembered r.object (by rw [hStored]; rfl)
  obtain ⟨handler, derived, r', hRecorded⟩ := hConsistent.recorded ref x hLast
  obtain ⟨g, hSaved⟩ := hRecorded.saved
  have hObject : r'.object = r.object := Option.some.inj (hSaved.object.symm.trans hId)
  have hStored' := hRecorded.stored
  rw [hObject, hStored] at hStored'
  have hSame := Chunk.encode_inj (hLists.acceptable r hr) hSaved.acceptable
    (Option.some.inj hStored')
  rw [← hSame] at hRecorded
  exact ⟨ref, x, handler, derived, hRecorded⟩

/-- The record of an instance is one of the stored records. -/
theorem mem_of_recorded (hLists : h.session.store.Lists records) {ref : Ref} {x : ι}
    {handler : ObjectHandler ι} {derived : ObjectHandler.Derived ι} {r : Record}
    (hRecorded : Recorded registry h.session ref x handler derived r) : r ∈ records := by
  have hStored := hRecorded.stored
  obtain ⟨g, hSaved⟩ := hRecorded.saved
  obtain ⟨r', hr', hObject⟩ := hLists.complete r.object (by rw [hStored]; rfl)
  have hStored' := hLists.stored r' hr'
  rw [hObject, hStored] at hStored'
  have hSame := Chunk.encode_inj hSaved.acceptable (hLists.acceptable r' hr')
    (Option.some.inj hStored')
  rw [hSame]
  exact hr'

theorem exists_planned (hConsistent : h.Consistent registry)
    (hLists : h.session.store.Lists records) :
    ∃ planned, List.Forall₂ (Recalls registry h) records planned := by
  apply forall₂_of_exists
  intro r hr
  obtain ⟨ref, x, handler, derived, hRecorded⟩ := recorded_of_lists hConsistent hLists hr
  exact ⟨⟨r, .object handler, none⟩, rfl, rfl, ref, x, handler, derived, rfl, hRecorded⟩

/-- The handler of a recorded instance is that of the type of its record. -/
theorem handler_of_recorded (hRegistry : registry.WellFormed) {ref : Ref} {x : ι}
    {handler : ObjectHandler ι} {derived : ObjectHandler.Derived ι} {r : Record}
    (hRecorded : Recorded registry h.session ref x handler derived r) :
    registry.handler? r.type = some (.object handler) := by
  obtain ⟨g, hSaved⟩ := hRecorded.saved
  exact hSaved.handler_of_type hRegistry

variable {planned : List (PlannedRecord ι)}

theorem map_record_planned (hPlanned : List.Forall₂ (Recalls registry h) records planned) :
    planned.map (·.record) = records := by
  rw [← List.map_id records]
  exact map_eq_of_forall₂ (hPlanned.flip.imp fun _ _ hRecalls => hRecalls.1)

/-- Every record passes the checks of a load. -/
theorem checked_planned (hConsistent : h.Consistent registry)
    (hLists : h.session.store.Lists records)
    (hPlanned : List.Forall₂ (Recalls registry h) records planned)
    (bound : Option BoundDictionary) :
    ∀ p ∈ planned,
      Checked (registry.rebind bound) (ObjectIds.startingAt h.session.store.next) p := by
  intro p hp
  obtain ⟨d, hIntact⟩ := hConsistent.intact
  obtain ⟨r, hr, rfl, hNone, ref, x, handler, derived, hHandler, hRecorded⟩ :=
    forall₂_exists_left hPlanned hp
  refine ⟨?_, ?_, ?_, ?_⟩
  · rw [hHandler]
    exact handler_of_recorded hIntact.wellFormed hRecorded
  · obtain ⟨definition, -, hValid, -⟩ := (hLists.validates hIntact.sound_registry hr).valid
    exact ⟨definition, hValid⟩
  · obtain ⟨g, hSaved⟩ := hRecorded.saved
    exact hIntact.live.ids.notNull _ _ ((hIntact.live.ids.inverse _ _).2 hSaved.object)
  · rw [hNone]
    simp [ObjectIds.startingAt, ObjectIds.ref?]

/-- There are no more stored objects than instances. -/
theorem length_le_size (hConsistent : h.Consistent registry)
    (hLists : h.session.store.Lists records) :
    records.length ≤ h.session.live.graph.size := by
  obtain ⟨d, hIntact⟩ := hConsistent.intact
  have hEach : ∀ r ∈ records, ∃ ref : Ref, h.session.live.ids.objectId? ref = some r.object := by
    intro r hr
    obtain ⟨ref, x, handler, derived, hRecorded⟩ := recorded_of_lists hConsistent hLists hr
    obtain ⟨g, hSaved⟩ := hRecorded.saved
    exact ⟨ref, hSaved.object⟩
  obtain ⟨refs, hRefs⟩ := forall₂_of_exists hEach
  have hBinds : h.session.live.Binds records refs := hRefs
  exact hBinds.length_le hIntact.live hLists.nodup

/-! ## Loading the stored records -/

/-- Every stored object is known if all planned ones are. -/
theorem known_of_stored (hLists : h.session.store.Lists records)
    (hPlanned : List.Forall₂ (Recalls registry h) records planned) {ids : ObjectIds}
    (hKnown : ∀ p ∈ planned, ∃ ref, ids.ref? p.record.object = some ref) {id : ObjectId}
    (hStored : (h.session.store.record? id).isSome = true) : ∃ ref, ids.ref? id = some ref := by
  obtain ⟨r, hr, rfl⟩ := hLists.complete id hStored
  obtain ⟨p, hp, rfl, -⟩ := forall₂_exists_right hPlanned hr
  exact hKnown p hp

/-- The references of a recorded instance lead to the counterparts of what
it refers to, once all stored objects are known. -/
theorem leads_recorded (hConsistent : h.Consistent registry)
    (hLists : h.session.store.Lists records)
    (hPlanned : List.Forall₂ (Recalls registry h) records planned) {ids : ObjectIds}
    (hKnown : ∀ p ∈ planned, ∃ ref, ids.ref? p.record.object = some ref) {ref : Ref} {x : ι}
    {handler : ObjectHandler ι} {derived : ObjectHandler.Derived ι} {r : Record}
    (hRecorded : Recorded registry h.session ref x handler derived r) :
    ∀ f ∈ derived.fields, Access.Leads (resolver ids []) h.session.live.ids.nameOf
      (h.session.live.ids.across ids) (f.payload.held x) := by
  intro f hf
  obtain ⟨d, hIntact⟩ := hConsistent.intact
  obtain ⟨g, hSaved⟩ := hRecorded.saved
  apply hIntact.live.ids.leads
  intro target hTarget
  obtain ⟨id, hId⟩ := Option.isSome_iff_exists.1 (hSaved.named f hf target hTarget)
  have hStored := hRecorded.closed f hf target hTarget
  rw [ObjectIds.nameOf_of_object hId] at hStored
  obtain ⟨ref', hRef'⟩ := known_of_stored hLists hPlanned hKnown hStored
  exact ⟨id, ref', hId, (ObjectIds.across_of_object hId).trans hRef', hRef'⟩

/-- All stored objects can be loaded into an empty graph. -/
theorem loadObjects_recorded (hConsistent : h.Consistent registry) (hLawful : Lawful registry)
    (hReconstructs : registry.Reconstructs) (hLists : h.session.store.Lists records)
    (hPlanned : List.Forall₂ (Recalls registry h) records planned)
    {bound : Option BoundDictionary} {matcher : Matcher}
    (hPrepare : prepare (registry.rebind bound) (some matcher)
      (ObjectIds.startingAt h.session.store.next) h.session.store.records = .ok (planned, [])) :
    ∃ refs live, (loadObjects (registry.rebind bound) (some matcher) h.session.store.records).start
      (Session.fresh h.session.store).live = (.ok refs, live) := by
  obtain ⟨d, hIntact⟩ := hConsistent.intact
  have hFresh : (Session.fresh h.session.store : Session ι).live.WellFormed :=
    Session.wellFormed_fresh h.session.store
  have hEach : ∀ p ∈ planned, ∃ ref x handler derived, p.existing = none ∧
      p.handler = .object handler ∧
        Recorded registry h.session ref x handler derived p.record := by
    intro p hp
    obtain ⟨r, -, rfl, hNone, ref, x, handler, derived, hHandler, hRecorded⟩ :=
      forall₂_exists_left hPlanned hp
    exact ⟨ref, x, handler, derived, hNone, hHandler, hRecorded⟩
  have hLaws : Lawful (registry.rebind bound) := hLawful
  apply loadObjects_isOk hFresh hLaws hPrepare
  · intro p hp
    obtain ⟨-, -, -, -, hNone, -⟩ := hEach p hp
    exact hNone
  · have hLength := length_le_size hConsistent hLists
    have hRoom := hConsistent.room
    rw [← hPlanned.length_eq]
    show 0 + records.length ≤ Graph.capacity
    omega
  · intro p hp
    obtain ⟨ref, x, handler, derived, -, hHandler, hRecorded⟩ := hEach p hp
    obtain ⟨g, hSaved⟩ := hRecorded.saved
    have hOwn := handler_of_recorded hIntact.wellFormed hRecorded
    have hAcceptable := hSaved.acceptable
    rw [hSaved.record] at hAcceptable
    obtain ⟨y, hCreate⟩ := ObjectHandler.create_isOk (hReconstructs _ _ hOwn) hSaved.derived
      hSaved.typed hAcceptable
    rw [← hSaved.record] at hCreate
    exact ⟨handler, y, hHandler, hCreate⟩
  · intro ids hKnown p hp other y hOther hCreate
    obtain ⟨ref, x, handler, derived, -, hHandler, hRecorded⟩ := hEach p hp
    obtain ⟨g, hSaved⟩ := hRecorded.saved
    rw [hHandler] at hOther
    cases hOther
    have hLaw := hLawful _ _ (handler_of_recorded hIntact.wellFormed hRecorded)
    obtain ⟨-, -, hTyped, -⟩ := ObjectHandler.create_regular hLaw.toRegular hCreate
    have hAcceptable := hSaved.acceptable
    rw [hSaved.record] at hAcceptable ⊢
    exact ObjectHandler.connect_isOk hSaved.derived hTyped hAcceptable rfl
      (leads_recorded hConsistent hLists hPlanned hKnown hRecorded)

/-- The stored records pass all checks. -/
theorem prepare_recorded (hConsistent : h.Consistent registry)
    (hLists : h.session.store.Lists records)
    (hPlanned : List.Forall₂ (Recalls registry h) records planned)
    (bound : Option BoundDictionary) (matcher : Option Matcher) :
    prepare (registry.rebind bound) matcher (ObjectIds.startingAt h.session.store.next)
      h.session.store.records = .ok (planned, []) := by
  have hRecords := map_record_planned hPlanned
  rw [hLists.bytes, ← hRecords]
  apply prepare_join
  · intro p hp
    exact hLists.acceptable _ (hRecords ▸ List.mem_map_of_mem hp)
  · have hNodup := hLists.nodup
    rw [← hRecords, List.map_map] at hNodup
    exact hNodup
  · exact checked_planned hConsistent hLists hPlanned bound

end History

end ObjectStore
