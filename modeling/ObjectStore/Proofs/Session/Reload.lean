import ObjectStore.Proofs.Handler.Slots
import ObjectStore.Proofs.Session.Recall
import ObjectStore.Proofs.Storing.Closure

/-!
# Loading what a session has stored

A store is closed and opened again, on a registry that was built in the same
way, and everything is loaded. The graph then has one instance for every
stored object. Each of them mirrors the instance that was stored, as it was
when a store operation reached it last, and the returned roots are the
counterparts of the roots that were stored last. What the identifiers of the
instances were makes no difference, nor in which order they are loaded.

A type may have a constructor that refuses its own records. Then they are
stored, but cannot be loaded.

## Main results

* `History.restores_of_loaded`: what a load of the stored records leaves
  behind.
* `History.reloaded_run`: what is loaded mirrors what was stored.
-/

namespace ObjectStore

open Storing Loading

namespace History

variable {ι : Type} [Instance ι] {registry : Registry ι} {h : History ι} {records : List Record}
  {planned : List (PlannedRecord ι)}

/-! ## What is loaded -/

/-- The live side holds what a history remembers: one instance for every
stored object, which mirrors what was stored of it. -/
structure Restores (registry : Registry ι) (h : History ι) (live : Live ι) : Prop where
  wellFormed : live.WellFormed
  size : live.graph.size = h.session.store.size
  objects : ∀ id, (∃ ref, live.ids.ref? id = some ref) ↔
    (h.session.store.record? id).isSome = true
  instances : ∀ ref : Ref, ref.index < live.graph.size → ∃ id, live.ids.objectId? ref = some id
  remembered : ∀ id, (h.session.store.record? id).isSome = true →
    ∃ ref x, h.last ref x ∧ h.session.live.ids.objectId? ref = some id
  /-- Different instances have different counterparts. -/
  apart : ∀ ref ref' target, h.session.live.ids.across live.ids ref = some target →
    h.session.live.ids.across live.ids ref' = some target → ref = ref'
  mirrors : ∀ ref x, h.last ref x → ∃ handler ref' y,
    registry.handlerFor? (Instance.runtimeType x) = some (.object handler) ∧
      h.session.live.ids.across live.ids ref = some ref' ∧ live.graph.get? ref' = some y ∧
      Instance.runtimeType y = Instance.runtimeType x ∧
      ∀ field ∈ handler.fields, field.access.Mirrors (h.session.live.ids.across live.ids) x y

section

variable {bound : Option BoundDictionary} {matcher : Matcher} {refs : List Ref} {live : Live ι}

/-- The instance of a planned record mirrors the one that was recorded. -/
theorem mirrors_of_reflects (hConsistent : h.Consistent registry)
    (hLists : h.session.store.Lists records)
    (hPlanned : List.Forall₂ (Recalls registry h) records planned)
    (hKnown : ∀ p ∈ planned, ∃ ref, live.ids.ref? p.record.object = some ref)
    {p : PlannedRecord ι} {ref ref' : Ref} {x y : ι} {handler handler' : ObjectHandler ι}
    {derived derived' : ObjectHandler.Derived ι}
    (hRecorded : Recorded registry h.session ref x handler derived p.record)
    (hHandler : registry.handler? p.record.type = some p.handler)
    (hReflects : Reflects (resolver live.ids []) live.graph p ref' handler' derived' y) :
    Instance.runtimeType y = Instance.runtimeType x ∧
      ∀ field ∈ handler.fields,
        field.access.Mirrors (h.session.live.ids.across live.ids) x y := by
  obtain ⟨d, hIntact⟩ := hConsistent.intact
  obtain ⟨g, hSaved⟩ := hRecorded.saved
  rw [handler_of_recorded hIntact.wellFormed hRecorded, hReflects.handler] at hHandler
  cases hHandler
  have hDerived := hReflects.derived
  rw [hSaved.derived] at hDerived
  cases hDerived
  have hLeads := leads_recorded hConsistent hLists hPlanned hKnown hRecorded
  have hAcceptable := hSaved.acceptable
  have hHolds := hReflects.holds
  rw [hSaved.record] at hAcceptable hHolds
  exact ⟨hReflects.typed.trans hSaved.typed.symm,
    ObjectHandler.mirrors_of_holdsAll hSaved.derived hAcceptable rfl hLeads hHolds⟩

/-- What is known of the instances once the planned records were loaded. -/
structure Loaded (h : History ι) (records : List Record) (planned : List (PlannedRecord ι))
    (refs : List Ref) (live : Live ι) : Prop where
  wellFormed : live.WellFormed
  size : live.graph.size = records.length
  objects : ∀ id ref, live.ids.ref? id = some ref → id ∈ records.map Record.object
  binds : live.Binds records refs
  reflects : List.Forall₂ (fun p ref => live.ids.ref? p.record.object = some ref ∧
    ∃ handler derived x, Reflects (resolver live.ids []) live.graph p ref handler derived x)
      planned refs

theorem Loaded.known (hLoaded : Loaded h records planned refs live) :
    ∀ p ∈ planned, ∃ ref, live.ids.ref? p.record.object = some ref := by
  intro p hp
  obtain ⟨ref, -, hRef, -⟩ := forall₂_exists_right hLoaded.reflects hp
  exact ⟨ref, hRef⟩

theorem loaded_of_loadObjects (hLawful : Lawful registry)
    (hPlanned : List.Forall₂ (Recalls registry h) records planned)
    (hPrepare : prepare (registry.rebind bound) (some matcher)
      (ObjectIds.startingAt h.session.store.next) h.session.store.records = .ok (planned, []))
    (hLoad : (loadObjects (registry.rebind bound) (some matcher) h.session.store.records).start
      (Session.fresh h.session.store).live = (.ok refs, live)) :
    Loaded h records planned refs live := by
  have hFresh : (Session.fresh h.session.store : Session ι).live.WellFormed :=
    Session.wellFormed_fresh h.session.store
  have hLaws : Lawful (registry.rebind bound) := hLawful
  obtain ⟨planned', dropped, s, g, hPrepare', hPerformed⟩ := performed_of_loadObjects hFresh hLoad
  obtain ⟨rfl, rfl⟩ := Prod.mk.inj (Except.ok.inj (hPrepare.symm.trans hPrepare'))
  have hRecords := map_record_planned hPlanned
  have hObjects : planned.map (·.record.object) = records.map Record.object := by
    rw [← hRecords, List.map_map]
    rfl
  have hLive := hPerformed.wellFormed
  have hReflects := hPerformed.reflected hLaws
  refine ⟨hLive, ?_, ?_, ?_, hReflects⟩
  · have hNew : ∀ p ∈ planned, p.existing = none := by
      intro p hp
      obtain ⟨-, -, -, hNone, -⟩ := forall₂_exists_left hPlanned hp
      exact hNone
    rw [hPerformed.size_of_new hNew, hPlanned.length_eq, hPerformed.placed.length_eq]
    exact Nat.zero_add _
  · intro id ref hRef
    rcases hPerformed.isBound_iff.1 ⟨ref, hRef⟩ with ⟨ref', hBefore⟩ | hIn
    · rw [Session.fresh, ObjectIds.ref?_startingAt] at hBefore
      cases hBefore
    · rwa [hObjects] at hIn
  · rw [← hRecords, Live.Binds, List.forall₂_map_left_iff]
    exact hReflects.imp fun p ref hPair => (hLive.ids.inverse _ _).1 hPair.1

/-- What a load of the stored records leaves behind. -/
theorem restores_of_loaded (hConsistent : h.Consistent registry)
    (hLists : h.session.store.Lists records)
    (hPlanned : List.Forall₂ (Recalls registry h) records planned)
    (hLoaded : Loaded h records planned refs live) : Restores registry h live := by
  obtain ⟨d, hIntact⟩ := hConsistent.intact
  refine ⟨hLoaded.wellFormed, hLoaded.size.trans hLists.size, ?_, ?_, hConsistent.remembered, ?_,
    ?_⟩
  · intro id
    constructor
    · rintro ⟨ref, hRef⟩
      obtain ⟨r, hr, rfl⟩ := List.mem_map.1 (hLoaded.objects id ref hRef)
      rw [hLists.stored r hr]
      rfl
    · exact known_of_stored hLists hPlanned hLoaded.known
  · intro ref hLt
    exact hLoaded.binds.isBound hLoaded.wellFormed hLists.nodup hLoaded.size hLt
  · intro ref ref' target hTarget hTarget'
    exact hIntact.live.ids.across_inj hLoaded.wellFormed.ids hTarget hTarget'
  · intro ref x hLast
    obtain ⟨handler, derived, r, hRecorded⟩ := hConsistent.recorded ref x hLast
    obtain ⟨g, hSaved⟩ := hRecorded.saved
    obtain ⟨p, hp, rfl, -⟩ := forall₂_exists_right hPlanned (mem_of_recorded hLists hRecorded)
    obtain ⟨ref', -, hRef', handler', derived', y, hReflects⟩ :=
      forall₂_exists_right hLoaded.reflects hp
    have hHandler := (checked_planned hConsistent hLists hPlanned none p hp).handler
    obtain ⟨hTyped, hMirrors⟩ :=
      mirrors_of_reflects hConsistent hLists hPlanned hLoaded.known hRecorded hHandler hReflects
    exact ⟨handler, ref', y, hSaved.handler, (ObjectIds.across_of_object hSaved.object).trans hRef',
      hReflects.get, hTyped, hMirrors⟩

/-- The stored roots lead to the counterparts of the last roots. -/
theorem Restores.roots (hRestores : Restores registry h live)
    (hConsistent : h.Consistent registry) :
    ∃ refs, h.session.store.roots.mapM (Session.rootRef live.ids) = .ok refs ∧
      refs.map some = h.roots.map (h.session.live.ids.across live.ids) := by
  obtain ⟨d, hIntact⟩ := hConsistent.intact
  have hEach : ∀ root ∈ h.roots, ∃ ref,
      Session.rootRef live.ids (h.session.live.ids.nameOf root) = .ok ref ∧
        some ref = h.session.live.ids.across live.ids root := by
    intro root hRoot
    obtain ⟨id, hId⟩ := Option.isSome_iff_exists.1 (hConsistent.named root hRoot)
    have hName := ObjectIds.nameOf_of_object hId
    have hStored : (h.session.store.record? id).isSome = true := by
      apply hIntact.sound.roots
      rw [hConsistent.roots, ← hName]
      exact List.mem_map_of_mem hRoot
    obtain ⟨ref, hRef⟩ := (hRestores.objects id).2 hStored
    refine ⟨ref, ?_, ?_⟩
    · simp only [Session.rootRef, hName, hRef]
    · rw [ObjectIds.across_of_object hId, hRef]
  obtain ⟨refs, hRefs⟩ := forall₂_of_exists hEach
  refine ⟨refs, ?_, map_eq_of_forall₂ (hRefs.flip.imp fun _ _ hPair => hPair.2)⟩
  rw [hConsistent.roots]
  exact mapM_eq_ok.2 (List.forall₂_map_left_iff.2 (hRefs.imp fun _ _ hPair => hPair.1))

end

/-! ## Closing and opening again -/

/-- The store that a history leaves is opened from its tables with one
registry, and everything in it is loaded. -/
structure Reloaded (registry registry' : Registry ι) (h : History ι) (session : Session ι)
    (roots : List Ref) : Prop where
  opened : (Session.openStore (.opened h.session.store.toStoreTables)).start registry =
    (.ok (Session.fresh (.opened h.session.store.toStoreTables)), registry')
  loaded : (Session.loadRoots registry').start
    (Session.fresh (.opened h.session.store.toStoreTables)) = (.ok roots, session)
  restores : Restores registry h session.live
  roots : roots.map some = h.roots.map (h.session.live.ids.across session.live.ids)

theorem reloaded_of_consistent (hConsistent : h.Consistent registry) (hLawful : Lawful registry)
    (hReconstructs : registry.Reconstructs)
    (hSize : ∀ file, h.session.store.dictionaryFile = some file →
      file.size ≤ Dictionary.maxFileSize) :
    ∃ registry' session roots, Reloaded registry registry' h session roots := by
  obtain ⟨d, hIntact⟩ := hConsistent.intact
  obtain ⟨bound, hOpen⟩ := Session.openStore_again hIntact hSize
  obtain ⟨records, hLists⟩ := hIntact.sound.lists
  obtain ⟨planned, hPlanned⟩ := exists_planned hConsistent hLists
  have hPrepare := fun matcher => prepare_recorded hConsistent hLists hPlanned bound (some matcher)
  obtain ⟨loaded, live, hLoad⟩ := loadObjects_recorded hConsistent hLawful hReconstructs hLists
    hPlanned (hPrepare _)
  have hAll := loaded_of_loadObjects hLawful hPlanned (hPrepare _) hLoad
  have hRestores := restores_of_loaded hConsistent hLists hPlanned hAll
  obtain ⟨roots, hRoots, hSame⟩ := hRestores.roots hConsistent
  obtain ⟨session, rfl, hLoaded⟩ : ∃ session : Session ι, session.live = live ∧
      (Session.loadRoots (registry.rebind bound)).start (Session.fresh h.session.store) =
        (.ok roots, session) := by
    refine ⟨{ Session.fresh h.session.store with live }, rfl,
      (Session.start_loadRoots hLoad).trans (Prod.ext ?_ rfl)⟩
    exact bind_eq_ok.2 ⟨loaded, rfl, bind_eq_ok.2 ⟨_, hIntact.sound.readable, hRoots⟩⟩
  have hReopened := h.session.store.opened_toStoreTables
  refine ⟨registry.rebind bound, session, roots, ?_, ?_, hRestores, hSame⟩
  · rw [hReopened]
    exact hOpen
  · rw [hReopened]
    exact hLoaded

/-- What a session has stored can be loaded again with a registry that was
built in the same way, and what is loaded mirrors it. -/
theorem reloaded_run (registrations : List (Registration ι)) (works : List (Work ι))
    (hLawful : Lawful (Registry.build registrations))
    (hReconstructs : (Registry.build registrations).Reconstructs)
    (hSize : ∀ file,
      (run (Registry.build registrations) works).session.store.dictionaryFile = some file →
        file.size ≤ Dictionary.maxFileSize) :
    ∃ registry session roots, Reloaded (Registry.build registrations) registry
      (run (Registry.build registrations) works) session roots :=
  reloaded_of_consistent (consistent_run (Registry.wellFormed_build registrations) works) hLawful
    hReconstructs hSize

end History

/-! ## People who are constructed from their records -/

namespace Slots

open History

/-- People that are constructed in another way. -/
def personFrom (construction : Construction Slots) : ObjectHandler Slots :=
  { person with construction }

/-- The registration of people that are constructed in this way. -/
def peopleFrom (construction : Construction Slots) : List (Registration Slots) :=
  [.handler ⟨0, .object (personFrom construction)⟩]

/-- The dictionary of people, which does not depend on how they are
constructed. -/
def peopleTypes : Dictionary := people.snapshot.toOption.getD Dictionary.empty

theorem length_peopleTypes : peopleTypes.encode.length ≤ Dictionary.maxFileSize := by
  decide +kernel

section

variable (construction : Construction Slots)

theorem snapshot_peopleFrom :
    (Registry.build (peopleFrom construction)).snapshot = .ok peopleTypes := by
  have hPeople : people.snapshot = .ok peopleTypes := rfl
  exact hPeople

theorem handler_peopleFrom {id : TypeId} {h : ObjectHandler Slots}
    (hHandler : (Registry.build (peopleFrom construction)).handler? id = some (.object h)) :
    h = personFrom construction := by
  have hAll : (Registry.build (peopleFrom construction)).allHandlers =
      [.object (personFrom construction)] := rfl
  cases Registry.eq_of_handler? hAll hHandler
  rfl

theorem lawful_peopleFrom (hLawful : (personFrom construction).Lawful) :
    Lawful (Registry.build (peopleFrom construction)) := by
  intro id h hHandler
  rw [handler_peopleFrom construction hHandler]
  exact hLawful

end

/-- A constructor that takes the age of a person. -/
def byAge : Construction Slots :=
  .fromValues fun values => do
    let age ← values.value .u32 "age"
    return (blank ⟨"Person"⟩).set "age" (.code (PrimitiveKind.code .u32 age))

/-- The registration of people who are constructed by their age. -/
def ageing : List (Registration Slots) := peopleFrom byAge

/-- A person of an age, who has a friend. -/
def aged (age : Nat) (friend : Ref) : Slots :=
  ⟨⟨"Person"⟩, [("age", .code age), ("friend", .reference (some friend))]⟩

/-- Two people become friends and are stored. The first one has a birthday,
and both are stored again. The birthday of the second one comes too late, and
somebody unknown cannot be stored. -/
def friendship : List (Work Slots) :=
  [.insert (blank ⟨"Person"⟩), .insert (aged 40 ⟨0⟩),
    .change ⟨"Person"⟩ ⟨0⟩ (fun _ => aged 30 ⟨1⟩), .storeRoots [⟨0⟩],
    .change ⟨"Person"⟩ ⟨0⟩ (fun _ => aged 31 ⟨1⟩), .storeRoots [⟨1⟩, ⟨0⟩, ⟨1⟩],
    .change ⟨"Person"⟩ ⟨1⟩ (fun _ => aged 41 ⟨0⟩), .storeRoots [⟨7⟩]]

/-- The graph of the two at their ages. -/
def atAges (first second : Nat) : Graph Slots := ⟨#[aged first ⟨1⟩, aged second ⟨0⟩]⟩

/-- The record of the first person at an age. -/
def firstRecord (age : UInt8) : Record :=
  ⟨⟨1000⟩, ⟨1⟩, [age, 0, 0, 0, 2, 0, 0, 0, 0, 0, 0, 0]⟩

/-- The record of the second person. -/
def secondRecord : Record := ⟨⟨1000⟩, ⟨2⟩, [40, 0, 0, 0, 1, 0, 0, 0, 0, 0, 0, 0]⟩

theorem acceptable_firstRecord (age : UInt8) : Chunk.Acceptable (firstRecord age) := by
  show 12 ≤ maxContentLength.toNat
  decide

theorem acceptable_secondRecord : Chunk.Acceptable secondRecord := by
  show 12 ≤ maxContentLength.toNat
  decide

/-- The session of the two before they are stored. -/
def acquaintance : Session Slots :=
  { (Session.fresh EntityStore.empty : Session Slots) with
    live := ⟨atAges 30 40, ObjectIds.startingAt EntityStore.empty.next⟩ }

/-- The session once both have been stored and the first one is a year
older. -/
def birthday : Session Slots :=
  { acquaintance.stored coupleIds [firstRecord 30, secondRecord] [⟨1⟩] peopleTypes with
    live := ⟨atAges 31 40, coupleIds⟩ }

/-- The session once both have been stored again. -/
def anniversary : Session Slots :=
  birthday.stored coupleIds [secondRecord, firstRecord 31] [⟨2⟩, ⟨1⟩, ⟨2⟩] peopleTypes

theorem storeObjects_acquaintance :
    (storeObjects (Registry.build ageing) (atAges 30 40) [⟨0⟩]).start (ObjectIds.startingAt 1) =
      (.ok ⟨Chunk.join [firstRecord 30, secondRecord], [⟨1⟩], 2⟩, coupleIds) := by
  have hNetwork : ((atAges 30 40).network (Registry.build ageing)).successors ⟨0⟩ = .ok [⟨1⟩] := rfl
  have hOrder : BreadthFirst ((atAges 30 40).network (Registry.build ageing)) {} [⟨0⟩]
      [⟨0⟩, ⟨1⟩] := by
    refine BreadthFirst.of_met (by decide) fun ref hRef => ?_
    have hFirst : Reachable ((atAges 30 40).network (Registry.build ageing)) {} [⟨0⟩] ⟨0⟩ :=
      Reachable.root List.mem_cons_self rfl
    rcases List.mem_pair.1 hRef with rfl | rfl
    · exact hFirst
    · exact Reachable.step hFirst rfl hNetwork List.mem_cons_self rfl
  have hVisits : Visits {} (visitor (Registry.build ageing) (atAges 30 40))
      ⟨(ObjectIds.startingAt 1).extend ⟨1⟩ ⟨0⟩ 2, [⟨1⟩], #[]⟩ [⟨0⟩, ⟨1⟩]
      ⟨coupleIds, [⟨1⟩, ⟨2⟩], #[(firstRecord 30).encode, secondRecord.encode]⟩ :=
    Visits.cons rfl (Visits.cons rfl (Visits.nil _))
  refine storeObjects_of_visits rfl hOrder hVisits ?_
  intro ref hRef
  rcases List.mem_pair.1 hRef with rfl | rfl <;> exact ⟨_, rfl⟩

theorem storeObjects_birthday :
    (storeObjects (Registry.build ageing) (atAges 31 40) [⟨1⟩, ⟨0⟩, ⟨1⟩]).start coupleIds =
      (.ok ⟨Chunk.join [secondRecord, firstRecord 31], [⟨2⟩, ⟨1⟩, ⟨2⟩], 2⟩, coupleIds) := by
  have hOrder : BreadthFirst ((atAges 31 40).network (Registry.build ageing)) {}
      [⟨1⟩, ⟨0⟩, ⟨1⟩] [⟨1⟩, ⟨0⟩] := by
    refine BreadthFirst.of_met (by decide) fun ref hRef => Reachable.root ?_ rfl
    rcases List.mem_pair.1 hRef with rfl | rfl <;> decide
  have hVisits : Visits {} (visitor (Registry.build ageing) (atAges 31 40))
      ⟨coupleIds, [], #[]⟩ [⟨1⟩, ⟨0⟩]
      ⟨coupleIds, [], #[secondRecord.encode, (firstRecord 31).encode]⟩ :=
    Visits.cons rfl (Visits.cons rfl (Visits.nil _))
  refine storeObjects_of_visits rfl hOrder hVisits ?_
  intro ref hRef
  rcases List.mem_pair.1 hRef with rfl | rfl <;> exact ⟨_, rfl⟩

/-- The history of the two once they have become friends. -/
def befriended : History Slots := ⟨acquaintance, fun _ _ => False, []⟩

theorem step_befriended :
    befriended.step (Registry.build ageing) (.storeRoots [⟨0⟩]) =
      ⟨acquaintance.stored coupleIds [firstRecord 30, secondRecord] [⟨1⟩] peopleTypes,
        remember (Registry.build ageing) (atAges 30 40) [⟨0⟩] befriended.last, [⟨0⟩]⟩ := by
  have hStart := @Session.start_storeRoots_ok _ _ _ acquaintance _ _ _ _ _
    storeObjects_acquaintance (snapshot_peopleFrom byAge)
    (Chunk.split_join (List.forall_mem_cons.2
      ⟨acceptable_firstRecord 30, List.forall_mem_singleton.2 acceptable_secondRecord⟩))
    (RootList.fits_of_length (by decide))
  simp only [befriended, step, hStart]
  rfl

theorem step_birthday (last : Ref → Slots → Prop) (roots : List Ref) :
    (⟨birthday, last, roots⟩ : History Slots).step (Registry.build ageing)
        (.storeRoots [⟨1⟩, ⟨0⟩, ⟨1⟩]) =
      ⟨anniversary, remember (Registry.build ageing) (atAges 31 40) [⟨1⟩, ⟨0⟩, ⟨1⟩] last,
        [⟨1⟩, ⟨0⟩, ⟨1⟩]⟩ := by
  have hStart := @Session.start_storeRoots_ok _ _ _ birthday _ _ _ _ _
    storeObjects_birthday (snapshot_peopleFrom byAge)
    (Chunk.split_join (List.forall_mem_cons.2
      ⟨acceptable_secondRecord, List.forall_mem_singleton.2 (acceptable_firstRecord 31)⟩))
    (RootList.fits_of_length (by decide))
  simp only [step, hStart]
  rfl

/-- What the history of the two comes to. -/
theorem run_friendship : ∃ before, run (Registry.build ageing) friendship =
    ⟨{ anniversary with live := ⟨atAges 31 41, coupleIds⟩ },
      remember (Registry.build ageing) (atAges 31 40) [⟨1⟩, ⟨0⟩, ⟨1⟩] before,
      [⟨1⟩, ⟨0⟩, ⟨1⟩]⟩ := by
  refine ⟨remember (Registry.build ageing) (atAges 30 40) [⟨0⟩] befriended.last, ?_⟩
  have hMet : (((initial.step (Registry.build ageing) (.insert (blank ⟨"Person"⟩))).step
      (Registry.build ageing) (.insert (aged 40 ⟨0⟩))).step (Registry.build ageing)
        (.change ⟨"Person"⟩ ⟨0⟩ fun _ => aged 30 ⟨1⟩)) = befriended := rfl
  have hYear : ∀ last roots, (⟨acquaintance.stored coupleIds [firstRecord 30, secondRecord] [⟨1⟩]
      peopleTypes, last, roots⟩ : History Slots).step (Registry.build ageing)
        (.change ⟨"Person"⟩ ⟨0⟩ fun _ => aged 31 ⟨1⟩) = ⟨birthday, last, roots⟩ :=
    fun _ _ => rfl
  have hLate : ∀ last roots, (⟨anniversary, last, roots⟩ : History Slots).step
      (Registry.build ageing) (.change ⟨"Person"⟩ ⟨1⟩ fun _ => aged 41 ⟨0⟩) =
        ⟨{ anniversary with live := ⟨atAges 31 41, coupleIds⟩ }, last, roots⟩ := fun _ _ => rfl
  have hUnknown : ∀ last roots, (⟨{ anniversary with live := ⟨atAges 31 41, coupleIds⟩ }, last,
      roots⟩ : History Slots).step (Registry.build ageing) (.storeRoots [⟨7⟩]) =
        ⟨{ anniversary with live := ⟨atAges 31 41, coupleIds⟩ }, last, roots⟩ := fun _ _ => rfl
  simp only [run, friendship, List.foldl_cons, List.foldl_nil, hMet, step_befriended, hYear,
    step_birthday, hLate, hUnknown]

theorem lawful_byAge : (personFrom byAge).Lawful :=
  { lawful_person with
    built := by
      intro values x hx
      obtain ⟨v, -, hDone⟩ := bind_eq_ok.1 hx
      cases hDone
      rfl }

theorem lawful_ageing : Lawful (Registry.build ageing) := lawful_peopleFrom byAge lawful_byAge

/-- The constructor finds the age in every record that is written. -/
theorem reconstructs_ageing : (Registry.build ageing).Reconstructs := by
  intro id h hHandler construct hConstruction d name object x hDerived hTyped hAcceptable
  cases handler_peopleFrom byAge hHandler
  cases hConstruction
  obtain ⟨d', hSame, f, hf, hAccess, hFirst⟩ : ∃ d', (personFrom byAge).derived = .ok d' ∧
      ∃ f ∈ d'.fields, f.payload = access "age" true (.primitive .u32) ∧
        d'.definition.members.find? (·.id.name = "age") = some f.member :=
    ⟨_, rfl, _, List.mem_cons_self, rfl, rfl⟩
  cases hDerived.symm.trans hSame
  have hValue := ObjectHandler.value_recordOf hDerived hAcceptable hf hAccess hFirst
  exact ⟨_, bind_eq_ok.2 ⟨_, hValue, rfl⟩⟩

/-- A person who was reached last is loaded with the same age, and with the
counterpart of the same friend. -/
theorem person_of_restores {h : History Slots} {live : Live Slots}
    (hRestores : Restores (Registry.build ageing) h live) {ref friend : Ref} {age : Nat}
    (hLast : h.last ref (aged age friend)) : ∃ ref' friend' y,
      h.session.live.ids.across live.ids ref = some ref' ∧
      h.session.live.ids.across live.ids friend = some friend' ∧
      live.graph.get? ref' = some y ∧
      y.primitive .u32 "age" = (aged age friend).primitive .u32 "age" ∧
      y.value .reference "friend" = .reference (some friend') := by
  obtain ⟨handler, ref', y, hHandler, hAcross, hGet, -, hMirrors⟩ := hRestores.mirrors ref _ hLast
  have hPerson : (Registry.build ageing).handlerFor? ⟨"Person"⟩ =
      some (.object (personFrom byAge)) := rfl
  cases hPerson.symm.trans hHandler
  have hAge := hMirrors ⟨MemberId.unqualified "age", none, access "age" true (.primitive .u32)⟩
    List.mem_cons_self
  have hFriend := hMirrors ⟨MemberId.unqualified "friend", none, access "friend" true .reference⟩
    (List.mem_cons_of_mem _ List.mem_cons_self)
  simp only [access, Access.Mirrors] at hAge hFriend
  have hHeld : (aged age friend).value .reference "friend" = .reference (some friend) := rfl
  rw [hHeld] at hFriend
  split at hFriend
  · rename_i target hValue
    cases target with
    | none => cases hFriend
    | some friend' =>
        have hTarget : some friend' = h.session.live.ids.across live.ids friend :=
          Option.some.inj hFriend
        exact ⟨ref', friend', y, hAcross, hTarget.symm, hGet, hAge, hValue⟩
  · cases hFriend

/-- Both friends are loaded again as they were when they were stored last:
the first one after the birthday and the second one before it. -/
theorem reloaded_run_person :
    Lawful (Registry.build ageing) ∧ (Registry.build ageing).Reconstructs ∧
      (∀ file, (run (Registry.build ageing) friendship).session.store.dictionaryFile = some file →
        file.size ≤ Dictionary.maxFileSize) ∧
      ∃ registry session first second x y,
        Reloaded (Registry.build ageing) registry (run (Registry.build ageing) friendship) session
          [second, first, second] ∧
        session.live.graph.size = 2 ∧
        session.live.graph.get? first = some x ∧ session.live.graph.get? second = some y ∧
        x.primitive .u32 "age" = 31 ∧ x.value .reference "friend" = .reference (some second) ∧
        y.primitive .u32 "age" = 40 ∧ y.value .reference "friend" = .reference (some first) := by
  obtain ⟨before, hRun⟩ := run_friendship
  have hSize : ∀ file, (run (Registry.build ageing) friendship).session.store.dictionaryFile =
      some file → file.size ≤ Dictionary.maxFileSize := by
    intro file hFile
    rw [hRun] at hFile
    cases hFile
    exact length_peopleTypes
  obtain ⟨registry, session, roots, hReloaded⟩ :=
    reloaded_run ageing friendship lawful_ageing reconstructs_ageing hSize
  refine ⟨lawful_ageing, reconstructs_ageing, hSize, registry, session, ?_⟩
  rw [hRun] at hReloaded ⊢
  have hReached : ∀ ref ∈ ([⟨1⟩, ⟨0⟩, ⟨1⟩] : List Ref), Reachable
      ((atAges 31 40).network (Registry.build ageing)) {} [⟨1⟩, ⟨0⟩, ⟨1⟩] ref :=
    fun ref hRef => Reachable.root hRef rfl
  obtain ⟨first, second, x, hAcross, hAcross', hX, hAge, hFriend⟩ :=
    person_of_restores hReloaded.restores (Or.inl ⟨hReached ⟨0⟩ (by decide), rfl⟩)
  obtain ⟨second', first', y, hOther', hOther, hY, hAge', hFriend'⟩ :=
    person_of_restores hReloaded.restores (Or.inl ⟨hReached ⟨1⟩ (by decide), rfl⟩)
  cases hAcross.symm.trans hOther
  cases hAcross'.symm.trans hOther'
  have hRoots := hReloaded.roots
  simp only [List.map_cons, List.map_nil, hAcross, hAcross'] at hRoots
  have hSame : roots = [second, first, second] :=
    List.map_injective_iff.2 (Option.some_injective Ref) hRoots
  subst hSame
  have hTwo : session.live.graph.size = 2 := by
    rw [hReloaded.restores.size]
    rfl
  exact ⟨first, second, x, y, hReloaded, hTwo, hX, hY, hAge.trans (by decide), hFriend,
    hAge'.trans (by decide), hFriend'⟩

/-! ## People whose constructor refuses them -/

/-- One person is inserted and stored. -/
def birth : List (Work Slots) := [.insert (blank ⟨"Person"⟩), .storeRoots [⟨0⟩]]

/-- The session in which one person was inserted. -/
def nursery : Session Slots :=
  { (Session.fresh EntityStore.empty : Session Slots) with
    live := ⟨Graph.empty.push (blank ⟨"Person"⟩), ObjectIds.startingAt EntityStore.empty.next⟩ }

/-- The identifiers once that person has one. -/
def firstIds : ObjectIds := ((ObjectIds.ensure ⟨0⟩).start nursery.live.ids).2

/-- The record of that person. -/
def blankPerson : Record := ⟨⟨1000⟩, ⟨1⟩, List.replicate 12 0⟩

/-- A constructor that asks for a member that people do not have. -/
def byHeight : Construction Slots :=
  .fromValues fun values => (values.value .u32 "height").map fun _ => blank ⟨"Person"⟩

theorem lawful_byHeight : (personFrom byHeight).Lawful :=
  { lawful_person with
    built := by
      intro values x hx
      obtain ⟨v, -, rfl⟩ := map_eq_ok.1 hx
      rfl }

theorem acceptable_blankPerson : Chunk.Acceptable blankPerson := by
  show 12 ≤ maxContentLength.toNat
  decide

theorem run_birth : (run (Registry.build (peopleFrom byHeight)) birth).session =
    nursery.stored firstIds [blankPerson] [⟨1⟩] peopleTypes := by
  have hStore : (storeObjects (Registry.build (peopleFrom byHeight)) nursery.live.graph
      [⟨0⟩]).start nursery.live.ids = (.ok ⟨Chunk.join [blankPerson], [⟨1⟩], 1⟩, firstIds) :=
    storeObjects_single [⟨1⟩] rfl rfl rfl
  have hStart := Session.start_storeRoots_ok hStore (snapshot_peopleFrom byHeight)
    (Chunk.split_join (List.forall_mem_singleton.2 acceptable_blankPerson))
    (RootList.fits_of_length (by decide))
  have hRun : run (Registry.build (peopleFrom byHeight)) birth =
      (⟨nursery, fun _ _ => False, []⟩ : History Slots).step
        (Registry.build (peopleFrom byHeight)) (.storeRoots [⟨0⟩]) := rfl
  rw [hRun]
  simp only [step, hStart]

theorem prepare_blankPerson (bound : Option BoundDictionary) (matcher : Option Matcher) :
    prepare ((Registry.build (peopleFrom byHeight)).rebind bound) matcher
      (ObjectIds.startingAt firstIds.next) (Chunk.join [blankPerson]) =
        .ok ([⟨blankPerson, .object (personFrom byHeight), none⟩], []) := by
  have hNotNull : blankPerson.object ≠ ObjectId.null := by decide
  exact @prepare_join _ _ _ _ [⟨blankPerson, .object (personFrom byHeight), none⟩]
    (List.forall_mem_singleton.2 acceptable_blankPerson) (List.nodup_singleton _)
    (List.forall_mem_singleton.2 ⟨rfl, ⟨_, rfl⟩, hNotNull, rfl⟩)

/-- The record is refused by the constructor. -/
theorem loadObjects_byHeight (bound : Option BoundDictionary) (matcher : Matcher) :
    ∃ e, ((loadObjects ((Registry.build (peopleFrom byHeight)).rebind bound) (some matcher)
      (nursery.stored firstIds [blankPerson] [⟨1⟩] peopleTypes).store.records).start
      (Session.fresh (nursery.stored firstIds [blankPerson] [⟨1⟩] peopleTypes).store :
        Session Slots).live).1 = .error e := by
  refine ⟨.unknownField "Person" "height", ?_⟩
  have hPrepare : prepare _ (some matcher) (Session.fresh
      (nursery.stored firstIds [blankPerson] [⟨1⟩] peopleTypes).store : Session Slots).live.ids
      (nursery.stored firstIds [blankPerson] [⟨1⟩] peopleTypes).store.records = _ :=
    prepare_blankPerson bound (some matcher)
  simp only [loadObjects, Attempt.start_of, hPrepare]
  rfl

/-- Not everything that is stored can be loaded: a lawful handler may have a
constructor that refuses what the handler has written. -/
theorem not_reloaded_run_byHeight :
    ¬∀ (registrations : List (Registration Slots)) (works : List (Work Slots)),
      Lawful (Registry.build registrations) →
      (∀ file,
        (run (Registry.build registrations) works).session.store.dictionaryFile = some file →
          file.size ≤ Dictionary.maxFileSize) →
      ∃ registry session roots, Reloaded (Registry.build registrations) registry
        (run (Registry.build registrations) works) session roots := by
  intro hAll
  have hSize : ∀ file, (run (Registry.build (peopleFrom byHeight))
      birth).session.store.dictionaryFile = some file → file.size ≤ Dictionary.maxFileSize := by
    intro file hFile
    rw [run_birth] at hFile
    cases hFile
    exact length_peopleTypes
  obtain ⟨registry, session, roots, hReloaded⟩ :=
    hAll (peopleFrom byHeight) birth (lawful_peopleFrom byHeight lawful_byHeight) hSize
  have hConsistent :=
    consistent_run (Registry.wellFormed_build (peopleFrom byHeight)) (birth : List (Work Slots))
  obtain ⟨d, hIntact⟩ := hConsistent.intact
  obtain ⟨bound, hOpen⟩ := Session.openStore_again hIntact hSize
  obtain ⟨hOpened, hLoaded, -, -⟩ := hReloaded
  rw [EntityStore.opened_toStoreTables] at hOpened hLoaded
  rw [hOpened] at hOpen
  obtain ⟨-, rfl⟩ := Prod.mk.inj hOpen
  obtain ⟨_, _, hGet, hLoaded⟩ := Attempt.start_bind_ok.1 hLoaded
  cases hGet
  obtain ⟨refs, _, hLoad, -⟩ := Attempt.start_bind_ok.1 hLoaded
  obtain ⟨live, hLoad, -⟩ := Attempt.start_within_eq.1 hLoad
  rw [run_birth] at hLoad
  obtain ⟨e, hError⟩ := loadObjects_byHeight bound _
  have hBoth := hError.symm.trans (congrArg Prod.fst hLoad)
  cases hBoth

end Slots

end ObjectStore
