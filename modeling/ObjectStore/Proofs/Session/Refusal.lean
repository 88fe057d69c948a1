import ObjectStore.Proofs.Handler.Slots
import ObjectStore.Proofs.Loading.Undoing
import ObjectStore.Proofs.Migration.Evolution
import ObjectStore.Proofs.Session.Numbering

/-!
# Sessions that do not get their roots

The roots of a store are loaded in two steps. All records are loaded first,
and a load that fails gives back what it has added. Then the stored roots are
looked up, and a root whose type was removed has no instance. This is found
out too late: the operation fails, but whatever has been loaded stays.

So the roots of a new session are loaded, or nothing is, or everything is
loaded except for the objects of removed types, one of which is a root.

## Main results

* `Session.load_fresh`: which objects have an instance after a load.
* `Session.load_refused`: a load that fails changes nothing.
* `World.loadRoots_refused`: what a new session is after a failure.
-/

namespace ObjectStore

open Loading MigratedChunk

variable {ι : Type} [Instance ι]

namespace Session

variable {registry : Registry ι} {session session' : Session ι} {d : Dictionary} {refs : List Ref}
  {live : Live ι} {e : Error}

/-! ## Loads into a new session -/

/-- A load into a new session brings the stored objects whose types were not
removed, and no others. -/
theorem load_fresh {matcher : Matcher} (h : session.Intact registry d)
    (hLive : session.live = (fresh session.store).live)
    (hLoad : (loadObjects registry (some matcher) session.store.records).start session.live =
      (.ok refs, live)) :
    live.graph.size = refs.length ∧
      ∀ id, (∃ ref, live.ids.ref? id = some ref) ↔
        (session.store.record? id).isSome = true ∧
          ¬Removed registry matcher session.store.records id := by
  obtain ⟨records, hLists⟩ := h.sound.lists
  obtain ⟨planned, dropped, s, g, hPrepare, hPerformed⟩ := performed_of_loadObjects h.live hLoad
  obtain ⟨chunk, hMigrate, -, hPlan, -⟩ := prepare_eq_ok hPrepare
  obtain ⟨-, hRecords, -, hChecked⟩ := plan_eq_ok hPlan
  have hFree : ∀ id, session.live.ids.ref? id = none := by
    intro id
    rw [hLive]
    exact ObjectIds.ref?_startingAt _ id
  constructor
  · have hSize := hPerformed.size_of_new fun p hp => (hChecked p hp).existing.trans (hFree _)
    rw [hLive] at hSize
    exact hSize.trans (Nat.zero_add _)
  · intro id
    have hSplit : (Chunk.split session.store.records).records = records := by
      rw [hLists.split]
    have hMigrated := object_migrate_iff h.wellFormed (by rw [hSplit]; exact hLists.nodup)
      (hMigrate matcher rfl) id
    have hStored : (∃ r ∈ records, r.object = id) ↔ (session.store.record? id).isSome = true := by
      refine ⟨?_, hLists.complete id⟩
      rintro ⟨r, hr, rfl⟩
      rw [hLists.stored r hr]
      rfl
    rw [hSplit, hStored, ← hRecords] at hMigrated
    rw [hPerformed.isBound_iff, ← hMigrated]
    simp [hFree id]

/-- A load into a new session that fails leaves it new. -/
theorem load_refused {matcher : Option Matcher} (h : session.Intact registry d)
    (hLive : session.live = (fresh session.store).live)
    (hLoad : (loadObjects registry matcher session.store.records).start session.live =
      (.error e, live)) : live = session.live := by
  have hInside : ∀ ref id, session.live.ids.objectId? ref = some id →
      ref.index < session.live.graph.size := fun ref id hId =>
    h.live.within id ref ((h.live.ids.inverse id ref).2 hId)
  obtain ⟨hIds, hSize⟩ := loadObjects_undone h.live.ids.ordered hInside hLoad
  rw [hLive] at hIds hSize ⊢
  have hGraph : live.graph = Graph.empty := Graph.eq_empty_of_size hSize
  show (⟨live.graph, live.ids⟩ : Live ι) = _
  rw [hGraph, hIds]
  rfl

omit [Instance ι] in
theorem rootRef_eq_error {ids : ObjectIds} {root : ObjectId} (h : rootRef ids root = .error e) :
    e = .unresolvedReference root ∧ ids.ref? root = none := by
  unfold rootRef at h
  split at h
  · cases h
  · rename_i hNone
    cases h
    exact ⟨rfl, hNone⟩

/-! ## Failures -/

/-- Everything in the store has been loaded, except for the objects of removed
types. One of these is a stored root. Only the counter is what it was. -/
structure Stranded (registry : Registry ι) (matcher : Matcher) (store : EntityStore)
    (lost : ObjectId) (live : Live ι) : Prop where
  root : lost ∈ store.roots
  removed : Removed registry matcher store.records lost
  loaded : ∃ refs, (loadObjects registry (some (matcher.withThreshold matcher.threshold))
    store.records).start (fresh store).live = (.ok refs, live) ∧ live.graph.size = refs.length
  objects : ∀ id, (∃ ref, live.ids.ref? id = some ref) ↔
    (store.record? id).isSome = true ∧ ¬Removed registry matcher store.records id
  next : live.ids.next = (fresh store : Session ι).live.ids.next

/-- A failure of a new session leaves it as it was, or leaves it with all that
could be loaded. -/
theorem loadRoots_error (h : session.Intact registry d) (hNumbered : session.Numbered)
    (hLive : session.live = (fresh session.store).live)
    (hLoad : (loadRoots registry).start session = (.error e, session')) :
    session'.store = session.store ∧
      (session'.live = session.live ∨
        ∃ lost, e = .unresolvedReference lost ∧
          Stranded registry session.matcher session.store lost session'.live) := by
  cases hStart : (loadObjects registry
      (some (session.matcher.withThreshold session.matcher.threshold))
      session.store.records).start session.live with
  | mk result live =>
      rw [start_loadRoots hStart] at hLoad
      obtain ⟨hError, rfl⟩ := Prod.mk.inj hLoad
      refine ⟨rfl, ?_⟩
      cases result with
      | error e' => exact Or.inl (load_refused h hLive hStart)
      | ok refs =>
          right
          obtain ⟨hSize, hObjects⟩ := load_fresh h hLive hStart
          rw [h.sound.readable] at hError
          obtain ⟨root, hRoot, hRef⟩ := mapM_eq_error hError
          obtain ⟨hUnresolved, hNone⟩ := rootRef_eq_error hRef
          have hNext := hNumbered.next_load h hStart
          rw [hLive] at hNext
          refine ⟨root, hUnresolved, hRoot, ?_, ⟨refs, hLive ▸ hStart, hSize⟩, hObjects, hNext⟩
          refine Classical.byContradiction fun hKept => ?_
          obtain ⟨ref, hSome⟩ := (hObjects root).2 ⟨h.sound.roots root hRoot, hKept⟩
          rw [hNone] at hSome
          cases hSome

end Session

namespace World

/-- A session is opened on a store that any run has left, and its roots cannot
be loaded, however legacy members are matched. Then nothing has been loaded, or
everything except for the objects of removed types, one of which is a root.
What has been loaded stays, with its identifiers. -/
theorem loadRoots_refused (actions : List (WorldAction ι)) {number : Nat} {tables : StoreTables}
    {registry : Registry ι} {session session' : Session ι} (matcher : Matcher) {e : Error}
    (hIdle : (run actions).use = .idle tables)
    (hOpen : (Session.openStore (.opened tables)).start ((run actions).registries number) =
      (.ok session, registry))
    (hLoad : (Session.loadRoots registry).start (session.withMatcher matcher) =
      (.error e, session')) :
    session'.store = .opened tables ∧
      (session'.live = ⟨Graph.empty, ObjectIds.startingAt tables.nextId⟩ ∨
        ∃ lost, e = .unresolvedReference lost ∧
          Session.Stranded registry matcher (.opened tables) lost session'.live) := by
  obtain ⟨d, hIntact⟩ := intact_run actions
  have hOpened := hIntact.opened hIdle hOpen
  rw [Session.openStore_fresh hOpen] at hOpened hLoad
  have hStore := (numbered_run actions).store
  rw [hIdle] at hStore
  have hNumbered : (Session.fresh (.opened tables) : Session ι).Numbered :=
    Session.numbered_fresh hStore
  exact Session.loadRoots_error (hOpened.withMatcher matcher) (hNumbered.withMatcher matcher) rfl
    hLoad

end World

/-! ## A root that is no longer known -/

namespace Slots

open Session

/-- Pets with an age. -/
def pet : ObjectHandler Slots := handler ⟨1001⟩ "Pet" ⟨"Pet"⟩ [("age", .primitive .u32)]

/-- The registry that knows people and pets. -/
def household : Registry Slots :=
  Registry.build [.handler ⟨0, .object person⟩, .handler ⟨1, .object pet⟩]

/-- The registry that knows pets only. -/
def shelter : Registry Slots := Registry.build [.handler ⟨1, .object pet⟩]

/-- Someone moves in with a pet. There is a second registry, for later. -/
def movingIn : List (WorldAction Slots) :=
  [.register 0 (.handler ⟨0, .object person⟩), .register 0 (.handler ⟨1, .object pet⟩),
    .register 1 (.handler ⟨1, .object pet⟩), .openSession 0, .act (.insert (blank ⟨"Pet"⟩)),
    .act (.insert (blank ⟨"Person"⟩))]

/-- The pet is stored and then the person, so that only the person is a
root. -/
def movingOut : List (WorldAction Slots) :=
  [.act (.storeRoots [⟨0⟩]), .act (.storeRoots [⟨1⟩]), .closeSession]

/-- The session in which both live. -/
def home : Session Slots :=
  { (fresh EntityStore.empty : Session Slots) with
    live := ⟨⟨#[blank ⟨"Pet"⟩, blank ⟨"Person"⟩]⟩, ObjectIds.startingAt EntityStore.empty.next⟩ }

/-- The identifiers once the pet has one. -/
def petIds : ObjectIds := ((ObjectIds.ensure ⟨0⟩).start home.live.ids).2

/-- The identifiers once both have one. -/
def bothIds : ObjectIds := ((ObjectIds.ensure ⟨1⟩).start petIds).2

/-- The record of the pet. -/
def petRecord : Record := ⟨⟨1001⟩, ⟨1⟩, List.replicate 4 0⟩

/-- The record of the person. -/
def ownerRecord : Record := ⟨⟨1000⟩, ⟨2⟩, List.replicate 12 0⟩

/-- The dictionary of people and pets. -/
def householdTypes : Dictionary :=
  match household.snapshot with
  | .ok d => d
  | .error _ => Dictionary.empty

theorem snapshot_household : household.snapshot = .ok householdTypes := rfl

/-- The tables that they leave. -/
def leftover : StoreTables :=
  ((home.stored petIds [petRecord] [⟨1⟩] householdTypes).stored bothIds [ownerRecord] [⟨2⟩]
    householdTypes).store.toStoreTables

theorem readRoots_leftover : (EntityStore.opened leftover).readRoots = .ok [⟨2⟩] :=
  EntityStore.readRoots_of_write rfl (RootList.fits_of_length (by decide))

theorem acceptable_petRecord : Chunk.Acceptable petRecord := by
  show 4 ≤ maxContentLength.toNat
  decide

theorem acceptable_ownerRecord : Chunk.Acceptable ownerRecord := by
  show 12 ≤ maxContentLength.toNat
  decide

theorem run_moving : (World.run (movingIn ++ movingOut)).use = .idle leftover ∧
    (World.run (movingIn ++ movingOut)).registries 1 = shelter := by
  have hPet : (storeObjects household home.live.graph [⟨0⟩]).start home.live.ids =
      (.ok ⟨Chunk.join [petRecord], [⟨1⟩], 1⟩, petIds) :=
    storeObjects_single [⟨1⟩] rfl rfl rfl
  have hOwner : (storeObjects household home.live.graph [⟨1⟩]).start petIds =
      (.ok ⟨Chunk.join [ownerRecord], [⟨2⟩], 1⟩, bothIds) :=
    storeObjects_single [⟨2⟩] rfl rfl rfl
  have hFirst := start_storeRoots_ok hPet snapshot_household
    (Chunk.split_join (List.forall_mem_singleton.2 acceptable_petRecord))
    (RootList.fits_of_length (by decide))
  have hSecond := @start_storeRoots_ok _ _ _
    (home.stored petIds [petRecord] [⟨1⟩] householdTypes) _ _ _ _ _ hOwner snapshot_household
    (Chunk.split_join (List.forall_mem_singleton.2 acceptable_ownerRecord))
    (RootList.fits_of_length (by decide))
  have hBusy : (World.run movingIn).use = .busy 0 home := rfl
  have hHousehold : (World.run movingIn).registries 0 = household := rfl
  have hShelter : (World.run movingIn).registries 1 = shelter := rfl
  rw [World.run_append]
  simp only [movingOut, List.foldl_cons, List.foldl_nil, World.step, hBusy, hHousehold,
    Session.perform, hFirst, World.replace, if_true, hSecond]
  exact ⟨rfl, hShelter⟩

/-- The shelter, once it knows what is in the store. -/
def informed : Registry Slots := ((adopt householdTypes).start shelter).2

theorem openStore_leftover : (openStore (.opened leftover)).start shelter =
    (.ok (fresh (.opened leftover)), informed) := by
  have hProper :=
    (Dictionary.proper_snapshot (Registry.wellFormed_build _) snapshot_household).1
  have hSize : householdTypes.encode.length ≤ Dictionary.maxFileSize := by decide +kernel
  have hDecode := Dictionary.decode_encode hProper.listed hSize
  have hDictionary : (EntityStore.opened leftover).dictionary = .ok (some householdTypes) := by
    show (Dictionary.decode ⟨householdTypes.encode.toArray⟩).map some = _
    rw [hDecode]
    rfl
  have hAdopt : (adopt householdTypes).start shelter = (.ok (), informed) := rfl
  unfold openStore
  rw [Attempt.start_lift_bind, hDictionary]
  exact Attempt.start_bind_ok.2 ⟨(), _, hAdopt, rfl⟩

/-- People are not wanted any more. -/
def noPeople : Matcher :=
  Matcher.of (Refactoring.ofTable (RenameTable.empty.insert "Person" none)) TypeSimilarity.empty

/-- The session at the shelter. -/
def arrival : Session Slots := (fresh (.opened leftover)).withMatcher noPeople

/-- The plan to load the pet. -/
def petPlan : PlannedRecord Slots := ⟨petRecord, .object pet, none⟩

theorem prepare_leftover :
    prepare informed (some (noPeople.withThreshold noPeople.threshold)) arrival.live.ids
      arrival.store.records = .ok ([petPlan], [⟨2⟩]) := by
  have hSplit : Chunk.split (Chunk.join [petRecord, ownerRecord]) =
      ⟨[petRecord, ownerRecord], none⟩ :=
    Chunk.split_join (List.forall_mem_cons.2
      ⟨acceptable_petRecord, List.forall_mem_singleton.2 acceptable_ownerRecord⟩)
  have hMigrate : migrate informed (noPeople.withThreshold noPeople.threshold)
      (Chunk.join [petRecord, ownerRecord]) = .ok ⟨Chunk.join [petRecord], [⟨2⟩]⟩ := by
    simp only [migrate, hSplit]
    rfl
  have hNotNull : petRecord.object ≠ ObjectId.null := by decide
  have hPlan : plan informed arrival.live.ids (Chunk.join [petRecord]) = .ok [petPlan] :=
    @plan_join _ _ _ [petPlan] (List.forall_mem_singleton.2 acceptable_petRecord)
      (List.nodup_singleton _) (List.forall_mem_singleton.2 ⟨rfl, ⟨_, rfl⟩, hNotNull, rfl⟩)
  exact bind_eq_ok.2 ⟨_, hMigrate, bind_eq_ok.2 ⟨_, hPlan, rfl⟩⟩

/-- What is live once the pet is loaded. -/
def petLive : Live Slots := ((apply [petPlan] [⟨2⟩]).start ⟨arrival.live, []⟩).2.live

theorem loadRoots_leftover : (loadRoots informed).start arrival =
    (.error (.unresolvedReference ⟨2⟩), { arrival with live := petLive }) := by
  have hApply : (apply [petPlan] [⟨2⟩]).start ⟨arrival.live, []⟩ = (.ok [⟨0⟩], _) := rfl
  have hLoad : (loadObjects informed (some (arrival.matcher.withThreshold arrival.matcher.threshold))
      arrival.store.records).start arrival.live = (.ok [⟨0⟩], petLive) :=
    loadObjects_eq_ok.2 ⟨_, _, _, prepare_leftover, hApply, rfl⟩
  refine (start_loadRoots hLoad).trans (Prod.ext ?_ rfl)
  show ((EntityStore.opened leftover).readRoots >>= fun roots =>
    roots.mapM (rootRef petLive.ids)) = _
  rw [readRoots_leftover]
  rfl

theorem openStore_moving :
    (openStore (.opened leftover)).start ((World.run (movingIn ++ movingOut)).registries 1) =
      (.ok (fresh (.opened leftover)), informed) := by
  rw [run_moving.2]
  exact openStore_leftover

theorem petLive_ne_fresh : petLive ≠ ⟨Graph.empty, ObjectIds.startingAt leftover.nextId⟩ := by
  intro hFresh
  have hSize : petLive.graph.size = 0 := congrArg (·.graph.size) hFresh
  have hOne : petLive.graph.size = 1 := rfl
  rw [hOne] at hSize
  cases hSize

/-- The person is a root without an instance, but the pet has been loaded. -/
theorem loadRoots_refused_owner :
    (World.run (movingIn ++ movingOut)).use = .idle leftover ∧
      (openStore (.opened leftover)).start ((World.run (movingIn ++ movingOut)).registries 1) =
        (.ok (fresh (.opened leftover)), informed) ∧
      (loadRoots informed).start ((fresh (.opened leftover)).withMatcher noPeople) =
        (.error (.unresolvedReference ⟨2⟩), { arrival with live := petLive }) ∧
      Stranded informed noPeople (.opened leftover) ⟨2⟩ petLive := by
  have hIdle := run_moving.1
  refine ⟨hIdle, openStore_moving, loadRoots_leftover, ?_⟩
  obtain ⟨-, hFresh | ⟨lost, hError, hStranded⟩⟩ :=
    World.loadRoots_refused (movingIn ++ movingOut) noPeople hIdle openStore_moving
      loadRoots_leftover
  · exact absurd hFresh petLive_ne_fresh
  · cases hError
    exact hStranded

/-- A new session whose roots cannot be loaded is not always new
afterwards. -/
theorem not_fresh_of_refused :
    ¬∀ (actions : List (WorldAction Slots)) (number : Nat) (tables : StoreTables)
      (registry : Registry Slots) (session session' : Session Slots) (matcher : Matcher)
      (e : Error),
      (World.run actions).use = .idle tables →
      (openStore (.opened tables)).start ((World.run actions).registries number) =
        (.ok session, registry) →
      (loadRoots registry).start (session.withMatcher matcher) = (.error e, session') →
      session'.live = ⟨Graph.empty, ObjectIds.startingAt tables.nextId⟩ := by
  intro hAll
  exact petLive_ne_fresh (hAll (movingIn ++ movingOut) 1 leftover informed
    (fresh (.opened leftover)) _ noPeople _ run_moving.1 openStore_moving loadRoots_leftover)

end Slots

end ObjectStore
