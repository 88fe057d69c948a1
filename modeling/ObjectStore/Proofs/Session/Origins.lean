import Mathlib.Data.List.Induction
import ObjectStore.Proofs.Session.Runs

/-!
# Where records come from

Of everything that is done in a session, only storing roots touches the
records of the store, and it replaces those of the instances that the roots
lead to. So every record that a run leads to was written by one of its
actions, and what the session did afterwards has left it alone.

The identifiers of the instances change in two more ways: a load binds the
instances that it creates, and a store operation whose root list is too long
leaves the identifiers that it has assigned.

## Main results

* `Session.perform_cases`, `World.step_cases`: what one action does to
  records and identifiers.
* `World.origin_of_record`: every record was written by an action of the run.
-/

namespace ObjectStore

open Std Storing

variable {ι : Type}

/-! ## Actions in a session -/

/-- The store `s'` is `s`, apart from the dictionary. -/
def EntityStore.Retains (s s' : EntityStore) : Prop :=
  ∃ file, s' = { s with dictionaryFile := file }

theorem EntityStore.Retains.refl (s : EntityStore) : s.Retains s := ⟨s.dictionaryFile, rfl⟩

theorem EntityStore.Retains.record? {s s' : EntityStore} (h : s.Retains s') (id : ObjectId) :
    s'.record? id = s.record? id := by
  obtain ⟨file, rfl⟩ := h
  rfl

theorem EntityStore.Retains.next {s s' : EntityStore} (h : s.Retains s') : s'.next = s.next := by
  obtain ⟨file, rfl⟩ := h
  rfl

namespace Session

variable {registry : Registry ι} {session session' : Session ι}

/-- The session `session'` has the records of `session`, and its
identifiers. -/
structure Rests (session session' : Session ι) : Prop where
  store : session.store.Retains session'.store
  ids : session'.live.ids = session.live.ids

theorem Rests.refl (session : Session ι) : session.Rests session :=
  ⟨EntityStore.Retains.refl _, rfl⟩

theorem keeps_saveDictionary (registry : Registry ι) (session : Session ι) :
    Attempt.Keeps session.Rests (saveDictionary registry) := by
  refine (Attempt.keeps_lift _).bind fun d => ?_
  rintro session' ⟨⟨file, hStore⟩, hIds⟩
  refine ⟨⟨some ⟨d.encode.toArray⟩, ?_⟩, hIds⟩
  show session'.store.saveDictionary d = _
  rw [hStore]
  rfl

/-- What saving a dictionary keeps, importing one keeps. -/
theorem keeps_import {P : Session ι → Prop}
    (h : ∀ registry : Registry ι, Attempt.Keeps P (saveDictionary registry)) (d : Dictionary) :
    Attempt.Keeps (fun p : Registry ι × Session ι => P p.2) (importDictionary d) := by
  refine Attempt.Keeps.bind (fun _ h => h) fun _ => ?_
  refine (Attempt.keeps_lift _).bind fun _ => ?_
  refine Attempt.Keeps.bind (fun _ h => h) fun _ => ?_
  refine Attempt.Keeps.bind (fun _ h => h) fun p => ?_
  exact fun q hq => h p.1 q.2 hq

theorem keeps_importDictionary (d : Dictionary) (session : Session ι) :
    Attempt.Keeps (fun p : Registry ι × Session ι => session.Rests p.2) (importDictionary d) :=
  keeps_import (fun registry => keeps_saveDictionary registry session) d

variable [Instance ι]

theorem keeps_loadRoots (registry : Registry ι) (store : EntityStore) :
    Attempt.Keeps (fun session : Session ι => session.store = store) (loadRoots registry) := by
  refine Attempt.Keeps.bind (fun _ h => h) fun _ => ?_
  refine Attempt.Keeps.bind (fun _ h => h) fun _ => ?_
  refine Attempt.Keeps.bind (fun _ h => h) fun _ => ?_
  exact (Attempt.keeps_lift _).bind fun _ => Attempt.keeps_lift _

/-- Storing the roots writes the records `records` of the instances
`visited`. -/
structure Collects (registry : Registry ι) (session : Session ι) (roots : List Ref)
    (chunk : StoredChunk) (ids : ObjectIds) (visited : List Ref) (records : List Record) :
    Prop where
  written : (storeObjects registry session.live.graph roots).start session.live.ids =
    (.ok chunk, ids)
  outcome : Outcome registry session.live.graph roots session.live.ids chunk ids visited records

/-- Storing the roots succeeds: the records `records` of the instances
`visited` are committed with the dictionary `d`. -/
structure Stores (registry : Registry ι) (session : Session ι) (roots : List Ref)
    (chunk : StoredChunk) (ids : ObjectIds) (visited : List Ref) (records : List Record)
    (d : Dictionary) : Prop where
  outcome : Outcome registry session.live.graph roots session.live.ids chunk ids visited records
  snapshot : registry.snapshot = .ok d
  start : (storeRoots registry roots).start session =
    (.ok chunk, session.stored ids records chunk.roots d)

section

variable {roots : List Ref} {chunk : StoredChunk} {ids : ObjectIds} {visited : List Ref}
  {records : List Record} {d : Dictionary}

/-- What is committed was written, and its root list as well. -/
theorem Stores.written (h : session.Stores registry roots chunk ids visited records d)
    (hIds : session.live.ids.WellFormed) :
    (storeObjects registry session.live.graph roots).start session.live.ids = (.ok chunk, ids) ∧
      RootList.Fits chunk.roots := by
  have hStart := h.start
  cases hStore : (storeObjects registry session.live.graph roots).start session.live.ids with
  | mk result ids' =>
      cases result with
      | error e =>
          rw [start_storeRoots_error hIds hStore] at hStart
          cases hStart
      | ok chunk' =>
          obtain ⟨visited', records', hOutcome⟩ := storeObjects_ok hIds hStore
          by_cases hFits : RootList.Fits chunk'.roots
          · rw [start_storeRoots_ok hStore h.snapshot hOutcome.split hFits] at hStart
            obtain ⟨hChunk, hSession⟩ := Prod.mk.inj hStart
            have hSame : ids' = ids := congrArg (·.live.ids) hSession
            cases hChunk
            exact ⟨by rw [hSame], hFits⟩
          · obtain ⟨e, hError⟩ :=
              start_storeRoots_of_not_fits hStore h.snapshot hOutcome.split hFits
            rw [hError] at hStart
            cases hStart

theorem Stores.collects (h : session.Stores registry roots chunk ids visited records d)
    (hIds : session.live.ids.WellFormed) :
    session.Collects registry roots chunk ids visited records :=
  ⟨(h.written hIds).1, h.outcome⟩

end

/-- Storing the roots fails and changes nothing, or succeeds, or fails when the
instances have their identifiers. -/
theorem stores_or_fails (hRegistry : registry.WellFormed) (hIds : session.live.ids.WellFormed)
    (roots : List Ref) :
    (∃ e, (storeRoots registry roots).start session = (.error e, session)) ∨
      (∃ chunk ids visited records d,
        session.Stores registry roots chunk ids visited records d) ∨
      ∃ chunk ids visited records e, session.Collects registry roots chunk ids visited records ∧
        (storeRoots registry roots).start session = (.error e, session.named ids) := by
  rcases storeRoots_cases hRegistry hIds roots with
    hFails | ⟨chunk, ids, visited, records, d, hStore, hOutcome, hSnapshot, -,
      ⟨-, hStart⟩ | ⟨e, hStart⟩⟩
  · exact Or.inl hFails
  · exact Or.inr (Or.inl ⟨chunk, ids, visited, records, d, hOutcome, hSnapshot, hStart⟩)
  · exact Or.inr (Or.inr ⟨chunk, ids, visited, records, e, ⟨hStore, hOutcome⟩, hStart⟩)

/-- What an action does to the records of the store and to the identifiers
of the instances. -/
theorem perform_cases (hRegistry : registry.WellFormed) (hIds : session.live.ids.WellFormed)
    (action : SessionAction ι) :
    session.Rests (session.perform registry action).2 ∨
      (action = .loadRoots ∧ (session.perform registry action).2.store = session.store) ∨
      (∃ roots chunk ids visited records d, action = .storeRoots roots ∧
        session.Stores registry roots chunk ids visited records d ∧
        session.perform registry action =
          (registry, session.stored ids records chunk.roots d)) ∨
      ∃ roots chunk ids visited records, action = .storeRoots roots ∧
        session.Collects registry roots chunk ids visited records ∧
        session.perform registry action = (registry, session.named ids) := by
  have hSame := Rests.refl session
  cases action with
  | matchWith matcher => exact Or.inl ⟨hSame.store, rfl⟩
  | insert x => exact Or.inl ⟨hSame.store, rfl⟩
  | change runtime ref f => exact Or.inl ⟨hSame.store, rfl⟩
  | storeRoots roots =>
      rcases stores_or_fails hRegistry hIds roots with
        ⟨e, hStart⟩ | ⟨chunk, ids, visited, records, d, hStores⟩ |
          ⟨chunk, ids, visited, records, e, hCollects, hStart⟩
      · simp only [perform, hStart]
        exact Or.inl hSame
      · refine Or.inr (Or.inr (Or.inl ⟨roots, chunk, ids, visited, records, d, rfl, hStores, ?_⟩))
        simp only [perform, hStores.start]
      · refine Or.inr (Or.inr (Or.inr ⟨roots, chunk, ids, visited, records, rfl, hCollects, ?_⟩))
        simp only [perform, hStart]
  | loadRoots =>
      exact Or.inr (Or.inl ⟨rfl, keeps_loadRoots registry session.store session rfl⟩)
  | saveDictionary => exact Or.inl (keeps_saveDictionary registry session session hSame)
  | importDictionary d =>
      exact Or.inl (keeps_importDictionary d session (registry, session) hSame)

omit [Instance ι] in
/-- A session begins with what is in the store. -/
theorem openStore_fresh {store : EntityStore} {registry' : Registry ι}
    (h : (openStore store).start registry = (.ok session, registry')) : session = fresh store := by
  obtain ⟨stored, r, -, h⟩ := Attempt.start_bind_ok.1 h
  cases stored with
  | none =>
      cases h
      rfl
  | some d =>
      obtain ⟨_, r', -, h⟩ := Attempt.start_bind_ok.1 h
      cases h
      rfl

end Session

/-! ## Actions on a store -/

namespace World

variable [Instance ι] {w : World ι} {d : Dictionary}

/-- Only storing roots touches the records of the store. -/
theorem step_cases (h : w.Intact d) (action : WorldAction ι) :
    w.use.store.Retains (w.step action).use.store ∨
      ∃ number session roots chunk ids visited records d', w.use = .busy number session ∧
        action = .act (.storeRoots roots) ∧
        session.Stores (w.registries number) roots chunk ids visited records d' ∧
        w.step action = ⟨replace w.registries number (w.registries number),
          .busy number (session.stored ids records chunk.roots d')⟩ := by
  cases action with
  | register number registration => exact Or.inl (EntityStore.Retains.refl _)
  | openSession number =>
      left
      cases hUse : w.use with
      | busy other session =>
          simp only [step, hUse]
          exact EntityStore.Retains.refl _
      | idle tables =>
          simp only [step, hUse]
          cases hOpen : (Session.openStore (.opened tables)).start (w.registries number) with
          | mk result registry =>
              cases result with
              | ok session =>
                  rw [Session.openStore_fresh hOpen]
                  exact EntityStore.Retains.refl _
              | error e => exact EntityStore.Retains.refl _
  | act action =>
      cases hUse : w.use with
      | idle tables =>
          simp only [step, hUse]
          exact Or.inl (EntityStore.Retains.refl _)
      | busy number session =>
          have hIntact := h.session number session hUse
          simp only [step, hUse]
          rcases Session.perform_cases hIntact.wellFormed hIntact.live.ids action with
            hRests | ⟨-, hStore⟩ | ⟨roots, chunk, ids, visited, records, d', rfl, hStores, hDone⟩ |
              ⟨roots, chunk, ids, visited, records, rfl, -, hDone⟩
          · exact Or.inl hRests.store
          · left
            show session.store.Retains (session.perform (w.registries number) action).2.store
            rw [hStore]
            exact EntityStore.Retains.refl _
          · refine Or.inr ⟨number, session, roots, chunk, ids, visited, records, d', rfl, rfl,
              hStores, ?_⟩
            rw [hDone]
          · left
            rw [hDone]
            exact EntityStore.Retains.refl _
  | closeSession =>
      left
      show w.use.store.Retains (StoreUse.idle w.use.store.toStoreTables : StoreUse ι).store
      rw [StoreUse.store_idle]
      exact EntityStore.Retains.refl _

/-! ## The origin of a record -/

/-- In the open session, storing the roots writes the instance `x` at the
position `ref` as the record `r`. -/
def Writes (w : World ι) (roots : List Ref) (ref : Ref) (handler : ObjectHandler ι)
    (derived : ObjectHandler.Derived ι) (x : ι) (r : Record) : Prop :=
  ∃ number session chunk ids visited records d, w.use = .busy number session ∧
    session.Stores (w.registries number) roots chunk ids visited records d ∧ r ∈ records ∧
    ref ∈ visited ∧ Saved (w.registries number) session.live.graph ids ref handler derived x r

theorem run_concat (actions : List (WorldAction ι)) (action : WorldAction ι) :
    run (actions ++ [action]) = (run actions).step action := run_append actions [action]

/-- An action keeps the record of an object, or writes it in place of the
former one. -/
theorem record_cases (h : w.Intact d) (action : WorldAction ι) (id : ObjectId) :
    (w.step action).use.store.record? id = w.use.store.record? id ∨
      ∃ roots ref handler derived x r, action = .act (.storeRoots roots) ∧
        w.Writes roots ref handler derived x r ∧ r.object = id ∧
        (w.step action).use.store.record? id = some r.encode := by
  rcases step_cases h action with
    hRetains | ⟨number, session, roots, chunk, ids, visited, records, d', hUse, rfl, hStores,
      hDone⟩
  · exact Or.inl (hRetains.record? id)
  · rw [hDone, hUse]
    rcases session.store.record?_committed records chunk.roots ids.next (some d') id with
      ⟨r, hr, rfl, hNew⟩ | ⟨-, hOld⟩
    · obtain ⟨ref, hVisited, handler, derived, x, hSaved⟩ := hStores.outcome.write_of_mem hr
      refine Or.inr ⟨roots, ref, handler, derived, x, r, rfl, ?_, rfl, hNew⟩
      exact ⟨number, session, chunk, ids, visited, records, d', hUse, hStores, hr, hVisited, hSaved⟩
    · exact Or.inl hOld

/-- Every record was written by an action of the run. -/
theorem origin_of_record (actions : List (WorldAction ι)) {id : ObjectId} {bytes : Bytes}
    (h : (run actions).use.store.record? id = some bytes) :
    ∃ before roots after ref handler derived x r,
      actions = before ++ .act (.storeRoots roots) :: after ∧
        (run before).Writes roots ref handler derived x r ∧ r.object = id ∧ r.encode = bytes := by
  induction actions using List.reverseRecOn with
  | nil =>
      have hNone := EntityStore.record?_empty id
      cases hNone.symm.trans h
  | append_singleton actions action ih =>
      rw [run_concat] at h
      obtain ⟨d, hIntact⟩ := intact_run actions
      rcases record_cases hIntact action id with
        hSame | ⟨roots, ref, handler, derived, x, r, rfl, hWrites, hObject, hNew⟩
      · rw [hSame] at h
        obtain ⟨before, roots, after, ref, handler, derived, x, r, rfl, hWrites⟩ := ih h
        exact ⟨before, roots, after ++ [action], ref, handler, derived, x, r, by simp, hWrites⟩
      · rw [hNew] at h
        exact ⟨actions, roots, [], ref, handler, derived, x, r, rfl, hWrites, hObject,
          Option.some.inj h⟩

end World

end ObjectStore
