import ObjectStore.Proofs.Session.Integrity

/-!
# What a session has stored

A session on a new store inserts and changes instances, and stores roots any
number of times. Beside the session, a history remembers what every instance
was when a store operation that succeeded reached it last, and the last
roots. What an instance becomes later, or while it is out of reach, is not
stored.

The store always holds what the history remembers: one record for every
instance that was ever reached, written from what it was then. The
identifiers in all records are those of the session, because an instance
keeps its identifier once it has been stored.

## Main results

* `History.consistent_step`: what one step keeps.
* `History.consistent_run`: the store holds what the history remembers.
-/

namespace ObjectStore

open Std Storing

variable {ι : Type}

/-! ## Histories -/

/-- What a program does with a session between opening and closing it. -/
inductive Work (ι : Type) where
  | insert (x : ι)
  | change (runtime : RuntimeType) (ref : Ref) (f : ι → ι)
  | storeRoots (roots : List Ref)

/-- A session, and what it has stored. -/
structure History (ι : Type) where
  session : Session ι
  /-- The instance at a position, as it was when it was reached last. -/
  last : Ref → ι → Prop
  /-- The roots that were stored last. -/
  roots : List Ref

namespace History

/-- A session on a new store. -/
def initial : History ι := ⟨Session.fresh EntityStore.empty, fun _ _ => False, []⟩

/-- Every registry can be used to open a new store. -/
theorem start_openStore_initial (registry : Registry ι) :
    (Session.openStore EntityStore.empty).start registry =
      (.ok (initial : History ι).session, registry) :=
  Session.start_openStore_of_no_dictionary rfl

section

variable [Instance ι]

/-- What is remembered once everything that the roots lead to was stored. -/
def remember (registry : Registry ι) (g : Graph ι) (roots : List Ref) (last : Ref → ι → Prop)
    (ref : Ref) (x : ι) : Prop :=
  Reachable (g.network registry) {} roots ref ∧ g.get? ref = some x ∨
    ¬Reachable (g.network registry) {} roots ref ∧ last ref x

/-- The history after some work, which may fail. -/
def step (registry : Registry ι) (h : History ι) : Work ι → History ι
  | .insert x =>
      { h with session := ((Session.onGraph (Graph.insert x)).start h.session).2 }
  | .change runtime ref f =>
      { h with session := ((Session.onGraph (Graph.changeAs runtime ref f)).start h.session).2 }
  | .storeRoots roots =>
      match (Session.storeRoots registry roots).start h.session with
      | (.ok _, session) =>
          ⟨session, remember registry h.session.live.graph roots h.last, roots⟩
      | (.error _, session) => { h with session }

/-- The history after all of the work. -/
def run (registry : Registry ι) (works : List (Work ι)) : History ι :=
  works.foldl (step registry) initial

end

/-! ## Consistent histories -/

section

variable [Instance ι]

/-- The store of a session has the record `r` of the instance `x` at the
position `ref`, and records of everything that it refers to. -/
structure Recorded (registry : Registry ι) (session : Session ι) (ref : Ref) (x : ι)
    (handler : ObjectHandler ι) (d : ObjectHandler.Derived ι) (r : Record) : Prop where
  saved : ∃ g, Saved registry g session.live.ids ref handler d x r
  stored : session.store.record? r.object = some r.encode
  closed : ∀ f ∈ d.fields, ∀ target ∈ f.payload.held x,
    (session.store.record? (session.live.ids.nameOf target)).isSome = true

/-- The store holds what the history remembers, and nothing else. -/
structure Consistent (registry : Registry ι) (h : History ι) : Prop where
  intact : ∃ d, h.session.Intact registry d
  room : h.session.live.graph.size ≤ Graph.capacity
  once : ∀ ref x y, h.last ref x → h.last ref y → x = y
  recorded : ∀ ref x, h.last ref x → ∃ handler d r, Recorded registry h.session ref x handler d r
  remembered : ∀ id, (h.session.store.record? id).isSome = true →
    ∃ ref x, h.last ref x ∧ h.session.live.ids.objectId? ref = some id
  roots : h.session.store.roots = h.roots.map h.session.live.ids.nameOf
  named : ∀ root ∈ h.roots, (h.session.live.ids.objectId? root).isSome = true

variable {registry : Registry ι} {h : History ι}

theorem consistent_initial (hRegistry : registry.WellFormed) : initial.Consistent registry where
  intact := by
    refine ⟨Dictionary.empty, hRegistry, Session.wellFormed_fresh EntityStore.empty,
      Dictionary.proper_empty, EntityStore.keeps_empty, ?_, EntityStore.sound_empty _⟩
    intro definition hIn
    cases hIn
  room := Nat.zero_le _
  once := fun _ _ _ hLast => hLast.elim
  recorded := fun _ _ hLast => hLast.elim
  remembered := by
    intro id hStored
    simp [initial, Session.fresh] at hStored
  roots := rfl
  named := by
    intro root hRoot
    cases hRoot

/-- Work on the graph changes nothing that was stored. -/
theorem Consistent.onGraph (hConsistent : h.Consistent registry) {α : Type}
    {attempt : Attempt (Graph ι) α}
    (hSize : h.session.live.graph.size ≤ (attempt.start h.session.live.graph).2.size)
    (hRoom : (attempt.start h.session.live.graph).2.size ≤ Graph.capacity) :
    Consistent registry { h with session := ((Session.onGraph attempt).start h.session).2 } where
  intact := by
    obtain ⟨d, hIntact⟩ := hConsistent.intact
    exact ⟨d, Session.intact_onGraph hIntact hSize⟩
  room := hRoom
  once := hConsistent.once
  recorded := by
    intro ref x hLast
    obtain ⟨handler, d, r, hRecorded⟩ := hConsistent.recorded ref x hLast
    exact ⟨handler, d, r, hRecorded.saved, hRecorded.stored, hRecorded.closed⟩
  remembered := hConsistent.remembered
  roots := hConsistent.roots
  named := hConsistent.named

/-! ## Storing -/

/-- There is only one way to write an instance. -/
theorem saved_unique {g g' : Graph ι} {ids : ObjectIds} {ref : Ref} {x : ι}
    {handler handler' : ObjectHandler ι} {d d' : ObjectHandler.Derived ι} {r r' : Record}
    (hSaved : Saved registry g ids ref handler d x r)
    (hSaved' : Saved registry g' ids ref handler' d' x r') : r = r' := by
  have hHandler := hSaved.handler
  rw [hSaved'.handler] at hHandler
  cases hHandler
  have hDerived := hSaved.derived
  rw [hSaved'.derived] at hDerived
  cases hDerived
  have hObject := hSaved.object
  rw [hSaved'.object] at hObject
  rw [hSaved.record, hSaved'.record, Option.some.inj hObject]

section

variable {g : Graph ι} {roots : List Ref} {ids ids' : ObjectIds} {chunk : StoredChunk}
  {visited : List Ref} {records : List Record}

/-- A written record is that of the instance with its identifier. -/
theorem writes_of_object (hOutcome : Outcome registry g roots ids chunk ids' visited records)
    {r : Record} (hr : r ∈ records) {ref : Ref} (hId : ids'.objectId? ref = some r.object) :
    ref ∈ visited ∧ Writes registry g ids' ref r := by
  obtain ⟨ref', hVisited, handler, d, x, hSaved⟩ := hOutcome.write_of_mem hr
  have hRef := (hOutcome.wellFormed.inverse _ _).2 hId
  rw [(hOutcome.wellFormed.inverse _ _).2 hSaved.object] at hRef
  cases hRef
  exact ⟨hVisited, handler, d, x, hSaved⟩

/-- The record of a visited instance is committed. -/
theorem recorded_of_visited {session : Session ι} {d' : Dictionary}
    (hOutcome : Outcome registry session.live.graph roots session.live.ids chunk ids' visited
      records) {ref : Ref} {x : ι} (hVisited : ref ∈ visited)
    (hGet : session.live.graph.get? ref = some x) :
    ∃ handler d r,
      Recorded registry (session.stored ids' records chunk.roots d') ref x handler d r := by
  obtain ⟨r, hr, handler, d, x', hSaved⟩ := hOutcome.write_of_visited hVisited
  have hSame : x' = x := Option.some.inj (hSaved.get.symm.trans hGet)
  subst hSame
  refine ⟨handler, d, r, ⟨session.live.graph, hSaved⟩, ?_, ?_⟩
  · rcases session.store.record?_committed records chunk.roots ids'.next (some d') r.object with
      ⟨r', hr', hObject, hStored⟩ | ⟨hNone, -⟩
    · obtain ⟨-, handler', d'', x'', hSaved'⟩ :=
        writes_of_object hOutcome hr' (hObject ▸ hSaved.object)
      have hSame := Option.some.inj (hSaved'.get.symm.trans hGet)
      subst hSame
      rw [saved_unique hSaved hSaved'] at hStored ⊢
      exact hStored
    · exact absurd rfl (hNone r hr)
  · intro f hf target hTarget
    have hLead : target ∈ leads registry session.live.graph ref := by
      rw [leads, hSaved.references]
      exact List.mem_flatMap.2 ⟨f, hf, hTarget⟩
    obtain ⟨r', hr', hObject⟩ :=
      EntityStore.record_of_visited hOutcome (hOutcome.closed hVisited hLead)
    show (EntityStore.record? _ (ids'.nameOf target)).isSome = true
    rw [← hObject]
    exact EntityStore.isSome_record?_of_mem hr'

/-- What was recorded stays so if further instances get identifiers. -/
theorem Recorded.named {session : Session ι} {added : List ObjectId}
    (hIds : session.live.ids.WellFormed) (hGrows : session.live.ids.Grows added ids') {ref : Ref}
    {x : ι} {handler : ObjectHandler ι} {d : ObjectHandler.Derived ι} {r : Record}
    (hRecorded : Recorded registry session ref x handler d r) :
    Recorded registry (session.named ids') ref x handler d r := by
  obtain ⟨g, hSaved⟩ := hRecorded.saved
  refine ⟨⟨g, hSaved.grow hIds hGrows⟩, hRecorded.stored, ?_⟩
  intro f hf target hTarget
  have hName : ids'.nameOf target = session.live.ids.nameOf target :=
    hGrows.nameOf hIds (hSaved.named f hf target hTarget)
  show (EntityStore.record? _ (ids'.nameOf target)).isSome = true
  rw [hName]
  exact hRecorded.closed f hf target hTarget

/-- The record of an instance that is not visited stays. -/
theorem recorded_of_not_visited {session : Session ι} {d' : Dictionary}
    (hIds : session.live.ids.WellFormed)
    (hOutcome : Outcome registry session.live.graph roots session.live.ids chunk ids' visited
      records) {ref : Ref} {x : ι} {handler : ObjectHandler ι} {d : ObjectHandler.Derived ι}
    {r : Record} (hVisited : ref ∉ visited)
    (hRecorded : Recorded registry session ref x handler d r) :
    Recorded registry (session.stored ids' records chunk.roots d') ref x handler d r := by
  obtain ⟨added, hGrows⟩ := hOutcome.grows
  obtain ⟨⟨g, hLater⟩, hBefore, hClosed⟩ := hRecorded.named hIds hGrows
  refine ⟨⟨g, hLater⟩, ?_, fun f hf target hTarget => ?_⟩
  · rcases session.store.record?_committed records chunk.roots ids'.next (some d') r.object with
      ⟨r', hr', hObject, -⟩ | ⟨-, hStored⟩
    · exact absurd (writes_of_object hOutcome hr' (hObject ▸ hLater.object)).1 hVisited
    · exact hStored.trans hBefore
  · exact EntityStore.isSome_record?_committed (hClosed f hf target hTarget)

end

/-- A store operation whose roots cannot be written leaves the store as it
is. -/
theorem Consistent.grow (hConsistent : h.Consistent registry) {roots : List Ref}
    {chunk : StoredChunk} {ids : ObjectIds} {visited : List Ref} {records : List Record}
    {d : Dictionary} (hIntact : h.session.Intact registry d)
    (hOutcome : Outcome registry h.session.live.graph roots h.session.live.ids chunk ids visited
      records) : Consistent registry { h with session := h.session.named ids } := by
  have hIds := hIntact.live.ids
  obtain ⟨added, hGrows⟩ := hOutcome.grows
  refine ⟨⟨d, hIntact.withLive (Session.live_named hIntact hOutcome)⟩, hConsistent.room,
    hConsistent.once, ?_, ?_, ?_, ?_⟩
  · intro ref x hLast
    obtain ⟨handler, derived, r, hRecorded⟩ := hConsistent.recorded ref x hLast
    exact ⟨handler, derived, r, hRecorded.named hIds hGrows⟩
  · intro id hStored
    obtain ⟨ref, x, hLast, hId⟩ := hConsistent.remembered id hStored
    exact ⟨ref, x, hLast, hGrows.objectId? hIds hId⟩
  · refine hConsistent.roots.trans (List.map_congr_left fun root hRoot => ?_)
    exact (hGrows.nameOf hIds (hConsistent.named root hRoot)).symm
  · intro root hRoot
    obtain ⟨id, hId⟩ := Option.isSome_iff_exists.1 (hConsistent.named root hRoot)
    exact Option.isSome_iff_exists.2 ⟨id, hGrows.objectId? hIds hId⟩

/-- A store operation that succeeds makes the store hold what is remembered
from then on. -/
theorem Consistent.stored (hConsistent : h.Consistent registry) {roots : List Ref}
    {chunk : StoredChunk} {ids : ObjectIds} {visited : List Ref} {records : List Record}
    {d d' : Dictionary} (hIntact : h.session.Intact registry d)
    (hIntact' : (h.session.stored ids records chunk.roots d').Intact registry d')
    (hOutcome : Outcome registry h.session.live.graph roots h.session.live.ids chunk ids visited
      records) (hFits : RootList.Fits chunk.roots) :
    Consistent registry ⟨h.session.stored ids records chunk.roots d',
      remember registry h.session.live.graph roots h.last, roots⟩ where
  intact := ⟨d', hIntact'⟩
  room := hConsistent.room
  once := by
    rintro ref x y (⟨hReachable, hGet⟩ | ⟨hOut, hLast⟩) (⟨hReachable', hGet'⟩ | ⟨hOut', hLast'⟩)
    · rw [hGet] at hGet'
      exact Option.some.inj hGet'
    · exact absurd hReachable hOut'
    · exact absurd hReachable' hOut
    · exact hConsistent.once ref x y hLast hLast'
  recorded := by
    rintro ref x (⟨hReachable, hGet⟩ | ⟨hOut, hLast⟩)
    · exact recorded_of_visited hOutcome ((hOutcome.reachable ref).2 hReachable) hGet
    · obtain ⟨handler, derived, r, hRecorded⟩ := hConsistent.recorded ref x hLast
      have hVisited : ref ∉ visited := fun hIn => hOut ((hOutcome.reachable ref).1 hIn)
      exact ⟨handler, derived, r,
        recorded_of_not_visited hIntact.live.ids hOutcome hVisited hRecorded⟩
  remembered := by
    intro id hStored
    rcases h.session.store.record?_committed records chunk.roots ids.next (some d') id with
      ⟨r, hr, rfl, -⟩ | ⟨-, hOld⟩
    · obtain ⟨ref, hVisited, handler, derived, x, hSaved⟩ := hOutcome.write_of_mem hr
      have hReachable := (hOutcome.reachable ref).1 hVisited
      exact ⟨ref, x, Or.inl ⟨hReachable, hSaved.get⟩, hSaved.object⟩
    · have hBefore : (h.session.store.record? id).isSome = true := by
        rw [← hOld]
        exact hStored
      obtain ⟨ref, x, hLast, hId⟩ := hConsistent.remembered id hBefore
      obtain ⟨added, hGrows⟩ := hOutcome.grows
      have hId' := hGrows.objectId? hIntact.live.ids hId
      by_cases hReachable : Reachable (h.session.live.graph.network registry) {} roots ref
      · have hVisited := (hOutcome.reachable ref).2 hReachable
        obtain ⟨r, -, handler, derived, x', hSaved⟩ := hOutcome.write_of_visited hVisited
        exact ⟨ref, x', Or.inl ⟨hReachable, hSaved.get⟩, hId'⟩
      · exact ⟨ref, x, Or.inr ⟨hReachable, hLast⟩, hId'⟩
  roots := (EntityStore.roots_eq (EntityStore.readRoots_committed hFits)).trans hOutcome.roots
  named := by
    intro root hRoot
    have hVisited := (hOutcome.reachable root).2 (Reachable.root hRoot rfl)
    obtain ⟨r, -, handler, derived, x, hSaved⟩ := hOutcome.write_of_visited hVisited
    show (ids.objectId? root).isSome = true
    rw [hSaved.object]
    rfl

/-! ## Runs -/

theorem consistent_step (hConsistent : h.Consistent registry) (work : Work ι) :
    (h.step registry work).Consistent registry := by
  cases work with
  | insert x =>
      refine hConsistent.onGraph (Graph.size_le_insert x _) ?_
      have hRoom := hConsistent.room
      rw [Graph.start_insert]
      by_cases hFree : h.session.live.graph.size < Graph.capacity
      · rw [if_pos hFree]
        show (h.session.live.graph.push x).size ≤ Graph.capacity
        rw [Graph.size_push]
        omega
      · rw [if_neg hFree]
        exact hRoom
  | change runtime ref f =>
      have hSize := Graph.size_changeAs runtime ref f h.session.live.graph
      refine hConsistent.onGraph (Nat.le_of_eq hSize.symm) ?_
      rw [hSize]
      exact hConsistent.room
  | storeRoots roots =>
      obtain ⟨d, hIntact⟩ := hConsistent.intact
      rcases Session.storeRoots_cases hIntact.wellFormed hIntact.live.ids roots with
        ⟨e, hStart⟩ | ⟨chunk, ids, visited, records, d', -, hOutcome, hSnapshot, -,
          ⟨hFits, hStart⟩ | ⟨e, hStart⟩⟩
      · simp only [step, hStart]
        exact hConsistent
      · have hIntact' := Session.intact_stored hIntact hOutcome hSnapshot hFits
        simp only [step, hStart]
        exact hConsistent.stored hIntact hIntact' hOutcome hFits
      · simp only [step, hStart]
        exact hConsistent.grow hIntact hOutcome

/-- After any work, the store holds what the history remembers. -/
theorem consistent_run (hRegistry : registry.WellFormed) (works : List (Work ι)) :
    (run registry works).Consistent registry := by
  have hAll : ∀ h : History ι, h.Consistent registry →
      (works.foldl (step registry) h).Consistent registry := by
    induction works with
    | nil => exact fun h hConsistent => hConsistent
    | cons first rest ih =>
        intro h hConsistent
        exact ih (h.step registry first) (consistent_step hConsistent first)
  exact hAll initial (consistent_initial hRegistry)

end

end History

end ObjectStore
