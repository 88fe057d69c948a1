import ObjectStore.Proofs.Loading.Binding
import ObjectStore.Proofs.Session.Origins
import ObjectStore.Proofs.Storing.Issuing

/-!
# Object identifiers over many runs

The counter for object identifiers is kept twice, by the store and by the
session that works on it. The store has passed every stored identifier, the
session every bound one, and the session is never behind the store. So an
identifier that a session assigns is neither stored nor bound, whether the
stored records were loaded or not, and a load binds no identifier that the
counter has not passed.

Hence a record can only be overwritten by an instance that was bound to its
identifier before, and such an instance was loaded from the record or is the
one that the identifier was assigned to.

## Main results

* `World.numbered_step`: every action keeps the counters above the
  identifiers.
* `World.origin_of_binding`: every instance with an identifier got it from a
  load or a store operation of its session.
* `World.run_numbered`: identifiers over a whole run.
-/

namespace ObjectStore

open Storing

variable {ι : Type}

/-! ## Counters -/

/-- Every stored identifier is one that the counter has passed. -/
def EntityStore.Numbered (s : EntityStore) : Prop :=
  ∀ id, (s.record? id).isSome = true →
    ObjectId.first.value.toNat ≤ id.value.toNat ∧ id.value.toNat < s.next.toNat

theorem EntityStore.numbered_empty : EntityStore.empty.Numbered := by
  intro id h
  simp at h

theorem EntityStore.Numbered.retains {s s' : EntityStore} (h : s.Numbered) (hSame : s.Retains s') :
    s'.Numbered := by
  intro id hStored
  rw [hSame.record?] at hStored
  rw [hSame.next]
  exact h id hStored

/-- A bound identifier is not that of the absent object. -/
theorem ObjectIds.WellFormed.first_le {ids : ObjectIds} (h : ids.WellFormed) {id : ObjectId}
    {ref : Ref} (hRef : ids.ref? id = some ref) :
    ObjectId.first.value.toNat ≤ id.value.toNat := by
  have hNe : id.value.toNat ≠ 0 := by
    intro hZero
    apply h.notNull id ref hRef
    exact ObjectId.eq_of_value_eq (UInt64.toNat.inj hZero)
  exact Nat.one_le_iff_ne_zero.2 hNe

namespace Session

variable {registry : Registry ι} {d : Dictionary} {session session' : Session ι}

/-- The counters of a session and of its store are above the identifiers, and
the session is not behind the store. -/
structure Numbered (session : Session ι) : Prop where
  store : session.store.Numbered
  next : session.store.next.toNat ≤ session.live.ids.next.toNat
  below : session.live.ids.Below

theorem numbered_fresh {store : EntityStore} (h : store.Numbered) :
    (fresh store : Session ι).Numbered where
  store := h
  next := by
    show store.next.toNat ≤ (ObjectIds.startingAt store.next).next.toNat
    rw [ObjectIds.toNat_startingAt]
    exact Nat.le_max_left _ _
  below := ObjectIds.below_startingAt _

theorem Numbered.rests (h : session.Numbered) (hRests : session.Rests session') :
    session'.Numbered where
  store := h.store.retains hRests.store
  next := by
    rw [hRests.store.next, hRests.ids]
    exact h.next
  below := hRests.ids ▸ h.below

theorem Numbered.withMatcher (h : session.Numbered) (matcher : Matcher) :
    (session.withMatcher matcher).Numbered := h.rests ⟨EntityStore.Retains.refl _, rfl⟩

variable [Instance ι]

/-! ### Storing -/

section

variable {roots : List Ref} {chunk : StoredChunk} {ids : ObjectIds} {visited : List Ref}
  {records : List Record}

/-- The identifiers that a session assigns are taken from its counter. -/
theorem Collects.issues (h : session.Collects registry roots chunk ids visited records) :
    session.live.ids.Issues ids := storeObjects_issues h.written

/-- A record that is written under a stored identifier is that of an instance
that had the identifier before. -/
theorem Collects.objectId?_of_stored
    (h : session.Collects registry roots chunk ids visited records) (hIds : session.live.ids.WellFormed) (hNumbered : session.Numbered) {ref : Ref} {id : ObjectId}
    (hNamed : ids.objectId? ref = some id) (hStored : (session.store.record? id).isSome = true) :
    session.live.ids.objectId? ref = some id := by
  obtain ⟨added, hGrows⟩ := h.outcome.grows
  cases hBefore : session.live.ids.objectId? ref with
  | none =>
      have hFresh := h.issues.objectId? hIds h.outcome.wellFormed hBefore hNamed
      have hOld := hNumbered.store id hStored
      have hNext := hNumbered.next
      omega
  | some other =>
      have hAfter := hGrows.objectId? hIds hBefore
      rw [hNamed] at hAfter
      exact hAfter.symm

/-- An identifier that is assigned is above all that were stored or bound. -/
theorem Collects.lt_of_fresh (h : session.Collects registry roots chunk ids visited records)
    (hIds : session.live.ids.WellFormed) (hNumbered : session.Numbered) {ref : Ref}
    {id other : ObjectId} (hFree : session.live.ids.objectId? ref = none)
    (hNamed : ids.objectId? ref = some id)
    (hOther : (session.store.record? other).isSome = true ∨
      (session.live.ids.ref? other).isSome = true) : other.value.toNat < id.value.toNat := by
  have hFresh := (h.issues.objectId? hIds h.outcome.wellFormed hFree hNamed).1
  have hNext := hNumbered.next
  rcases hOther with hStored | hBound
  · have hOld := (hNumbered.store other hStored).2
    omega
  · obtain ⟨ref', hRef'⟩ := Option.isSome_iff_exists.1 hBound
    have hOld := hNumbered.below other ref' hRef'
    omega

/-- A session has no more identifiers to assign than its counter has left. -/
theorem Collects.room (h : session.Collects registry roots chunk ids visited records)
    (hIds : session.live.ids.WellFormed) {refs : List Ref} (hNodup : refs.Nodup)
    (hReachable : ∀ ref ∈ refs, Reachable (session.live.graph.network registry) {} roots ref)
    (hFree : ∀ ref ∈ refs, session.live.ids.objectId? ref = none) :
    session.live.ids.next.toNat + refs.length ≤ Word.max.toNat := by
  have hNamed : ∀ ref ∈ refs, ∃ id, ids.objectId? ref = some id := by
    intro ref hRef
    obtain ⟨r, -, _, _, _, hSaved⟩ :=
      h.outcome.write_of_visited ((h.outcome.reachable ref).2 (hReachable ref hRef))
    exact ⟨r.object, hSaved.object⟩
  calc session.live.ids.next.toNat + refs.length
      ≤ ids.next.toNat := h.issues.room hIds h.outcome.wellFormed hNodup hFree hNamed
    _ ≤ Word.max.toNat := Nat.le_of_lt_succ ids.next.toNat_lt

theorem Collects.numbered_named (h : session.Collects registry roots chunk ids visited records)
    (hNumbered : session.Numbered) : (session.named ids).Numbered where
  store := hNumbered.store
  next := Nat.le_trans hNumbered.next h.issues.next
  below := hNumbered.below.issues h.issues

theorem Collects.numbered (h : session.Collects registry roots chunk ids visited records)
    (hNumbered : session.Numbered) (d : Dictionary) :
    (session.stored ids records chunk.roots d).Numbered := by
  have hIssues := h.issues
  have hBelow := hNumbered.below.issues hIssues
  have hBehind : session.store.next.toNat ≤ ids.next.toNat :=
    Nat.le_trans hNumbered.next hIssues.next
  have hNext : (session.store.committed records chunk.roots ids.next (some d)).next.toNat =
      ids.next.toNat := by
    show (max ids.next session.store.next).toNat = _
    rw [ObjectIds.toNat_max]
    exact Nat.max_eq_left hBehind
  refine ⟨?_, Nat.le_of_eq hNext, hBelow⟩
  intro id hStored
  show _ ∧ _ < (session.store.committed records chunk.roots ids.next (some d)).next.toNat
  rw [hNext]
  rcases session.store.record?_committed records chunk.roots ids.next (some d) id with
    ⟨r, hr, rfl, -⟩ | ⟨-, hOld⟩
  · obtain ⟨ref, -, _, _, _, hSaved⟩ := h.outcome.write_of_mem hr
    have hRef := (h.outcome.wellFormed.inverse r.object ref).2 hSaved.object
    exact ⟨h.outcome.wellFormed.first_le hRef, hBelow r.object ref hRef⟩
  · have hBefore := hNumbered.store id (hOld ▸ hStored)
    exact ⟨hBefore.1, Nat.lt_of_lt_of_le hBefore.2 hBehind⟩

end

/-! ### Loading -/

/-- Loading the roots changes what a load of all records changes. -/
theorem loadRoots_cases (registry : Registry ι) (session : Session ι) :
    ∃ matcher result live,
      (loadObjects registry (some matcher) session.store.records).start session.live =
        (result, live) ∧
      ((loadRoots registry).start session).2 = { session with live } := by
  exact ⟨_, _, _, rfl, congrArg Prod.snd (start_loadRoots rfl)⟩

/-- What is bound after the roots were loaded was bound before, or is stored
and leads to a new instance. The counter never goes back. -/
theorem binds_loadRoots (h : session.Intact registry d) :
    let session' := ((loadRoots registry).start session).2
    session'.store = session.store ∧
      session.live.ids.next.toNat ≤ session'.live.ids.next.toNat ∧
      ∀ id ref, session'.live.ids.ref? id = some ref → session.live.ids.ref? id = some ref ∨
        (session.store.record? id).isSome = true ∧ session.live.graph.size ≤ ref.index := by
  obtain ⟨matcher, result, live, hLoad, hSession⟩ := loadRoots_cases registry session
  obtain ⟨hNext, hBound⟩ := loadObjects_binds h.live hLoad
  obtain ⟨records, hLists⟩ := h.sound.lists
  simp only [hSession]
  refine ⟨trivial, hNext, ?_⟩
  intro id ref hRef
  rcases hBound id ref hRef with hBefore | ⟨hNew, hIn⟩
  · exact Or.inl hBefore
  · right
    obtain ⟨r, hr, rfl⟩ := List.mem_map.1 hIn
    rw [hLists.split] at hr
    exact ⟨by rw [hLists.stored r hr]; rfl, hNew⟩

/-- The counter has passed all stored objects before they are loaded. -/
theorem Numbered.next_load (h : session.Numbered) (hIntact : session.Intact registry d)
    {matcher : Option Matcher} {result : Except Error (List Ref)} {live : Live ι}
    (hLoad : (loadObjects registry matcher session.store.records).start session.live =
      (result, live)) : live.ids.next = session.live.ids.next := by
  obtain ⟨records, hLists⟩ := hIntact.sound.lists
  refine next_loadObjects hIntact.live ?_ hLoad
  intro r hr
  rw [hLists.split] at hr
  have hStored : (session.store.record? r.object).isSome = true := by
    rw [hLists.stored r hr]
    rfl
  exact Nat.lt_of_lt_of_le (h.store r.object hStored).2 h.next

theorem Numbered.loadRoots (h : session.Numbered) (hIntact : session.Intact registry d) :
    ((Session.loadRoots registry).start session).2.Numbered := by
  obtain ⟨hStore, hNext, hBound⟩ := binds_loadRoots hIntact
  refine ⟨hStore ▸ h.store, ?_, ?_⟩
  · rw [hStore]
    exact Nat.le_trans h.next hNext
  · intro id ref hRef
    rcases hBound id ref hRef with hBefore | ⟨hStored, -⟩
    · exact Nat.lt_of_lt_of_le (h.below id ref hBefore) hNext
    · calc id.value.toNat < session.store.next.toNat := (h.store id hStored).2
        _ ≤ session.live.ids.next.toNat := h.next
        _ ≤ _ := hNext

/-! ### Any action -/

theorem Numbered.perform (h : session.Numbered) (hIntact : session.Intact registry d)
    (action : SessionAction ι) : (session.perform registry action).2.Numbered := by
  rcases perform_cases hIntact.wellFormed hIntact.live.ids action with
    hRests | ⟨rfl, -⟩ | ⟨roots, chunk, ids, visited, records, d', -, hStores, hDone⟩ |
      ⟨roots, chunk, ids, visited, records, -, hCollects, hDone⟩
  · exact h.rests hRests
  · exact h.loadRoots hIntact
  · rw [hDone]
    exact (hStores.collects hIntact.live.ids).numbered h d'
  · rw [hDone]
    exact hCollects.numbered_named h

/-! ### Storing -/

/-- A store operation assigns identifiers that are above all that are stored or
bound. -/
theorem Numbered.above_of_storeRoots (h : session.Numbered) (hIntact : session.Intact registry d)
    {roots : List Ref} {chunk : StoredChunk} {session' : Session ι}
    (hStart : (Session.storeRoots registry roots).start session = (.ok chunk, session')) :
    session.live.ids.next.toNat ≤ session'.live.ids.next.toNat ∧
      ∀ ref id, session.live.ids.objectId? ref = none →
        session'.live.ids.objectId? ref = some id →
        ∀ other, ((session.store.record? other).isSome = true ∨
            (session.live.ids.ref? other).isSome = true) →
          other.value.toNat < id.value.toNat := by
  have hIds := hIntact.live.ids
  rcases stores_or_fails hIntact.wellFormed hIds roots with
    ⟨e, hFails⟩ | ⟨chunk', ids, visited, records, d', hStores⟩ |
      ⟨chunk', ids, visited, records, e, -, hFails⟩
  · rw [hFails] at hStart
    cases hStart
  · rw [hStores.start] at hStart
    cases hStart
    have hCollects := hStores.collects hIds
    exact ⟨hCollects.issues.next, fun ref id hFree hNamed other hOther =>
      hCollects.lt_of_fresh hIds h hFree hNamed hOther⟩
  · rw [hFails] at hStart
    cases hStart

/-- Storing fails, and changes nothing, if there are not enough identifiers left
for what the roots lead to. -/
theorem storeRoots_of_exhausted (hIntact : session.Intact registry d) {roots refs : List Ref}
    (hNodup : refs.Nodup)
    (hEach : ∀ ref ∈ refs, session.live.ids.objectId? ref = none ∧
      Reachable (session.live.graph.network registry) {} roots ref)
    (hRoom : Word.max.toNat < session.live.ids.next.toNat + refs.length) :
    ∃ e, (Session.storeRoots registry roots).start session = (.error e, session) := by
  have hIds := hIntact.live.ids
  -- If anything was written, there were enough identifiers.
  have hNone : ∀ chunk ids visited records,
      ¬session.Collects registry roots chunk ids visited records := by
    intro chunk ids visited records hCollects
    have hEnough := hCollects.room hIds hNodup (fun ref hRef => (hEach ref hRef).2)
      (fun ref hRef => (hEach ref hRef).1)
    omega
  rcases stores_or_fails hIntact.wellFormed hIds roots with
    hFails | ⟨chunk, ids, visited, records, d', hStores⟩ |
      ⟨chunk, ids, visited, records, e, hCollects, -⟩
  · exact hFails
  · exact absurd (hStores.collects hIds) (hNone chunk ids visited records)
  · exact absurd hCollects (hNone chunk ids visited records)

/-! ### The origin of an identifier -/

/-- The action gives the instance at a position the identifier: it loads the
object, for which it has created the instance, or it stores the instance and
takes the identifier from the counter. -/
inductive Gives (registry : Registry ι) (session : Session ι) (id : ObjectId) (ref : Ref) :
    SessionAction ι → Prop where
  | load :
      (session.store.record? id).isSome = true → session.live.graph.size ≤ ref.index →
      ((Session.loadRoots registry).start session).2.live.ids.ref? id = some ref →
        Gives registry session id ref .loadRoots
  | store (roots : List Ref) :
      session.live.ids.next.toNat ≤ id.value.toNat → ref.index < session.live.graph.size →
      ((Session.storeRoots registry roots).start session).2.live.ids.ref? id = some ref →
        Gives registry session id ref (.storeRoots roots)

/-- What is bound once the instances have their identifiers was bound before, or
storing has given it the identifier. -/
theorem Collects.gives {roots : List Ref} {chunk : StoredChunk} {ids : ObjectIds}
    {visited : List Ref} {records : List Record}
    (h : session.Collects registry roots chunk ids visited records)
    (hIntact : session.Intact registry d) {id : ObjectId} {ref : Ref}
    (hNamed : ids.ref? id = some ref)
    (hBound : ((Session.storeRoots registry roots).start session).2.live.ids.ref? id = some ref) :
    session.live.ids.ref? id = some ref ∨ session.Gives registry id ref (.storeRoots roots) := by
  rcases h.issues.fresh id ref hNamed with hBefore | ⟨hFresh, -⟩
  · exact Or.inl hBefore
  · have hWithin := h.outcome.within hIntact.live.ids hIntact.live.within id ref hNamed
    exact Or.inr (Gives.store roots hFresh hWithin hBound)

/-- What is bound after an action was bound before, or the action has given it
the identifier. -/
theorem gives_perform (h : session.Intact registry d) {action : SessionAction ι} {id : ObjectId}
    {ref : Ref} (hBound : (session.perform registry action).2.live.ids.ref? id = some ref) :
    session.live.ids.ref? id = some ref ∨ session.Gives registry id ref action := by
  rcases perform_cases h.wellFormed h.live.ids action with
    hRests | ⟨rfl, -⟩ | ⟨roots, chunk, ids, visited, records, d', rfl, hStores, hDone⟩ |
      ⟨roots, chunk, ids, visited, records, rfl, hCollects, hDone⟩
  · rw [hRests.ids] at hBound
    exact Or.inl hBound
  · obtain ⟨-, -, hCases⟩ := binds_loadRoots h
    rcases hCases id ref hBound with hBefore | ⟨hStored, hNew⟩
    · exact Or.inl hBefore
    · exact Or.inr (Gives.load hStored hNew hBound)
  · have hNamed : ids.ref? id = some ref := by
      rw [hDone] at hBound
      exact hBound
    exact (hStores.collects h.live.ids).gives h hNamed hBound
  · have hNamed : ids.ref? id = some ref := by
      rw [hDone] at hBound
      exact hBound
    exact hCollects.gives h hNamed hBound

end Session

/-! ## Runs -/

namespace World

variable [Instance ι] {w : World ι} {d : Dictionary}

/-- The counters of the store and of the open session are above the
identifiers. -/
structure Numbered (w : World ι) : Prop where
  store : w.use.store.Numbered
  session : ∀ number session, w.use = .busy number session → session.Numbered

omit [Instance ι] in
theorem numbered_initial : (initial : World ι).Numbered where
  store := EntityStore.numbered_empty
  session := by
    intro number session h
    cases h

omit [Instance ι] in
theorem numbered_busy {registries : Nat → Registry ι} {number : Nat} {session : Session ι}
    (h : session.Numbered) : Numbered ⟨registries, .busy number session⟩ where
  store := h.store
  session := by
    intro other session' hUse
    cases hUse
    exact h

omit [Instance ι] in
theorem numbered_idle {registries : Nat → Registry ι} {tables : StoreTables}
    (h : (EntityStore.opened tables).Numbered) :
    Numbered (⟨registries, .idle tables⟩ : World ι) where
  store := h
  session := by
    intro number session hUse
    cases hUse

theorem numbered_step (hIntact : w.Intact d) (h : w.Numbered) (action : WorldAction ι) :
    (w.step action).Numbered := by
  cases action with
  | register number registration => exact ⟨h.store, h.session⟩
  | openSession number =>
      cases hUse : w.use with
      | busy other session =>
          simp only [step, hUse]
          exact h
      | idle tables =>
          have hStore := h.store
          rw [hUse] at hStore
          simp only [step, hUse]
          cases hOpen : (Session.openStore (.opened tables)).start (w.registries number) with
          | mk result registry =>
              cases result with
              | ok session =>
                  rw [Session.openStore_fresh hOpen]
                  exact numbered_busy (Session.numbered_fresh hStore)
              | error e => exact numbered_idle hStore
  | act action =>
      cases hUse : w.use with
      | idle tables =>
          simp only [step, hUse]
          exact h
      | busy number session =>
          have hSession := h.session number session hUse
          simp only [step, hUse]
          exact numbered_busy (hSession.perform (hIntact.session number session hUse) action)
  | closeSession =>
      refine numbered_idle ?_
      rw [EntityStore.opened_toStoreTables]
      exact h.store

theorem numbered_run (actions : List (WorldAction ι)) : (run actions).Numbered := by
  induction actions using List.reverseRecOn with
  | nil => exact numbered_initial
  | append_singleton actions action ih =>
      obtain ⟨d, hIntact⟩ := intact_run actions
      rw [run_concat]
      exact numbered_step hIntact ih action

/-! ## The origin of a binding -/

/-- An action of the open session has given the instance at a position the
identifier. -/
def Given (actions : List (WorldAction ι)) (id : ObjectId) (ref : Ref) : Prop :=
  ∃ before action after number session, actions = before ++ .act action :: after ∧
    .closeSession ∉ after ∧ (run before).use = .busy number session ∧
    session.Gives ((run before).registries number) id ref action

/-- Every action but the closing of the session keeps what was given in it. -/
theorem Given.concat {actions : List (WorldAction ι)} {id : ObjectId} {ref : Ref}
    (h : Given actions id ref) {action : WorldAction ι} (hOpen : action ≠ .closeSession) :
    Given (actions ++ [action]) id ref := by
  obtain ⟨before, given, after, number, session, rfl, hAfter, hUse, hGives⟩ := h
  refine ⟨before, given, after ++ [action], number, session, by simp, ?_, hUse, hGives⟩
  intro hIn
  rcases List.mem_append.1 hIn with hIn | hIn
  · exact hAfter hIn
  · exact hOpen (List.mem_singleton.1 hIn).symm

/-- Every instance with an identifier got it in the open session. -/
theorem origin_of_binding (actions : List (WorldAction ι)) {number : Nat} {session : Session ι}
    {id : ObjectId} {ref : Ref} (hUse : (run actions).use = .busy number session)
    (hBound : session.live.ids.ref? id = some ref) : Given actions id ref := by
  induction actions using List.reverseRecOn generalizing number session with
  | nil => cases hUse
  | append_singleton actions action ih =>
      rw [run_concat] at hUse
      cases action with
      | register other registration => exact (ih hUse hBound).concat (by simp)
      | openSession other =>
          cases hBefore : (run actions).use with
          | busy former open' =>
              simp only [step, hBefore] at hUse
              exact (ih (hBefore.trans hUse) hBound).concat (by simp)
          | idle tables =>
              -- A session begins with no instances.
              simp only [step, hBefore] at hUse
              split at hUse
              · rename_i opened registry hOpen
                cases hUse
                rw [Session.openStore_fresh hOpen] at hBound
                simp [Session.fresh, ObjectIds.startingAt, ObjectIds.ref?] at hBound
              · cases hUse
      | act action =>
          cases hBefore : (run actions).use with
          | idle tables =>
              simp only [step, hBefore] at hUse
              cases hUse
          | busy former session₀ =>
              simp only [step, hBefore] at hUse
              cases hUse
              obtain ⟨d, hIntact⟩ := intact_run actions
              rcases Session.gives_perform (hIntact.session number session₀ hBefore) hBound with
                hOld | hGives
              · exact (ih hBefore hOld).concat (by simp)
              · exact ⟨actions, action, [], number, session₀, rfl, by simp, hBefore, hGives⟩
      | closeSession => cases hUse

/-! ## The result -/

/-- An instance that is written under a stored identifier has got the
identifier in the open session. -/
theorem given_of_writes (actions : List (WorldAction ι)) {roots : List Ref} {ref : Ref}
    {handler : ObjectHandler ι} {derived : ObjectHandler.Derived ι} {x : ι} {r : Record}
    (hWrites : (run actions).Writes roots ref handler derived x r)
    (hStored : ((run actions).use.store.record? r.object).isSome = true) :
    (∃ number session, (run actions).use = .busy number session ∧
        session.live.ids.ref? r.object = some ref) ∧ Given actions r.object ref := by
  obtain ⟨number, session, chunk, ids, visited, records, d, hUse, hStores, -, -, hSaved⟩ := hWrites
  obtain ⟨d', hIntact⟩ := intact_run actions
  have hIds := (hIntact.session number session hUse).live.ids
  have hNumbered := (numbered_run actions).session number session hUse
  rw [hUse] at hStored
  have hNamed :=
    (hStores.collects hIds).objectId?_of_stored hIds hNumbered hSaved.object hStored
  have hBound := (hIds.inverse r.object ref).2 hNamed
  exact ⟨⟨number, session, hUse, hBound⟩, origin_of_binding actions hUse hBound⟩

/-- After every run, the counter of the store has passed each stored
identifier, and that of the open session is not behind it. No two instances
have one identifier. An identifier that is assigned is above all that are
stored or bound, and storing fails if there are not enough of them left. A
record is only overwritten by a store operation, with that of the instance
that its identifier is bound to, which has it from a load of the record or
from an assignment in the same session. -/
theorem run_numbered (actions : List (WorldAction ι)) :
    (∀ id, ((run actions).use.store.record? id).isSome = true →
        ObjectId.first.value.toNat ≤ id.value.toNat ∧
          id.value.toNat < (run actions).use.store.next.toNat) ∧
      (∀ number session, (run actions).use = .busy number session →
        session.store.next.toNat ≤ session.live.ids.next.toNat ∧
        (∀ ref ref' id, session.live.ids.objectId? ref = some id →
          session.live.ids.objectId? ref' = some id → ref = ref') ∧
        (∀ roots chunk session',
          (Session.storeRoots ((run actions).registries number) roots).start session =
            (.ok chunk, session') →
          session.live.ids.next.toNat ≤ session'.live.ids.next.toNat ∧
          ∀ ref id, session.live.ids.objectId? ref = none →
            session'.live.ids.objectId? ref = some id →
            ∀ other, ((session.store.record? other).isSome = true ∨
                (session.live.ids.ref? other).isSome = true) →
              other.value.toNat < id.value.toNat) ∧
        ∀ roots (refs : List Ref), refs.Nodup →
          (∀ ref ∈ refs, session.live.ids.objectId? ref = none ∧
            Reachable (session.live.graph.network ((run actions).registries number)) {} roots
              ref) →
          Word.max.toNat < session.live.ids.next.toNat + refs.length →
          ∃ e, (Session.storeRoots ((run actions).registries number) roots).start session =
            (.error e, session)) ∧
      (∀ action id,
        ((run actions).step action).use.store.record? id = (run actions).use.store.record? id ∨
          ∃ roots ref handler derived x r, action = .act (.storeRoots roots) ∧
            (run actions).Writes roots ref handler derived x r ∧ r.object = id ∧
            ((run actions).step action).use.store.record? id = some r.encode) ∧
      ∀ roots ref handler derived x r, (run actions).Writes roots ref handler derived x r →
        ((run actions).use.store.record? r.object).isSome = true →
        (∃ number session, (run actions).use = .busy number session ∧
          session.live.ids.ref? r.object = some ref) ∧ Given actions r.object ref := by
  obtain ⟨d, hIntact⟩ := intact_run actions
  have hNumbered := numbered_run actions
  refine ⟨hNumbered.store, ?_, ?_, ?_⟩
  · intro number session hUse
    have hSession := hIntact.session number session hUse
    have hIds := hSession.live.ids
    have hCounter := hNumbered.session number session hUse
    refine ⟨hCounter.next, ?_, ?_, ?_⟩
    · intro ref ref' id hRef hRef'
      have hBound := (hIds.inverse id ref).2 hRef
      rw [(hIds.inverse id ref').2 hRef'] at hBound
      exact (Option.some.inj hBound).symm
    · exact fun roots chunk session' hStart => hCounter.above_of_storeRoots hSession hStart
    · exact fun roots refs hNodup hEach hRoom =>
        Session.storeRoots_of_exhausted hSession hNodup hEach hRoom
  · exact fun action id => record_cases hIntact action id
  · exact fun roots ref handler derived x r hWrites hStored =>
      given_of_writes actions hWrites hStored

end World

end ObjectStore
