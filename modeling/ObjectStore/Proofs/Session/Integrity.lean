import ObjectStore.Proofs.Dictionary.Building
import ObjectStore.Proofs.EntityStore.Writes
import ObjectStore.Proofs.Loading.Phases
import ObjectStore.Proofs.Session.Storing
import ObjectStore.Proofs.Storing.Validity

/-!
# Referential integrity of a store

A store is sound if every record in it is valid, every reference of a record
leads to a record, and so does every root. What is valid is said by the
dictionary that the store keeps. The dictionary is replaced with every
commit, by one that describes the old records in the same way: a session
cannot be opened on a registry that contradicts the stored dictionary, and a
registry only grows.

A commit brings records that refer to each other only, so a store that was
sound stays so. It makes no difference what a load has made of the old
records.

## Main results

* `EntityStore.sound_committed`: a commit keeps the store sound.
* `Session.intact_storeRoots`, `Session.intact_loadRoots`,
  `Session.intact_saveDictionary`, `Session.intact_importDictionary`: what a
  session does keeps its store sound, whether it succeeds or not.
* `Session.openStore_ok`: a session that was opened begins with a sound store.
-/

namespace ObjectStore

open Std Storing

variable {ι : Type} {registry registry' : Registry ι} {d : Dictionary}

/-! ## Sound stores -/

namespace EntityStore

variable {s s' : EntityStore}

/-- The bytes of an object are a valid record of it, and its references lead
to stored objects. -/
structure Validates (registry : Registry ι) (s : EntityStore) (id : ObjectId) (bytes : Bytes)
    (r : Record) : Prop where
  bytes : bytes = r.encode
  acceptable : Chunk.Acceptable r
  object : r.object = id
  valid : ∃ definition targets,
    registry.validateEntity r.length r.type r.object = .ok definition ∧
      (definition.references r).toExcept = .ok targets ∧
      ∀ target ∈ targets, (s.record? target).isSome = true

/-- Every record is valid, and every reference and every root leads to a
record. -/
structure Sound (registry : Registry ι) (s : EntityStore) : Prop where
  entities : ∀ id bytes, s.record? id = some bytes → ∃ r, s.Validates registry id bytes r
  readable : s.Readable
  roots : ∀ root ∈ s.roots, (s.record? root).isSome = true

/-- The dictionary that a store keeps. It is empty if none was ever saved. -/
def Keeps (s : EntityStore) (d : Dictionary) : Prop :=
  s.dictionaryFile = some ⟨d.encode.toArray⟩ ∨ s.dictionaryFile = none ∧ d = Dictionary.empty

theorem sound_empty (registry : Registry ι) : empty.Sound registry where
  entities := by simp
  readable := readable_empty
  roots := fun _ hRoot => nomatch hRoot

theorem keeps_empty : empty.Keeps Dictionary.empty := Or.inr ⟨rfl, rfl⟩

/-- The stored dictionary, if it can be read, is the one that was saved. -/
theorem Keeps.dictionary_eq (h : s.Keeps d) (hProper : d.Proper) {stored : Dictionary}
    (hStored : s.dictionary = .ok (some stored)) : stored = d := by
  unfold dictionary at hStored
  rcases h with hFile | ⟨hNone, -⟩
  · simp only [hFile] at hStored
    obtain ⟨decoded, hDecode, hSame⟩ := map_eq_ok.1 hStored
    cases hSame
    exact Dictionary.decode_encode_eq hProper.listed hDecode
  · simp only [hNone] at hStored
    cases hStored

theorem Validates.mono {id : ObjectId} {bytes : Bytes} {r : Record}
    (h : s.Validates registry id bytes r)
    (hDefinition : ∀ definition, registry.definition? r.type = some definition →
      ∃ registered, registry'.definition? r.type = some registered ∧
        registered.members = definition.members)
    (hStored : ∀ target, (s.record? target).isSome = true → (s'.record? target).isSome = true) :
    s'.Validates registry' id bytes r := by
  refine ⟨h.bytes, h.acceptable, h.object, ?_⟩
  obtain ⟨definition, targets, hValid, hTargets, hAll⟩ := h.valid
  obtain ⟨hKnown, hAccepts⟩ := Registry.validateEntity_eq_ok.1 hValid
  obtain ⟨registered, hRegistered, hMembers⟩ := hDefinition definition hKnown
  have hMin : registered.minLength = definition.minLength := by
    rw [Definition.minLength, Definition.minLength, hMembers]
  have hMax : registered.maxLength = definition.maxLength := by
    rw [Definition.maxLength, Definition.maxLength, hMembers]
  have hSameAccepts : registered.acceptsLength r.length = definition.acceptsLength r.length := by
    rw [Definition.acceptsLength, Definition.acceptsLength, hMin, hMax]
  have hSameReferences : registered.references r = definition.references r := by
    rw [Definition.references, Definition.references, hMembers]
  refine ⟨registered, targets, ?_, ?_, fun target hTarget => hStored target (hAll target hTarget)⟩
  · exact Registry.validateEntity_eq_ok.2 ⟨hRegistered, hSameAccepts.trans hAccepts⟩
  · rw [hSameReferences]
    exact hTargets

/-- What a dictionary says of a store, every registry that covers it says as
well. -/
theorem Sound.of_covers (h : s.Sound (d.asRegistry : Registry ι)) (hProper : d.Proper)
    (hCovers : registry.Covers d) : s.Sound registry where
  entities := by
    intro id bytes hGet
    obtain ⟨r, hValidates⟩ := h.entities id bytes hGet
    refine ⟨r, hValidates.mono ?_ fun _ hStored => hStored⟩
    intro definition hDefinition
    obtain ⟨registered, hRegistered, hEqual⟩ := hProper.definition_of_covers hCovers hDefinition
    exact ⟨registered, hRegistered, (Definition.isLayoutEqual_iff.1 hEqual).2.2⟩
  readable := h.readable
  roots := h.roots

/-- What a registry says of a store, its snapshot says as well. -/
theorem Sound.of_snapshot (h : s.Sound registry) (hById : d.byId = registry.definitions) :
    s.Sound (d.asRegistry : Registry ι) where
  entities := by
    intro id bytes hGet
    obtain ⟨r, hValidates⟩ := h.entities id bytes hGet
    refine ⟨r, hValidates.mono ?_ fun _ hStored => hStored⟩
    intro definition hDefinition
    refine ⟨definition, ?_, rfl⟩
    show d.byId[r.type]? = some definition
    rw [hById]
    exact hDefinition
  readable := h.readable
  roots := h.roots

theorem Sound.saveDictionary (h : s.Sound registry) (d : Dictionary) :
    (s.saveDictionary d).Sound registry where
  entities := by
    intro id bytes hGet
    obtain ⟨r, hValidates⟩ := h.entities id bytes hGet
    refine ⟨r, hValidates.mono ?_ fun _ hStored => hStored⟩
    exact fun definition hDefinition => ⟨definition, hDefinition, rfl⟩
  readable := h.readable
  roots := h.roots

/-! ### The stored records -/

theorem Sound.arranged (h : s.Sound registry) : s.Arranged := by
  intro id bytes hGet
  obtain ⟨r, hValidates⟩ := h.entities id bytes hGet
  exact ⟨r, hValidates.bytes, hValidates.acceptable, hValidates.object⟩

theorem Sound.lists (h : s.Sound registry) : ∃ records, s.Lists records := by
  obtain ⟨records, hLists, -⟩ := h.arranged.lists
  exact ⟨records, hLists⟩

/-- Every record of a sound store is valid. -/
theorem Lists.validates {records : List Record} (hLists : s.Lists records) (h : s.Sound registry)
    {r : Record} (hr : r ∈ records) : s.Validates registry r.object r.encode r := by
  obtain ⟨r', hValidates⟩ := h.entities r.object r.encode (hLists.stored r hr)
  have hSame := Chunk.encode_inj (hLists.acceptable r hr) hValidates.acceptable hValidates.bytes
  rwa [← hSame] at hValidates

/-! ### Commits -/

section

variable [Instance ι] {g : Graph ι} {roots : List Ref} {ids ids' : ObjectIds} {chunk : StoredChunk}
  {visited : List Ref} {records : List Record}

/-- Every visited instance has a record under its identifier. -/
theorem record_of_visited (h : Outcome registry g roots ids chunk ids' visited records) {ref : Ref}
    (hRef : ref ∈ visited) : ∃ r ∈ records, r.object = ids'.nameOf ref := by
  obtain ⟨r, hr, _, _, _, hSaved⟩ := h.write_of_visited hRef
  exact ⟨r, hr, (ObjectIds.nameOf_of_object hSaved.object).symm⟩

/-- What a store operation has written is sound by itself, so committing it
to a sound store gives a sound store. -/
theorem sound_committed (hRegistry : registry.WellFormed) (hSound : s.Sound registry)
    (h : Outcome registry g roots ids chunk ids' visited records)
    (hFits : RootList.Fits chunk.roots) (next : UInt64) (dictionary : Option Dictionary) :
    (s.committed records chunk.roots next dictionary).Sound registry where
  entities := by
    intro id bytes hGet
    rcases record?_committed s records chunk.roots next dictionary id with
      ⟨r, hr, hObject, hNew⟩ | ⟨-, hOld⟩
    · rw [hNew] at hGet
      cases hGet
      obtain ⟨ref, hRef, handler, derived, x, hSaved⟩ := h.write_of_mem hr
      obtain ⟨definition, hValid, hMembers⟩ := hSaved.valid hRegistry
      have hReferences := hSaved.references_record h.wellFormed hMembers
      refine ⟨r, rfl, hSaved.acceptable, hObject, definition, _, hValid,
        by rw [hReferences, Enumeration.toExcept_ok], ?_⟩
      intro target hTarget
      obtain ⟨ref', hLead, rfl⟩ := List.mem_map.1 hTarget
      obtain ⟨r', hr', hObject'⟩ := record_of_visited h (h.closed hRef hLead)
      rw [← hObject']
      exact isSome_record?_of_mem hr'
    · rw [hOld] at hGet
      obtain ⟨r, hValidates⟩ := hSound.entities id bytes hGet
      refine ⟨r, hValidates.mono ?_ fun _ => isSome_record?_committed⟩
      exact fun definition hDefinition => ⟨definition, hDefinition, rfl⟩
  readable := readable_of_readRoots (readRoots_committed hFits)
  roots := by
    intro root hRoot
    rw [roots_eq (readRoots_committed hFits), h.roots] at hRoot
    obtain ⟨ref, hRef, rfl⟩ := List.mem_map.1 hRoot
    have hVisited := (h.reachable ref).2 (Reachable.root hRef rfl)
    obtain ⟨r, hr, hObject⟩ := record_of_visited h hVisited
    rw [← hObject]
    exact isSome_record?_of_mem hr

end

end EntityStore

/-! ## Sessions -/

namespace Session

variable {session : Session ι}

/-- A session works on a sound store, whose dictionary is known to the
registry. -/
structure Intact (registry : Registry ι) (d : Dictionary) (session : Session ι) : Prop where
  wellFormed : registry.WellFormed
  live : session.live.WellFormed
  proper : d.Proper
  keeps : session.store.Keeps d
  covers : registry.Covers d
  sound : session.store.Sound (d.asRegistry : Registry ι)

theorem Intact.sound_registry (h : session.Intact registry d) : session.store.Sound registry :=
  h.sound.of_covers h.proper h.covers

theorem Intact.grow (h : session.Intact registry d) (hGrows : registry.Grows registry') :
    session.Intact registry' d :=
  ⟨hGrows.wellFormed, h.live, h.proper, h.keeps, h.covers.grow hGrows, h.sound⟩

theorem Intact.withMatcher (h : session.Intact registry d) (matcher : Matcher) :
    (session.withMatcher matcher).Intact registry d :=
  ⟨h.wellFormed, h.live, h.proper, h.keeps, h.covers, h.sound⟩

theorem Intact.withLive (h : session.Intact registry d) {live : Live ι} (hLive : live.WellFormed) :
    Intact registry d { session with live } :=
  ⟨h.wellFormed, hLive, h.proper, h.keeps, h.covers, h.sound⟩

/-- A session whose store is sound for the registry may save the snapshot of
the registry. -/
theorem intact_of_snapshot (hRegistry : registry.WellFormed) (hLive : session.live.WellFormed)
    (hSnapshot : registry.snapshot = .ok d)
    (hFile : session.store.dictionaryFile = some ⟨d.encode.toArray⟩)
    (hSound : session.store.Sound registry) : session.Intact registry d := by
  obtain ⟨hProper, hById⟩ := Dictionary.proper_snapshot hRegistry hSnapshot
  exact ⟨hRegistry, hLive, hProper, Or.inl hFile, hProper.covers_snapshot hById,
    hSound.of_snapshot hById⟩

/-- A snapshot keeps what the dictionary of the store says. -/
theorem Intact.extends_snapshot (h : session.Intact registry d) {d' : Dictionary}
    (hSnapshot : registry.snapshot = .ok d') : d.Extends d' :=
  h.proper.extends_snapshot h.covers (Dictionary.proper_snapshot h.wellFormed hSnapshot).2

/-- The definitions of a registry can always be saved. -/
theorem saveDictionary_isOk (hRegistry : registry.WellFormed) (session : Session ι) :
    ∃ d', registry.snapshot = .ok d' ∧ (saveDictionary registry).start session =
      (.ok (), { session with store := session.store.saveDictionary d' }) := by
  obtain ⟨d', hSnapshot, -⟩ := Registry.snapshot_ok hRegistry
  refine ⟨d', hSnapshot, ?_⟩
  unfold saveDictionary
  rw [Attempt.start_lift_bind, hSnapshot]
  rfl

theorem intact_saveDictionary (h : session.Intact registry d) :
    ∃ d', d.Extends d' ∧ ((saveDictionary registry).start session).2.Intact registry d' := by
  obtain ⟨d', hSnapshot, hStart⟩ := saveDictionary_isOk h.wellFormed session
  rw [hStart]
  have hSound := h.sound_registry.saveDictionary d'
  exact ⟨d', h.extends_snapshot hSnapshot,
    intact_of_snapshot h.wellFormed h.live hSnapshot rfl hSound⟩

theorem grows_addTypes (r₀ : Registry ι) (definitions : List Definition) :
    Attempt.Keeps r₀.Grows (definitions.forM fun definition => do
      let _ ← Registry.addType definition) := by
  apply Attempt.keeps_forM
  intro definition _
  refine Attempt.Keeps.bind ?_ fun _ => Attempt.keeps_pure _
  intro r h
  exact h.trans (Registry.grows_addType h.wellFormed definition)

theorem grows_registerAll (r₀ : Registry ι) (d : Dictionary) :
    Attempt.Keeps r₀.Grows (registerAll d) := grows_addTypes r₀ d.definitions

theorem start_importDictionary (imported : Dictionary) :
    (importDictionary imported).start (registry, session) =
      (Attempt.lift (registry.validate imported) >>= fun _ =>
        Attempt.within Prod.fst (fun r s => (r, s.2)) (registerAll imported) >>= fun _ =>
        get >>= fun q : Registry ι × Session ι =>
        Attempt.within Prod.snd (fun session s => (s.1, session)) (saveDictionary q.1)).start
          (registry, session) := rfl

/-- An import keeps the store sound, whether it succeeds or not. -/
theorem intact_importDictionary (h : session.Intact registry d) (imported : Dictionary) :
    ∃ d', d.Extends d' ∧
      registry.Grows ((importDictionary imported).start (registry, session)).2.1 ∧
      ((importDictionary imported).start (registry, session)).2.2.Intact
        ((importDictionary imported).start (registry, session)).2.1 d' := by
  have hSame := Registry.Grows.refl h.wellFormed
  rw [start_importDictionary, Attempt.start_lift_bind]
  cases registry.validate imported with
  | error e => exact ⟨d, Dictionary.Extends.refl d, hSame, h⟩
  | ok _ =>
      have hGrows := grows_registerAll registry imported registry hSame
      simp only [Attempt.start_bind, Attempt.start_within]
      cases hAll : (registerAll imported).start registry with
      | mk result registry' =>
          rw [hAll] at hGrows
          cases result with
          | error e => exact ⟨d, Dictionary.Extends.refl d, hGrows, h.grow hGrows⟩
          | ok _ =>
              obtain ⟨d', hExtends, hIntact⟩ := intact_saveDictionary (h.grow hGrows)
              exact ⟨d', hExtends, hGrows, hIntact⟩

/-- What does not make the graph smaller may be done to it. -/
theorem intact_onGraph {α : Type} {attempt : Attempt (Graph ι) α} (h : session.Intact registry d)
    (hSize : session.live.graph.size ≤ (attempt.start session.live.graph).2.size) :
    ((onGraph attempt).start session).2.Intact registry d := by
  apply h.withLive
  refine ⟨h.live.ids, ?_⟩
  intro id ref hRef
  exact Nat.lt_of_lt_of_le (h.live.within id ref hRef) hSize

section

variable [Instance ι]

theorem live_named (h : session.Intact registry d) {roots : List Ref} {chunk : StoredChunk}
    {ids : ObjectIds} {visited : List Ref} {records : List Record}
    (hOutcome : Outcome registry session.live.graph roots session.live.ids chunk ids visited
      records) : (session.named ids).live.WellFormed :=
  ⟨hOutcome.wellFormed, hOutcome.within h.live.ids h.live.within⟩

theorem intact_stored (h : session.Intact registry d) {roots : List Ref} {chunk : StoredChunk}
    {ids : ObjectIds} {visited : List Ref} {records : List Record} {d' : Dictionary}
    (hOutcome : Outcome registry session.live.graph roots session.live.ids chunk ids visited
      records)
    (hSnapshot : registry.snapshot = .ok d') (hFits : RootList.Fits chunk.roots) :
    (session.stored ids records chunk.roots d').Intact registry d' := by
  have hSound := EntityStore.sound_committed h.wellFormed h.sound_registry hOutcome hFits ids.next
    (some d')
  exact intact_of_snapshot h.wellFormed (live_named h hOutcome) hSnapshot rfl hSound

theorem intact_storeRoots (h : session.Intact registry d) (roots : List Ref) :
    ∃ d', d.Extends d' ∧ ((storeRoots registry roots).start session).2.Intact registry d' := by
  rcases storeRoots_cases h.wellFormed h.live.ids roots with
    ⟨e, hStart⟩ | ⟨chunk, ids, visited, records, d', -, hOutcome, hSnapshot, -,
      ⟨hFits, hStart⟩ | ⟨e, hStart⟩⟩
  · rw [hStart]
    exact ⟨d, Dictionary.Extends.refl d, h⟩
  · rw [hStart]
    exact ⟨d', h.extends_snapshot hSnapshot, intact_stored h hOutcome hSnapshot hFits⟩
  · rw [hStart]
    exact ⟨d, Dictionary.Extends.refl d, h.withLive (live_named h hOutcome)⟩

/-- Loading the roots loads all records, and only then looks up the roots. -/
theorem start_loadRoots {result : Except Error (List Ref)} {live : Live ι}
    (h : (loadObjects registry
      (some (session.matcher.withThreshold session.matcher.threshold))
      session.store.records).start session.live = (result, live)) :
    (loadRoots registry).start session =
      (result >>= fun _ => session.store.readRoots >>= fun roots => roots.mapM (rootRef live.ids),
        { session with live }) := by
  have hOnLive : (onLive (loadObjects registry
      (some (session.matcher.withThreshold session.matcher.threshold))
      session.store.records)).start session = (result, { session with live }) :=
    Attempt.start_within_eq.2 ⟨live, h, rfl⟩
  rw [loadRoots, Attempt.start_bind]
  show (Attempt.start (_ >>= _) session) = _
  rw [Attempt.start_bind, hOnLive]
  cases result with
  | error e => rfl
  | ok refs =>
      show (Attempt.lift session.store.readRoots >>= _).start { session with live } = _
      rw [Attempt.start_lift_bind]
      cases session.store.readRoots <;> rfl

theorem intact_loadRoots (registry : Registry ι) (d : Dictionary) :
    Attempt.Keeps (Intact registry d) (loadRoots registry) := by
  refine Attempt.Keeps.bind (fun _ h => h) fun before => ?_
  refine Attempt.Keeps.bind ?_ fun _ => ?_
  · intro session h
    exact h.withLive (keeps_loadObjects registry _ _ session.live h.live)
  · refine Attempt.Keeps.bind (fun _ h => h) fun after => ?_
    exact (Attempt.keeps_lift _).bind fun _ => Attempt.keeps_lift _

end

/-! ### Opening -/

theorem start_adopt_of_valid (hValid : registry.validate d = .ok ()) :
    (adopt d).start registry =
      (if registry.bound.isNone then Registry.bindDictionary ⟨none, d⟩ else registerAll d).start
        registry := by
  show (Attempt.lift (registry.validate d) >>= _).start registry = _
  rw [Attempt.start_lift_bind, hValid]

theorem grows_adopt (r₀ : Registry ι) (d : Dictionary) : Attempt.Keeps r₀.Grows (adopt d) := by
  refine Attempt.Keeps.bind (fun _ h => h) fun r => ?_
  refine (Attempt.keeps_lift _).bind fun _ => ?_
  split
  · intro r h
    exact h.trans (Registry.grows_bindDictionary h.wellFormed ⟨none, d⟩)
  · exact grows_registerAll r₀ d

theorem grows_openStore (hRegistry : registry.WellFormed) (store : EntityStore) :
    registry.Grows ((openStore store : Attempt (Registry ι) (Session ι)).start registry).2 := by
  have hKeeps : Attempt.Keeps registry.Grows (openStore store : Attempt _ (Session ι)) := by
    refine (Attempt.keeps_lift _).bind fun stored => ?_
    cases stored with
    | none => exact Attempt.keeps_pure _
    | some d => exact (grows_adopt registry d).bind fun _ => Attempt.keeps_pure _
  exact hKeeps registry (Registry.Grows.refl hRegistry)

theorem covers_registerAll (hRegistry : registry.WellFormed)
    (h : (registerAll d).start registry = (.ok (), registry')) : registry'.Covers d := by
  unfold registerAll at h
  unfold Registry.Covers
  generalize d.definitions = definitions at h ⊢
  induction definitions generalizing registry with
  | nil => simp
  | cons first rest ih =>
      obtain ⟨r, hFirst, hRest⟩ := Attempt.start_forM_cons_ok.1 h
      obtain ⟨result, r₁, hAdd, hDone⟩ := Attempt.start_bind_ok.1 hFirst
      cases hDone
      have hGrows := Registry.grows_addType hRegistry first
      rw [hAdd] at hGrows
      have hLater := grows_addTypes r rest r (Registry.Grows.refl hGrows.wellFormed)
      rw [hRest] at hLater
      intro definition hIn
      rcases List.mem_cons.1 hIn with rfl | hTail
      · obtain ⟨registered, hRegistered, hEqual⟩ := Registry.definition?_addType hAdd
        exact ⟨registered, hLater.definitions _ _ hRegistered, hEqual⟩
      · exact ih hGrows.wellFormed hRest definition hTail

/-- A registry that has adopted a dictionary covers it. -/
theorem covers_adopt (hRegistry : registry.WellFormed) (hProper : d.Proper)
    (h : (adopt d).start registry = (.ok (), registry')) : registry'.Covers d := by
  obtain ⟨r, r₁, hGet, h⟩ := Attempt.start_bind_ok.1 h
  cases hGet
  obtain ⟨_, r₂, hValid, h⟩ := Attempt.start_bind_ok.1 h
  obtain ⟨-, rfl⟩ := Prod.mk.inj hValid
  split at h
  · rename_i hUnbound
    exact Registry.covers_bindDictionary (Option.isNone_iff_eq_none.1 hUnbound) hProper.nodup h
  · exact covers_registerAll hRegistry h

theorem wellFormed_fresh (store : EntityStore) : (fresh store : Session ι).live.WellFormed :=
  Live.wellFormed_empty store.next

/-- A session that was opened on a sound store is intact. -/
theorem openStore_ok {store : EntityStore} (hRegistry : registry.WellFormed) (hProper : d.Proper)
    (hKeeps : store.Keeps d) (hSound : store.Sound (d.asRegistry : Registry ι))
    (h : (openStore store).start registry = (.ok session, registry')) :
    session.Intact registry' d := by
  have hGrows := grows_openStore hRegistry store
  rw [h] at hGrows
  obtain ⟨stored, r, hStored, h⟩ := Attempt.start_bind_ok.1 h
  obtain ⟨hDictionary, rfl⟩ := Prod.mk.inj hStored
  have hCovers : session = fresh store ∧ registry'.Covers d := by
    cases stored with
    | none =>
        cases h
        refine ⟨rfl, ?_⟩
        rcases hKeeps with hFile | ⟨-, rfl⟩
        · unfold EntityStore.dictionary at hDictionary
          simp only [hFile] at hDictionary
          obtain ⟨decoded, -, hSome⟩ := map_eq_ok.1 hDictionary
          cases hSome
        · intro definition hIn
          cases hIn
    | some d' =>
        obtain ⟨_, r, hAdopt, h⟩ := Attempt.start_bind_ok.1 h
        cases h
        rw [hKeeps.dictionary_eq hProper hDictionary] at hAdopt
        exact ⟨rfl, covers_adopt hRegistry hProper hAdopt⟩
  obtain ⟨rfl, hCovers⟩ := hCovers
  exact ⟨hGrows.wellFormed, wellFormed_fresh store, hProper, hKeeps, hCovers, hSound⟩

end Session

end ObjectStore
