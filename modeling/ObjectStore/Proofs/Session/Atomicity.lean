import ObjectStore.Handler.Slots
import ObjectStore.Proofs.Session.Runs

/-!
# All or nothing

A registration that fails leaves the registry as it was. This is plain for
a single definition, a handler or a dictionary that is bound, which are
checked before anything is changed. Opening a store and importing a
dictionary are different: they validate a dictionary once, and then register
its definitions one after the other, on a registry that is no longer the one
that was validated. But registering a definition changes what is known of its
own identifier only, and a dictionary has one definition for each. So a
definition that was found to agree with the registry still does when its turn
comes, and nothing can fail after the validation.

## Main results

* `Session.registerAll_isOk`: the definitions of a validated dictionary can be
  registered one after the other.
* `World.run_atomic`: the registries of a program after any run.
-/

namespace ObjectStore

variable {ι : Type}

/-- If the attempt fails, it leaves the state as it was. -/
def Attempt.Atomic {σ α : Type} (attempt : Attempt σ α) (s : σ) : Prop :=
  ∀ e s', attempt.start s = (.error e, s') → s' = s

theorem Attempt.atomic_modify {σ : Type} (f : σ → Except Error σ) (s : σ) : (modify f).Atomic s :=
  fun _ _ h => start_modify_of_error h

/-- Nothing is asked of an attempt that succeeds. -/
theorem Attempt.atomic_of_ok {σ α : Type} {attempt : Attempt σ α} {s s' : σ} {a : α}
    (h : attempt.start s = (.ok a, s')) : attempt.Atomic s := by
  intro e s'' hError
  rw [h] at hError
  cases hError

/-! ## Validation -/

namespace Registry

variable {r r' : Registry ι} {d : Dictionary}

/-- A definition of the dictionary is registered with another layout. -/
def Conflicts (r : Registry ι) (d : Dictionary) (e : Error) : Prop :=
  ∃ definition ∈ d.definitions, ∃ existing, r.definition? definition.id = some existing ∧
    existing.isLayoutEqual definition = false ∧
      e = .definitionMismatch definition.id definition.name

theorem check_eq_error {definition : Definition} {e : Error} (h : r.check definition = .error e) :
    ∃ existing, r.definition? definition.id = some existing ∧
      existing.isLayoutEqual definition = false ∧
        e = .definitionMismatch definition.id definition.name := by
  unfold check at h
  cases hKnown : r.definition? definition.id with
  | none =>
      simp only [hKnown] at h
      cases h
  | some existing =>
      by_cases hEqual : existing.isLayoutEqual definition = true
      · simp only [hKnown, hEqual, if_true] at h
        cases h
      · simp only [hKnown, hEqual] at h
        cases h
        exact ⟨existing, rfl, Bool.eq_false_iff.2 hEqual, rfl⟩

/-- A dictionary is invalid because one of its definitions conflicts. -/
theorem conflicts_of_validate {e : Error} (h : r.validate d = .error e) : r.Conflicts d e := by
  obtain ⟨definition, hIn, hStep⟩ := forM_eq_error h
  cases hCheck : r.check definition with
  | ok existing =>
      rw [hCheck] at hStep
      cases hStep
  | error e' =>
      rw [hCheck] at hStep
      cases hStep
      exact ⟨definition, hIn, check_eq_error hCheck⟩

/-- The registry accepts the definition. -/
def Accepts (r : Registry ι) (definition : Definition) : Prop :=
  ∀ existing, r.definition? definition.id = some existing →
    existing.isLayoutEqual definition = true

theorem addType_atomic (r : Registry ι) (definition : Definition) :
    (addType definition).Atomic r := by
  intro e r' h
  simp only [addType, Attempt.start_of] at h
  cases hKnown : r.definition? definition.id with
  | none =>
      simp only [hKnown] at h
      cases h
  | some existing =>
      by_cases hEqual : existing.isLayoutEqual definition = true
      · simp only [hKnown, hEqual, if_true] at h
        cases h
      · simp only [hKnown, hEqual] at h
        cases h
        rfl

/-- Registering a definition that is accepted succeeds, and does not concern
other types. -/
theorem addType_of_accepts {definition : Definition} (h : r.Accepts definition) :
    ∃ result r', (addType definition).start r = (.ok result, r') ∧
      ∀ other : Definition, other.id ≠ definition.id → r.Accepts other → r'.Accepts other := by
  simp only [addType, Attempt.start_of]
  cases hKnown : r.definition? definition.id with
  | some existing =>
      simp only [h existing hKnown, if_true]
      exact ⟨_, r, rfl, fun _ _ hOther => hOther⟩
  | none =>
      refine ⟨_, _, rfl, fun other hOther hAccepts existing hExisting => hAccepts existing ?_⟩
      rw [definition?, Std.ExtTreeMap.getElem?_insert,
        if_neg fun hSame => hOther (Std.LawfulEqCmp.compare_eq_iff_eq.1 hSame).symm] at hExisting
      exact hExisting

/-- Definitions of different types can be registered one after the other if
each of them is accepted. -/
theorem addTypes_isOk {definitions : List Definition}
    (hNodup : (definitions.map Definition.id).Nodup)
    (hAccepts : ∀ definition ∈ definitions, r.Accepts definition) :
    ∃ r', (definitions.forM fun definition => do
      let _ ← addType definition).start r = (.ok (), r') := by
  induction definitions generalizing r with
  | nil => exact ⟨r, rfl⟩
  | cons first rest ih =>
      rw [List.map_cons, List.nodup_cons] at hNodup
      obtain ⟨result, r₁, hFirst, hOthers⟩ := addType_of_accepts (hAccepts first List.mem_cons_self)
      have hRest : ∀ definition ∈ rest, r₁.Accepts definition := by
        intro definition hIn
        have hOther : definition.id ≠ first.id := fun hSame =>
          hNodup.1 (hSame ▸ List.mem_map_of_mem hIn)
        exact hOthers definition hOther (hAccepts definition (List.mem_cons_of_mem _ hIn))
      obtain ⟨r', hTail⟩ := ih hNodup.2 hRest
      refine ⟨r', Attempt.start_forM_cons_ok.2 ⟨r₁, ?_, hTail⟩⟩
      exact Attempt.start_bind_ok.2 ⟨result, r₁, hFirst, rfl⟩

/-- A registry without a dictionary can be bound to one that is valid. -/
theorem bindDictionary_isOk {b : BoundDictionary} (hUnbound : r.bound = none)
    (hValid : r.validate b.dictionary = .ok ()) :
    ∃ r', (bindDictionary b).start r = (.ok (), r') := by
  rw [bindDictionary, Attempt.start_modify]
  simp only [hUnbound, hValid]
  exact ⟨_, rfl⟩

end Registry

/-! ## Dictionaries -/

namespace Session

variable {r r' : Registry ι} {session : Session ι} {d : Dictionary}

/-- After the validation of a dictionary, no registration of one of its
definitions fails. -/
theorem registerAll_isOk (hProper : d.Proper) (hValid : r.validate d = .ok ()) :
    ∃ r', (registerAll d).start r = (.ok (), r') :=
  Registry.addTypes_isOk hProper.nodup (Registry.validate_ok.1 hValid)

theorem start_adopt_of_invalid {e : Error} (hInvalid : r.validate d = .error e) :
    (adopt d).start r = (.error e, r) := by
  show (Attempt.lift (r.validate d) >>= _).start r = _
  rw [Attempt.start_lift_bind, hInvalid]

theorem adopt_isOk (hProper : d.Proper) (hValid : r.validate d = .ok ()) :
    ∃ r', (adopt d).start r = (.ok (), r') := by
  rw [start_adopt_of_valid hValid]
  by_cases hBound : r.bound.isNone = true
  · rw [if_pos hBound]
    exact Registry.bindDictionary_isOk (Option.isNone_iff_eq_none.1 hBound) hValid
  · rw [if_neg hBound]
    exact registerAll_isOk hProper hValid

theorem adopt_atomic (hProper : d.Proper) (r : Registry ι) : (adopt d).Atomic r := by
  cases hValid : r.validate d with
  | ok _ =>
      obtain ⟨r', hAdopt⟩ := adopt_isOk hProper hValid
      exact Attempt.atomic_of_ok hAdopt
  | error e =>
      intro e' r' hError
      rw [start_adopt_of_invalid hValid] at hError
      cases hError
      rfl

theorem proper_stored {store : EntityStore} (h : store.dictionary = .ok (some d)) : d.Proper := by
  unfold EntityStore.dictionary at h
  split at h
  · cases h
  · obtain ⟨decoded, hDecode, hSame⟩ := map_eq_ok.1 h
    cases hSame
    exact Dictionary.proper_decode hDecode

/-- A store whose dictionary is missing, damaged or contradicts the registry
cannot be opened, but leaves no trace. -/
theorem openStore_atomic (store : EntityStore) (r : Registry ι) :
    (openStore store : Attempt (Registry ι) (Session ι)).Atomic r := by
  intro e r' hError
  unfold openStore at hError
  rw [Attempt.start_lift_bind] at hError
  cases hStored : store.dictionary with
  | error e' =>
      rw [hStored] at hError
      cases hError
      rfl
  | ok stored =>
      rw [hStored] at hError
      cases stored with
      | none => cases hError
      | some d =>
          rcases Attempt.start_bind_error.1 hError with hAdopt | ⟨_, r₁, -, hFresh⟩
          · exact adopt_atomic (proper_stored hStored) r e r' hAdopt
          · cases hFresh

/-- A dictionary can be imported if it is valid. Then the registry covers it,
and the store keeps what the registry knows. -/
theorem importDictionary_isOk (hRegistry : r.WellFormed) (hProper : d.Proper)
    (hValid : r.validate d = .ok ()) (session : Session ι) :
    ∃ r' d', r'.Covers d ∧ r'.snapshot = .ok d' ∧
      (importDictionary d).start (r, session) =
        (.ok (), (r', { session with store := session.store.saveDictionary d' })) := by
  obtain ⟨r', hAll⟩ := registerAll_isOk hProper hValid
  have hGrows := grows_registerAll r d r (Registry.Grows.refl hRegistry)
  rw [hAll] at hGrows
  obtain ⟨d', hSnapshot, hSave⟩ := saveDictionary_isOk hGrows.wellFormed session
  refine ⟨r', d', covers_registerAll hRegistry hAll, hSnapshot, ?_⟩
  have hRegister : (Attempt.within Prod.fst (fun r (s : Registry ι × Session ι) => (r, s.2))
      (registerAll d)).start (r, session) = (.ok (), (r', session)) :=
    Attempt.start_within_eq.2 ⟨r', hAll, rfl⟩
  rw [start_importDictionary, Attempt.start_lift_bind, hValid]
  refine Attempt.start_bind_ok.2 ⟨(), _, hRegister, ?_⟩
  refine Attempt.start_bind_ok.2 ⟨(r', session), (r', session), rfl, ?_⟩
  exact Attempt.start_within_eq.2 ⟨_, hSave, rfl⟩

/-- A dictionary that conflicts with the registry is not imported. -/
theorem start_importDictionary_of_invalid {e : Error} (hInvalid : r.validate d = .error e)
    (session : Session ι) :
    (importDictionary d).start (r, session) = (.error e, (r, session)) := by
  rw [start_importDictionary, Attempt.start_lift_bind, hInvalid]

end Session

/-! ## Every registry of a program -/

/-- Whatever is tried on the registry, it succeeds or leaves no trace, and
what a validation has allowed succeeds. -/
structure Registry.AllOrNothing (r : Registry ι) : Prop where
  addType : ∀ definition, (addType definition).Atomic r
  addHandler : ∀ handler, (addHandler handler).Atomic r
  bindDictionary : ∀ b, (bindDictionary b).Atomic r
  openStore : ∀ store, (Session.openStore store : Attempt (Registry ι) (Session ι)).Atomic r
  /-- An import fails only because of a conflict, and then neither the
  registry nor the session, with its store, has changed. -/
  importDictionary : ∀ definitions (session : Session ι) e after,
    (Session.importDictionary (Dictionary.build definitions)).start (r, session) =
        (.error e, after) →
      r.Conflicts (Dictionary.build definitions) e ∧ after = (r, session)
  /-- After a validation all definitions are registered, one after the other,
  whether a store is opened or the dictionary is imported. -/
  valid : ∀ definitions, r.validate (Dictionary.build definitions) = .ok () →
    (∃ r', (Session.registerAll (Dictionary.build definitions)).start r = (.ok (), r') ∧
      r'.Covers (Dictionary.build definitions)) ∧
    (∃ r', (Session.adopt (Dictionary.build definitions)).start r = (.ok (), r') ∧
      r'.Covers (Dictionary.build definitions)) ∧
    ∀ session : Session ι, ∃ r' session',
      (Session.importDictionary (Dictionary.build definitions)).start (r, session) =
          (.ok (), (r', session')) ∧
        r'.Covers (Dictionary.build definitions)

theorem Registry.WellFormed.allOrNothing {r : Registry ι} (h : r.WellFormed) : r.AllOrNothing where
  addType := addType_atomic r
  addHandler := fun _ => Attempt.atomic_modify _ r
  bindDictionary := fun _ => Attempt.atomic_modify _ r
  openStore := fun store => Session.openStore_atomic store r
  importDictionary := by
    intro definitions session e after hError
    cases hValid : r.validate (Dictionary.build definitions) with
    | ok _ =>
        obtain ⟨r', d', -, -, hImport⟩ :=
          Session.importDictionary_isOk h (Dictionary.proper_build definitions) hValid session
        rw [hImport] at hError
        cases hError
    | error e' =>
        rw [Session.start_importDictionary_of_invalid hValid] at hError
        cases hError
        exact ⟨conflicts_of_validate hValid, rfl⟩
  valid := by
    intro definitions hValid
    have hProper := Dictionary.proper_build definitions
    obtain ⟨r₁, hAll⟩ := Session.registerAll_isOk hProper hValid
    obtain ⟨r₂, hAdopt⟩ := Session.adopt_isOk hProper hValid
    refine ⟨⟨r₁, hAll, Session.covers_registerAll h hAll⟩,
      ⟨r₂, hAdopt, Session.covers_adopt h hProper hAdopt⟩, fun session => ?_⟩
    obtain ⟨r₃, d', hCovers, -, hImport⟩ := Session.importDictionary_isOk h hProper hValid session
    exact ⟨r₃, _, hImport, hCovers⟩

/-- Registering types is all or nothing on every registry of a program, in
whatever state a run has left it. -/
theorem World.run_atomic [Instance ι] (actions : List (WorldAction ι)) (number : Nat) :
    ((run actions).registries number).AllOrNothing := by
  obtain ⟨d, hIntact⟩ := intact_run actions
  exact (hIntact.registries number).allOrNothing

/-- A version of the counter whose number is wider. -/
def wideCounter : Definition where
  id := ⟨7⟩
  name := "Counter"
  runtime := none
  members := [⟨⟨none, "count"⟩, .primitive .u64, "u64", some 0⟩]
  laidOut := ⟨[⟨⟨none, "count"⟩, .primitive .u64, "u64", none⟩], _, rfl⟩

/-- Where the counter is registered, the wider one cannot be imported, and the
dictionary of the counters can. -/
theorem World.run_atomic_counters :
    let r := (run [.register 0 (.type (Dictionary.counter 7))] : World Slots).registries 0
    let session : Session Slots := Session.fresh EntityStore.empty
    (∃ e, (Session.importDictionary (Dictionary.build [wideCounter])).start (r, session) =
        (.error e, (r, session))) ∧
      ∃ r' session', (Session.importDictionary Dictionary.counters).start (r, session) =
        (.ok (), (r', session')) ∧ r'.Covers Dictionary.counters := by
  intro r session
  have hAll : r.AllOrNothing := run_atomic [.register 0 (.type (Dictionary.counter 7))] 0
  have hInvalid : r.validate (Dictionary.build [wideCounter]) =
      .error (.definitionMismatch ⟨7⟩ "Counter") := rfl
  have hValid : r.validate Dictionary.counters = .ok () := rfl
  obtain ⟨-, -, hImport⟩ := hAll.valid [Dictionary.counter 9, Dictionary.counter 7] hValid
  exact ⟨⟨_, Session.start_importDictionary_of_invalid hInvalid session⟩, hImport session⟩

end ObjectStore
