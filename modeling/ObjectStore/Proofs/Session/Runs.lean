import ObjectStore.Proofs.Session.Check

/-!
# Runs of sessions

A program has any number of registries, to which it may register types at
any time, and works on one store in sessions, one after the other. Each of
them may be opened on any of the registries. Between two sessions there are
only the tables of the store. A run is the state that a list of actions leads
to, each of which may succeed or fail.

However a run goes, its store is sound for the dictionary that it keeps, and
the check of an open session finds no harm.

## Main results

* `World.intact_step`: every action keeps the store sound, and only extends
  the dictionary that it keeps.
* `World.run_sound`: the store after any run.
-/

namespace ObjectStore

variable {ι : Type}

/-! ## Actions -/

/-- What a program does in an open session. -/
inductive SessionAction (ι : Type) where
  /-- Legacy members are matched in another way from now on. -/
  | matchWith (matcher : Matcher)
  | insert (x : ι)
  | change (runtime : RuntimeType) (ref : Ref) (f : ι → ι)
  | storeRoots (roots : List Ref)
  | loadRoots
  | saveDictionary
  | importDictionary (d : Dictionary)

/-- What a program does with registries and with one store. -/
inductive WorldAction (ι : Type) where
  /-- Something is registered in the registry with a number. -/
  | register (number : Nat) (registration : Registration ι)
  /-- A session is opened on the registry with a number. -/
  | openSession (number : Nat)
  | act (action : SessionAction ι)
  | closeSession

/-- The registry and the session after an action, whether it has succeeded
or not. -/
def Session.perform [Instance ι] (registry : Registry ι) (session : Session ι) :
    SessionAction ι → Registry ι × Session ι
  | .matchWith matcher => (registry, session.withMatcher matcher)
  | .insert x => (registry, ((onGraph (Graph.insert x)).start session).2)
  | .change runtime ref f => (registry, ((onGraph (Graph.changeAs runtime ref f)).start session).2)
  | .storeRoots roots => (registry, ((Session.storeRoots registry roots).start session).2)
  | .loadRoots => (registry, ((Session.loadRoots registry).start session).2)
  | .saveDictionary => (registry, ((Session.saveDictionary registry).start session).2)
  | .importDictionary d => ((Session.importDictionary d).start (registry, session)).2

/-- A store of which nobody uses the tables, or that a session is open on. -/
inductive StoreUse (ι : Type) where
  | idle (tables : StoreTables)
  | busy (number : Nat) (session : Session ι)

/-- The store, as a session has it or would find it. -/
def StoreUse.store : StoreUse ι → EntityStore
  | .idle tables => .opened tables
  | .busy _ session => session.store

/-- The store that a session would find is the one that was closed. -/
theorem StoreUse.store_idle (s : EntityStore) :
    (StoreUse.idle s.toStoreTables : StoreUse ι).store = s := s.opened_toStoreTables

/-- The registries of a program by number, and the store. -/
structure World (ι : Type) where
  registries : Nat → Registry ι
  use : StoreUse ι

namespace World

/-- Nothing is registered, and nothing was ever stored. -/
def initial : World ι := ⟨fun _ => Registry.empty, .idle StoreTables.empty⟩

/-- The registries with another one under a number. -/
def replace (registries : Nat → Registry ι) (number : Nat) (registry : Registry ι) :
    Nat → Registry ι := fun other => if other = number then registry else registries other

/-- What an action leads to. A store that is open cannot be opened, and
without a session there is nothing to do. -/
def step [Instance ι] (w : World ι) : WorldAction ι → World ι
  | .register number registration =>
      { w with
        registries := replace w.registries number ((w.registries number).apply registration) }
  | .openSession number =>
      match w.use with
      | .busy _ _ => w
      | .idle tables =>
          match (Session.openStore (.opened tables)).start (w.registries number) with
          | (.ok session, registry) =>
              ⟨replace w.registries number registry, .busy number session⟩
          | (.error _, registry) => ⟨replace w.registries number registry, .idle tables⟩
  | .act action =>
      match w.use with
      | .idle _ => w
      | .busy number session =>
          let (registry, session) := session.perform (w.registries number) action
          ⟨replace w.registries number registry, .busy number session⟩
  | .closeSession => { w with use := .idle w.use.store.toStoreTables }

/-- What a list of actions leads to. -/
def run [Instance ι] (actions : List (WorldAction ι)) : World ι := actions.foldl step initial

/-! ## The invariant -/

/-- The dictionary of the store describes a sound store, and an open session
works on a registry that covers it. -/
structure Intact (w : World ι) (d : Dictionary) : Prop where
  registries : ∀ number, (w.registries number).WellFormed
  proper : d.Proper
  keeps : w.use.store.Keeps d
  sound : w.use.store.Sound (d.asRegistry : Registry ι)
  session : ∀ number session, w.use = .busy number session →
    session.Intact (w.registries number) d

variable {w : World ι} {d : Dictionary} {number : Nat} {registry : Registry ι} {session : Session ι}

theorem intact_initial : (initial : World ι).Intact Dictionary.empty where
  registries := fun _ => Registry.wellFormed_empty
  proper := Dictionary.proper_empty
  keeps := EntityStore.keeps_empty
  sound := EntityStore.sound_empty _
  session := by
    intro number session h
    cases h

theorem grows_replace (h : ∀ number, (w.registries number).WellFormed)
    (hGrows : (w.registries number).Grows registry) (other : Nat) :
    (w.registries other).Grows (replace w.registries number registry other) := by
  unfold replace
  by_cases hOther : other = number
  · rw [if_pos hOther, hOther]
    exact hGrows
  · rw [if_neg hOther]
    exact Registry.Grows.refl (h other)

/-- A registry may grow, whoever uses it. -/
theorem Intact.replace (h : w.Intact d) (hGrows : (w.registries number).Grows registry) :
    Intact ⟨World.replace w.registries number registry, w.use⟩ d where
  registries := fun other => (grows_replace h.registries hGrows other).wellFormed
  proper := h.proper
  keeps := h.keeps
  sound := h.sound
  session := by
    intro other session hUse
    exact (h.session other session hUse).grow (grows_replace h.registries hGrows other)

/-- An intact session on a registry that has grown may take the place of
whatever used the store. -/
theorem Intact.busy (h : w.Intact d) {d' : Dictionary}
    (hGrows : (w.registries number).Grows registry) (hSession : session.Intact registry d') :
    Intact ⟨World.replace w.registries number registry, .busy number session⟩ d' where
  registries := fun other => (grows_replace h.registries hGrows other).wellFormed
  proper := hSession.proper
  keeps := hSession.keeps
  sound := hSession.sound
  session := by
    intro other session' hUse
    cases hUse
    show session.Intact (World.replace w.registries number registry number) d'
    rw [World.replace, if_pos rfl]
    exact hSession

theorem Intact.idle (h : w.Intact d) :
    Intact ⟨w.registries, .idle w.use.store.toStoreTables⟩ d where
  registries := h.registries
  proper := h.proper
  keeps := by
    rw [StoreUse.store_idle]
    exact h.keeps
  sound := by
    rw [StoreUse.store_idle]
    exact h.sound
  session := by
    intro number session hUse
    cases hUse

/-- A session that is opened on the store is intact. -/
theorem Intact.opened (h : w.Intact d) {tables : StoreTables} (hUse : w.use = .idle tables)
    (hOpen : (Session.openStore (.opened tables)).start (w.registries number) =
      (.ok session, registry)) :
    session.Intact registry d := by
  have hKeeps := h.keeps
  have hSound := h.sound
  rw [hUse] at hKeeps hSound
  exact Session.openStore_ok (h.registries number) h.proper hKeeps hSound hOpen

/-! ## Steps -/

variable [Instance ι]

/-- Every action in a session keeps its store sound, and what the dictionary
of the store says of a type. -/
theorem intact_perform (h : session.Intact registry d) (action : SessionAction ι) :
    ∃ d', d.Extends d' ∧ registry.Grows (session.perform registry action).1 ∧
      (session.perform registry action).2.Intact (session.perform registry action).1 d' := by
  have hSame := Registry.Grows.refl h.wellFormed
  have hKept := Dictionary.Extends.refl d
  cases action with
  | matchWith matcher => exact ⟨d, hKept, hSame, h.withMatcher matcher⟩
  | insert x =>
      have hSize := Graph.size_le_insert x session.live.graph
      exact ⟨d, hKept, hSame, Session.intact_onGraph h hSize⟩
  | change runtime ref f =>
      have hSize := Graph.size_changeAs runtime ref f session.live.graph
      exact ⟨d, hKept, hSame, Session.intact_onGraph h (Nat.le_of_eq hSize.symm)⟩
  | storeRoots roots =>
      obtain ⟨d', hExtends, hIntact⟩ := Session.intact_storeRoots h roots
      exact ⟨d', hExtends, hSame, hIntact⟩
  | loadRoots => exact ⟨d, hKept, hSame, Session.intact_loadRoots registry d session h⟩
  | saveDictionary =>
      obtain ⟨d', hExtends, hIntact⟩ := Session.intact_saveDictionary h
      exact ⟨d', hExtends, hSame, hIntact⟩
  | importDictionary imported => exact Session.intact_importDictionary h imported

/-- Every action keeps the store sound, though not always for the same
dictionary: another one may take its place that extends it. -/
theorem intact_step (h : w.Intact d) (action : WorldAction ι) :
    ∃ d', d.Extends d' ∧ (w.step action).Intact d' := by
  have hKept := Dictionary.Extends.refl d
  cases action with
  | register number registration =>
      exact ⟨d, hKept, h.replace (Registry.grows_apply (h.registries number) registration)⟩
  | openSession number =>
      have hRegistry := h.registries number
      cases hUse : w.use with
      | busy other session =>
          simp only [step, hUse]
          exact ⟨d, hKept, h⟩
      | idle tables =>
          have hGrows := Session.grows_openStore hRegistry (.opened tables)
          simp only [step, hUse]
          cases hOpen : (Session.openStore (.opened tables)).start (w.registries number) with
          | mk result registry =>
              rw [hOpen] at hGrows
              cases result with
              | ok session =>
                  exact ⟨d, hKept, h.busy hGrows (h.opened hUse hOpen)⟩
              | error e =>
                  refine ⟨d, hKept, ?_⟩
                  have hReplaced := h.replace hGrows
                  rwa [hUse] at hReplaced
  | act action =>
      cases hUse : w.use with
      | idle tables =>
          simp only [step, hUse]
          exact ⟨d, hKept, h⟩
      | busy number session =>
          obtain ⟨d', hExtends, hGrows, hIntact⟩ :=
            intact_perform (h.session number session hUse) action
          simp only [step, hUse]
          exact ⟨d', hExtends, h.busy hGrows hIntact⟩
  | closeSession => exact ⟨d, hKept, h.idle⟩

theorem intact_steps (h : w.Intact d) (actions : List (WorldAction ι)) :
    ∃ d', d.Extends d' ∧ (actions.foldl step w).Intact d' := by
  induction actions generalizing w d with
  | nil => exact ⟨d, Dictionary.Extends.refl d, h⟩
  | cons first rest ih =>
      obtain ⟨d', hFirst, h'⟩ := intact_step h first
      obtain ⟨d'', hRest, h''⟩ := ih h'
      exact ⟨d'', hFirst.trans hRest, h''⟩

theorem intact_run (actions : List (WorldAction ι)) : ∃ d, (run actions).Intact d := by
  obtain ⟨d, -, hIntact⟩ := intact_steps intact_initial actions
  exact ⟨d, hIntact⟩

theorem run_append (before after : List (WorldAction ι)) :
    run (before ++ after) = after.foldl step (run before) := List.foldl_append

/-- After every run, each stored record is valid for the stored dictionary,
each reference in a record and each root leads to a stored record, and the
check of the open session finds no harm. -/
theorem run_sound (actions : List (WorldAction ι)) :
    (∃ d, (run actions).use.store.Keeps d ∧
        (∀ stored, (run actions).use.store.dictionary = .ok (some stored) → stored = d) ∧
        (run actions).use.store.Sound (d.asRegistry : Registry ι)) ∧
      ∀ number session, (run actions).use = .busy number session →
        ∃ report, session.check ((run actions).registries number) = .ok report ∧
          report.isConsistent = true := by
  obtain ⟨d, hIntact⟩ := intact_run actions
  refine ⟨⟨d, hIntact.keeps, ?_, hIntact.sound⟩, ?_⟩
  · exact fun stored hStored => hIntact.keeps.dictionary_eq hIntact.proper hStored
  · intro number session hUse
    exact Session.check_isConsistent (hIntact.session number session hUse)

end World

end ObjectStore
