import ObjectStore.Proofs.Session.Origins

/-!
# Layouts over many runs

What a store says of a type is said once and for all. A session is opened
only on a registry that agrees with the stored dictionary, the registry only
grows, and the dictionary that replaces the stored one is a snapshot of it.
So whichever registries a store is opened on, a record is looked at in the
layout that it was written in: when it is checked, when its references are
followed, when it is converted and when it is loaded.

## Main results

* `World.describes_written`: the store describes what it holds.
* `World.run_layouts`: layouts over a whole run.
-/

namespace ObjectStore

open Storing

variable {ι : Type}

/-! ## What a registry says of a type -/

namespace Registry

variable {registry : Registry ι} {d : Dictionary} {id : TypeId} {written : Definition}

/-- All that the registry says of a type has the layout of a definition: the
registered definition, in which records are checked, followed and converted,
and that of the handler, in which they are loaded and stored. -/
structure ReadsAs (registry : Registry ι) (id : TypeId) (written : Definition) : Prop where
  definition : ∃ registered, registry.definition? id = some registered ∧
    registered.isLayoutEqual written = true
  handler : ∀ handler declared, registry.handler? id = some handler →
    handler.definition = .ok declared → declared.isLayoutEqual written = true

theorem WellFormed.readsAs (h : registry.WellFormed) {registered : Definition}
    (hKnown : registry.definition? id = some registered)
    (hEqual : registered.isLayoutEqual written = true) : registry.ReadsAs id written where
  definition := ⟨registered, hKnown, hEqual⟩
  handler := by
    intro handler declared hHandler hDeclared
    obtain ⟨-, registered', declared', hKnown', hDeclared', hHandled⟩ := h.handled id handler hHandler
    rw [hKnown] at hKnown'
    cases hKnown'
    rw [hDeclared] at hDeclared'
    cases hDeclared'
    rw [Definition.isLayoutEqual_comm] at hHandled
    exact Definition.isLayoutEqual_trans hHandled hEqual

/-- A registry that covers a dictionary agrees with it on every type. -/
theorem WellFormed.readsAs_of_covers (h : registry.WellFormed) (hProper : d.Proper)
    (hCovers : registry.Covers d) {definition : Definition} (hGet : d.get? id = some definition)
    (hEqual : definition.isLayoutEqual written = true) : registry.ReadsAs id written := by
  obtain ⟨registered, hKnown, hSame⟩ := hProper.definition_of_covers hCovers hGet
  exact h.readsAs hKnown (Definition.isLayoutEqual_trans hSame hEqual)

/-- The type of a handler is registered with the layout that the handler
derives. -/
theorem WellFormed.declared (h : registry.WellFormed) {handler : ObjectHandler ι}
    {derived : ObjectHandler.Derived ι} {runtime : RuntimeType}
    (hHandler : registry.handlerFor? runtime = some (.object handler))
    (hDerived : handler.derived = .ok derived) :
    ∃ registered, registry.definition? handler.id = some registered ∧
      registered.isLayoutEqual derived.definition = true := by
  obtain ⟨-, registered, declared, hKnown, hDeclared, hEqual⟩ :=
    h.handled _ _ (h.handler_of_runtime hHandler)
  have hSame : derived.definition = declared := by
    simp only [Handler.definition, ObjectHandler.definition, hDerived] at hDeclared
    exact Except.ok.inj hDeclared
  exact ⟨registered, hKnown, hSame ▸ hEqual⟩

end Registry

/-! ## What a store says of its records -/

namespace World

variable [Instance ι] {w : World ι} {d : Dictionary}

/-- Storing the roots saves the layout of every record that is written. -/
theorem describes_written (h : w.Intact d) {roots : List Ref} {ref : Ref}
    {handler : ObjectHandler ι} {derived : ObjectHandler.Derived ι} {x : ι} {r : Record}
    (hWrites : w.Writes roots ref handler derived x r) :
    ∃ d', (w.step (.act (.storeRoots roots))).Intact d' ∧
      ∃ definition, d'.get? r.type = some definition ∧
        definition.isLayoutEqual derived.definition = true := by
  obtain ⟨number, session, chunk, ids, visited, records, d', hUse, hStores, -, -, hSaved⟩ := hWrites
  have hIntact := h.session number session hUse
  have hStored := Session.intact_stored hIntact hStores.outcome hStores.snapshot
    (hStores.written hIntact.live.ids).2
  obtain ⟨registered, hKnown, hEqual⟩ :=
    hIntact.wellFormed.declared hSaved.handler hSaved.derived
  have hType : r.type = handler.id := by
    rw [hSaved.record]
    rfl
  refine ⟨d', ?_, registered, ?_, hEqual⟩
  · simp only [step, hUse, Session.perform, hStores.start]
    exact h.busy (Registry.Grows.refl hIntact.wellFormed) hStored
  · obtain ⟨-, hById⟩ := Dictionary.proper_snapshot hIntact.wellFormed hStores.snapshot
    rw [hType, Dictionary.get?, hById]
    exact hKnown

/-- In every state of a run, opening a session succeeds only on a registry
that agrees with the stored dictionary on every type, and an open session
works on such a registry. Whatever is done later, the dictionary keeps every
type with its layout. Every record was written by an action of the run, and
the registry of an open session says of its type what it was written in. -/
theorem run_layouts (before after : List (WorldAction ι)) :
    (∃ d d', ((run before).use.store.Keeps d ∧
          ∀ stored, (run before).use.store.dictionary = .ok (some stored) → stored = d) ∧
        ((run (before ++ after)).use.store.Keeps d' ∧
          ∀ stored, (run (before ++ after)).use.store.dictionary = .ok (some stored) →
            stored = d') ∧
        d.Extends d' ∧
        (∀ tables number session registry, (run before).use = .idle tables →
          (Session.openStore (.opened tables)).start ((run before).registries number) =
            (.ok session, registry) →
          ∀ id definition, d.get? id = some definition → registry.ReadsAs id definition) ∧
        ∀ number session, (run before).use = .busy number session →
          ∀ id definition, d.get? id = some definition →
            ((run before).registries number).ReadsAs id definition) ∧
      ∀ id bytes, (run before).use.store.record? id = some bytes →
        ∃ earlier roots later ref handler derived x r,
          before = earlier ++ .act (.storeRoots roots) :: later ∧
            (run earlier).Writes roots ref handler derived x r ∧ r.object = id ∧
            r.encode = bytes ∧
            ∀ number session, (run before).use = .busy number session →
              ((run before).registries number).ReadsAs r.type derived.definition := by
  obtain ⟨d, hIntact⟩ := intact_run before
  obtain ⟨d', hExtends, hLater⟩ := intact_steps hIntact after
  rw [← run_append] at hLater
  constructor
  · refine ⟨d, d', ⟨hIntact.keeps, ?_⟩, ⟨hLater.keeps, ?_⟩, hExtends, ?_, ?_⟩
    · exact fun stored hStored => hIntact.keeps.dictionary_eq hIntact.proper hStored
    · exact fun stored hStored => hLater.keeps.dictionary_eq hLater.proper hStored
    · intro tables number session registry hUse hOpen id definition hGet
      have hSession := hIntact.opened hUse hOpen
      exact hSession.wellFormed.readsAs_of_covers hIntact.proper hSession.covers hGet
        (Definition.isLayoutEqual_self definition)
    · intro number session hUse id definition hGet
      have hSession := hIntact.session number session hUse
      exact hSession.wellFormed.readsAs_of_covers hIntact.proper hSession.covers hGet
        (Definition.isLayoutEqual_self definition)
  · intro id bytes hStored
    obtain ⟨earlier, roots, later, ref, handler, derived, x, r, rfl, hWrites, hObject, hBytes⟩ :=
      origin_of_record before hStored
    refine ⟨earlier, roots, later, ref, handler, derived, x, r, rfl, hWrites, hObject, hBytes, ?_⟩
    intro number session hUse
    -- The layout is in the dictionary that was saved with the record, and so in every later one.
    obtain ⟨dBefore, hBefore⟩ := intact_run earlier
    obtain ⟨dWritten, hWritten, definition, hGet, hEqual⟩ := describes_written hBefore hWrites
    obtain ⟨dNow, hKept, hNow⟩ := intact_steps hWritten later
    obtain ⟨current, hCurrent, hSame⟩ := hKept r.type definition hGet
    have hRun : run (earlier ++ .act (.storeRoots roots) :: later) =
        later.foldl step ((run earlier).step (.act (.storeRoots roots))) := run_append _ _
    rw [← hRun] at hNow
    have hSession := hNow.session number session hUse
    exact hSession.wellFormed.readsAs_of_covers hNow.proper hSession.covers hCurrent
      (Definition.isLayoutEqual_trans hSame hEqual)

end World

end ObjectStore
