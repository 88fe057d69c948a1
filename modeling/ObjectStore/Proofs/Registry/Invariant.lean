import ObjectStore.Proofs.Dictionary.Building

/-!
# What holds of every registry

A registry keeps four things: definitions and handlers by type identifier,
type identifiers by runtime type, and the dictionary that it is bound to.
Whatever is registered, in whatever order and however often, they agree with
each other, and what they say once they say for ever: a registration that is
accepted adds to them, and one that is refused leaves them alone.

## Main results

* `Registry.apply_cases`: what a registration can do.
* `Registry.persists_apply`, `Registry.coherent_apply`: what it keeps.
* `Registry.build_coherent`: any sequence of registrations.
-/

namespace ObjectStore

open Std

namespace Registry

variable {ι : Type} {r r' r'' : Registry ι}

/-! ## One registration -/

/-- A definition that is registered changes nothing but the definitions. -/
theorem start_addType (r : Registry ι) (d : Definition) :
    ∃ definitions, ((addType d).start r).2 = { r with definitions } := by
  simp only [addType, Attempt.start_of]
  cases r.definition? d.id with
  | none => exact ⟨_, rfl⟩
  | some existing =>
      by_cases hEqual : existing.isLayoutEqual d = true
      · simp only [hEqual, if_true]
        exact ⟨r.definitions, rfl⟩
      · simp only [hEqual]
        exact ⟨r.definitions, rfl⟩

/-- A registry is bound to the first dictionary, and to no other one. -/
theorem bindDictionary_ok {b : BoundDictionary}
    (hBind : (bindDictionary b).start r = (.ok (), r')) :
    r' = r ∨ r.bound = none ∧ ∃ definitions, r' = { r with bound := some b, definitions } := by
  rw [bindDictionary, Attempt.start_modify_eq_ok] at hBind
  cases hBound : r.bound with
  | some current =>
      simp only [hBound] at hBind
      split at hBind
      · cases hBind
        exact Or.inl rfl
      · cases hBind
  | none =>
      simp only [hBound] at hBind
      obtain ⟨_, -, hDone⟩ := bind_eq_ok.1 hBind
      cases hDone
      exact Or.inr ⟨rfl, _, rfl⟩

/-- What a registration can do: it changes nothing but the definitions, or
it adds a handler of a type that has none, or it binds the registry. One that
is refused does the first, and leaves the definitions alone as well. -/
theorem apply_cases (r : Registry ι) (registration : Registration ι) :
    (∃ definitions, r.apply registration = { r with definitions }) ∨
      (∃ handler registered, r.handler? handler.value.id = none ∧
        (∀ runtime, handler.value.runtime? = some runtime → r.runtimeTypes[runtime]? = none) ∧
          r.apply registration = r.withHandler handler registered) ∨
      ∃ b definitions, registration = .dictionary b ∧ r.bound = none ∧
        (bindDictionary b).start r = (.ok (), r.apply registration) ∧
          r.apply registration = { r with bound := some b, definitions } := by
  cases registration with
  | type d => exact Or.inl (start_addType r d)
  | handler handler =>
      rw [apply]
      cases hAdd : (addHandler handler).start r with
      | mk result r' =>
          cases result with
          | error e => exact Or.inl ⟨r.definitions, Attempt.start_modify_of_error hAdd⟩
          | ok _ =>
              rcases addHandler_ok hAdd with rfl | ⟨hNew, hFree, -, registered, -, -, -, hDone⟩
              · exact Or.inl ⟨_, rfl⟩
              · exact Or.inr (Or.inl ⟨handler, registered, hNew, hFree, hDone⟩)
  | dictionary b =>
      rw [apply]
      cases hBind : (bindDictionary b).start r with
      | mk result r' =>
          cases result with
          | error e => exact Or.inl ⟨r.definitions, Attempt.start_modify_of_error hBind⟩
          | ok _ =>
              rcases bindDictionary_ok hBind with rfl | ⟨hUnbound, definitions, hDone⟩
              · exact Or.inl ⟨_, rfl⟩
              · exact Or.inr (Or.inr ⟨b, definitions, rfl, hUnbound, hBind, hDone⟩)

/-! ## What stays -/

/-- Everything that `r` knows is the same in `r'`: the definitions, the
handlers with their tokens, the runtime types and the bound dictionary. -/
structure Persists (r r' : Registry ι) : Prop where
  definitions : ∀ id d, r.definition? id = some d → r'.definition? id = some d
  handlers : ∀ (id : TypeId) (handler : Shared (Handler ι)),
    r.handlers[id]? = some handler → r'.handlers[id]? = some handler
  runtimeTypes : ∀ (runtime : RuntimeType) (id : TypeId),
    r.runtimeTypes[runtime]? = some id → r'.runtimeTypes[runtime]? = some id
  bound : ∀ b, r.bound = some b → r'.bound = some b

theorem Persists.refl (r : Registry ι) : r.Persists r :=
  ⟨fun _ _ h => h, fun _ _ h => h, fun _ _ h => h, fun _ h => h⟩

theorem Persists.trans (h : r.Persists r') (h' : r'.Persists r'') : r.Persists r'' where
  definitions := fun id d hd => h'.definitions id d (h.definitions id d hd)
  handlers := fun id x hx => h'.handlers id x (h.handlers id x hx)
  runtimeTypes := fun runtime id hId => h'.runtimeTypes runtime id (h.runtimeTypes runtime id hId)
  bound := fun b hb => h'.bound b (h.bound b hb)

theorem handlers_withHandler {handler shared : Shared (Handler ι)} {registered : Definition}
    {id : TypeId} (hNew : r.handler? handler.value.id = none)
    (hShared : r.handlers[id]? = some shared) :
    (r.withHandler handler registered).handlers[id]? = some shared := by
  have hNone : r.handlers[handler.value.id]? = none := Option.map_eq_none_iff.1 hNew
  have hOther : ¬compare handler.value.id id = .eq := by
    intro hSame
    rw [LawfulEqCmp.compare_eq_iff_eq.1 hSame, hShared] at hNone
    cases hNone
  exact (ExtTreeMap.getElem?_insert).trans ((if_neg hOther).trans hShared)

/-- A registration keeps what is registered, whether it is accepted or
not. -/
theorem persists_apply (h : r.WellFormed) (registration : Registration ι) :
    r.Persists (r.apply registration) := by
  have hGrows := grows_apply h registration
  rcases apply_cases r registration with ⟨definitions, hDone⟩ |
      ⟨handler, registered, hNew, hFree, hDone⟩ | ⟨b, definitions, -, hUnbound, -, hDone⟩ <;>
    rw [hDone] at hGrows ⊢
  · exact ⟨hGrows.definitions, fun _ _ hx => hx, fun _ _ hId => hId, fun _ hb => hb⟩
  · refine ⟨hGrows.definitions, fun _ _ => handlers_withHandler hNew, ?_, fun _ hb => hb⟩
    intro runtime id hId
    rw [runtimeTypes_withHandler, if_neg]
    · exact hId
    · intro hRuntime
      rw [hFree runtime hRuntime] at hId
      cases hId
  · refine ⟨hGrows.definitions, fun _ _ hx => hx, fun _ _ hId => hId, ?_⟩
    intro current hCurrent
    rw [hUnbound] at hCurrent
    cases hCurrent

theorem persists_foldl (h : r.WellFormed) (registrations : List (Registration ι)) :
    r.Persists (registrations.foldl apply r) := by
  induction registrations generalizing r with
  | nil => exact Persists.refl r
  | cons first rest ih =>
      exact (persists_apply h first).trans (ih (grows_apply h first).wellFormed)

/-! ## What agrees -/

/-- A registry is bound by binding it. -/
theorem bound_apply {registration : Registration ι} {b : BoundDictionary}
    (hBound : (r.apply registration).bound = some b) :
    r.bound = some b ∨ registration = .dictionary b ∧ r.bound = none ∧
      (bindDictionary b).start r = (.ok (), r.apply registration) := by
  rcases apply_cases r registration with ⟨definitions, hDone⟩ |
    ⟨handler, registered, -, -, hDone⟩ | ⟨other, definitions, hDictionary, hUnbound, hBind, hDone⟩
  · rw [hDone] at hBound
    exact Or.inl hBound
  · rw [hDone] at hBound
    exact Or.inl hBound
  · rw [hDone] at hBound
    cases hBound
    exact Or.inr ⟨hDictionary, hUnbound, hBind⟩

/-- The tables of a registry agree with each other. -/
structure Coherent (r : Registry ι) : Prop extends r.WellFormed where
  /-- A runtime type has at most one handler. -/
  single : ∀ id id' handler handler' runtime,
    r.handler? id = some handler → handler.runtime? = some runtime →
      r.handler? id' = some handler' → handler'.runtime? = some runtime → id = id'
  /-- The registered definitions are those of the bound dictionary, as far as
  records are concerned. -/
  covered : ∀ b, r.bound = some b → r.Covers b.dictionary

theorem WellFormed.single (h : r.WellFormed) {id id' : TypeId} {handler handler' : Handler ι}
    {runtime : RuntimeType} (hHandler : r.handler? id = some handler)
    (hRuntime : handler.runtime? = some runtime) (hHandler' : r.handler? id' = some handler')
    (hRuntime' : handler'.runtime? = some runtime) : id = id' := by
  have hId := (h.typed runtime id).2 ⟨handler, hHandler, hRuntime⟩
  have hId' := (h.typed runtime id').2 ⟨handler', hHandler', hRuntime'⟩
  rw [hId] at hId'
  exact Option.some.inj hId'

theorem coherent_apply (h : r.Coherent) {registration : Registration ι}
    (hProper : ∀ b, registration = .dictionary b → b.dictionary.Proper) :
    (r.apply registration).Coherent := by
  have hGrows := grows_apply h.toWellFormed registration
  refine ⟨hGrows.wellFormed, fun _ _ _ _ _ => hGrows.wellFormed.single, ?_⟩
  intro b hBound
  rcases bound_apply hBound with hBefore | ⟨rfl, hUnbound, hBind⟩
  · exact (h.covered b hBefore).grow hGrows
  · exact covers_bindDictionary hUnbound (hProper b rfl).nodup hBind

theorem coherent_foldl (h : r.Coherent) {registrations : List (Registration ι)}
    (hProper : ∀ b, Registration.dictionary b ∈ registrations → b.dictionary.Proper) :
    (registrations.foldl apply r).Coherent := by
  induction registrations generalizing r with
  | nil => exact h
  | cons first rest ih =>
      have hFirst : (r.apply first).Coherent :=
        coherent_apply h fun b hb => hProper b (hb ▸ List.mem_cons_self)
      exact ih hFirst fun b hb => hProper b (List.mem_cons_of_mem _ hb)

theorem coherent_empty : (empty : Registry ι).Coherent where
  toWellFormed := wellFormed_empty
  single := fun _ _ _ _ _ => wellFormed_empty.single
  covered := by simp [empty]

/-- After any sequence of registrations, of which each may have been accepted
or refused, the tables of the registry agree, and further registrations
change nothing of what they say. -/
theorem build_coherent (first second : List (Registration ι))
    (hBuilt : ∀ b, Registration.dictionary b ∈ first →
      ∃ definitions, b.dictionary = Dictionary.build definitions) :
    (build first).Coherent ∧ (build first).Persists (build (first ++ second)) := by
  constructor
  · apply coherent_foldl coherent_empty
    exact fun b hb => Dictionary.proper_iff_build.2 (hBuilt b hb)
  · rw [build, build, List.foldl_append]
    exact persists_foldl (wellFormed_build first) second

/-- A type that is registered, and one with a handler, of which another
handler cannot take the place. The dictionary that comes last has both. -/
def shelves : List (Registration Unit) :=
  [.type (Dictionary.counter 9), .handler ⟨0, .placeholder (Dictionary.counter 7)⟩,
    .handler ⟨1, .placeholder (Dictionary.counter 7)⟩,
    .dictionary ⟨some 0, Dictionary.counters⟩]

/-- The shelves are bound to the dictionary for good, they cover it, and the
first handler stays. -/
theorem build_coherent_shelves :
    (∀ b, Registration.dictionary b ∈ shelves →
        ∃ definitions, b.dictionary = Dictionary.build definitions) ∧
      (build shelves).Covers Dictionary.counters ∧ ∀ later : List (Registration Unit),
        (build (shelves ++ later)).bound = some ⟨some 0, Dictionary.counters⟩ ∧
          (build (shelves ++ later)).handlers[(⟨7⟩ : TypeId)]?.map Shared.token = some 0 := by
  have hBuilt : ∀ b, Registration.dictionary b ∈ shelves →
      ∃ definitions, b.dictionary = Dictionary.build definitions := by
    intro b hb
    simp only [shelves, List.mem_cons, reduceCtorEq, Registration.dictionary.injEq,
      List.not_mem_nil, or_false, false_or] at hb
    rw [hb]
    exact ⟨_, rfl⟩
  have hBound : (build shelves).bound = some ⟨some 0, Dictionary.counters⟩ := by rfl
  have hHandler : (build shelves).handlers[(⟨7⟩ : TypeId)]?.map Shared.token = some 0 := by
    decide +kernel
  obtain ⟨handler, hGet, hFirst⟩ := Option.map_eq_some_iff.1 hHandler
  refine ⟨hBuilt, ?_, fun later => ?_⟩
  · exact (build_coherent shelves [] hBuilt).1.covered _ hBound
  · obtain ⟨-, hPersists⟩ := build_coherent shelves later hBuilt
    refine ⟨hPersists.bound _ hBound, ?_⟩
    rw [hPersists.handlers _ handler hGet, Option.map_some, hFirst]

end Registry

end ObjectStore
