import Mathlib.Data.List.Nodup
import ObjectStore.Proofs.Handler.Derived
import ObjectStore.Registry

/-!
# Registrations

A registry is built by registrations: of definitions, of handlers and of
whole dictionaries. Each of them succeeds or leaves the registry alone, and
none of them ever replaces what has been registered. So in every registry
the definition of a handled type is the one that its handler derives, as far
as records are concerned.

## Main results

* `Registry.grows_apply`: what one registration keeps.
* `Registry.wellFormed_build`: every registry that was built is well-formed.
* `Registry.grows_append`: later registrations keep what was registered.
-/

namespace ObjectStore

open Std

/-- What is found in a table once entries were inserted in order: the last one
under the key. -/
theorem getElem?_foldl_insert_last {α κ β : Type} [Ord κ] [TransOrd κ] [LawfulEqOrd κ]
    [DecidableEq κ] (key : α → κ) (value : α → β) (as : List α) (table : ExtTreeMap κ β) (k : κ) :
    (as.foldl (fun t a => t.insert (key a) (value a)) table)[k]? =
      ((as.reverse.find? (key · = k)).map value).or table[k]? := by
  induction as generalizing table with
  | nil => rfl
  | cons a rest ih =>
      rw [List.foldl_cons, ih, ExtTreeMap.getElem?_insert, List.reverse_cons, List.find?_append]
      cases rest.reverse.find? (key · = k) with
      | some found => rfl
      | none =>
          by_cases hKey : key a = k
          · simp [hKey]
          · simp [hKey, LawfulEqCmp.compare_eq_iff_eq]

theorem getElem?_foldl_insert {α κ β : Type} [Ord κ] [TransOrd κ] [LawfulEqOrd κ] (key : α → κ)
    (value : α → β) (as : List α) (table : ExtTreeMap κ β) (k : κ) :
    (∃ a ∈ as, key a = k ∧
        (as.foldl (fun t a => t.insert (key a) (value a)) table)[k]? = some (value a)) ∨
      (∀ a ∈ as, key a ≠ k) ∧
        (as.foldl (fun t a => t.insert (key a) (value a)) table)[k]? = table[k]? := by
  classical
  rw [getElem?_foldl_insert_last]
  cases hFind : as.reverse.find? (key · = k) with
  | some a =>
      have hKey : key a = k := by simpa using List.find?_some hFind
      exact Or.inl ⟨a, List.mem_reverse.1 (List.mem_of_find?_eq_some hFind), hKey, rfl⟩
  | none =>
      refine Or.inr ⟨fun a ha hKey => ?_, rfl⟩
      exact List.find?_eq_none.1 hFind a (List.mem_reverse.2 ha) (decide_eq_true hKey)

/-- What can be registered. -/
inductive Registration (ι : Type) where
  | type (definition : Definition)
  | handler (handler : Shared (Handler ι))
  | dictionary (dictionary : BoundDictionary)

namespace Registry

variable {ι : Type} {r r' r'' : Registry ι}

/-- The registry after an attempt to register something. -/
def apply (r : Registry ι) : Registration ι → Registry ι
  | .type definition => ((addType definition).start r).2
  | .handler handler => ((addHandler handler).start r).2
  | .dictionary dictionary => ((bindDictionary dictionary).start r).2

/-- The registry after a sequence of registrations, of which any may have
failed. -/
def build (registrations : List (Registration ι)) : Registry ι := registrations.foldl apply empty

/-! ## Well-formed registries -/

/-- Definitions and handlers are kept under their own identifiers, and the
definition of a handled type is what its handler derives. -/
structure WellFormed (r : Registry ι) : Prop where
  keyed : ∀ id d, r.definition? id = some d → d.id = id
  handled : ∀ id h, r.handler? id = some h → h.id = id ∧ ∃ registered declared,
    r.definition? id = some registered ∧ h.definition = .ok declared ∧
      registered.isLayoutEqual declared = true
  typed : ∀ runtime id, r.runtimeTypes[runtime]? = some id ↔
    ∃ h, r.handler? id = some h ∧ h.runtime? = some runtime

theorem wellFormed_empty : (empty : Registry ι).WellFormed where
  keyed := by simp [empty, definition?]
  handled := by simp [empty, handler?]
  typed := by simp [empty, handler?]

/-- The registry `r'` knows everything that `r` knows. -/
structure Grows (r r' : Registry ι) : Prop where
  wellFormed : r'.WellFormed
  definitions : ∀ id d, r.definition? id = some d → r'.definition? id = some d
  handlers : ∀ id h, r.handler? id = some h → r'.handler? id = some h

theorem Grows.refl (h : r.WellFormed) : r.Grows r := ⟨h, fun _ _ hd => hd, fun _ _ hh => hh⟩

theorem Grows.trans (h : r.Grows r') (h' : r'.Grows r'') : r.Grows r'' where
  wellFormed := h'.wellFormed
  definitions := fun id d hd => h'.definitions id d (h.definitions id d hd)
  handlers := fun id x hx => h'.handlers id x (h.handlers id x hx)

theorem definition_id {h : Handler ι} {d : Definition} (hd : h.definition = .ok d) :
    d.id = h.id := by
  cases h with
  | object h =>
      obtain ⟨derived, hDerived, rfl⟩ := map_eq_ok.1 hd
      exact (ObjectHandler.derived_definition hDerived).1
  | placeholder definition =>
      cases hd
      rfl

/-! ## Definitions -/

/-- New definitions may be added. -/
theorem grows_definitions (h : r.WellFormed) {definitions : ExtTreeMap TypeId Definition}
    {bound : Option BoundDictionary}
    (hKept : ∀ id d, r.definition? id = some d → definitions[id]? = some d)
    (hKeyed : ∀ (id : TypeId) (d : Definition), definitions[id]? = some d → d.id = id) :
    r.Grows { r with bound, definitions } where
  wellFormed :=
    { keyed := hKeyed
      handled := by
        intro id x hx
        obtain ⟨hId, registered, declared, hRegistered, hDeclared, hEqual⟩ := h.handled id x hx
        exact ⟨hId, registered, declared, hKept id registered hRegistered, hDeclared, hEqual⟩
      typed := h.typed }
  definitions := hKept
  handlers := fun _ _ hx => hx

theorem grows_insert (h : r.WellFormed) {d : Definition} (hNew : r.definition? d.id = none) :
    r.Grows { r with definitions := r.definitions.insert d.id d } := by
  apply grows_definitions h
  · intro id d' hd'
    have hNe : d.id ≠ id := by
      rintro rfl
      rw [hNew] at hd'
      cases hd'
    rw [ExtTreeMap.getElem?_insert, if_neg (by simpa using hNe)]
    exact hd'
  · intro id d' hd'
    rw [ExtTreeMap.getElem?_insert] at hd'
    split at hd'
    · rename_i hEq
      cases hd'
      exact LawfulEqCmp.compare_eq_iff_eq.1 hEq
    · exact h.keyed id d' hd'

theorem grows_addType (h : r.WellFormed) (d : Definition) : r.Grows ((addType d).start r).2 := by
  simp only [addType, Attempt.start_of]
  cases hDefinition : r.definition? d.id with
  | none => exact grows_insert h hDefinition
  | some existing =>
      by_cases hEqual : existing.isLayoutEqual d = true
      · simp only [hEqual, if_true]
        exact Grows.refl h
      · simp only [hEqual]
        exact Grows.refl h

/-- A definition that was registered successfully is known. -/
theorem definition?_addType {d : Definition} {result : Definition × Bool}
    (hAdd : (addType d).start r = (.ok result, r')) :
    ∃ registered, r'.definition? d.id = some registered ∧ registered.isLayoutEqual d = true := by
  simp only [addType, Attempt.start_of] at hAdd
  cases hDefinition : r.definition? d.id with
  | none =>
      simp only [hDefinition] at hAdd
      cases hAdd
      exact ⟨d, by simp [definition?], Definition.isLayoutEqual_self d⟩
  | some existing =>
      by_cases hEqual : existing.isLayoutEqual d = true
      · simp only [hDefinition, hEqual, if_true] at hAdd
        cases hAdd
        exact ⟨existing, hDefinition, hEqual⟩
      · simp only [hDefinition, hEqual] at hAdd
        cases hAdd

/-! ## Dictionaries -/

theorem grows_bindDictionary (h : r.WellFormed) (b : BoundDictionary) :
    r.Grows ((bindDictionary b).start r).2 := by
  rw [bindDictionary, Attempt.start_modify]
  cases hBound : r.bound with
  | some current =>
      by_cases hSame : (current.token.isSome && current.token = b.token) = true
      · simp only [hSame, if_true]
        exact Grows.refl h
      · simp only [hSame]
        exact Grows.refl h
  | none =>
      cases hValid : r.validate b.dictionary with
      | error e =>
          simp only [bind, Except.bind]
          exact Grows.refl h
      | ok _ =>
          simp only [bind, Except.bind, pure, Except.pure]
          apply grows_definitions h
          · intro id d hd
            rcases getElem?_foldl_insert Definition.id (fun d => d)
              (b.dictionary.definitions.filter fun d => (r.definition? d.id).isNone)
              r.definitions id
              with ⟨d', hd', hId, -⟩ | ⟨-, hGet⟩
            · have hNew := (List.mem_filter.1 hd').2
              rw [hId, hd] at hNew
              cases hNew
            · rw [hGet]
              exact hd
          · intro id d hd
            rcases getElem?_foldl_insert Definition.id (fun d => d)
              (b.dictionary.definitions.filter fun d => (r.definition? d.id).isNone)
              r.definitions id
              with ⟨d', -, hId, hGet⟩ | ⟨-, hGet⟩
            · rw [hGet] at hd
              cases hd
              exact hId
            · rw [hGet] at hd
              exact h.keyed id d hd

/-- Every definition of a dictionary is registered, as far as records are
concerned. -/
def Covers (r : Registry ι) (dictionary : Dictionary) : Prop :=
  ∀ d ∈ dictionary.definitions, ∃ registered, r.definition? d.id = some registered ∧
    registered.isLayoutEqual d = true

theorem Covers.grow {dictionary : Dictionary} (h : r.Covers dictionary) (hGrows : r.Grows r') :
    r'.Covers dictionary := by
  intro d hd
  obtain ⟨registered, hRegistered, hEqual⟩ := h d hd
  exact ⟨registered, hGrows.definitions _ _ hRegistered, hEqual⟩

theorem validate_ok {dictionary : Dictionary} :
    r.validate dictionary = .ok () ↔ ∀ d ∈ dictionary.definitions, ∀ existing,
      r.definition? d.id = some existing → existing.isLayoutEqual d = true := by
  rw [validate, forM_eq_ok]
  refine forall₂_congr fun d _ => ?_
  rw [← check_eq_ok_iff, bind_eq_ok]
  constructor
  · rintro ⟨existing, hCheck, -⟩
    exact ⟨existing, hCheck⟩
  · rintro ⟨existing, hCheck⟩
    exact ⟨existing, hCheck, rfl⟩

/-- A dictionary without two definitions of one type is covered once it is
bound. -/
theorem covers_bindDictionary {b : BoundDictionary} (hBound : r.bound = none)
    (hNodup : (b.dictionary.definitions.map Definition.id).Nodup)
    (hBind : (bindDictionary b).start r = (.ok (), r')) : r'.Covers b.dictionary := by
  rw [bindDictionary, Attempt.start_modify_eq_ok] at hBind
  simp only [hBound] at hBind
  obtain ⟨_, hValid, hDone⟩ := bind_eq_ok.1 hBind
  cases hDone
  intro d hd
  rcases getElem?_foldl_insert Definition.id (fun d => d)
    (b.dictionary.definitions.filter fun d => (r.definition? d.id).isNone) r.definitions d.id with
    ⟨d', hd', hId, hGet⟩ | ⟨hOthers, hGet⟩
  · have hSame : d' = d := List.inj_on_of_nodup_map hNodup (List.mem_filter.1 hd').1 hd hId
    rw [hSame] at hGet
    exact ⟨d, hGet, Definition.isLayoutEqual_self d⟩
  · cases hKnown : r.definition? d.id with
    | none => exact absurd rfl (hOthers d (List.mem_filter.2 ⟨hd, by simp [hKnown]⟩))
    | some registered =>
        exact ⟨registered, hGet.trans hKnown, validate_ok.1 hValid d hd registered hKnown⟩

/-! ## Handlers -/

/-- The registry with one more handler and the definition of its type. -/
def withHandler (r : Registry ι) (handler : Shared (Handler ι)) (registered : Definition) :
    Registry ι :=
  { r with
    definitions := r.definitions.insert handler.value.id registered
    handlers := r.handlers.insert handler.value.id handler
    runtimeTypes :=
      match handler.value.runtime? with
      | some runtime => r.runtimeTypes.insert runtime handler.value.id
      | none => r.runtimeTypes }

/-- What is registered in the end is layout-equal to what was declared. -/
theorem check_ok {declared : Definition} {existing : Option Definition}
    (h : r.check declared = .ok existing) :
    (existing.getD declared).isLayoutEqual declared = true ∧
      (r.definition? declared.id = none ∨
        r.definition? declared.id = some (existing.getD declared)) := by
  unfold check at h
  split at h
  · rename_i hNone
    cases h
    exact ⟨Definition.isLayoutEqual_self declared, Or.inl hNone⟩
  · rename_i registered hRegistered
    split at h
    · rename_i hEqual
      cases h
      exact ⟨hEqual, Or.inr hRegistered⟩
    · cases h

/-- A handler that is registered is new, and so is its runtime type. -/
theorem addHandler_ok {handler : Shared (Handler ι)}
    (hAdd : (addHandler handler).start r = (.ok (), r')) :
    r' = r ∨ r.handler? handler.value.id = none ∧
      (∀ runtime, handler.value.runtime? = some runtime → r.runtimeTypes[runtime]? = none) ∧
      ∃ declared registered, handler.value.definition = .ok declared ∧
        registered.isLayoutEqual declared = true ∧
        (r.definition? handler.value.id = none ∨
          r.definition? handler.value.id = some registered) ∧
        r' = r.withHandler handler registered := by
  rw [addHandler, Attempt.start_modify_eq_ok] at hAdd
  obtain ⟨declared, hDeclared, hAdd⟩ := bind_eq_ok.1 hAdd
  cases hExisting : r.handlers[handler.value.id]? with
  | some existing =>
      simp only [hExisting] at hAdd
      split at hAdd
      · cases hAdd
        exact Or.inl rfl
      · cases hAdd
  | none =>
      have hFree : ∀ runtime, handler.value.runtime? = some runtime →
          r.runtimeTypes[runtime]? = none := by
        intro runtime hRuntime
        cases hTaken : r.runtimeTypes[runtime]? with
        | none => rfl
        | some id =>
            simp only [hExisting, hRuntime, hTaken] at hAdd
            cases hAdd
      have hChecked : ∃ existing, r.check declared = .ok existing ∧
          r' = r.withHandler handler (existing.getD declared) := by
        cases hRuntime : handler.value.runtime? with
        | none =>
            simp only [hExisting, hRuntime] at hAdd
            obtain ⟨existing, hCheck, hDone⟩ := bind_eq_ok.1 hAdd
            cases hDone
            exact ⟨existing, hCheck, by simp only [withHandler, hRuntime]⟩
        | some runtime =>
            simp only [hExisting, hRuntime, hFree runtime hRuntime] at hAdd
            obtain ⟨existing, hCheck, hDone⟩ := bind_eq_ok.1 hAdd
            cases hDone
            exact ⟨existing, hCheck, by simp only [withHandler, hRuntime]⟩
      obtain ⟨existing, hCheck, hDone⟩ := hChecked
      obtain ⟨hEqual, hKnown⟩ := check_ok hCheck
      rw [definition_id hDeclared] at hKnown
      exact Or.inr ⟨by simp [handler?, hExisting], hFree, declared, existing.getD declared,
        hDeclared, hEqual, hKnown, hDone⟩

theorem handler?_withHandler (handler : Shared (Handler ι)) (registered : Definition)
    (id : TypeId) :
    (r.withHandler handler registered).handler? id =
      if handler.value.id = id then some handler.value else r.handler? id := by
  unfold handler? withHandler
  rw [ExtTreeMap.getElem?_insert]
  by_cases hEq : handler.value.id = id
  · rw [if_pos hEq, if_pos (LawfulEqCmp.compare_eq_iff_eq.2 hEq)]
    rfl
  · rw [if_neg hEq, if_neg (fun hCompare => hEq (LawfulEqCmp.compare_eq_iff_eq.1 hCompare))]

theorem definition?_withHandler (handler : Shared (Handler ι)) (registered : Definition)
    (id : TypeId) :
    (r.withHandler handler registered).definition? id =
      if handler.value.id = id then some registered else r.definition? id := by
  unfold definition? withHandler
  rw [ExtTreeMap.getElem?_insert]
  by_cases hEq : handler.value.id = id
  · rw [if_pos hEq, if_pos (LawfulEqCmp.compare_eq_iff_eq.2 hEq)]
  · rw [if_neg hEq, if_neg (fun hCompare => hEq (LawfulEqCmp.compare_eq_iff_eq.1 hCompare))]

theorem runtimeTypes_withHandler (handler : Shared (Handler ι)) (registered : Definition)
    (runtime : RuntimeType) :
    (r.withHandler handler registered).runtimeTypes[runtime]? =
      if handler.value.runtime? = some runtime then some handler.value.id
      else r.runtimeTypes[runtime]? := by
  unfold withHandler
  cases hRuntime : handler.value.runtime? with
  | none => simp
  | some other =>
      simp only [ExtTreeMap.getElem?_insert, Option.some.injEq]
      by_cases hEq : other = runtime
      · rw [if_pos hEq, if_pos (LawfulEqCmp.compare_eq_iff_eq.2 hEq)]
      · rw [if_neg hEq, if_neg (fun hCompare => hEq (LawfulEqCmp.compare_eq_iff_eq.1 hCompare))]

section

variable {handler : Shared (Handler ι)} {registered : Definition}
  (hNew : r.handler? handler.value.id = none)
  (hFree : ∀ runtime, handler.value.runtime? = some runtime → r.runtimeTypes[runtime]? = none)

include hNew

theorem handler?_withHandler_of_some {id : TypeId} {x : Handler ι} (hx : r.handler? id = some x) :
    (r.withHandler handler registered).handler? id = some x := by
  rw [handler?_withHandler]
  split
  · rename_i hEq
    rw [hEq, hx] at hNew
    cases hNew
  · exact hx

include hFree

/-- Runtime types are still those of the handlers. -/
theorem typed_withHandler (h : r.WellFormed) (runtime : RuntimeType) (id : TypeId) :
    (r.withHandler handler registered).runtimeTypes[runtime]? = some id ↔
      ∃ x, (r.withHandler handler registered).handler? id = some x ∧
        x.runtime? = some runtime := by
  rw [runtimeTypes_withHandler]
  split
  · rename_i hRuntime
    constructor
    · intro hId
      cases hId
      exact ⟨handler.value, by rw [handler?_withHandler, if_pos rfl], hRuntime⟩
    · rintro ⟨x, hx, hxRuntime⟩
      rw [handler?_withHandler] at hx
      split at hx
      · rename_i hEq
        rw [hEq]
      · have hTaken := (h.typed runtime id).2 ⟨x, hx, hxRuntime⟩
        rw [hFree runtime hRuntime] at hTaken
        cases hTaken
  · rename_i hOther
    rw [h.typed runtime id]
    constructor
    · rintro ⟨x, hx, hxRuntime⟩
      exact ⟨x, handler?_withHandler_of_some hNew hx, hxRuntime⟩
    · rintro ⟨x, hx, hxRuntime⟩
      rw [handler?_withHandler] at hx
      split at hx
      · cases hx
        exact absurd hxRuntime hOther
      · exact ⟨x, hx, hxRuntime⟩

theorem grows_withHandler (h : r.WellFormed) {declared : Definition}
    (hDeclared : handler.value.definition = .ok declared)
    (hEqual : registered.isLayoutEqual declared = true)
    (hKnown : r.definition? handler.value.id = none ∨
      r.definition? handler.value.id = some registered) :
    r.Grows (r.withHandler handler registered) := by
  have hDefinitions : ∀ id d, r.definition? id = some d →
      (r.withHandler handler registered).definition? id = some d := by
    intro id d hd
    rw [definition?_withHandler]
    split
    · rename_i hEq
      rw [hEq, hd] at hKnown
      simpa [eq_comm] using hKnown
    · exact hd
  refine ⟨⟨?_, ?_, typed_withHandler hNew hFree h⟩, hDefinitions,
    fun _ _ hx => handler?_withHandler_of_some hNew hx⟩
  · intro id d hd
    rw [definition?_withHandler] at hd
    split at hd
    · rename_i hEq
      cases hd
      rw [(Definition.isLayoutEqual_iff.1 hEqual).1, definition_id hDeclared, hEq]
    · exact h.keyed id d hd
  · intro id x hx
    rw [handler?_withHandler] at hx
    split at hx
    · rename_i hEq
      cases hx
      refine ⟨hEq, registered, declared, ?_, hDeclared, hEqual⟩
      rw [definition?_withHandler, if_pos hEq]
    · obtain ⟨hId, old, oldDeclared, hOld, hOldDeclared, hOldEqual⟩ := h.handled id x hx
      exact ⟨hId, old, oldDeclared, hDefinitions id old hOld, hOldDeclared, hOldEqual⟩

end

theorem grows_addHandler (h : r.WellFormed) (handler : Shared (Handler ι)) :
    r.Grows ((addHandler handler).start r).2 := by
  cases hAdd : (addHandler handler).start r with
  | mk result r' =>
      cases result with
      | ok _ =>
          rcases addHandler_ok hAdd with
            rfl | ⟨hNew, hFree, declared, registered, hDeclared, hEqual, hKnown, rfl⟩
          · exact Grows.refl h
          · exact grows_withHandler hNew hFree h hDeclared hEqual hKnown
      | error e =>
          rw [Attempt.start_modify_of_error hAdd]
          exact Grows.refl h

/-! ## Look-up -/

theorem mem_allDefinitions (h : r.WellFormed) {d : Definition} :
    d ∈ r.allDefinitions ↔ r.definition? d.id = some d := by
  rw [allDefinitions, List.mem_map]
  constructor
  · rintro ⟨⟨id, d'⟩, hIn, rfl⟩
    have hGet : r.definition? id = some d' := ExtTreeMap.mem_toList_iff_getElem?_eq_some.1 hIn
    rw [h.keyed id d' hGet]
    exact hGet
  · intro hGet
    exact ⟨(d.id, d), ExtTreeMap.mem_toList_iff_getElem?_eq_some.2 hGet, rfl⟩

/-- The definitions are listed in the order of their identifiers. -/
theorem sorted_allDefinitions (h : r.WellFormed) :
    r.allDefinitions.Pairwise fun d d' => d.id.value < d'.id.value := by
  rw [allDefinitions, List.pairwise_map]
  refine ExtTreeMap.ordered_keys_toList.imp_of_mem ?_
  rintro ⟨id, d⟩ ⟨id', d'⟩ hIn hIn' hLess
  rw [h.keyed id d (ExtTreeMap.mem_toList_iff_getElem?_eq_some.1 hIn),
    h.keyed id' d' (ExtTreeMap.mem_toList_iff_getElem?_eq_some.1 hIn')]
  exact compare_eq_lt.1 hLess

theorem mem_allHandlers {id : TypeId} {x : Handler ι} (hx : r.handler? id = some x) :
    x ∈ r.allHandlers := by
  obtain ⟨shared, hShared, rfl⟩ := Option.map_eq_some_iff.1 hx
  exact List.mem_map.2 ⟨(id, shared), ExtTreeMap.mem_toList_iff_getElem?_eq_some.2 hShared, rfl⟩

theorem eq_of_handler? {handler x : Handler ι} (hAll : r.allHandlers = [handler]) {id : TypeId}
    (hx : r.handler? id = some x) : x = handler := by
  have hIn := mem_allHandlers hx
  rw [hAll] at hIn
  exact List.mem_singleton.1 hIn

/-- The registered definition of a type with an object handler has the
members of its fields. -/
theorem WellFormed.members (h : r.WellFormed) {id : TypeId} {hd : ObjectHandler ι}
    {d : ObjectHandler.Derived ι} {registered : Definition}
    (hHandler : r.handler? id = some (.object hd)) (hDerived : hd.derived = .ok d)
    (hRegistered : r.definition? id = some registered) :
    registered.members = d.fields.map Declaration.member := by
  obtain ⟨-, registered', declared, hRegistered', hDeclared, hEqual⟩ := h.handled _ _ hHandler
  rw [hRegistered] at hRegistered'
  cases hRegistered'
  have hSame : declared = d.definition := by
    simp only [Handler.definition, ObjectHandler.definition, hDerived] at hDeclared
    exact (Except.ok.inj hDeclared).symm
  rw [(Definition.isLayoutEqual_iff.1 hEqual).2.2, hSame,
    (ObjectHandler.derived_eq_ok hDerived).members]

theorem current?_ok (h : r.WellFormed) {name : String} {d : Definition}
    (hCurrent : r.current? name = some d) : r.definition? d.id = some d ∧ d.name = name := by
  have hIn := List.mem_reverse.1 (List.mem_of_find?_eq_some hCurrent)
  exact ⟨(mem_allDefinitions h).1 hIn, by simpa using List.find?_some hCurrent⟩

/-- The current definition with a name has the highest identifier. -/
theorem current?_highest (h : r.WellFormed) {name : String} {d other : Definition} {id : TypeId}
    (hCurrent : r.current? name = some d) (hOther : r.definition? id = some other)
    (hName : other.name = name) : id.value ≤ d.id.value := by
  have hId := h.keyed id other hOther
  rw [← hId] at hOther ⊢
  have hIn := (mem_allDefinitions h).2 hOther
  obtain ⟨-, behind, front, hSplit, hBehind⟩ := List.find?_eq_some_iff_append.1 hCurrent
  have hAll : r.allDefinitions = front.reverse ++ d :: behind.reverse := by
    rw [← List.reverse_reverse r.allDefinitions, hSplit]
    simp
  have hSorted := sorted_allDefinitions h
  rw [hAll] at hIn hSorted
  rcases List.mem_append.1 hIn with hFront | hRest
  · have hLess := (List.pairwise_append.1 hSorted).2.2 other hFront d List.mem_cons_self
    exact UInt64.le_of_lt hLess
  · rcases List.mem_cons.1 hRest with rfl | hLater
    · exact UInt64.le_refl _
    · have hNot := hBehind other (List.mem_reverse.1 hLater)
      simp [hName] at hNot

/-- The name of a known definition leads to a definition. -/
theorem current?_ne_none (h : r.WellFormed) {id : TypeId} {d : Definition}
    (hd : r.definition? id = some d) : r.current? d.name ≠ none := by
  intro hNone
  rw [← h.keyed id d hd] at hd
  have hIn := List.mem_reverse.2 ((mem_allDefinitions h).2 hd)
  have hNot := List.find?_eq_none.1 hNone d hIn
  simp at hNot

/-! ## Registered definitions -/

theorem validateEntity_eq_ok {length : UInt64} {id : TypeId} {object : ObjectId}
    {definition : Definition} :
    r.validateEntity length id object = .ok definition ↔
      r.definition? id = some definition ∧ definition.acceptsLength length = true := by
  unfold validateEntity
  cases hKnown : r.definition? id with
  | none =>
      constructor
      · intro h
        cases h
      · rintro ⟨h, -⟩
        cases h
  | some known =>
      simp only [Definition.validateLength, Option.some.injEq]
      by_cases hAccepts : known.acceptsLength length = true
      · rw [if_pos hAccepts]
        constructor
        · intro h
          cases h
          exact ⟨rfl, hAccepts⟩
        · rintro ⟨rfl, -⟩
          rfl
      · rw [if_neg hAccepts]
        constructor
        · intro h
          cases h
        · rintro ⟨rfl, h⟩
          exact absurd h hAccepts

/-- A handler is found by its own type identifier. -/
theorem WellFormed.handler_of_runtime (h : r.WellFormed) {runtime : RuntimeType}
    {handler : Handler ι} (hHandler : r.handlerFor? runtime = some handler) :
    r.handler? handler.id = some handler := by
  obtain ⟨id, -, hGet⟩ := Option.bind_eq_some_iff.1 hHandler
  have hId := (h.handled id handler hGet).1
  rw [hId]
  exact hGet

/-- A handler is found by the runtime type of its instances. -/
theorem WellFormed.handlerFor?_of_handler? (h : r.WellFormed) {id : TypeId} {handler : Handler ι}
    {runtime : RuntimeType} (hHandler : r.handler? id = some handler)
    (hRuntime : handler.runtime? = some runtime) : r.handlerFor? runtime = some handler := by
  have hType := (h.typed runtime id).2 ⟨handler, hHandler, hRuntime⟩
  rw [handlerFor?, hType]
  exact hHandler

/-- The type of an object handler is registered with the members of its
fields. -/
theorem WellFormed.registered (h : r.WellFormed) {handler : ObjectHandler ι}
    {derived : ObjectHandler.Derived ι} {runtime : RuntimeType}
    (hHandler : r.handlerFor? runtime = some (.object handler))
    (hDerived : handler.derived = .ok derived) :
    ∃ definition, r.definition? handler.id = some definition ∧
      definition.members = derived.fields.map Declaration.member := by
  have hGet := h.handler_of_runtime hHandler
  obtain ⟨-, definition, -, hDefinition, -⟩ := h.handled _ _ hGet
  exact ⟨definition, hDefinition, h.members hGet hDerived hDefinition⟩

/-! ## Sequences of registrations -/

theorem grows_apply (h : r.WellFormed) (registration : Registration ι) :
    r.Grows (r.apply registration) := by
  cases registration with
  | type d => exact grows_addType h d
  | handler handler => exact grows_addHandler h handler
  | dictionary b => exact grows_bindDictionary h b

theorem grows_foldl (h : r.WellFormed) (registrations : List (Registration ι)) :
    r.Grows (registrations.foldl apply r) := by
  induction registrations generalizing r with
  | nil => exact Grows.refl h
  | cons first rest ih =>
      have hFirst := grows_apply h first
      exact hFirst.trans (ih hFirst.wellFormed)

/-- Every registry that was built is well-formed. -/
theorem wellFormed_build (registrations : List (Registration ι)) :
    (build registrations).WellFormed :=
  (grows_foldl wellFormed_empty registrations).wellFormed

/-- Later registrations keep what was registered. -/
theorem grows_append (first second : List (Registration ι)) :
    (build first).Grows (build (first ++ second)) := by
  rw [build, build, List.foldl_append]
  exact grows_foldl (wellFormed_build first) second

end Registry

end ObjectStore
