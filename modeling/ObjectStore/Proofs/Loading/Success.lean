import ObjectStore.Proofs.Handler.Lawful
import ObjectStore.Proofs.Loading.Phases

/-!
# What a load leaves behind

A load that succeeds gives every record of the chunk an instance: the one
that its object had, or a new one. If the handlers are lawful, every field
of that instance is what the record says, with the stored references
resolved by the identifiers that are known in the end. So it makes no
difference in which order the records stand.

A load of objects that are all new succeeds if every record can be read and
every reference leads to a record of the chunk.

## Main results

* `Loading.performed_of_loadObjects`: the phases of a load that succeeds.
* `loadObjects_ok`: what a load that succeeds leaves behind.
* `loadObjects_isOk`: when a load of new objects succeeds.
-/

namespace ObjectStore

namespace Loading

variable {ι : Type}

/-! ## Counting -/

/-- The records whose objects are not live yet. -/
def newcomers (planned : List (PlannedRecord ι)) : List (PlannedRecord ι) :=
  planned.filter (·.existing.isNone)

/-- Placing adds one instance and one binding for each new object. -/
theorem count_placeAll {s s' : State ι} {planned : List (PlannedRecord ι)} {refs : List Ref}
    (h : (planned.mapM place).start s = (.ok refs, s')) :
    s'.live.graph.size = s.live.graph.size + (newcomers planned).length ∧
      s'.bound = s.bound ++ (newcomers planned).map (·.record.object) := by
  induction planned generalizing s refs with
  | nil =>
      cases h
      simp [newcomers]
  | cons p rest ih =>
      obtain ⟨ref, restRefs, s₁, hHead, hRest, rfl⟩ := Attempt.start_mapM_cons_ok.1 h
      obtain ⟨hSize, hBound⟩ := ih hRest
      rcases place_ok hHead with ⟨hExisting, rfl⟩ | ⟨hNone, -, -, x, ids, -, -, rfl⟩
      · have hSame : newcomers (p :: rest) = newcomers rest := by
          simp [newcomers, hExisting]
        rw [hSame]
        exact ⟨hSize, hBound⟩
      · have hMore : newcomers (p :: rest) = p :: newcomers rest := by
          simp [newcomers, hNone]
        rw [hMore, hSize, hBound]
        constructor
        · show (s.live.graph.push x).size + _ = _
          rw [Graph.size_push, List.length_cons]
          omega
        · show (s.bound ++ [p.record.object]) ++ _ = _
          simp

/-- A new object can be placed if its values can be read and there is room. -/
theorem place_isOk {s : State ι} {p : PlannedRecord ι} {h : ObjectHandler ι} {x : ι}
    (hNone : p.existing = none) (hHandler : p.handler = .object h)
    (hCreate : h.create p.record = .ok x) (hRoom : s.live.graph.size < Graph.capacity)
    (hNull : p.record.object ≠ ObjectId.null) (hFree : s.live.ids.ref? p.record.object = none) :
    ∃ ref s', (place p).start s = (.ok ref, s') := by
  obtain ⟨ids, hBind⟩ := ObjectIds.bind_of_free ⟨s.live.graph.size⟩ hNull hFree
  have hRuntime : ¬p.handler.runtime?.isNone = true := by
    rw [hHandler]
    simp [Handler.runtime?]
  have hCreated : p.handler.create p.record = .ok x := by
    rw [hHandler]
    exact hCreate
  have hInsert : (onGraph (Graph.insert x)).start s =
      (.ok ⟨s.live.graph.size⟩, s.withGraph (s.live.graph.push x)) := by
    refine Attempt.start_within_eq.2 ⟨s.live.graph.push x, ?_, rfl⟩
    rw [Graph.start_insert, if_pos hRoom]
  have hBound : (onIds (ObjectIds.bind p.record.object ⟨s.live.graph.size⟩)).start
      (s.withGraph (s.live.graph.push x)) =
      (.ok (), ⟨⟨s.live.graph.push x, ids⟩, s.bound⟩) :=
    Attempt.start_within_eq.2 ⟨ids, hBind, rfl⟩
  refine ⟨⟨s.live.graph.size⟩, ⟨⟨s.live.graph.push x, ids⟩, s.bound ++ [p.record.object]⟩, ?_⟩
  unfold place
  simp only [hNone]
  rw [if_neg hRuntime, Attempt.start_lift_bind, hCreated]
  refine Attempt.start_bind_ok.2 ⟨_, _, hInsert, ?_⟩
  refine Attempt.start_bind_ok.2 ⟨_, _, hBound, ?_⟩
  exact Attempt.start_bind_ok.2 ⟨(), _, rfl, rfl⟩

theorem placeAll_isOk {s : State ι} {planned : List (PlannedRecord ι)}
    (hLive : s.live.WellFormed) (hNone : ∀ p ∈ planned, p.existing = none)
    (hCreate : ∀ p ∈ planned, ∃ h x, p.handler = .object h ∧ h.create p.record = .ok x)
    (hRoom : s.live.graph.size + planned.length ≤ Graph.capacity)
    (hNull : ∀ p ∈ planned, p.record.object ≠ ObjectId.null)
    (hFree : ∀ p ∈ planned, s.live.ids.ref? p.record.object = none)
    (hNodup : (planned.map (·.record.object)).Nodup) :
    ∃ refs s', (planned.mapM place).start s = (.ok refs, s') := by
  induction planned generalizing s with
  | nil => exact ⟨[], s, rfl⟩
  | cons p rest ih =>
      obtain ⟨hHead, hRest⟩ := List.nodup_cons.1 hNodup
      obtain ⟨h, x, hHandler, hx⟩ := hCreate p List.mem_cons_self
      rw [List.length_cons] at hRoom
      obtain ⟨ref, s₁, hPlace⟩ := place_isOk (hNone p List.mem_cons_self) hHandler hx (by omega)
        (hNull p List.mem_cons_self) (hFree p List.mem_cons_self)
      have hAdvances := advances_place hLive p
      rw [hPlace] at hAdvances
      have hOne : (([p] : List (PlannedRecord ι)).mapM place).start s = (.ok [ref], s₁) :=
        Attempt.start_mapM_cons_ok.2 ⟨ref, [], s₁, hPlace, rfl, rfl⟩
      obtain ⟨hSize, hBound⟩ := count_placeAll hOne
      have hNewcomer : newcomers [p] = [p] := by
        simp [newcomers, hNone p List.mem_cons_self]
      rw [hNewcomer] at hSize hBound
      obtain ⟨added, hAdded, hExtends⟩ := id hAdvances
      have hSame : added = [p.record.object] := by
        rw [hBound] at hAdded
        simpa using hAdded.symm
      subst hSame
      obtain ⟨refs, s', hTail⟩ := @ih s₁ hAdvances.wellFormed
        (fun q hq => hNone q (List.mem_cons_of_mem _ hq))
        (fun q hq => hCreate q (List.mem_cons_of_mem _ hq))
        (by rw [hSize, List.length_singleton]; omega)
        (fun q hq => hNull q (List.mem_cons_of_mem _ hq))
        (by
          intro q hq
          rw [hExtends.ids.same]
          · exact hFree q (List.mem_cons_of_mem _ hq)
          · intro hIn
            have hEq := List.mem_singleton.1 hIn
            exact hHead (List.mem_map.2 ⟨q, hq, hEq⟩)) hRest
      exact ⟨ref :: refs, s', Attempt.start_mapM_cons_ok.2 ⟨ref, refs, s₁, hPlace, hTail, rfl⟩⟩

/-! ## Success -/

section

variable [Instance ι] {p : PlannedRecord ι} {ref : Ref} {x y : ι} {lookup : Lookup}

/-- The instance at a position is what a record says, as far as its handler
reads it. -/
structure Reflects (lookup : Lookup) (g : Graph ι) (p : PlannedRecord ι) (ref : Ref)
    (h : ObjectHandler ι) (d : ObjectHandler.Derived ι) (x : ι) : Prop where
  handler : p.handler = .object h
  derived : h.derived = .ok d
  get : g.get? ref = some x
  typed : Instance.runtimeType x = h.runtime
  holds : ObjectHandler.HoldsAll lookup p.record d x

/-- All object handlers of a registry are lawful. -/
def Lawful (registry : Registry ι) : Prop :=
  ∀ id h, registry.handler? id = some (.object h) → h.Lawful

/-- What settling makes of an instance, if the handler is regular: the fields
that can be set hold what the record says, and the others keep what an
instance held that was live before. -/
theorem settling_regular (hRegular : ∀ h, p.handler = .object h → h.Regular)
    (hCreated : p.existing = none → p.handler.create p.record = .ok x)
    (h : (settling lookup (p, ref)).start x = (.ok (), y)) :
    ∃ hd d, p.handler = .object hd ∧ hd.derived = .ok d ∧ Instance.runtimeType y = hd.runtime ∧
      ObjectHandler.HoldsSettable lookup p.record d y ∧
      (p.existing ≠ none → ObjectHandler.KeepsReadOnly d x y) := by
  cases hHandler : p.handler with
  | placeholder definition =>
      simp only [settling, hHandler] at h
      split at h <;> cases h
  | object hd =>
      have hReg := hRegular hd hHandler
      simp only [settling, hHandler] at h
      split at h
      · obtain ⟨d, hDerived, hTyped, hAll, hKept⟩ := ObjectHandler.refresh_regular hReg h
        exact ⟨hd, d, rfl, hDerived, hTyped, hAll, fun _ => hKept⟩
      · rename_i hNew
        have hNone : p.existing = none := by simpa using hNew
        have hCreate := hCreated hNone
        rw [hHandler] at hCreate
        obtain ⟨d, hDerived, -, hValues⟩ := ObjectHandler.create_regular hReg hCreate
        obtain ⟨hTyped, hAll⟩ := ObjectHandler.connect_regular hReg hDerived hValues h
        exact ⟨hd, d, rfl, hDerived, hTyped, hAll, fun hSome => absurd hNone hSome⟩

/-- What settling makes of an instance. -/
theorem settling_ok (hLawful : ∀ h, p.handler = .object h → h.Lawful)
    (hCreated : p.existing = none → p.handler.create p.record = .ok x)
    (h : (settling lookup (p, ref)).start x = (.ok (), y)) :
    ∃ hd d, p.handler = .object hd ∧ hd.derived = .ok d ∧ Instance.runtimeType y = hd.runtime ∧
      ObjectHandler.HoldsAll lookup p.record d y := by
  obtain ⟨hd, d, hHandler, hDerived, hTyped, hAll, -⟩ :=
    settling_regular (fun h hHandler => (hLawful h hHandler).toRegular) hCreated h
  exact ⟨hd, d, hHandler, hDerived, hTyped, (hLawful hd hHandler).holdsAll hDerived hAll⟩

end

/-! ### Phases that succeed -/

section

variable [Instance ι]

/-- The last phase does nothing to instances of types without hooks. -/
theorem start_completeAll {pairs : Pairs ι} {g : Graph ι}
    (hUnhooked : ∀ q ∈ pairs, ∃ h, q.1.handler = .object h ∧ h.onComplete = none)
    (hInside : ∀ q ∈ pairs, q.2.index < g.size) : (completeAll pairs).start g = (.ok (), g) := by
  induction pairs with
  | nil => rfl
  | cons q rest ih =>
      obtain ⟨h, hHandler, hHook⟩ := hUnhooked q List.mem_cons_self
      obtain ⟨x, hGet⟩ := Graph.get?_of_lt (hInside q List.mem_cons_self)
      have hComplete : (completing q).start x = (.ok (), x) := by
        simp only [completing, hHandler, Handler.complete]
        exact ObjectHandler.complete_of_unhooked hHook x
      refine Attempt.start_forM_cons_ok.2 ⟨g, ?_, ih
        (fun p hp => hUnhooked p (List.mem_cons_of_mem _ hp))
        fun p hp => hInside p (List.mem_cons_of_mem _ hp)⟩
      rw [Graph.start_change _ hGet, hComplete, Graph.set_eq_self hGet]

/-- Once all records are placed, it is only settling them that can fail. -/
theorem apply_isOk {s s₁ : State ι} {planned : List (PlannedRecord ι)} {dropped : List ObjectId}
    {refs : List Ref} (hPlace : (planned.mapM place).start s = (.ok refs, s₁))
    (hDistinct : ((planned.zip refs).map Prod.snd).Nodup)
    (hUnhooked : ∀ p ∈ planned, ∃ h, p.handler = .object h ∧ h.onComplete = none)
    (hSettle : Graph.Accepts Prod.snd (settling (resolver s₁.live.ids dropped))
      (planned.zip refs) s₁.live.graph) :
    ∃ g, Graph.Changed Prod.snd (settling (resolver s₁.live.ids dropped)) (planned.zip refs)
        s₁.live.graph g ∧
      (apply planned dropped).start s = (.ok refs, s₁.withGraph g) := by
  obtain ⟨g, hSettled⟩ := Graph.changeAll_isOk hDistinct hSettle
  have hChanged := (Graph.changeAll_ok hDistinct hSettled).1
  have hComplete : (completeAll (planned.zip refs)).start g = (.ok (), g) := by
    refine start_completeAll (fun q hq => hUnhooked q.1 (List.of_mem_zip hq).1) ?_
    intro q hq
    obtain ⟨x, hGet, -⟩ := hSettle q hq
    exact hChanged.size ▸ Graph.lt_size_of_get? hGet
  exact ⟨g, hChanged, apply_ok.2 ⟨s₁, g, g, hPlace, hSettled, hComplete, rfl⟩⟩

end

/-- A load has gone through its phases: the records are placed in `s`, settled
in `g` and completed in `after`. -/
structure Performed [Instance ι] (registry : Registry ι) (before : Live ι)
    (planned : List (PlannedRecord ι)) (dropped : List ObjectId) (refs : List Ref) (s : State ι)
    (g : Graph ι) (after : Live ι) : Prop where
  nodup : (planned.map (·.record.object)).Nodup
  checked : ∀ p ∈ planned, Checked registry before.ids p
  placed : List.Forall₂ (Placed before s) planned refs
  grown : before.Extends ((newcomers planned).map (·.record.object)) s.live
  size : s.live.graph.size = before.graph.size + (newcomers planned).length
  settled : Graph.Changed Prod.snd (settling (resolver s.live.ids dropped)) (planned.zip refs)
    s.live.graph g
  accepted : Graph.Accepts Prod.snd (settling (resolver s.live.ids dropped)) (planned.zip refs)
    s.live.graph
  completed : Graph.Changed Prod.snd completing (planned.zip refs) g after.graph
  ids : after.ids = s.live.ids

section

variable [Instance ι] {registry : Registry ι} {matcher : Option Matcher} {bytes : Bytes}
  {before after live live' : Live ι} {planned : List (PlannedRecord ι)} {dropped : List ObjectId}
  {refs : List Ref} {s : State ι} {g : Graph ι}

theorem performed_of_loadObjects (hLive : live.WellFormed)
    (h : (loadObjects registry matcher bytes).start live = (.ok refs, live')) :
    ∃ planned dropped s g, prepare registry matcher live.ids bytes = .ok (planned, dropped) ∧
      Performed registry live planned dropped refs s g live' := by
  obtain ⟨planned, dropped, s', hPrepare, hApply, rfl⟩ := loadObjects_eq_ok.1 h
  obtain ⟨chunk, -, -, hPlan, -⟩ := prepare_eq_ok hPrepare
  obtain ⟨-, -, hNodup, hChecked⟩ := plan_eq_ok hPlan
  obtain ⟨s, g, g', hPlace, hSettle, hComplete, rfl⟩ := apply_ok.1 hApply
  have hAdvances := advances_placeAll (s := ⟨live, []⟩) hLive planned
  rw [hPlace] at hAdvances
  obtain ⟨added, hAdded, hExtends⟩ := hAdvances
  obtain ⟨hSize, hBound⟩ := count_placeAll hPlace
  have hSame : added = (newcomers planned).map (·.record.object) := by
    rw [hBound] at hAdded
    simpa using hAdded.symm
  subst hSame
  have hPlaced := placed_placeAll (s := ⟨live, []⟩) hLive
    (fun p hp ref hRef => (hChecked p hp).existing ▸ hRef) hPlace
  have hDistinct := distinct_of_placed hExtends.ids.wellFormed hNodup hPlaced
  obtain ⟨hSettled, hAccepted⟩ := Graph.changeAll_ok hDistinct hSettle
  obtain ⟨hCompleted, -⟩ := Graph.changeAll_ok hDistinct hComplete
  exact ⟨planned, dropped, s, g, hPrepare, hNodup, hChecked, hPlaced, hExtends, hSize, hSettled,
    hAccepted, hCompleted, rfl⟩

namespace Performed

variable (h : Performed registry before planned dropped refs s g after)

include h

theorem distinct : refs.Nodup := nodup_of_placed h.grown.ids.wellFormed h.nodup h.placed

theorem size_after : after.graph.size = before.graph.size + (newcomers planned).length :=
  (h.completed.size.trans h.settled.size).trans h.size

/-- If no object was live before, the instances of the load are all new. -/
theorem size_of_new (hNew : ∀ p ∈ planned, p.existing = none) :
    after.graph.size = before.graph.size + refs.length := by
  have hAll : newcomers planned = planned :=
    List.filter_eq_self.2 fun p hp => Option.isNone_iff_eq_none.2 (hNew p hp)
  rw [h.size_after, hAll, h.placed.length_eq]

theorem grows : before.ids.Grows ((newcomers planned).map (·.record.object)) after.ids :=
  h.ids ▸ h.grown.ids

theorem wellFormed : after.WellFormed := by
  refine ⟨h.grows.wellFormed, ?_⟩
  intro id ref hRef
  rw [h.ids] at hRef
  rw [h.size_after, ← h.size]
  exact h.grown.within id ref hRef

/-- Every record leads to its instance. -/
theorem bound : List.Forall₂ (fun p ref => after.ids.ref? p.record.object = some ref) planned refs :=
  h.placed.imp fun _ _ hPlaced => h.ids ▸ hPlaced.bound

/-- What is bound was bound before, or is the object of a record. -/
theorem isBound_iff {id : ObjectId} :
    (∃ ref, after.ids.ref? id = some ref) ↔
      (∃ ref, before.ids.ref? id = some ref) ∨ id ∈ planned.map (·.record.object) := by
  constructor
  · rintro ⟨ref, hRef⟩
    by_cases hNew : id ∈ (newcomers planned).map (·.record.object)
    · obtain ⟨p, hp, rfl⟩ := List.mem_map.1 hNew
      exact Or.inr (List.mem_map_of_mem (List.mem_of_mem_filter hp))
    · exact Or.inl ⟨ref, by rw [← h.grows.same id hNew]; exact hRef⟩
  · rintro (⟨ref, hRef⟩ | hIn)
    · exact ⟨ref, h.grows.ref? hRef⟩
    · obtain ⟨p, hp, rfl⟩ := List.mem_map.1 hIn
      obtain ⟨ref, -, hRef⟩ := forall₂_exists_right h.bound hp
      exact ⟨ref, hRef⟩

/-- A handler of a planned record is one of the registry. -/
theorem handler {p : PlannedRecord ι} (hp : p ∈ planned) {handler : Handler ι}
    (hHandler : p.handler = handler) : registry.handler? p.record.type = some handler :=
  hHandler ▸ (h.checked p hp).handler

/-- What the settling phase has done to the instance of a record. -/
theorem settling_of_mem {p : PlannedRecord ι} {ref : Ref} (hPair : (p, ref) ∈ planned.zip refs) :
    ∃ x y, s.live.graph.get? ref = some x ∧ g.get? ref = some y ∧
      (settling (resolver after.ids dropped) (p, ref)).start x = (.ok (), y) ∧
      (p.existing = none → p.handler.create p.record = .ok x) := by
  obtain ⟨x, hGet, hOk⟩ := h.accepted (p, ref) hPair
  have hCreated : p.existing = none → p.handler.create p.record = .ok x := by
    intro hNone
    obtain ⟨-, x', hCreate, hGet'⟩ := (List.forall₂_zip h.placed hPair).created hNone
    rw [hGet] at hGet'
    cases hGet'
    exact hCreate
  rw [h.ids]
  exact ⟨x, _, hGet, h.settled.done (p, ref) hPair x hGet, Prod.ext hOk rfl, hCreated⟩

/-- The last phase leaves instances of types without hooks alone. -/
theorem get?_of_unhooked {p : PlannedRecord ι} {ref : Ref} (hPair : (p, ref) ∈ planned.zip refs)
    {hd : ObjectHandler ι} (hHandler : p.handler = .object hd) (hUnhooked : hd.onComplete = none)
    {x : ι} (hGet : g.get? ref = some x) : after.graph.get? ref = some x := by
  have hFinal := h.completed.done (p, ref) hPair x hGet
  have hComplete : completing (p, ref) = hd.complete := by
    simp only [completing, hHandler, Handler.complete]
  rw [hComplete, ObjectHandler.complete_of_unhooked hUnhooked] at hFinal
  exact hFinal

/-- The instance of a record is what the record says. -/
theorem reflects (hLawful : Lawful registry) :
    List.Forall₂ (fun p ref => ∃ h d x,
      Reflects (resolver after.ids dropped) after.graph p ref h d x) planned refs := by
  refine List.forall₂_iff_zip.2 ⟨h.placed.length_eq, ?_⟩
  intro p ref hPair
  have hLaw : ∀ hd, p.handler = .object hd → hd.Lawful := fun hd hHandler =>
    hLawful p.record.type hd (h.handler (List.of_mem_zip hPair).1 hHandler)
  obtain ⟨x, y, -, hGet, hSettle, hCreated⟩ := h.settling_of_mem hPair
  obtain ⟨hd, d, hHandler, hDerived, hTyped, hAll⟩ := settling_ok hLaw hCreated hSettle
  have hFinal := h.get?_of_unhooked hPair hHandler (hLaw hd hHandler).unhooked hGet
  exact ⟨hd, d, y, hHandler, hDerived, hFinal, hTyped, hAll⟩

/-- Every record leads to an instance that is what the record says. -/
theorem reflected (hLawful : Lawful registry) :
    List.Forall₂ (fun p ref => after.ids.ref? p.record.object = some ref ∧
      ∃ hd d x, Reflects (resolver after.ids dropped) after.graph p ref hd d x) planned refs := by
  refine List.forall₂_iff_zip.2 ⟨h.placed.length_eq, ?_⟩
  intro p ref hPair
  exact ⟨List.forall₂_zip h.bound hPair, List.forall₂_zip (h.reflects hLawful) hPair⟩

end Performed

end

end Loading

open Loading

variable {ι : Type} [Instance ι] {registry : Registry ι} {matcher : Option Matcher} {bytes : Bytes}
  {live live' : Live ι} {refs : List Ref}

/-- A load that succeeds gives every record an instance that is what the
record says. -/
theorem loadObjects_ok (hLive : live.WellFormed) (hLawful : Lawful registry)
    (h : (loadObjects registry matcher bytes).start live = (.ok refs, live')) :
    ∃ planned dropped, prepare registry matcher live.ids bytes = .ok (planned, dropped) ∧
      live'.WellFormed ∧
      live.ids.Grows ((newcomers planned).map (·.record.object)) live'.ids ∧
      live'.graph.size = live.graph.size + (newcomers planned).length ∧
      List.Forall₂ (fun p ref => live'.ids.ref? p.record.object = some ref ∧
        ∃ hd d x, Reflects (resolver live'.ids dropped) live'.graph p ref hd d x) planned refs := by
  obtain ⟨planned, dropped, s, g, hPrepare, hPerformed⟩ := performed_of_loadObjects hLive h
  exact ⟨planned, dropped, hPrepare, hPerformed.wellFormed, hPerformed.grows,
    hPerformed.size_after, hPerformed.reflected hLawful⟩

/-- A load of new objects succeeds if every record can be read, and if the
references of every new instance can be set once all objects are known. -/
theorem loadObjects_isOk {planned : List (PlannedRecord ι)} {dropped : List ObjectId}
    (hLive : live.WellFormed) (hLawful : Lawful registry)
    (hPrepare : prepare registry matcher live.ids bytes = .ok (planned, dropped))
    (hNone : ∀ p ∈ planned, p.existing = none)
    (hRoom : live.graph.size + planned.length ≤ Graph.capacity)
    (hCreate : ∀ p ∈ planned, ∃ h x, p.handler = .object h ∧ h.create p.record = .ok x)
    (hConnect : ∀ ids : ObjectIds,
      (∀ p ∈ planned, ∃ ref, ids.ref? p.record.object = some ref) →
      ∀ p ∈ planned, ∀ h x, p.handler = .object h → h.create p.record = .ok x →
        ∃ y, (h.connect (resolver ids dropped) p.record).start x = (.ok (), y)) :
    ∃ refs live', (loadObjects registry matcher bytes).start live = (.ok refs, live') := by
  obtain ⟨chunk, -, -, hPlan, -⟩ := prepare_eq_ok hPrepare
  obtain ⟨-, -, hNodup, hChecked⟩ := plan_eq_ok hPlan
  have hFree : ∀ p ∈ planned, live.ids.ref? p.record.object = none := by
    intro p hp
    rw [← (hChecked p hp).existing, hNone p hp]
  obtain ⟨refs, s₁, hPlace⟩ := placeAll_isOk (s := ⟨live, []⟩) hLive hNone hCreate hRoom
    (fun p hp => (hChecked p hp).notNull) hFree hNodup
  have hAdvances := advances_placeAll (s := ⟨live, []⟩) hLive planned
  rw [hPlace] at hAdvances
  have hPlaced := placed_placeAll (s := ⟨live, []⟩) hLive
    (fun p hp ref hRef => (hChecked p hp).existing ▸ hRef) hPlace
  have hDistinct := distinct_of_placed hAdvances.wellFormed.ids hNodup hPlaced
  have hKnown : ∀ p ∈ planned, ∃ ref, s₁.live.ids.ref? p.record.object = some ref := by
    intro p hp
    obtain ⟨ref, -, hRef⟩ := forall₂_exists_right hPlaced hp
    exact ⟨ref, hRef.bound⟩
  have hUnhooked : ∀ p ∈ planned, ∃ h, p.handler = .object h ∧ h.onComplete = none := by
    intro p hp
    obtain ⟨h, -, hHandler, -⟩ := hCreate p hp
    have hLaw := hLawful p.record.type h (hHandler ▸ (hChecked p hp).handler)
    exact ⟨h, hHandler, hLaw.unhooked⟩
  have hSettle : Graph.Accepts Prod.snd (settling (resolver s₁.live.ids dropped))
      (planned.zip refs) s₁.live.graph := by
    rintro ⟨p, ref⟩ hPair
    have hp := (List.of_mem_zip hPair).1
    obtain ⟨-, x, hx, hGet⟩ := (List.forall₂_zip hPlaced hPair).created (hNone p hp)
    obtain ⟨h, x', hHandler, hx'⟩ := hCreate p hp
    rw [hHandler] at hx
    obtain ⟨y, hy⟩ := hConnect s₁.live.ids hKnown p hp h x hHandler hx
    refine ⟨x, hGet, ?_⟩
    simp only [settling, hNone p hp, Option.isSome_none, Bool.false_eq_true, if_false, hHandler,
      Handler.connect, hy]
  obtain ⟨g, -, hApply⟩ := apply_isOk hPlace hDistinct hUnhooked hSettle
  exact ⟨refs, _, loadObjects_eq_ok.2 ⟨planned, dropped, _, hPrepare, hApply, rfl⟩⟩

end ObjectStore
