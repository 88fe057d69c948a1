import ObjectStore.Proofs.Handler.Lawful
import ObjectStore.Proofs.Loading.Phases
import ObjectStore.Proofs.Record.References
import ObjectStore.Proofs.Registry.Registration

/-!
# References that cannot be resolved

A load looks up the references of its records when every one of them has its
instance. So a reference cannot be resolved only if its object has no record
in the chunk, and was not live before. No other step of a load fails in this
way, unless a constructor does: it is code of the embedding program, and may
fail as it likes.

`LacksOnly` says of a computation which objects it may be missing. It is proved
of the steps of a load in the order of the model.

## Main results

* `ObjectHandler.lacksOnly_connect`, `ObjectHandler.lacksOnly_refresh`: setting
  the references of an instance lacks what its record refers to.
* `loadObjects_unresolved`: which object a load of current records lacks.
-/

namespace ObjectStore

variable {σ τ α β ι : Type} {P : ObjectId → Prop}

/-! ## Computations -/

/-- If the computation fails because an object cannot be resolved, then it is
one of these. -/
def LacksOnly (P : ObjectId → Prop) (result : Except Error α) : Prop :=
  ∀ id, result = .error (.unresolvedReference id) → P id

theorem lacksOnly_ok (a : α) : LacksOnly P (.ok a) := fun _ h => nomatch h

theorem LacksOnly.bind {first : Except Error α} {second : α → Except Error β}
    (hFirst : LacksOnly P first) (hSecond : ∀ a, first = .ok a → LacksOnly P (second a)) :
    LacksOnly P (first >>= second) := by
  intro id hError
  cases hResult : first with
  | error e =>
      rw [hResult] at hError
      cases hError
      exact hFirst id hResult
  | ok a =>
      rw [hResult] at hError
      exact hSecond a hResult id hError

theorem lacksOnly_mapM {f : α → Except Error β} {as : List α}
    (h : ∀ a ∈ as, LacksOnly P (f a)) : LacksOnly P (as.mapM f) := by
  intro id hError
  obtain ⟨a, ha, hStep⟩ := mapM_eq_error hError
  exact h a ha id hStep

/-- What cannot be read from a record is not an object that is missing. -/
theorem lacksOnly_orCorrupt (result : Except Corruption α) :
    LacksOnly P (Access.orCorrupt result) := by
  cases result with
  | ok a => exact lacksOnly_ok a
  | error cause => exact fun _ h => nomatch h

theorem lacksOnly_place (m : Member) : LacksOnly P m.place := by
  unfold Member.place
  cases m.offset with
  | some offset => exact lacksOnly_ok offset
  | none => exact fun _ h => nomatch h

/-! ## Attempts -/

namespace Attempt

/-- If the attempt fails because an object cannot be resolved, then it is one
of these, whatever the state is. -/
def LacksOnly (P : ObjectId → Prop) (attempt : Attempt σ α) : Prop :=
  ∀ s, ObjectStore.LacksOnly P (attempt.start s).1

theorem lacksOnly_pure (a : α) : LacksOnly P (pure a : Attempt σ α) := fun _ => lacksOnly_ok a

theorem lacksOnly_lift {result : Except Error α} (h : ObjectStore.LacksOnly P result) :
    LacksOnly P (lift result : Attempt σ α) := fun _ => h

theorem lacksOnly_modify {f : σ → Except Error σ} (h : ∀ s, ObjectStore.LacksOnly P (f s)) :
    LacksOnly P (modify f) := by
  intro s id hError
  rw [start_modify] at hError
  cases hResult : f s with
  | ok s' =>
      rw [hResult] at hError
      cases hError
  | error e =>
      rw [hResult] at hError
      cases hError
      exact h s id hResult

theorem lacksOnly_within {get : σ → τ} {set : τ → σ → σ} {attempt : Attempt τ α}
    (h : attempt.LacksOnly P) : LacksOnly P (within get set attempt) := fun s => h (get s)

theorem LacksOnly.bind {first : Attempt σ α} {second : α → Attempt σ β}
    (hFirst : first.LacksOnly P) (hSecond : ∀ a, (second a).LacksOnly P) :
    (first >>= second).LacksOnly P := by
  intro s id hError
  rcases start_bind_error.1 (Prod.ext hError rfl) with hStep | ⟨a, s₁, -, hStep⟩
  · exact hFirst s id (congrArg Prod.fst hStep)
  · exact hSecond a s₁ id (congrArg Prod.fst hStep)

theorem lacksOnly_lift_bind {result : Except Error α} {second : α → Attempt σ β}
    (hFirst : ObjectStore.LacksOnly P result)
    (hSecond : ∀ a, result = .ok a → (second a).LacksOnly P) :
    (lift result >>= second).LacksOnly P := by
  intro s
  rw [start_lift_bind]
  cases result with
  | error e => exact fun id hError => hFirst id (congrArg _ (Except.error.inj hError))
  | ok a => exact hSecond a rfl s

theorem lacksOnly_mapM {f : α → Attempt σ β} {as : List α} (h : ∀ a ∈ as, (f a).LacksOnly P) :
    LacksOnly P (as.mapM f) := by
  induction as with
  | nil => exact lacksOnly_pure _
  | cons a rest ih =>
      have hRest := ih fun a' ha' => h a' (List.mem_cons_of_mem _ ha')
      rw [List.mapM_cons]
      exact (h a List.mem_cons_self).bind fun _ => hRest.bind fun _ => lacksOnly_pure _

theorem lacksOnly_forM {f : α → Attempt σ PUnit} {as : List α} (h : ∀ a ∈ as, (f a).LacksOnly P) :
    LacksOnly P (as.forM f) := by
  induction as with
  | nil => exact lacksOnly_pure _
  | cons a rest ih =>
      have hRest := ih fun a' ha' => h a' (List.mem_cons_of_mem _ ha')
      rw [forM_cons]
      exact (h a List.mem_cons_self).bind fun _ => hRest

end Attempt

/-! ## Members -/

namespace Access

variable {access : Access ι} {lookup : Lookup} {r : Record} {m : Member} {offset : UInt64}

/-- Values are set without looking up anything. -/
theorem lacksOnly_setValue (access : Access ι) (offset : Nat) (r : Record) (x : ι) :
    LacksOnly P (access.setValue offset r x) := by
  cases access with
  | value kind get set =>
      cases set with
      | none => exact lacksOnly_ok x
      | some set =>
          exact (lacksOnly_orCorrupt _).bind fun bytes _ =>
            (lacksOnly_orCorrupt _).bind fun v _ => lacksOnly_ok _
  | bytes get set =>
      cases set with
      | none => exact lacksOnly_ok x
      | some set => exact (lacksOnly_orCorrupt _).bind fun payload _ => lacksOnly_ok _
  | text get set =>
      cases set with
      | none => exact lacksOnly_ok x
      | some set =>
          exact (lacksOnly_orCorrupt _).bind fun payload _ =>
            (lacksOnly_orCorrupt _).bind fun content _ => lacksOnly_ok _
  | reference get set => exact lacksOnly_ok x
  | references get set => exact lacksOnly_ok x

section

variable (hPlace : m.place = .ok offset) (hNull : lookup ObjectId.null = .ok none)
  (hLookup : ∀ id, r.RefersAt m id → LacksOnly P (lookup id))

include hPlace hNull hLookup

theorem lacksOnly_lookup (hKind : m.kind = .reference) {id : ObjectId}
    (hRead : r.readObjectId offset.toNat = .ok id) : LacksOnly P (lookup id) := by
  by_cases hId : id = ObjectId.null
  · rw [hId, hNull]
    exact lacksOnly_ok none
  · exact hLookup id (Record.RefersAt.single hKind hPlace hRead hId)

theorem lacksOnly_lookupAll (hKind : m.kind = .referenceList) {ids : List ObjectId}
    (hRead : r.readObjectIds offset.toNat = .ok ids) : LacksOnly P (ids.mapM lookup) := by
  apply lacksOnly_mapM
  intro id hIn
  by_cases hId : id = ObjectId.null
  · rw [hId, hNull]
    exact lacksOnly_ok none
  · exact hLookup id (Record.RefersAt.listed hKind hPlace hRead hIn hId)

/-- Setting a member that holds references lacks what it refers to. -/
theorem lacksOnly_setReferences (hKind : m.kind = access.kind) (x : ι) :
    LacksOnly P (access.setReferences lookup offset.toNat r x) := by
  cases access with
  | value kind get set => exact lacksOnly_ok x
  | bytes get set => exact lacksOnly_ok x
  | text get set => exact lacksOnly_ok x
  | reference get set =>
      cases set with
      | none => exact lacksOnly_ok x
      | some set =>
          refine (lacksOnly_orCorrupt _).bind fun id hRead => ?_
          have hLacks := lacksOnly_lookup hPlace hNull hLookup hKind (orCorrupt_eq_ok.1 hRead)
          exact hLacks.bind fun target _ => lacksOnly_ok _
  | references get set =>
      cases set with
      | none => exact lacksOnly_ok x
      | some set =>
          refine (lacksOnly_orCorrupt _).bind fun ids hRead => ?_
          have hLacks := lacksOnly_lookupAll hPlace hNull hLookup hKind (orCorrupt_eq_ok.1 hRead)
          refine LacksOnly.bind ?_ fun targets _ => lacksOnly_ok _
          unfold resolveAll
          split
          · exact fun _ h => nomatch h
          · exact hLacks.bind fun found _ => lacksOnly_ok _

/-- Comparing a member with a record lacks what the record refers to there. -/
theorem lacksOnly_matchesStored (hKind : m.kind = access.kind) (x : ι) :
    LacksOnly P (access.matchesStored lookup offset.toNat r x) := by
  cases access with
  | value kind get set => exact (lacksOnly_orCorrupt _).bind fun bytes _ => lacksOnly_ok _
  | bytes get set => exact (lacksOnly_orCorrupt _).bind fun payload _ => lacksOnly_ok _
  | text get set => exact (lacksOnly_orCorrupt _).bind fun payload _ => lacksOnly_ok _
  | reference get set =>
      refine (lacksOnly_orCorrupt _).bind fun id hRead => ?_
      have hLacks := lacksOnly_lookup hPlace hNull hLookup hKind (orCorrupt_eq_ok.1 hRead)
      exact hLacks.bind fun target _ => lacksOnly_ok _
  | references get set =>
      refine (lacksOnly_orCorrupt _).bind fun ids hRead => ?_
      have hLacks := lacksOnly_lookupAll hPlace hNull hLookup hKind (orCorrupt_eq_ok.1 hRead)
      split
      · exact hLacks.bind fun found _ => lacksOnly_ok _
      · exact lacksOnly_ok false

end

end Access

/-! ## Instances -/

namespace ObjectHandler

variable {h : ObjectHandler ι} {d : Derived ι} {lookup : Lookup} {r : Record}

theorem lacksOnly_change {f : Declaration (Access ι)}
    {set : Access ι → Nat → ι → Except Error ι}
    (h : ∀ offset x, f.member.place = .ok offset → LacksOnly P (set f.payload offset.toNat x)) :
    (change f set).LacksOnly P :=
  Attempt.lacksOnly_modify fun x => (lacksOnly_place f.member).bind fun offset => h offset x

theorem lacksOnly_setValues (d : Derived ι) (r : Record) : (setValues d r).LacksOnly P :=
  Attempt.lacksOnly_forM fun f _ =>
    lacksOnly_change fun offset x _ => f.payload.lacksOnly_setValue offset.toNat r x

/-- A new instance lacks nothing, if its constructor does not. -/
theorem lacksOnly_create (hDerived : h.derived = .ok d)
    (hConstruct : ∀ construct, h.construction = .fromValues construct →
      ∀ values, LacksOnly P (construct values)) : LacksOnly P (h.create r) := by
  have hSet : ∀ x, LacksOnly P (((setValues d r).start x).1 >>= fun _ =>
      .ok ((setValues d r).start x).2) :=
    fun x => (lacksOnly_setValues d r x).bind fun _ _ => lacksOnly_ok _
  unfold create
  rw [hDerived]
  cases hConstruction : h.construction with
  | blank x => exact hSet x
  | fromValues construct =>
      exact (hConstruct construct hConstruction _).bind fun x _ => hSet x

theorem lacksOnly_field (hOrders : d.Orders h)
    (hLookup : ∀ id, r.RefersTo d.definition id → LacksOnly P (lookup id))
    {f : Declaration (Access ι)} (hf : f ∈ d.fields) (id : ObjectId)
    (hRefers : r.RefersAt f.member id) : LacksOnly P (lookup id) := by
  have hMember : f.member ∈ d.definition.members := by
    rw [hOrders.members]
    exact List.mem_map_of_mem hf
  exact hLookup id ⟨f.member, hMember, hRefers⟩

section

variable (hOrders : d.Orders h) (hNull : lookup ObjectId.null = .ok none)
  (hLookup : ∀ id, r.RefersTo d.definition id → LacksOnly P (lookup id))

include hOrders hNull hLookup

theorem lacksOnly_setReferences : (setReferences d lookup r).LacksOnly P := by
  apply Attempt.lacksOnly_forM
  intro f hIn
  have hf := List.mem_of_mem_filter hIn
  exact lacksOnly_change fun offset x hPlace => Access.lacksOnly_setReferences hPlace hNull
    (lacksOnly_field hOrders hLookup hf) (hOrders.kind f hf) x

theorem lacksOnly_checkStored (typeName : String) (x : ι) :
    ∀ fields : List (Declaration (Access ι)), (∀ f ∈ fields, f ∈ d.fields) →
      LacksOnly P (checkStored typeName lookup r x fields)
  | [], _ => lacksOnly_ok ()
  | f :: rest, hFields => by
      have hf := hFields f List.mem_cons_self
      have hRest := lacksOnly_checkStored typeName x rest fun f' hf' =>
        hFields f' (List.mem_cons_of_mem _ hf')
      refine (lacksOnly_place f.member).bind fun offset hPlace => ?_
      have hMatches := Access.lacksOnly_matchesStored hPlace hNull
        (lacksOnly_field hOrders hLookup hf) (hOrders.kind f hf) x
      refine hMatches.bind fun same _ => ?_
      cases same with
      | true => exact hRest
      | false => exact fun _ h => nomatch h

end

section

variable [Instance ι]

theorem lacksOnly_guard (h : ObjectHandler ι) : h.guard.LacksOnly P := by
  apply Attempt.lacksOnly_modify
  intro x
  unfold expect
  split
  · exact lacksOnly_ok x
  · exact fun _ h => nomatch h

variable (hDerived : h.derived = .ok d) (hNull : lookup ObjectId.null = .ok none)
  (hLookup : ∀ id, r.RefersTo d.definition id → LacksOnly P (lookup id))

include hDerived hNull hLookup

/-- Setting the references of a new instance lacks what its record refers
to. -/
theorem lacksOnly_connect : (h.connect lookup r).LacksOnly P := by
  have hOrders := derived_eq_ok hDerived
  unfold connect
  rw [hDerived]
  refine Attempt.lacksOnly_lift_bind (lacksOnly_ok d) fun d' hSame => ?_
  cases hSame
  exact (lacksOnly_guard h).bind fun _ => lacksOnly_setReferences hOrders hNull hLookup

/-- Bringing an instance up to date lacks what its record refers to. -/
theorem lacksOnly_refresh : (h.refresh lookup r).LacksOnly P := by
  have hOrders := derived_eq_ok hDerived
  unfold refresh
  rw [hDerived]
  refine Attempt.lacksOnly_lift_bind (lacksOnly_ok d) fun d' hSame => ?_
  cases hSame
  refine (lacksOnly_guard h).bind fun _ => ?_
  split
  · exact (lacksOnly_setValues d r).bind fun _ => lacksOnly_setReferences hOrders hNull hLookup
  · refine Attempt.lacksOnly_modify fun x => ?_
    have hCheck := lacksOnly_checkStored hOrders hNull hLookup h.name x d.fields fun _ hf => hf
    exact hCheck.bind fun _ _ => lacksOnly_ok x

omit hDerived hNull hLookup in
theorem lacksOnly_complete (h : ObjectHandler ι) : h.complete.LacksOnly P := by
  unfold complete
  cases h.onComplete with
  | none => exact Attempt.lacksOnly_pure ()
  | some hook =>
      exact (lacksOnly_guard h).bind fun _ => Attempt.lacksOnly_modify fun x => lacksOnly_ok _

end

end ObjectHandler

/-! ## Loads -/

/-- The handler restores instances, and if it does so by a constructor, this
does not fail because an object cannot be resolved. -/
def Handler.Restores : Handler ι → Prop
  | .object h => ∀ construct, h.construction = .fromValues construct →
      ∀ values, LacksOnly (fun _ => False) (construct values)
  | .placeholder _ => False

namespace Loading

variable {registry : Registry ι} {ids : ObjectIds} {s : State ι} {p : PlannedRecord ι}

/-- What is looked up for a record is bound, or its object has no instance. -/
theorem lacksOnly_resolver (ids : ObjectIds) (dropped : List ObjectId) (id : ObjectId) :
    LacksOnly (fun id' => id' = id ∧ ids.ref? id' = none) (resolver ids dropped id) := by
  intro id' hError
  unfold resolver at hError
  split at hError
  · cases hError
  · cases hRef : ids.ref? id with
    | some ref =>
        rw [hRef] at hError
        cases hError
    | none =>
        rw [hRef] at hError
        cases hError
        exact ⟨rfl, hRef⟩

theorem lacksOnly_validateEntity (registry : Registry ι) (length : UInt64) (id : TypeId)
    (object : ObjectId) : LacksOnly P (registry.validateEntity length id object) := by
  unfold Registry.validateEntity
  cases registry.definition? id with
  | none => exact fun _ h => nomatch h
  | some d =>
      refine LacksOnly.bind ?_ fun _ _ => lacksOnly_ok d
      unfold Definition.validateLength
      split
      · exact lacksOnly_ok ()
      · exact fun _ h => nomatch h

theorem lacksOnly_checkRecord (registry : Registry ι) (r : Record) :
    LacksOnly P (checkRecord registry r) := by
  refine (lacksOnly_validateEntity registry _ _ _).bind fun d _ => ?_
  cases registry.handler? r.type with
  | none => exact fun _ h => nomatch h
  | some handler =>
      show LacksOnly P (if r.object.isNull then _ else _)
      split
      · exact fun _ h => nomatch h
      · exact lacksOnly_ok handler

/-- The checks look up nothing. -/
theorem lacksOnly_planRecords (registry : Registry ι) (ids : ObjectIds) (records : List Record)
    (seen : Std.HashSet ObjectId) : LacksOnly P (planRecords registry ids seen records) := by
  induction records generalizing seen with
  | nil => exact lacksOnly_ok []
  | cons r rest ih =>
      rw [planRecords_cons]
      refine (lacksOnly_checkRecord registry r).bind fun handler _ => ?_
      split
      · exact fun _ h => nomatch h
      · exact (ih _).bind fun planned _ => lacksOnly_ok _

theorem lacksOnly_plan (registry : Registry ι) (ids : ObjectIds) (bytes : Bytes) :
    LacksOnly P (plan registry ids bytes) := by
  refine (lacksOnly_planRecords registry ids _ ∅).bind fun planned _ => ?_
  refine LacksOnly.bind ?_ fun _ _ => lacksOnly_ok planned
  unfold Chunk.toExcept
  cases (Chunk.split bytes).fault with
  | none => exact lacksOnly_ok _
  | some cause => exact fun _ h => nomatch h

theorem lacksOnly_insert (x : ι) : (Graph.insert x).LacksOnly P := by
  intro g id hError
  rw [Graph.start_insert] at hError
  split at hError <;> cases hError

theorem lacksOnly_bind (id : ObjectId) (ref : Ref) : (ObjectIds.bind id ref).LacksOnly P := by
  apply Attempt.lacksOnly_modify
  intro ids id' hError
  split at hError
  · cases hError
  · split at hError <;> cases hError

/-- Placing a record lacks nothing, if the constructor does not. -/
theorem lacksOnly_placeRecord (h : LacksOnly P (p.handler.create p.record)) :
    (place p).LacksOnly P := by
  unfold place
  cases p.existing with
  | some ref => exact Attempt.lacksOnly_pure ref
  | none =>
      show Attempt.LacksOnly P (if p.handler.runtime?.isNone then _ else _)
      split
      · exact Attempt.lacksOnly_lift fun _ h => nomatch h
      · refine (Attempt.lacksOnly_lift h).bind fun x => ?_
        refine (Attempt.lacksOnly_within (lacksOnly_insert x)).bind fun ref => ?_
        refine (Attempt.lacksOnly_within (lacksOnly_bind _ ref)).bind fun _ => ?_
        exact (Attempt.lacksOnly_modify fun _ => lacksOnly_ok _).bind fun _ =>
          Attempt.lacksOnly_pure ref

theorem lacksOnly_changeInstance {ref : Ref} {attempt : Attempt ι Unit}
    (h : attempt.LacksOnly P) : (Graph.change ref attempt).LacksOnly P := by
  intro g id hError
  cases hGet : g.get? ref with
  | none =>
      rw [Graph.start_change_of_none attempt hGet] at hError
      cases hError
  | some x =>
      rw [Graph.start_change attempt hGet] at hError
      exact h x id hError

/-- The handler of a registered type derives its fields, and its records are
read by the registered definition. -/
theorem derived_of_registered (hRegistry : registry.WellFormed) {id : TypeId}
    {h : ObjectHandler ι} (hHandler : registry.handler? id = some (.object h)) :
    ∃ derived d, h.derived = .ok derived ∧ registry.definition? id = some d ∧
      ∀ r id, Record.RefersTo r derived.definition id ↔ Record.RefersTo r d id := by
  obtain ⟨-, d, declared, hDefinition, hDeclared, -⟩ := hRegistry.handled _ _ hHandler
  obtain ⟨derived, hDerived, -⟩ := map_eq_ok.1 hDeclared
  refine ⟨derived, d, hDerived, hDefinition, fun r id => ?_⟩
  rw [Record.RefersTo, Record.RefersTo, (ObjectHandler.derived_eq_ok hDerived).members,
    hRegistry.members hHandler hDerived hDefinition]

/-- Creating an instance lacks nothing. -/
theorem lacksOnly_create (hRegistry : registry.WellFormed) {handler : Handler ι} {r : Record}
    (hHandler : registry.handler? r.type = some handler) (hRestores : handler.Restores) :
    LacksOnly (fun _ => False) (handler.create r) := by
  cases handler with
  | placeholder _ => exact hRestores.elim
  | object h =>
      obtain ⟨derived, -, hDerived, -⟩ := derived_of_registered hRegistry hHandler
      exact ObjectHandler.lacksOnly_create hDerived hRestores

variable [Instance ι] {q : PlannedRecord ι × Ref} {d : Definition}

/-- Settling a record lacks only what it refers to and what is not bound. -/
theorem lacksOnly_settling (hRegistry : registry.WellFormed) (dropped : List ObjectId)
    (hHandler : registry.handler? q.1.record.type = some q.1.handler)
    (hRestores : q.1.handler.Restores)
    (hDefinition : registry.definition? q.1.record.type = some d) :
    (settling (resolver ids dropped) q).LacksOnly fun id =>
      ids.ref? id = none ∧ q.1.record.RefersTo d id := by
  cases hObject : q.1.handler with
  | placeholder _ =>
      rw [hObject] at hRestores
      exact hRestores.elim
  | object h =>
      rw [hObject] at hHandler
      obtain ⟨derived, d', hDerived, hSame, hReads⟩ := derived_of_registered hRegistry hHandler
      cases hSame.symm.trans hDefinition
      have hNull : resolver ids dropped ObjectId.null = .ok none := rfl
      have hLookup : ∀ id, q.1.record.RefersTo derived.definition id →
          LacksOnly (fun id => ids.ref? id = none ∧ q.1.record.RefersTo d id)
            (resolver ids dropped id) := by
        intro id hRefers id' hError
        obtain ⟨rfl, hFree⟩ := lacksOnly_resolver ids dropped id id' hError
        exact ⟨hFree, (hReads _ _).1 hRefers⟩
      unfold settling
      rw [hObject]
      split
      · exact ObjectHandler.lacksOnly_refresh hDerived hNull hLookup
      · exact ObjectHandler.lacksOnly_connect hDerived hNull hLookup

/-- Settling all records lacks only what one of them refers to and what is not
bound. -/
theorem lacksOnly_settleAll {known : ObjectIds} {pairs : Pairs ι} (hRegistry : registry.WellFormed)
    (dropped : List ObjectId) (hChecked : ∀ q ∈ pairs, Checked registry known q.1)
    (hRestores : ∀ q ∈ pairs, q.1.handler.Restores) :
    (settleAll (resolver ids dropped) pairs).LacksOnly fun id =>
      ids.ref? id = none ∧ ∃ q ∈ pairs, ∃ d,
        registry.validateEntity q.1.record.length q.1.record.type q.1.record.object = .ok d ∧
          q.1.record.RefersTo d id := by
  apply Attempt.lacksOnly_forM
  intro q hq
  obtain ⟨d, hValid⟩ := (hChecked q hq).valid
  have hStep := @lacksOnly_settling _ registry ids _ q d hRegistry dropped
    (hChecked q hq).handler (hRestores q hq) (Registry.validateEntity_eq_ok.1 hValid).1
  apply lacksOnly_changeInstance
  intro x id hError
  obtain ⟨hFree, hRefers⟩ := hStep x id hError
  exact ⟨hFree, q, hq, d, hValid, hRefers⟩

theorem lacksOnly_completing (q : PlannedRecord ι × Ref) : (completing q).LacksOnly P := by
  unfold completing
  cases q.1.handler with
  | object h => exact ObjectHandler.lacksOnly_complete h
  | placeholder _ => exact Attempt.lacksOnly_pure ()

variable {planned : List (PlannedRecord ι)}

/-- Applying a plan lacks only what one of its records refers to and what no
record of it is of. -/
theorem lacksOnly_apply {live : Live ι} (hLive : live.WellFormed)
    (hRegistry : registry.WellFormed) (dropped : List ObjectId)
    (hChecked : ∀ p ∈ planned, Checked registry live.ids p)
    (hRestores : ∀ p ∈ planned, p.handler.Restores) :
    LacksOnly (fun id => live.ids.ref? id = none ∧ (∀ p ∈ planned, p.record.object ≠ id) ∧
        ∃ p ∈ planned, ∃ d,
          registry.validateEntity p.record.length p.record.type p.record.object = .ok d ∧
            p.record.RefersTo d id)
      ((apply planned dropped).start ⟨live, []⟩).1 := by
  intro id hError
  have hPlace : (planned.mapM place).LacksOnly fun _ => False :=
    Attempt.lacksOnly_mapM fun p hp => lacksOnly_placeRecord
      (lacksOnly_create hRegistry (hChecked p hp).handler (hRestores p hp))
  -- References are looked up once all records are placed, so that every object
  -- of the plan is bound; only the settling of a record looks up anything.
  rcases apply_error (Prod.ext hError rfl) with
    hPlaced | ⟨refs, s, hPlaced, g, -, hSettle | ⟨g₂, -, hComplete⟩⟩
  · exact (hPlace _ id (congrArg Prod.fst hPlaced)).elim
  · have hAdvances := advances_placeAll (s := ⟨live, []⟩) hLive planned
    rw [hPlaced] at hAdvances
    obtain ⟨added, -, hExtends⟩ := hAdvances
    have hBound := placed_placeAll (s := ⟨live, []⟩) hLive
      (fun p hp ref hRef => (hChecked p hp).existing ▸ hRef) hPlaced
    have hSettling := @lacksOnly_settleAll _ registry s.live.ids _ live.ids (planned.zip refs)
      hRegistry dropped (fun q hq => hChecked q.1 (List.of_mem_zip hq).1)
      fun q hq => hRestores q.1 (List.of_mem_zip hq).1
    obtain ⟨hFree, q, hq, hRefers⟩ := hSettling _ id (congrArg Prod.fst hSettle)
    refine ⟨?_, ?_, q.1, (List.of_mem_zip hq).1, hRefers⟩
    · cases hRef : live.ids.ref? id with
      | none => rfl
      | some ref =>
          rw [hExtends.ids.ref? hRef] at hFree
          cases hFree
    · rintro p hp rfl
      obtain ⟨ref, -, hPlacedAt⟩ := forall₂_exists_right hBound hp
      rw [hPlacedAt.bound] at hFree
      cases hFree
  · have hCompleting : (completeAll (planned.zip refs)).LacksOnly fun _ => False :=
      Attempt.lacksOnly_forM fun q _ => lacksOnly_changeInstance (lacksOnly_completing q)
    exact (hCompleting _ id (congrArg Prod.fst hComplete)).elim

end Loading

open Loading

variable [Instance ι] {registry : Registry ι} {matcher : Option Matcher} {bytes : Bytes}
  {live live' : Live ι} {id : ObjectId}

/-- A load of records that all have handlers fails because an object cannot be
resolved. Then one of the records refers to this object, but none of them is
its record, and it was not live before. -/
theorem loadObjects_unresolved (hLive : live.WellFormed) (hRegistry : registry.WellFormed)
    (hRestored : ∀ r ∈ (Chunk.split bytes).records, ∃ handler,
      registry.handler? r.type = some handler ∧ handler.Restores)
    (h : (loadObjects registry matcher bytes).start live =
      (.error (.unresolvedReference id), live')) :
    live.ids.ref? id = none ∧ (∀ r ∈ (Chunk.split bytes).records, r.object ≠ id) ∧
      ∃ r ∈ (Chunk.split bytes).records, ∃ d,
        registry.validateEntity r.length r.type r.object = .ok d ∧ r.RefersTo d id := by
  have hCurrent : ∀ r ∈ (Chunk.split bytes).records, registry.isLegacy r.type = false := by
    intro r hr
    obtain ⟨handler, hHandler, -⟩ := hRestored r hr
    exact isLegacy_of_handler hHandler
  rcases loadObjects_cases h with ⟨e, hPrepare, hError, -⟩ |
    ⟨planned, dropped, s', hPrepare, ⟨-, ⟨refs, hOk⟩, -⟩ | ⟨hApply, -, -⟩⟩
  · cases hError
    rw [prepare_eq_bind, prepared_of_current hCurrent] at hPrepare
    have hPlan : LacksOnly (fun _ => False) (plan registry live.ids bytes >>= fun planned =>
        Except.ok (planned, ([] : List ObjectId))) :=
      (lacksOnly_plan registry live.ids bytes).bind fun planned _ => lacksOnly_ok _
    exact (hPlan id hPrepare).elim
  · cases hOk
  · obtain ⟨hPlan, rfl⟩ := prepare_of_current hCurrent hPrepare
    obtain ⟨-, hRecords, -, hChecked⟩ := plan_eq_ok hPlan
    have hRestores : ∀ p ∈ planned, p.handler.Restores := by
      intro p hp
      obtain ⟨handler, hHandler, hRestores⟩ := hRestored p.record
        (hRecords ▸ List.mem_map_of_mem hp)
      rw [(hChecked p hp).handler] at hHandler
      cases hHandler
      exact hRestores
    have hApplying := lacksOnly_apply hLive hRegistry [] hChecked hRestores
    rw [← hRecords]
    obtain ⟨hFree, hOthers, p, hp, hRefers⟩ := hApplying id (congrArg Prod.fst hApply)
    exact ⟨hFree, List.forall_mem_map.2 hOthers, p.record, List.mem_map_of_mem hp, hRefers⟩

end ObjectStore
