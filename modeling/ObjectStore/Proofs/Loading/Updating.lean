import ObjectStore.Proofs.Loading.Undoing
import ObjectStore.Proofs.Migration.Evolution

/-!
# What a load changes, and what it leaves alone

A load that succeeds leaves one instance for each record: the one that its
object had, or a new one. The fields of that instance that can be set are
what the record says at their offsets, with every stored identifier replaced
by its instance, no matter whether the object was live before or whether its
record comes later in the chunk. Everything else is as it was: read-only
fields of instances that were live before, all other instances, and all
former bindings.

`Loading.Updated` says what becomes of one record, and `Loading.Updates` what
becomes of the live side.

## Main results

* `Loading.updates_of_wellFormed`: a load of current records is such an update.
* `loadObjects_updates`: the same for every table that a program can have.
-/

namespace ObjectStore

variable {ι : Type}

namespace Loading

variable [Instance ι] {registry : Registry ι} {matcher : Option Matcher} {bytes : Bytes}
  {before after live live' : Live ι} {refs : List Ref}

/-- All object handlers of a registry are regular. -/
def Regular (registry : Registry ι) : Prop :=
  ∀ id h, registry.handler? id = some (.object h) → h.Regular

/-- The record `r` has been loaded into the instance `x`, which is at `ref`. -/
structure Updated (registry : Registry ι) (before after : Live ι) (r : Record) (ref : Ref)
    (h : ObjectHandler ι) (d : ObjectHandler.Derived ι) (x : ι) : Prop where
  handler : registry.handler? r.type = some (.object h)
  derived : h.derived = .ok d
  bound : after.ids.ref? r.object = some ref
  /-- An object that was live before has kept its instance. -/
  known : ∀ ref', before.ids.ref? r.object = some ref' → ref' = ref
  /-- The instance of any other object is new. -/
  added : before.ids.ref? r.object = none → before.graph.size ≤ ref.index
  get : after.graph.get? ref = some x
  typed : Instance.runtimeType x = h.runtime
  holds : ∀ f ∈ d.fields, f.settable = true →
    ∃ offset, f.member.offset = some offset ∧ f.payload.Carries after.ids [] r offset.toNat x
  kept : ∀ x₀, before.graph.get? ref = some x₀ → ObjectHandler.KeepsReadOnly d x₀ x

/-- The records have been loaded into the instances at the positions, and
nothing else has changed. -/
structure Updates (registry : Registry ι) (before : Live ι) (records : List Record)
    (refs : List Ref) (after : Live ι) : Prop where
  each : List.Forall₂ (fun r ref => ∃ h d x, Updated registry before after r ref h d x) records refs
  distinct : refs.Nodup
  size : after.graph.size =
    before.graph.size + (records.filter fun r => (before.ids.ref? r.object).isNone).length
  others : ∀ ref, ref.index < before.graph.size →
    (∀ r ∈ records, before.ids.ref? r.object ≠ some ref) →
    after.graph.get? ref = before.graph.get? ref
  bindings : ∀ id ref, before.ids.ref? id = some ref → after.ids.ref? id = some ref
  unbound : ∀ id, (∀ r ∈ records, r.object ≠ id) → after.ids.ref? id = before.ids.ref? id
  wellFormed : after.WellFormed

/-! ## Instances of records -/

namespace Performed

variable {planned : List (PlannedRecord ι)} {s : State ι} {g : Graph ι}
  (h : Performed registry before planned [] refs s g after)

include h

/-- An instance that was live before is the same after placing. -/
theorem get?_placed {ref : Ref} {x : ι} (hGet : before.graph.get? ref = some x) :
    s.live.graph.get? ref = some x :=
  (h.grown.kept ref (Graph.lt_size_of_get? hGet)).trans hGet

theorem updated_of_mem (hRegular : Regular registry) {p : PlannedRecord ι} {ref : Ref}
    (hPair : (p, ref) ∈ planned.zip refs) :
    ∃ hd d x, Updated registry before after p.record ref hd d x := by
  have hp := (List.of_mem_zip hPair).1
  have hPlaced := List.forall₂_zip h.placed hPair
  have hExisting := (h.checked p hp).existing
  obtain ⟨x, y, hBefore, hGet, hSettle, hCreated⟩ := h.settling_of_mem hPair
  have hReg : ∀ hd, p.handler = .object hd → hd.Regular := fun hd hHandler =>
    hRegular p.record.type hd (h.handler hp hHandler)
  obtain ⟨hd, d, hHandler, hDerived, hTyped, hAll, hKept⟩ :=
    settling_regular hReg hCreated hSettle
  refine ⟨hd, d, y, h.handler hp hHandler, hDerived, List.forall₂_zip h.bound hPair, ?_, ?_,
    h.get?_of_unhooked hPair hHandler (hReg hd hHandler).unhooked hGet, hTyped, ?_, ?_⟩
  · intro ref' hKnown
    exact hPlaced.existing ref' (hExisting.trans hKnown)
  · intro hUnknown
    exact (hPlaced.created (hExisting.trans hUnknown)).1
  · intro f hf hSettable
    obtain ⟨offset, hOffset, hHolds⟩ := hAll f hf hSettable
    exact ⟨offset, hOffset, Access.carries_of_holds hHolds⟩
  · intro x₀ hGet₀
    -- An instance that was there before is not a new one.
    have hLive : p.existing ≠ none := by
      intro hNone
      have hNew := (hPlaced.created hNone).1
      have hOld := Graph.lt_size_of_get? hGet₀
      omega
    have hSame : x₀ = x := Option.some.inj ((h.get?_placed hGet₀).symm.trans hBefore)
    rw [hSame]
    exact hKept hLive

/-- An instance that is not that of a record is as it was. -/
theorem get?_other {ref : Ref} (hInside : ref.index < before.graph.size)
    (hOther : ∀ p ∈ planned, before.ids.ref? p.record.object ≠ some ref) :
    after.graph.get? ref = before.graph.get? ref := by
  have hNot : ∀ q ∈ planned.zip refs, q.2 ≠ ref := by
    intro q hPair hEq
    have hp := (List.of_mem_zip hPair).1
    have hPlaced := List.forall₂_zip h.placed hPair
    have hExisting := (h.checked q.1 hp).existing
    cases hKnown : q.1.existing with
    | some ref' =>
        refine hOther q.1 hp ?_
        rw [← hExisting, hKnown, hPlaced.existing ref' hKnown, hEq]
    | none =>
        have hNew := (hPlaced.created hKnown).1
        rw [hEq] at hNew
        omega
  rw [h.completed.others ref hNot, h.settled.others ref hNot, h.grown.kept ref hInside]

theorem unbound_of_other {id : ObjectId} (hOther : ∀ p ∈ planned, p.record.object ≠ id) :
    after.ids.ref? id = before.ids.ref? id := by
  refine h.grows.same id ?_
  intro hIn
  obtain ⟨p, hp, hEq⟩ := List.mem_map.1 hIn
  exact hOther p (List.mem_of_mem_filter hp) hEq

theorem length_newcomers : (newcomers planned).length =
    ((planned.map (·.record)).filter fun r => (before.ids.ref? r.object).isNone).length := by
  have hSame : newcomers planned =
      planned.filter fun p => (before.ids.ref? p.record.object).isNone := by
    apply List.filter_congr
    intro p hp
    rw [(h.checked p hp).existing]
  rw [hSame, List.filter_map, List.length_map]
  rfl

end Performed

/-- A load of current records that succeeds has loaded them, and has changed
nothing else. -/
theorem updates_of_wellFormed (hLive : live.WellFormed) (hRegular : Regular registry)
    (hCurrent : ∀ r ∈ (Chunk.split bytes).records, registry.isLegacy r.type = false)
    (h : (loadObjects registry matcher bytes).start live = (.ok refs, live')) :
    (Chunk.split bytes).fault = none ∧
      Updates registry live (Chunk.split bytes).records refs live' := by
  obtain ⟨planned, dropped, s, g, hPrepare, hPerformed⟩ := performed_of_loadObjects hLive h
  obtain ⟨hPlan, rfl⟩ := prepare_of_current hCurrent hPrepare
  obtain ⟨hFault, hRecords, -, -⟩ := plan_eq_ok hPlan
  have hMem : ∀ p ∈ planned, p.record ∈ (Chunk.split bytes).records := by
    intro p hp
    rw [← hRecords]
    exact List.mem_map_of_mem hp
  refine ⟨hFault, ?_, hPerformed.distinct, ?_, ?_, ?_, ?_, hPerformed.wellFormed⟩
  · rw [← hRecords, List.forall₂_map_left_iff]
    refine List.forall₂_iff_zip.2 ⟨hPerformed.placed.length_eq, ?_⟩
    intro p ref hPair
    exact hPerformed.updated_of_mem hRegular hPair
  · rw [hPerformed.size_after, hPerformed.length_newcomers, hRecords]
  · exact fun ref hInside hOther =>
      hPerformed.get?_other hInside fun p hp => hOther p.record (hMem p hp)
  · exact fun id ref hBound => hPerformed.grows.ref? hBound
  · exact fun id hOther => hPerformed.unbound_of_other fun p hp => hOther p.record (hMem p hp)

end Loading

open Loading

variable [Instance ι]

/-- Whatever a program has done with its table before, if that is a bijection
onto instances of the graph, a load of current records that succeeds has
loaded them, one after the other, and has changed nothing else. -/
theorem loadObjects_updates (start : UInt64) (uses : List (Use ι)) (graph : Graph ι)
    (registry : Registry ι) (matcher : Option Matcher) (bytes : Bytes) (refs : List Ref)
    (live' : Live ι)
    (hBijective : ∀ id ref, ((ObjectIds.startingAt start).useAll uses).ref? id = some ref ↔
      ((ObjectIds.startingAt start).useAll uses).objectId? ref = some id)
    (hWithin : ((ObjectIds.startingAt start).useAll uses).Within graph.size)
    (hRegular : Regular registry)
    (hCurrent : ∀ r ∈ (Chunk.split bytes).records, registry.isLegacy r.type = false)
    (h : (loadObjects registry matcher bytes).start
      ⟨graph, (ObjectIds.startingAt start).useAll uses⟩ = (.ok refs, live')) :
    (Chunk.split bytes).fault = none ∧
      Updates registry ⟨graph, (ObjectIds.startingAt start).useAll uses⟩
        (Chunk.split bytes).records refs live' := by
  have hOrdered := ObjectIds.ordered_useAll start uses
  exact updates_of_wellFormed ⟨hOrdered.wellFormed hBijective, hWithin⟩ hRegular hCurrent h

/-! ## Members of staff -/

namespace Slots

/-- What is known of people with badges: which slot, whether it can be set, and
of which kind it is. -/
def employeeSlots : List (String × Bool × FieldKind) :=
  [("age", true, .primitive .u32), ("friend", true, .reference), ("badge", false, .primitive .u32)]

/-- People who also have a badge, which cannot be changed. -/
def employee : ObjectHandler Slots where
  id := ⟨1000⟩
  name := "Person"
  runtime := ⟨"Person"⟩
  construction := .blank (blank ⟨"Person"⟩)
  fields := employeeSlots.map fun s => ⟨MemberId.unqualified s.1, none, access s.1 s.2.1 s.2.2⟩
  onComplete := none

theorem regular_employee : employee.Regular :=
  @regular_of_slots employee employeeSlots rfl (by decide) rfl rfl

/-- The registration of people with badges. -/
def staff : List (Registration Slots) := [.handler ⟨0, .object employee⟩]

/-- One person, whose badge has the number 9. -/
def office : Graph Slots := ⟨#[(blank ⟨"Person"⟩).set "badge" (.code 9)]⟩

/-- That person is the first object. -/
def hired : List (Use Slots) := [.call (.bind ⟨1⟩ ⟨0⟩)]

theorem regular_staff : Regular (Registry.build staff) := by
  intro id h hHandler
  have hAll : (Registry.build staff).allHandlers = [.object employee] := rfl
  cases Registry.eq_of_handler? hAll hHandler
  exact regular_employee

theorem useAll_hired :
    (ObjectIds.startingAt 1).useAll hired = (ObjectIds.startingAt 1).extend ⟨1⟩ ⟨0⟩ 2 := rfl

theorem wellFormed_hired : ((ObjectIds.startingAt 1).useAll hired).WellFormed := by
  have hOrdered := ObjectIds.ordered_useAll 1 hired
  rw [useAll_hired] at hOrdered ⊢
  exact (ObjectIds.wellFormed_startingAt 1).extend (ObjectIds.ref?_startingAt 1 _)
    (ObjectIds.objectId?_startingAt 1 _) hOrdered

theorem within_office : ((ObjectIds.startingAt 1).useAll hired).Within office.size := by
  intro id ref hRef
  rw [useAll_hired, ObjectIds.ref?_extend, ObjectIds.ref?_startingAt] at hRef
  split at hRef
  · cases hRef
    decide
  · cases hRef

/-- The first and the second object are friends of each other. The first one
has the number 3 on the badge. -/
def friends : List (PlannedRecord Slots) :=
  [⟨⟨⟨1000⟩, ⟨1⟩, [5, 0, 0, 0, 2, 0, 0, 0, 0, 0, 0, 0, 3, 0, 0, 0]⟩, .object employee, some ⟨0⟩⟩,
    ⟨⟨⟨1000⟩, ⟨2⟩, [7, 0, 0, 0, 1, 0, 0, 0, 0, 0, 0, 0, 4, 0, 0, 0]⟩, .object employee, none⟩]

theorem acceptable_friends : ∀ p ∈ friends, Chunk.Acceptable p.record := by
  intro p hp
  have hLength : p.record.content.length = 16 := by
    simp only [friends, List.mem_cons, List.not_mem_nil, or_false] at hp
    rcases hp with rfl | rfl <;> rfl
  rw [Chunk.Acceptable, hLength]
  decide

theorem prepare_friends :
    prepare (Registry.build staff) none ((ObjectIds.startingAt 1).useAll hired)
      (Chunk.join (friends.map (·.record))) = .ok (friends, []) := by
  apply prepare_join acceptable_friends (by decide)
  intro p hp
  simp only [friends, List.mem_cons, List.not_mem_nil, or_false] at hp
  rcases hp with rfl | rfl
  · exact ⟨rfl, ⟨_, rfl⟩, by decide, rfl⟩
  · exact ⟨rfl, ⟨_, rfl⟩, by decide, rfl⟩

/-- A person keeps the badge when both records are loaded. -/
theorem loadObjects_updates_friends :
    ∃ live' x, (∀ id ref, ((ObjectIds.startingAt 1).useAll hired).ref? id = some ref ↔
        ((ObjectIds.startingAt 1).useAll hired).objectId? ref = some id) ∧
      ((ObjectIds.startingAt 1).useAll hired).Within office.size ∧
      Regular (Registry.build staff) ∧
      (loadObjects (Registry.build staff) none (Chunk.join (friends.map (·.record)))).start
        ⟨office, (ObjectIds.startingAt 1).useAll hired⟩ = (.ok [⟨0⟩, ⟨1⟩], live') ∧
      Updates (Registry.build staff) ⟨office, (ObjectIds.startingAt 1).useAll hired⟩
        (friends.map (·.record)) [⟨0⟩, ⟨1⟩] live' ∧
      live'.graph.get? ⟨0⟩ = some x ∧ x.primitive .u32 "age" = (5 : UInt32) ∧
      x.value .reference "friend" = .reference (some ⟨1⟩) ∧
      x.primitive .u32 "badge" = (9 : UInt32) := by
  have hSplit := split_join_planned acceptable_friends
  have hCurrent : ∀ r ∈ (Chunk.split (Chunk.join (friends.map (·.record)))).records,
      (Registry.build staff).isLegacy r.type = false := by
    intro r hr
    rw [hSplit] at hr
    simp only [friends, List.map_cons, List.map_nil, List.mem_cons, List.not_mem_nil,
      or_false] at hr
    rcases hr with rfl | rfl <;> rfl
  have hLoad : ∃ live', (loadObjects (Registry.build staff) none
      (Chunk.join (friends.map (·.record)))).start
        ⟨office, (ObjectIds.startingAt 1).useAll hired⟩ = (.ok [⟨0⟩, ⟨1⟩], live') ∧
      ∃ x, live'.graph.get? ⟨0⟩ = some x ∧ x.primitive .u32 "age" = (5 : UInt32) ∧
        x.value .reference "friend" = .reference (some ⟨1⟩) ∧
        x.primitive .u32 "badge" = (9 : UInt32) := by
    simp only [loadObjects, Attempt.start_of, prepare_friends]
    exact ⟨_, rfl, _, rfl, rfl, rfl, rfl⟩
  obtain ⟨live', hLoad, x, hHeld⟩ := hLoad
  obtain ⟨-, hUpdates⟩ := loadObjects_updates 1 hired office (Registry.build staff) none _ _ _
    wellFormed_hired.inverse within_office regular_staff hCurrent hLoad
  rw [hSplit] at hUpdates
  exact ⟨live', x, wellFormed_hired.inverse, within_office, regular_staff, hLoad, hUpdates, hHeld⟩

end Slots

end ObjectStore
