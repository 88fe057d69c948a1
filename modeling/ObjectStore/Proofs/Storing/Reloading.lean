import ObjectStore.Proofs.Loading.Repeating
import ObjectStore.Proofs.Loading.Resolving
import ObjectStore.Proofs.Storing.Validity
import ObjectStore.Proofs.Traversal.Order

/-!
# Storing and loading in place

The records that a store operation has written describe the instances as they
are: every field of an instance has been encoded, and every instance that it
refers to has an identifier by then. So if the records are loaded where they
come from, each of them meets its own instance, which is up to date with it,
and the load changes nothing. This is true of fields that can be set, which
are set to what they are, and of fields that cannot be set, which are compared
if the type has no others.

The load returns the instances in the order in which they were written, which
is the breadth-first order from the roots.

## Main results

* `Storing.Saved.upToDate`: a written instance is up to date with its record.
* `Storing.Outcome.reload`: what was written can be loaded in place.
* `storeObjects_reloads`: the same for every table that a program can have.
-/

namespace ObjectStore

open Loading

variable {ι : Type} [Instance ι]

namespace Storing

variable {registry : Registry ι} {g : Graph ι} {ids ids' : ObjectIds} {ref : Ref}
  {h : ObjectHandler ι} {d : ObjectHandler.Derived ι} {x : ι} {r : Record}

/-! ## Single instances -/

/-- The instance of a written record is the one that it was written of. -/
theorem Saved.bound (hSaved : Saved registry g ids ref h d x r) (hIds : ids.WellFormed) :
    ids.ref? r.object = some ref :=
  (hIds.inverse r.object ref).2 hSaved.object

/-- A written record passes the checks of a load. -/
theorem Saved.checked (hSaved : Saved registry g ids ref h d x r) (hRegistry : registry.WellFormed)
    (hIds : ids.WellFormed) : Checked registry ids ⟨r, .object h, some ref⟩ := by
  obtain ⟨definition, hValid, -⟩ := hSaved.valid hRegistry
  have hBound := hSaved.bound hIds
  exact ⟨hSaved.handler_of_type hRegistry, ⟨definition, hValid⟩,
    hIds.notNull r.object ref hBound, hBound.symm⟩

/-- What a written instance refers to is found under the identifiers in its
record. -/
theorem Saved.leads (hSaved : Saved registry g ids ref h d x r) (hIds : ids.WellFormed) :
    ∀ f ∈ d.fields, Access.Leads (resolver ids []) ids.nameOf some (f.payload.held x) := by
  intro f hf
  apply hIds.leads
  intro target hTarget
  obtain ⟨id, hId⟩ := Option.isSome_iff_exists.1 (hSaved.named f hf target hTarget)
  exact ⟨id, target, hId, rfl, (hIds.inverse id target).2 hId⟩

/-- A written instance is up to date with its record. -/
theorem Saved.upToDate (hSaved : Saved registry g ids ref h d x r) (hIds : ids.WellFormed) :
    UpToDate (resolver ids []) g ⟨r, .object h, some ref⟩ ref := by
  have hAcceptable := hSaved.acceptable
  have hRecord := hSaved.record
  rw [hRecord] at hAcceptable
  have hUp := ObjectHandler.upToDate_recordOf hSaved.derived hSaved.typed hAcceptable rfl
    (hSaved.leads hIds)
  rw [← hRecord] at hUp
  exact ⟨rfl, h, d, x, rfl, hSaved.get, hUp⟩

/-! ## All written records -/

namespace Outcome

variable {chunk : StoredChunk} {roots visited : List Ref} {rs : List Record}

/-- Records of different instances are of different objects. -/
theorem nodup_objects (hOutcome : Outcome registry g roots ids chunk ids' visited rs) :
    (rs.map Record.object).Nodup := by
  have hObjects : visited.map ids'.objectId? = (rs.map Record.object).map some := by
    rw [List.map_map]
    refine map_eq_of_forall₂ (hOutcome.writes.imp ?_)
    rintro ref r ⟨h, d, x, hSaved⟩
    exact hSaved.object
  have hDistinct : (visited.map ids'.objectId?).Nodup := by
    refine hOutcome.nodup.map_on ?_
    intro ref hRef ref' _ hSame
    obtain ⟨r, -, h, d, x, hSaved⟩ := hOutcome.write_of_visited hRef
    have hBound := (hOutcome.wellFormed.inverse _ _).2 hSaved.object
    rw [(hOutcome.wellFormed.inverse _ _).2 (hSame.symm.trans hSaved.object)] at hBound
    exact (Option.some.inj hBound).symm
  rw [hObjects] at hDistinct
  exact hDistinct.of_map _

/-- The plan by which the written records are loaded in place: each of them
into its own instance. -/
theorem exists_planned (hOutcome : Outcome registry g roots ids chunk ids' visited rs)
    (hRegistry : registry.WellFormed) :
    ∃ planned, planned.map (·.record) = rs ∧ (∀ p ∈ planned, Checked registry ids' p) ∧
      List.Forall₂ (UpToDate (resolver ids' []) g) planned visited := by
  have hIds := hOutcome.wellFormed
  have hEach : ∀ q ∈ visited.zip rs, ∃ p : PlannedRecord ι, p.record = q.2 ∧
      Checked registry ids' p ∧ UpToDate (resolver ids' []) g p q.1 := by
    intro q hq
    obtain ⟨h, d, x, hSaved⟩ := (List.forall₂_iff_zip.1 hOutcome.writes).2 hq
    exact ⟨⟨q.2, .object h, some q.1⟩, rfl, hSaved.checked hRegistry hIds, hSaved.upToDate hIds⟩
  obtain ⟨planned, hPlanned⟩ := forall₂_of_exists hEach
  have hLength := hOutcome.writes.length_eq
  refine ⟨planned, ?_, ?_, ?_⟩
  · rw [← List.map_snd_zip (Nat.le_of_eq hLength.symm)]
    exact map_eq_of_forall₂ (hPlanned.flip.imp fun _ _ h => h.1)
  · intro p hp
    obtain ⟨q, -, -, hChecked, -⟩ := forall₂_exists_left hPlanned hp
    exact hChecked
  · rw [← List.map_fst_zip (Nat.le_of_eq hLength), List.forall₂_map_right_iff]
    exact hPlanned.flip.imp fun _ _ h => h.2.2

/-- What was written can be loaded in place, which changes nothing. -/
theorem reload (hOutcome : Outcome registry g roots ids chunk ids' visited rs)
    (hRegistry : registry.WellFormed) (hRegular : Regular registry) (hIds : ids.WellFormed)
    (hWithin : ids.Within g.size) (matcher : Option Matcher) :
    ∃ live', (loadObjects registry matcher chunk.bytes).start ⟨g, ids'⟩ = (.ok visited, live') ∧
      Live.Unchanged registry visited ⟨g, ids'⟩ live' := by
  obtain ⟨planned, hRecords, hChecked, hUp⟩ := hOutcome.exists_planned hRegistry
  have hAcceptable : ∀ p ∈ planned, Chunk.Acceptable p.record := by
    intro p hp
    obtain ⟨ref, -, h, d, x, hSaved⟩ := hOutcome.write_of_mem
      (hRecords ▸ List.mem_map_of_mem hp : p.record ∈ rs)
    exact hSaved.acceptable
  have hNodup : (planned.map (·.record.object)).Nodup := by
    have hObjects := hOutcome.nodup_objects
    rwa [← hRecords, List.map_map] at hObjects
  have hPrepare : prepare registry matcher ids' chunk.bytes = .ok (planned, []) := by
    rw [hOutcome.bytes, ← hRecords]
    exact prepare_join hAcceptable hNodup hChecked
  have hLive : Live.WellFormed (⟨g, ids'⟩ : Live ι) :=
    ⟨hOutcome.wellFormed, hOutcome.within hIds hWithin⟩
  exact loadObjects_upToDate hRegistry hRegular hLive hPrepare hUp

end Outcome

end Storing

open Storing

/-- Whatever a program has done with its table before, if that is a bijection
onto instances of the graph, what a store operation has written can be loaded
in place. The load returns the instances that the roots lead to, in
breadth-first order, and changes nothing. There is only one such order, by
`BreadthFirst.unique`. -/
theorem storeObjects_reloads (start : UInt64) (uses : List (Use ι))
    (registrations : List (Registration ι)) (graph : Graph ι) (roots : List Ref)
    (chunk : StoredChunk) (ids' : ObjectIds) (matcher : Option Matcher)
    (hBijective : ∀ id ref, ((ObjectIds.startingAt start).useAll uses).ref? id = some ref ↔
      ((ObjectIds.startingAt start).useAll uses).objectId? ref = some id)
    (hWithin : ((ObjectIds.startingAt start).useAll uses).Within graph.size)
    (hRegular : Regular (Registry.build registrations))
    (h : (storeObjects (Registry.build registrations) graph roots).start
      ((ObjectIds.startingAt start).useAll uses) = (.ok chunk, ids')) :
    ∃ visited live',
      BreadthFirst (graph.network (Registry.build registrations)) {} roots visited ∧
      (loadObjects (Registry.build registrations) matcher chunk.bytes).start ⟨graph, ids'⟩ =
        (.ok visited, live') ∧
      Live.Unchanged (Registry.build registrations) visited ⟨graph, ids'⟩ live' := by
  have hIds := (ObjectIds.ordered_useAll start uses).wellFormed hBijective
  obtain ⟨visited, rs, hOutcome, hOrder⟩ := storeObjects_breadthFirst hIds h
  obtain ⟨live', hLoad, hUnchanged⟩ := hOutcome.reload
    (Registry.wellFormed_build registrations) hRegular hIds hWithin matcher
  exact ⟨visited, live', hOrder, hLoad, hUnchanged⟩

/-! ## A member of staff -/

namespace Slots

/-- The record of the person in the office. -/
def deskRecord : Record :=
  ⟨⟨1000⟩, ⟨1⟩, [0, 0, 0, 0, 0, 0, 0, 0, 0, 0, 0, 0, 9, 0, 0, 0]⟩

theorem storeObjects_office :
    (storeObjects (Registry.build staff) office [⟨0⟩]).start
      ((ObjectIds.startingAt 1).useAll hired) =
        (.ok ⟨Chunk.join [deskRecord], [⟨1⟩], 1⟩, (ObjectIds.startingAt 1).useAll hired) :=
  storeObjects_single [] rfl rfl rfl

/-- The badge, which cannot be set, is the same when the person was stored
and loaded. -/
theorem storeObjects_reloads_office :
    ∃ visited live', (∀ id ref, ((ObjectIds.startingAt 1).useAll hired).ref? id = some ref ↔
        ((ObjectIds.startingAt 1).useAll hired).objectId? ref = some id) ∧
      ((ObjectIds.startingAt 1).useAll hired).Within office.size ∧
      Regular (Registry.build staff) ∧
      (storeObjects (Registry.build staff) office [⟨0⟩]).start
        ((ObjectIds.startingAt 1).useAll hired) =
          (.ok ⟨Chunk.join [deskRecord], [⟨1⟩], 1⟩, (ObjectIds.startingAt 1).useAll hired) ∧
      BreadthFirst (office.network (Registry.build staff)) {} [⟨0⟩] visited ∧
      (loadObjects (Registry.build staff) none (Chunk.join [deskRecord])).start
        ⟨office, (ObjectIds.startingAt 1).useAll hired⟩ = (.ok visited, live') ∧
      Live.Unchanged (Registry.build staff) visited
        ⟨office, (ObjectIds.startingAt 1).useAll hired⟩ live' := by
  obtain ⟨visited, live', hOrder, hLoad, hUnchanged⟩ := storeObjects_reloads 1 hired staff office
    [⟨0⟩] _ _ none wellFormed_hired.inverse within_office regular_staff storeObjects_office
  exact ⟨visited, live', wellFormed_hired.inverse, within_office, regular_staff,
    storeObjects_office, hOrder, hLoad, hUnchanged⟩

end Slots

end ObjectStore
