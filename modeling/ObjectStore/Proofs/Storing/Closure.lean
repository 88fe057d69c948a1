import ObjectStore.Proofs.Record.References
import ObjectStore.Proofs.Storing.Reloading
import ObjectStore.Proofs.Traversal.Distance

/-!
# Stored chunks are closed

A chunk that was stored stands for itself. It holds one record for each
instance that the roots lead to, in the order in which a walk comes upon
them, and whatever a record refers to has a record in the same chunk. The
references in a record are those of the instance, one by one: what a handler
writes and what it lists among the references of an instance are the same,
for every kind of field. Identifiers are handed out while the roots are
registered, while an instance is visited and while its references are
written; it makes no difference which of these came first.

## Main results

* `Storing.Saved.represents`: what a written record says of its instance.
* `storeObjects_closed`: what a stored chunk consists of.
-/

namespace ObjectStore

open Loading

variable {ι : Type} [Instance ι]

namespace Storing

variable {registry : Registry ι} {g : Graph ι} {ids ids' : ObjectIds} {ref : Ref} {r : Record}

/-- The record `r` stands for the instance at the position `ref`. -/
structure Represents (registry : Registry ι) (g : Graph ι) (ids : ObjectIds) (ref : Ref)
    (r : Record) : Prop where
  /-- It is of the type whose handler the instance has. -/
  type : ∃ handler, g.handler registry ref = .ok handler ∧ handler.id = r.type
  object : ids.objectId? ref = some r.object
  bound : ids.ref? r.object = some ref
  notNull : r.object ≠ ObjectId.null
  /-- It is valid, and refers to what the instance refers to, in the same
  order. -/
  references : ∃ definition next,
    registry.validateEntity r.length r.type r.object = .ok definition ∧
      g.references registry ref = .ok next ∧
      (definition.references r).toExcept = .ok (next.map ids.nameOf)

theorem Saved.handler_eq {h : ObjectHandler ι} {d : ObjectHandler.Derived ι} {x : ι}
    (hSaved : Saved registry g ids ref h d x r) : g.handler registry ref = .ok (.object h) := by
  simp only [Graph.handler, Graph.runtimeType, Graph.get, hSaved.get, Except.map, bind,
    Except.bind, hSaved.handler]
  rfl

theorem Saved.represents {h : ObjectHandler ι} {d : ObjectHandler.Derived ι} {x : ι}
    (hSaved : Saved registry g ids ref h d x r) (hRegistry : registry.WellFormed)
    (hIds : ids.WellFormed) : Represents registry g ids ref r := by
  obtain ⟨definition, hValid, hMembers⟩ := hSaved.valid hRegistry
  have hBound := hSaved.bound hIds
  have hReferences := hSaved.references_record hIds hMembers
  have hType : h.id = r.type := by
    rw [hSaved.record]
    rfl
  refine ⟨⟨_, hSaved.handler_eq, hType⟩, hSaved.object, hBound, hIds.notNull _ _ hBound,
    definition, _, hValid, hSaved.references, ?_⟩
  rw [hReferences, Storing.leads, hSaved.references, Enumeration.toExcept_ok]

namespace Outcome

variable {chunk : StoredChunk} {roots visited : List Ref} {rs : List Record}

theorem represents (h : Outcome registry g roots ids chunk ids' visited rs)
    (hRegistry : registry.WellFormed) :
    List.Forall₂ (Represents registry g ids') visited rs := by
  refine h.writes.imp ?_
  rintro ref r ⟨handler, d, x, hSaved⟩
  exact hSaved.represents hRegistry h.wellFormed

/-- What a record refers to has a record. -/
theorem refersTo_closed (h : Outcome registry g roots ids chunk ids' visited rs)
    (hRegistry : registry.WellFormed) {definition : Definition} {target : ObjectId} (hr : r ∈ rs)
    (hDefinition : registry.definition? r.type = some definition)
    (hTarget : r.RefersTo definition target) : ∃ r' ∈ rs, r'.object = target := by
  obtain ⟨ref, hRef, hRepresents⟩ := forall₂_exists_left (h.represents hRegistry) hr
  obtain ⟨definition', next, hValid, hNext, hReferences⟩ := hRepresents.references
  have hSame := hDefinition.symm.trans (Registry.validateEntity_eq_ok.1 hValid).1
  cases hSame
  obtain ⟨ref', hIn, rfl⟩ :=
    List.mem_map.1 ((Definition.mem_references hReferences).2 hTarget)
  have hLeads : ref' ∈ leads registry g ref := by
    rw [leads, hNext]
    exact hIn
  obtain ⟨r', hr', hRepresents'⟩ :=
    forall₂_exists_right (h.represents hRegistry) (h.closed hRef hLeads)
  exact ⟨r', hr', (ObjectIds.nameOf_of_object hRepresents'.object).symm⟩

/-- The roots of the chunk are the objects of the given roots, one by one. -/
theorem roots_named (h : Outcome registry g roots ids chunk ids' visited rs) :
    chunk.roots.map some = roots.map ids'.objectId? := by
  rw [h.roots, List.map_map]
  apply List.map_congr_left
  intro root hRoot
  have hVisited := (h.reachable root).2 (Reachable.root hRoot rfl)
  obtain ⟨r, -, handler, d, x, hSaved⟩ := h.write_of_visited hVisited
  rw [hSaved.object, Function.comp_apply, ObjectIds.nameOf_of_object hSaved.object]

end Outcome

end Storing

open Storing

/-- Whatever a program has done with its table before, if that is a bijection,
a chunk that was stored consists of one record for each instance that the
roots lead to, in breadth-first order. Each record is of the type of its
instance and of the object that the table binds to it, no two of the same
object, and refers to nothing but objects of the chunk. -/
theorem storeObjects_closed (start : UInt64) (uses : List (Use ι))
    (registrations : List (Registration ι)) (graph : Graph ι) (roots : List Ref)
    (chunk : StoredChunk) (ids' : ObjectIds)
    (hBijective : ∀ id ref, ((ObjectIds.startingAt start).useAll uses).ref? id = some ref ↔
      ((ObjectIds.startingAt start).useAll uses).objectId? ref = some id)
    (h : (storeObjects (Registry.build registrations) graph roots).start
      ((ObjectIds.startingAt start).useAll uses) = (.ok chunk, ids')) :
    ∃ visited rs, Chunk.split chunk.bytes = ⟨rs, none⟩ ∧ chunk.count = rs.length ∧
      Itinerary (graph.network (Registry.build registrations)) {} roots visited ∧
      List.Forall₂ (Represents (Registry.build registrations) graph ids') visited rs ∧
      (rs.map Record.object).Nodup ∧
      chunk.roots.map some = roots.map ids'.objectId? ∧
      ∀ r ∈ rs, ∀ definition, (Registry.build registrations).definition? r.type = some definition →
        ∀ target, r.RefersTo definition target → ∃ r' ∈ rs, r'.object = target := by
  have hIds := (ObjectIds.ordered_useAll start uses).wellFormed hBijective
  have hRegistry := Registry.wellFormed_build registrations
  obtain ⟨visited, rs, hOutcome, hOrder, hCount⟩ := storeObjects_written hIds h
  refine ⟨visited, rs, hOutcome.split, hCount, hOrder.itinerary, hOutcome.represents hRegistry,
    hOutcome.nodup_objects, hOutcome.roots_named, ?_⟩
  intro r hr definition hDefinition target hTarget
  exact hOutcome.refersTo_closed hRegistry hr hDefinition hTarget

/-! ## A couple -/

namespace Slots

/-- Two people who are friends of each other. -/
def couple : Graph Slots :=
  ⟨#[(blank ⟨"Person"⟩).set "friend" (.reference (some ⟨1⟩)),
    (blank ⟨"Person"⟩).set "friend" (.reference (some ⟨0⟩))]⟩

/-- Their records. -/
def coupleRecords : List Record :=
  [⟨⟨1000⟩, ⟨1⟩, [0, 0, 0, 0, 2, 0, 0, 0, 0, 0, 0, 0, 0, 0, 0, 0]⟩,
    ⟨⟨1000⟩, ⟨2⟩, [0, 0, 0, 0, 1, 0, 0, 0, 0, 0, 0, 0, 0, 0, 0, 0]⟩]

/-- Both of them have identifiers. -/
def coupleIds : ObjectIds := ((ObjectIds.startingAt 1).extend ⟨1⟩ ⟨0⟩ 2).extend ⟨2⟩ ⟨1⟩ 3

theorem breadthFirst_couple :
    BreadthFirst (couple.network (Registry.build staff)) {} [⟨0⟩, ⟨1⟩, ⟨0⟩] [⟨0⟩, ⟨1⟩] := by
  refine BreadthFirst.of_met (by decide) fun ref hRef => Reachable.root ?_ rfl
  rcases List.mem_pair.1 hRef with rfl | rfl <;> decide

theorem storeObjects_couple :
    (storeObjects (Registry.build staff) couple [⟨0⟩, ⟨1⟩, ⟨0⟩]).start (ObjectIds.startingAt 1) =
      (.ok ⟨Chunk.join coupleRecords, [⟨1⟩, ⟨2⟩, ⟨1⟩], 2⟩, coupleIds) := by
  have hVisits : Visits {} (visitor (Registry.build staff) couple)
      ⟨coupleIds, [⟨1⟩, ⟨2⟩], #[]⟩ [⟨0⟩, ⟨1⟩]
      ⟨coupleIds, [⟨1⟩, ⟨2⟩], (coupleRecords.map Record.encode).toArray⟩ :=
    Visits.cons rfl (Visits.cons rfl (Visits.nil _))
  refine storeObjects_of_visits rfl breadthFirst_couple hVisits ?_
  intro ref hRef
  rcases List.mem_pair.1 hRef with rfl | rfl
  · exact ⟨_, rfl⟩
  · exact ⟨_, rfl⟩

/-- Both records are written, although one of the roots is given twice and
the two refer to each other. -/
theorem storeObjects_closed_couple :
    (∀ id ref, ((ObjectIds.startingAt 1).useAll ([] : List (Use Slots))).ref? id = some ref ↔
        ((ObjectIds.startingAt 1).useAll ([] : List (Use Slots))).objectId? ref = some id) ∧
      (storeObjects (Registry.build staff) couple [⟨0⟩, ⟨1⟩, ⟨0⟩]).start
        ((ObjectIds.startingAt 1).useAll ([] : List (Use Slots))) =
          (.ok ⟨Chunk.join coupleRecords, [⟨1⟩, ⟨2⟩, ⟨1⟩], 2⟩, coupleIds) ∧
      ∃ visited rs, Chunk.split (Chunk.join coupleRecords) = ⟨rs, none⟩ ∧ 2 = rs.length ∧
        List.Forall₂ (Represents (Registry.build staff) couple coupleIds) visited rs := by
  have hBijective := (ObjectIds.wellFormed_startingAt 1).inverse
  obtain ⟨visited, rs, hSplit, hCount, -, hRepresents, -⟩ := storeObjects_closed 1 [] staff couple
    [⟨0⟩, ⟨1⟩, ⟨0⟩] _ _ hBijective storeObjects_couple
  exact ⟨hBijective, storeObjects_couple, visited, rs, hSplit, hCount, hRepresents⟩

end Slots

end ObjectStore
