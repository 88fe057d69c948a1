import ObjectStore.Graph
import ObjectStore.ObjectIds
import ObjectStore.Record.Chunk
import ObjectStore.Traversal.Walk

/-!
# Storing

Storing walks over the live instances that the roots lead to. Every visited
instance gets an object identifier, unless it has one, and its handler
appends one record to the chunk. References are written as the identifiers
of the instances they lead to, which are assigned on demand.

Identifiers that were assigned by a failed operation are given back.

## Main results

* `Graph.network`: the reference graph of the live instances, which is
  finite because only instances refer to others.
-/

namespace ObjectStore

/-- What one store operation wrote. -/
structure StoredChunk where
  /-- The records, in the order of the walk. -/
  bytes : Bytes
  /-- The identifiers of the roots, as they were given. -/
  roots : List ObjectId
  /-- The number of records. -/
  count : Nat
deriving DecidableEq, Inhabited

/-! ## The reference graph -/

section

variable {ι : Type} [Instance ι]

/-- Which live instance refers to which. -/
def Graph.network (g : Graph ι) (registry : Registry ι) : Network Ref where
  successors := g.references registry
  finite := by
    apply Network.finite_of_sources g.refs
    intro ref next h
    refine Or.inl ?_
    have hIn : ref.index < g.size := by
      cases hGet : g.get? ref with
      | some x => exact (Array.getElem?_eq_some_iff.1 hGet).1
      | none =>
          simp [Graph.references, Graph.handler, Graph.runtimeType, Graph.get, hGet, bind,
            Except.bind, Except.map] at h
    exact List.mem_map.2 ⟨ref.index, List.mem_range.2 hIn, rfl⟩

end

/-! ## The operation -/

namespace Storing

variable {ι : Type} [Instance ι]

/-- The state of a store operation. -/
structure State where
  ids : ObjectIds
  /-- The identifiers that the operation has assigned. -/
  assigned : List ObjectId
  /-- The records that have been written. -/
  records : Array Bytes

/-- The identifier of an instance, assigned on demand. -/
def identify (ref : Ref) : Attempt State ObjectId :=
  Attempt.of fun s =>
    match (ObjectIds.ensure ref).start s.ids with
    | (.ok (id, fresh), ids) =>
        (.ok id, { s with ids, assigned := if fresh then s.assigned ++ [id] else s.assigned })
    | (.error e, ids) => (.error e, { s with ids })

/-- Writes the record of one instance. -/
def storeInstance (registry : Registry ι) (graph : Graph ι) (ref : Ref) : Attempt State Unit := do
  let handler ← Attempt.lift (graph.handler registry ref)
  let object ← identify ref
  let x ← Attempt.lift (graph.get ref)
  let record ← handler.store identify object x
  Attempt.modify fun s => .ok { s with records := s.records.push record }

/-- The identifier of a root, which must be an instance of the graph. -/
def identifyRoot (graph : Graph ι) (root : Ref) : Attempt State ObjectId := do
  let _ ← Attempt.lift (graph.runtimeType root)
  identify root

/-- Writes everything that the roots lead to. -/
def storeReachable (registry : Registry ι) (graph : Graph ι) (roots : List Ref) :
    Attempt State StoredChunk := do
  let rootIds ← roots.mapM (identifyRoot graph)
  Attempt.of fun s =>
    let visit (ref : Ref) (_ : Visit) (s : State) : Signal × State :=
      match (storeInstance registry graph ref).start s with
      | (.ok (), s) => (.proceed, s)
      | (.error e, s) => (.fail e, s)
    let walk := Walk.run (graph.network registry) {} roots visit s
    match walk.result with
    | .error e => (.error e, walk.state)
    | .ok _ =>
        let records := walk.state.records
        (.ok ⟨records.toList.flatten, rootIds, records.size⟩, walk.state)

end Storing

/-- Stores everything that the roots lead to. -/
def storeObjects {ι : Type} [Instance ι] (registry : Registry ι) (graph : Graph ι)
    (roots : List Ref) : Attempt ObjectIds StoredChunk :=
  Attempt.of fun ids =>
    match (Storing.storeReachable registry graph roots).start ⟨ids, [], #[]⟩ with
    | (.ok chunk, s) => (.ok chunk, s.ids)
    | (.error e, s) => (.error e, s.ids.release s.assigned ids.next)

end ObjectStore
