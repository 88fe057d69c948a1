import ObjectStore.Graph
import ObjectStore.Migration.Chunk
import ObjectStore.ObjectIds
import Std.Data.HashSet

/-!
# Loading

A chunk is loaded in phases, because the objects in it may refer to each
other in circles:

1. legacy records are converted, and every record is checked;
2. an object that is not live yet gets an instance with its values;
3. references are set, in new instances and in those that were live before;
4. every loaded instance is completed.

The first phase changes nothing. If a later one fails, the new instances and
their identifiers are given back; instances that were live before keep what
was set in them.

## Main results

* `loadObjects_of_plan_error`: a chunk that is refused leaves everything as
  it was.
-/

namespace ObjectStore

/-- The live side of a program: its instances and their identifiers. -/
structure Live (ι : Type) where
  graph : Graph ι
  ids : ObjectIds

/-- A record that passed the checks. -/
structure PlannedRecord (ι : Type) where
  record : Record
  handler : Handler ι
  /-- The instance of the object, if it is live. -/
  existing : Option Ref

namespace Loading

variable {ι : Type}

/-! ## Checking -/

/-- Checks records in order. No object may have two of them. -/
def planRecords (registry : Registry ι) (ids : ObjectIds) (seen : Std.HashSet ObjectId) :
    List Record → Except Error (List (PlannedRecord ι))
  | [] => .ok []
  | r :: rest => do
      let _ ← registry.validateEntity r.length r.type r.object
      match registry.handler? r.type with
      | none => throw (.unhandledTypeId r.type)
      | some handler =>
          if r.object.isNull then throw (.corruptRecord .nullObjectId)
          if r.object ∈ seen then throw (.duplicateObjectId r.object)
          let planned ← planRecords registry ids (seen.insert r.object) rest
          return ⟨r, handler, ids.ref? r.object⟩ :: planned

/-- Checks a chunk. -/
def plan (registry : Registry ι) (ids : ObjectIds) (bytes : Bytes) :
    Except Error (List (PlannedRecord ι)) := do
  let chunk := Chunk.split bytes
  let planned ← planRecords registry ids ∅ chunk.records
  let _ ← chunk.toExcept
  return planned

/-! ## Applying -/

/-- The state of a load. -/
structure State (ι : Type) where
  live : Live ι
  /-- The identifiers that the load has bound. -/
  bound : List ObjectId

/-- An attempt on the graph. -/
def onGraph {α : Type} (attempt : Attempt (Graph ι) α) : Attempt (State ι) α :=
  Attempt.within (·.live.graph) (fun graph s => { s with live := { s.live with graph } }) attempt

/-- An attempt on the identifiers. -/
def onIds {α : Type} (attempt : Attempt ObjectIds α) : Attempt (State ι) α :=
  Attempt.within (·.live.ids) (fun ids s => { s with live := { s.live with ids } }) attempt

/-- The instance of a record, which is created if it is not live. -/
def place (p : PlannedRecord ι) : Attempt (State ι) Ref := do
  match p.existing with
  | some ref => return ref
  | none =>
      if p.handler.runtime?.isNone then throw (.notPersistable p.handler.name)
      let x ← Attempt.lift (p.handler.create p.record)
      let ref ← onGraph (Graph.insert x)
      onIds (ObjectIds.bind p.record.object ref)
      Attempt.modify fun s => .ok { s with bound := s.bound ++ [p.record.object] }
      return ref

/-- Where stored references lead. The absent reference leads nowhere, and so
do references to dropped records. -/
def resolver (ids : ObjectIds) (dropped : List ObjectId) : Lookup := fun id =>
  if id.isNull || dropped.contains id then .ok none
  else
    match ids.ref? id with
    | some ref => .ok (some ref)
    | none => .error (.unresolvedReference id)

/-- Sets what is left to be set once all instances exist. -/
def settle [Instance ι] (lookup : Lookup) (p : PlannedRecord ι) (ref : Ref) :
    Attempt (State ι) Unit :=
  onGraph (Graph.change ref
    (if p.existing.isSome then p.handler.refresh lookup p.record
      else p.handler.connect lookup p.record))

/-- Runs the last phase on one instance. -/
def complete [Instance ι] (p : PlannedRecord ι) (ref : Ref) : Attempt (State ι) Unit :=
  onGraph (Graph.change ref p.handler.complete)

/-- Runs all phases that change something. The result is the instance of
each record. -/
def apply [Instance ι] (planned : List (PlannedRecord ι)) (dropped : List ObjectId) :
    Attempt (State ι) (List Ref) := do
  let refs ← planned.mapM place
  let s ← get
  let lookup := resolver s.live.ids dropped
  (planned.zip refs).forM fun (p, ref) => settle lookup p ref
  (planned.zip refs).forM fun (p, ref) => complete p ref
  return refs

/-- Migrates and checks a chunk. Without a matcher, legacy records are
refused. -/
def prepare (registry : Registry ι) (matcher : Option Matcher) (ids : ObjectIds) (bytes : Bytes) :
    Except Error (List (PlannedRecord ι) × List ObjectId) := do
  let chunk ←
    match matcher with
    | some matcher => MigratedChunk.migrate registry matcher bytes
    | none => pure (MigratedChunk.unchanged bytes)
  return (← plan registry ids chunk.bytes, chunk.dropped)

/-- Gives back what a failed load has added to the former state. -/
def rollBack (before : Live ι) (s : State ι) : Live ι :=
  { graph := s.live.graph.truncate before.graph.size
    ids := s.live.ids.release s.bound before.ids.next }

end Loading

/-- Loads a chunk. The result is the instance of each record that was not
dropped. -/
def loadObjects {ι : Type} [Instance ι] (registry : Registry ι) (matcher : Option Matcher)
    (bytes : Bytes) : Attempt (Live ι) (List Ref) :=
  Attempt.of fun live =>
    match Loading.prepare registry matcher live.ids bytes with
    | .error e => (.error e, live)
    | .ok (planned, dropped) =>
        match (Loading.apply planned dropped).start ⟨live, []⟩ with
        | (.ok refs, s) => (.ok refs, s.live)
        | (.error e, s) => (.error e, Loading.rollBack live s)

theorem loadObjects_of_plan_error {ι : Type} [Instance ι] {registry : Registry ι}
    {matcher : Option Matcher} {bytes : Bytes} {live : Live ι} {e : Error}
    (h : Loading.prepare registry matcher live.ids bytes = .error e) :
    (loadObjects registry matcher bytes).start live = (.error e, live) := by
  simp only [loadObjects, Attempt.start, Attempt.of, ExceptT.run, ExceptT.mk, h]

end ObjectStore
