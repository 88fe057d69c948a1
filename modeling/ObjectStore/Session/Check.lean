import ObjectStore.Session.Basic

/-!
# Checking a store

A check looks at every stored record with the eyes of the registry, and then
walks from the stored roots over the records that are valid. It finds
records that no registered definition accepts, references to objects without
a record, roots without a record, and valid records that no root leads to.
The last are reported, but they do no harm.
-/

namespace ObjectStore

open Std

/-- A reference to an object that has no record. -/
structure DanglingReference where
  source : ObjectId
  target : ObjectId
deriving DecidableEq, Inhabited

/-- What a check has found. -/
structure CheckReport where
  /-- The number of records. -/
  entities : Nat
  /-- The number of valid records that the roots lead to. -/
  reachable : Nat
  /-- The valid records that no root leads to. -/
  unreachable : List ObjectId
  /-- The records that are not valid, and why. -/
  invalid : List (ObjectId × Error)
  /-- The dangling references of the visited records, in ascending order. -/
  dangling : List DanglingReference
  /-- The roots that have no record. -/
  missingRoots : List ObjectId
deriving Inhabited

/-- Whether nothing was found that does harm. -/
def CheckReport.isConsistent (report : CheckReport) : Bool :=
  report.invalid.isEmpty && report.dangling.isEmpty && report.missingRoots.isEmpty

namespace Check

variable {ι : Type}

/-- The valid records with their definitions, by object. -/
abbrev ValidRecords := ExtTreeMap ObjectId (Record × Definition)

/-- Why a record is not valid, or its definition. -/
def judge (registry : Registry ι) (r : Record) : Except Error Definition :=
  registry.validateEntity r.length r.type r.object

/-- The valid ones among the records. -/
def validRecords (registry : Registry ι) (records : List Record) : ValidRecords :=
  records.foldl
    (fun valid r =>
      match judge registry r with
      | .ok d => valid.insert r.object (r, d)
      | .error _ => valid)
    ∅

/-- The records that are not valid. -/
def invalidRecords (registry : Registry ι) (records : List Record) : List (ObjectId × Error) :=
  records.filterMap fun r =>
    match judge registry r with
    | .ok _ => none
    | .error e => some (r.object, e)

/-- Which valid record refers to which object. -/
def network (valid : ValidRecords) : Network ObjectId where
  successors id :=
    match valid[id]? with
    | some (r, d) => (d.references r).toExcept
    | none => .error (.unresolvedReference id)
  finite := by
    apply Network.finite_of_sources valid.keys
    intro id next h
    refine Or.inl ?_
    split at h
    · rename_i r d hGet
      exact ExtTreeMap.mem_keys.2 (ExtTreeMap.mem_iff_isSome_getElem?.2 (by simp [hGet]))
    · cases h

/-- Only valid records are visited, and those without references are the end
of a path. -/
def rules (valid : ValidRecords) : Rules ObjectId where
  skip id := !valid.contains id
  leaf id :=
    match valid[id]? with
    | some (_, d) => !d.hasReferences
    | none => false

/-- What has been found on the walk. -/
structure Found where
  reached : ExtTreeSet ObjectId
  dangling : ExtTreeMap (ObjectId × ObjectId) Unit
    (compareLex (compareOn Prod.fst) (compareOn Prod.snd))

/-- Notes one record and its dangling references. -/
def visit (stored : ExtTreeSet ObjectId) (valid : ValidRecords) (id : ObjectId) (_ : Visit)
    (found : Found) : Signal × Found :=
  let found := { found with reached := found.reached.insert id }
  match valid[id]? with
  | none => (.proceed, found)
  | some (r, d) =>
      let references := d.references r
      let missing := references.seen.filter fun target => !stored.contains target
      let found :=
        { found with
          dangling := missing.foldl (fun ds target => ds.insert (id, target) ()) found.dangling }
      match references.result with
      | .ok () => (.proceed, found)
      | .error e => (.fail e, found)

/-- Checks records against a registry, starting from the roots. -/
def records (registry : Registry ι) (records : List Record) (roots : List ObjectId) :
    Except Error CheckReport := do
  let stored := records.foldl (fun s r => s.insert r.object) (∅ : ExtTreeSet ObjectId)
  let valid := validRecords registry records
  let walk := Walk.run (network valid) (rules valid) roots (visit stored valid) ⟨∅, ∅⟩
  let _ ← walk.result
  let found := walk.state
  return {
    entities := records.length
    reachable := found.reached.size
    unreachable := valid.keys.filter fun id => !found.reached.contains id
    invalid := invalidRecords registry records
    dangling := found.dangling.keys.map fun (source, target) => ⟨source, target⟩
    missingRoots := roots.filter fun id => !stored.contains id }

end Check

/-- Checks the store of a session. -/
def Session.check {ι : Type} (registry : Registry ι) (session : Session ι) :
    Except Error CheckReport := do
  let records ← (Chunk.split session.store.records).toExcept
  let roots ← session.store.readRoots
  Check.records registry records roots

end ObjectStore
