import ObjectStore.Attempt

/-!
# Object identifiers of live instances

Every instance that has been stored or loaded is bound to an object
identifier, and stays bound to it as long as the program runs. Fresh
identifiers are taken from a counter that is always above every bound one.

An operation that fails gives back the identifiers that it assigned, with
`release`.

## Main results

* `ObjectIds.ensure_known`: an instance that has an identifier keeps it.
-/

namespace ObjectStore

open Std

/-- Which instance is which object. -/
structure ObjectIds where
  byRef : ExtTreeMap Ref ObjectId
  byId : ExtTreeMap ObjectId Ref
  /-- The next identifier to assign. -/
  next : UInt64
deriving Inhabited

namespace ObjectIds

/-- No instance is bound, and fresh identifiers begin at `next`, or at the
first identifier if that is higher. -/
def startingAt (next : UInt64) : ObjectIds := ⟨∅, ∅, max next ObjectId.first.value⟩

/-- No instance is bound, and no identifier has been assigned. -/
def empty : ObjectIds := startingAt ObjectId.first.value

/-- The identifier of an instance. -/
def objectId? (ids : ObjectIds) (ref : Ref) : Option ObjectId := ids.byRef[ref]?

/-- The instance of an object. -/
def ref? (ids : ObjectIds) (id : ObjectId) : Option Ref := ids.byId[id]?

/-- The number of bound objects. -/
def size (ids : ObjectIds) : Nat := ids.byId.size

/-- Whether no object is bound. -/
def isEmpty (ids : ObjectIds) : Bool := ids.byId.isEmpty

/-- The identifier of an instance, which is assigned if it has none. The
result says whether it is fresh. -/
def ensure (ref : Ref) : Attempt ObjectIds (ObjectId × Bool) :=
  Attempt.of fun ids =>
    match ids.objectId? ref with
    | some id => (.ok (id, false), ids)
    | none =>
        if ids.next = Word.max then (.error (.capacityExceeded .objectIds), ids)
        else
          let id : ObjectId := ⟨ids.next⟩
          (.ok (id, true),
            { byRef := ids.byRef.insert ref id
              byId := ids.byId.insert id ref
              next := ids.next + 1 })

/-- Binds an instance to the identifier it was stored under. -/
def bind (id : ObjectId) (ref : Ref) : Attempt ObjectIds Unit :=
  Attempt.modify fun ids =>
    if id.isNull then .error (.corruptRecord .nullObjectId)
    else if (ids.ref? id).isSome then .error (.duplicateObjectId id)
    else
      .ok
        { byRef := ids.byRef.insert ref id
          byId := ids.byId.insert id ref
          next := if ids.next ≤ id.value then Word.addSat id.value 1 else ids.next }

/-- Forgets a binding. -/
def unbind (ids : ObjectIds) (id : ObjectId) : ObjectIds :=
  match ids.ref? id with
  | some ref => { ids with byRef := ids.byRef.erase ref, byId := ids.byId.erase id }
  | none => ids

/-- Gives back the identifiers that a failed operation has bound, and
restores the counter that it found. -/
def release (ids : ObjectIds) (bound : List ObjectId) (next : UInt64) : ObjectIds :=
  { bound.foldl unbind ids with next := max next ObjectId.first.value }

theorem ensure_known {ids : ObjectIds} {ref : Ref} {id : ObjectId}
    (h : ids.objectId? ref = some id) : (ensure ref).start ids = (.ok (id, false), ids) := by
  simp only [ensure, Attempt.start, Attempt.of, ExceptT.run, ExceptT.mk, h]

end ObjectIds

end ObjectStore
