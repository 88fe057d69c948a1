import ObjectStore.Enumeration
import ObjectStore.Member.Basic
import ObjectStore.Record.Basic

/-!
# Members of a record

The members of a record are read at their offsets. Fixed members are a range
of the content. A variable member is a length prefix and a payload that ends
exactly where the record does; the payload of a reference list is a sequence
of whole object identifiers.

Offsets and lengths may come from a corrupt record, so every read checks its
bounds, and none of them trusts a length prefix.
-/

namespace ObjectStore

/-! ## Written forms -/

/-- A payload with its length in front. -/
def writeVariable (payload : Bytes) : Bytes :=
  Word.ofWord (UInt64.ofNat payload.length) ++ payload

/-- Object identifiers, one behind the other. -/
def writeIds (ids : List ObjectId) : Bytes := ids.flatMap fun id => Word.ofWord id.value

/-- A list of object identifiers with its length in front. -/
def writeObjectIds (ids : List ObjectId) : Bytes :=
  Word.ofWord (UInt64.ofNat (8 * ids.length)) ++ writeIds ids

/-- The object identifiers that stand one behind the other. What is left
over at the end is ignored. -/
def readIds : Bytes → List ObjectId
  | a :: b :: c :: d :: e :: f :: g :: h :: rest =>
      ⟨Word.toWord [a, b, c, d, e, f, g, h]⟩ :: readIds rest
  | _ => []

theorem length_writeIds (ids : List ObjectId) : (writeIds ids).length = 8 * ids.length := by
  induction ids with
  | nil => rfl
  | cons id rest ih =>
      simp only [writeIds, List.flatMap_cons, List.length_append, Word.length_ofWord,
        List.length_cons] at ih ⊢
      omega

/-- The written form of a list of object identifiers is that of a payload. -/
theorem writeObjectIds_eq (ids : List ObjectId) :
    writeObjectIds ids = writeVariable (writeIds ids) := by
  rw [writeObjectIds, writeVariable, length_writeIds]

namespace Record

/-! ## Reads -/

/-- The `length` bytes of the content from `start` on. -/
def slice (r : Record) (start length : Nat) : Except Corruption Bytes :=
  let stop := start + length
  if Word.max.toNat < stop then .error .offsetOverflow
  else if stop ≤ r.content.length then .ok ((r.content.drop start).take length)
  else .error (.rangeOutOfBounds start stop r.object r.content.length)

/-- The word at an offset of the content. -/
def readWord (r : Record) (offset : Nat) : Except Corruption UInt64 :=
  wordAt r.content offset

/-- The object identifier at an offset of the content. -/
def readObjectId (r : Record) (offset : Nat) : Except Corruption ObjectId :=
  (r.readWord offset).map ObjectId.mk

/-- The payload of the variable member at an offset. -/
def readVariable (r : Record) (offset : Nat) : Except Corruption Bytes := do
  let length ← r.readWord offset
  let payload ← r.slice (offset + 8) length.toNat
  if offset + 8 + length.toNat = r.content.length then return payload
  else throw (.trailingBytes r.object)

/-- The object identifiers of the reference list at an offset. -/
def readObjectIds (r : Record) (offset : Nat) : Except Corruption (List ObjectId) := do
  let payload ← r.readVariable offset
  if payload.length % 8 = 0 then return readIds payload
  else throw (.raggedReferenceList r.object payload.length)

/-! ## References -/

/-- The references that one member of a record holds. The absent reference
is none. -/
def memberReferences (r : Record) (member : Member) : Enumeration ObjectId :=
  if !member.kind.hasReferences then Enumeration.ok []
  else
    match member.place with
    | .error e => Enumeration.error e
    | .ok offset =>
        if member.kind.isReference then
          match r.readObjectId offset.toNat with
          | .ok id => Enumeration.ok ([id].filter (!·.isNull))
          | .error cause => Enumeration.error (.corruptRecord cause)
        else
          match r.readObjectIds offset.toNat with
          | .ok ids => Enumeration.ok (ids.filter (!·.isNull))
          | .error cause => Enumeration.error (.corruptRecord cause)

/-- The references that a record holds, member by member. -/
def references (r : Record) : List Member → Enumeration ObjectId
  | [] => Enumeration.ok []
  | member :: rest => (r.memberReferences member).andThen (r.references rest)

end Record

end ObjectStore
