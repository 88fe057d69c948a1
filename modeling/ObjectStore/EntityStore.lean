import ObjectStore.Dictionary.File
import ObjectStore.EntityStore.Tables
import ObjectStore.Storing

/-!
# The entity store

The entity store keeps what survives a run: the last record of every object,
the root list, the dictionary file, and the counter for object identifiers.
All this is in its tables. A store that is open has a mirror of the counter
beside them, which is read from the tables when the store is opened and is
set whenever the counter is. So closing a store leaves its tables, and
opening it makes a store of them.

A chunk is committed as a whole or not at all. Records of known objects are
overwritten, and the counter never moves backwards. Everything that can fail
is done before the tables are changed. A dictionary and a root list are kept
as they are written, and are decoded when they are asked for.

## Main results

* `EntityStore.opened_toStoreTables`: a store that is closed and opened again
  is what it was.
* `EntityStore.start_commit_error`: a chunk that cannot be split changes
  nothing.
-/

namespace ObjectStore

open Std

/-- A store that is open: its tables, and a mirror of the counter. -/
structure EntityStore extends StoreTables where
  /-- The counter for object identifiers. -/
  next : UInt64
  mirrored : next = toStoreTables.nextId

namespace EntityStore

/-- The store with these tables, as it is when it has just been opened. -/
def opened (tables : StoreTables) : EntityStore where
  toStoreTables := tables
  next := tables.nextId
  mirrored := rfl

/-- The store in which nothing was ever committed. -/
def empty : EntityStore := opened .empty

instance : Inhabited EntityStore := ⟨empty⟩

theorem opened_toStoreTables (s : EntityStore) : opened s.toStoreTables = s := by
  obtain ⟨tables, next, rfl⟩ := s
  rfl

/-! ## Reading -/

/-- All records, one behind the other, in the order of their objects. -/
def records (s : EntityStore) : Bytes := s.entities.toList.flatMap Prod.snd

/-- The record of an object. -/
def record? (s : EntityStore) (id : ObjectId) : Option Bytes := s.entities[id]?

/-- The number of objects. -/
def size (s : EntityStore) : Nat := s.entities.size

/-- Reads the roots of the last committed chunk. -/
def readRoots (s : EntityStore) : Except Error (List ObjectId) :=
  match s.rootList with
  | none => .ok []
  | some bytes => RootList.read bytes

/-- The roots of the last committed chunk, if they can be read. -/
def roots (s : EntityStore) : List ObjectId := s.readRoots.toOption.getD []

theorem roots_eq {s : EntityStore} {roots : List ObjectId} (h : s.readRoots = .ok roots) :
    s.roots = roots := by
  rw [EntityStore.roots, h]
  rfl

/-- The dictionary, if one was ever saved. -/
def dictionary (s : EntityStore) : Except Error (Option Dictionary) :=
  match s.dictionaryFile with
  | none => .ok none
  | some file => (Dictionary.decode file).map some

/-! ## Writing -/

/-- Saves a dictionary in place of the former one. -/
def saveDictionary (s : EntityStore) (d : Dictionary) : EntityStore :=
  { s with dictionaryFile := some ⟨d.encode.toArray⟩ }

/-- Commits a chunk with the counter and, if it is to be replaced, the
dictionary. -/
def commit (chunk : StoredChunk) (next : UInt64) (dictionary : Option Dictionary) :
    Attempt EntityStore Unit :=
  Attempt.modify fun s => do
    let records ← (Chunk.split chunk.bytes).toExcept
    let rootList ← RootList.write chunk.roots
    let next := max next s.next
    return {
      entities := records.foldl (fun es r => es.insert r.object r.encode) s.entities
      rootList := some rootList
      dictionaryFile :=
        match dictionary with
        | some d => some ⟨d.encode.toArray⟩
        | none => s.dictionaryFile
      counter := some next
      next := next
      mirrored := rfl }

theorem start_commit_error {s : EntityStore} {chunk : StoredChunk} {next : UInt64}
    {dictionary : Option Dictionary} {e : Error}
    (h : (Chunk.split chunk.bytes).toExcept = .error e) :
    (commit chunk next dictionary).start s = (.error e, s) := by
  apply Attempt.start_modify_error
  simp only [h]
  rfl

end EntityStore

end ObjectStore
