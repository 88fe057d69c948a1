import ObjectStore.Bytes.Codec

/-!
# The tables of an entity store

On disk an entity store is three tables: the records by object, the metadata,
and the counter for object identifiers. The metadata are the root list and
the dictionary, each in a written form of its own. Nothing of this needs to
be there: in a new store no table has an entry.

What the tables do with what is put into them is not the concern of this
library. They change as a whole or not at all, and give back what was put
into them last.
-/

namespace ObjectStore

open Std

/-- An object identifier in compact encoding. -/
def Codec.objectId : Codec ObjectId := word.through ObjectId.value ObjectId.mk

/-! ## Root lists -/

namespace RootList

/-- The compact encoding of a root list. -/
def codec : Codec (List ObjectId) := Codec.list Codec.objectId

/-- The written form has a length that a 64-bit number can say. -/
def Fits (roots : List ObjectId) : Prop := (codec.write roots).length < Varint.limit

instance (roots : List ObjectId) : Decidable (Fits roots) := inferInstanceAs (Decidable (_ < _))

/-- Writes a root list. -/
def write (roots : List ObjectId) : Except Error Bytes :=
  if Fits roots then .ok (codec.write roots)
  else .error (.serialization "The serialize buffer is full")

/-- Reads a root list. Bytes behind it are ignored. -/
def read (bytes : Bytes) : Except Error (List ObjectId) :=
  match codec.read (Cursor.start ⟨bytes.toArray⟩) with
  | .ok (roots, _) => .ok roots
  | .error fault => .error (.deserialization (.rootList fault))

end RootList

/-! ## Tables -/

/-- What an entity store keeps on disk. -/
structure StoreTables where
  /-- The bytes of the last record of every object. -/
  entities : ExtTreeMap ObjectId Bytes
  /-- The written form of the root list, if a chunk was ever committed. -/
  rootList : Option Bytes
  /-- The dictionary file, if a dictionary was ever saved. -/
  dictionaryFile : Option ByteArray
  /-- The counter for object identifiers, if a chunk was ever committed. -/
  counter : Option UInt64
deriving Inhabited

namespace StoreTables

/-- The tables of a store in which nothing was ever committed. -/
def empty : StoreTables := ⟨∅, none, none, none⟩

/-- The next object identifier that is free, according to the tables. -/
def nextId (t : StoreTables) : UInt64 := t.counter.getD ObjectId.first.value

end StoreTables

end ObjectStore
