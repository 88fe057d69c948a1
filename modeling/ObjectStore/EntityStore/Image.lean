import ObjectStore.EntityStore.Tables

/-!
# Store images

Between two runs the tables of an entity store are kept in one file, its
image: a mark that no other kind of file begins with, followed by the counter,
the root list, the dictionary file and the records in compact encoding.
-/

namespace ObjectStore

namespace Codec

/-- Bytes with their number in front. -/
def bytes : Codec Bytes where
  write bs := Varint.write bs.length ++ bs
  read := do return (← Reader.block (← Varint.read Varint.word)).data.toList

/-- The tables of an entity store. -/
def storeTables : Codec StoreTables :=
  (product (product (option word) (option bytes))
      (product (option bytes) (list (product objectId bytes)))).through
    (fun t =>
      ((t.counter, t.rootList),
        (t.dictionaryFile.map fun file => file.data.toList, t.entities.toList)))
    (fun p =>
      { counter := p.1.1
        rootList := p.1.2
        dictionaryFile := p.2.1.map fun file => ⟨file.toArray⟩
        entities := Std.ExtTreeMap.ofList p.2.2 })

end Codec

namespace StoreTables

/-- The mark at the front of every image. -/
def imageMark : Bytes := [0x8F, 0x4F, 0x53, 0x49, 0x0D, 0x0A, 0x1A, 0x01]

/-- The image of the tables of a store. -/
def toImage (t : StoreTables) : Bytes := imageMark ++ Codec.storeTables.write t

/-- The tables of an image. -/
def ofImage? (file : ByteArray) : Option StoreTables :=
  if (file.extract 0 imageMark.length).data.toList = imageMark then
    match Codec.storeTables.read ⟨file, imageMark.length⟩ with
    | .ok (tables, _) => some tables
    | .error _ => none
  else none

end StoreTables

end ObjectStore
