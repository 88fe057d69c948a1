import ObjectStore.EntityStore.Image
import ObjectStore.Proofs.EntityStore.RootList

/-!
# Images of stores

Tables that are kept in a file are read back from it as they were: the
counter, the root list, the dictionary file, and every record. Lengths are written as 64-bit numbers, so the image must be shorter
than the largest of them can say.

## Main results

* `StoreTables.ofImage?_toImage`: an image is read back.
-/

namespace ObjectStore

open Reader Std

/-- A map is told by the list of its entries. -/
theorem StoreTables.ofList_entities (t : StoreTables) :
    ExtTreeMap.ofList t.entities.toList = t.entities := by
  apply ExtTreeMap.ext_getElem?
  intro id
  cases hGet : t.entities[id]? with
  | some bytes =>
      have hEntry := ExtTreeMap.mem_toList_iff_getElem?_eq_some.2 hGet
      exact ExtTreeMap.getElem?_ofList_of_mem ReflCmp.compare_self
        ExtTreeMap.distinct_keys_toList hEntry
  | none =>
      apply ExtTreeMap.getElem?_ofList_of_contains_eq_false
      rw [ExtTreeMap.map_fst_toList_eq_keys, List.contains_eq_mem, decide_eq_false_iff_not,
        ExtTreeMap.mem_keys, ExtTreeMap.mem_iff_isSome_getElem?, hGet]
      simp

namespace Codec

theorem faithful_bytes : bytes.Faithful := by
  intro bs hShort
  have hLength : (bytes.write bs).length = (Varint.write bs.length).length + bs.length :=
    List.length_append
  have hBlock := (yields_block bs).map fun block => block.data.toList
  exact (Varint.yields_word (by omega)).bind hBlock

theorem faithful_storeTables : storeTables.Faithful := by
  have hCounter : (product (option word) (option bytes)).Faithful :=
    faithful_product (faithful_option faithful_word) (faithful_option faithful_bytes)
  have hEntities : (list (product objectId bytes)).Faithful :=
    faithful_list (faithful_product faithful_objectId faithful_bytes)
      (visible_product visible_objectId)
  refine faithful_through
    (faithful_product hCounter (faithful_product (faithful_option faithful_bytes) hEntities)) ?_
  intro t
  have hFile : (t.dictionaryFile.map fun file => file.data.toList).map
      (fun file => (⟨file.toArray⟩ : ByteArray)) = t.dictionaryFile := by
    cases t.dictionaryFile with
    | none => rfl
    | some file => rfl
  simp only [hFile, t.ofList_entities]

end Codec

namespace StoreTables

theorem ofImage?_toImage (t : StoreTables) (hShort : t.toImage.length < Varint.limit) :
    ofImage? ⟨t.toImage.toArray⟩ = some t := by
  have hLength : t.toImage.length = imageMark.length + (Codec.storeTables.write t).length :=
    List.length_append
  have hMark : (ByteArray.extract ⟨t.toImage.toArray⟩ 0 imageMark.length).data.toList =
      imageMark := by
    simp [ByteArray.data_extract, List.extract_eq_take_drop, toImage]
  have hRest : Cursor.rest ⟨⟨t.toImage.toArray⟩, imageMark.length⟩ =
      Codec.storeTables.write t ++ [] := by
    simp [Cursor.rest, toImage]
  obtain ⟨c, hRead, -⟩ := Codec.faithful_storeTables t (by omega) _ [] hRest
  rw [ofImage?, if_pos hMark, hRead]

end StoreTables

end ObjectStore
