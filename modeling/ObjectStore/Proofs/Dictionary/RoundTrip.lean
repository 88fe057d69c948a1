import ObjectStore.Dictionary.File
import ObjectStore.Proofs.Bytes.Truncation
import ObjectStore.Proofs.Registry.Registration

/-!
# Saved dictionaries

A dictionary that is saved is the snapshot of a registry. Its file is read
back as that dictionary, unless it is larger than any file that is read; a
file that is too large is refused, so it is never read as another one. What
stands behind the file makes no difference, but no part of it can be missing.

## Main results

* `Registry.snapshot_ok`: every registry has a snapshot.
* `Dictionary.decode_encode_append`: a dictionary file is read back, whatever
  stands behind it.
* `Dictionary.decode_encode_iff`: the size alone decides whether a dictionary
  that was saved is read back.
* `Dictionary.decode_part`: a part of a dictionary file is refused.
-/

namespace ObjectStore

open Std Reader

/-! ## Snapshots -/

namespace Dictionary

theorem foldlM_register {definitions : List Definition} {d : Dictionary}
    (hNodup : (definitions.map Definition.id).Nodup)
    (hNew : ∀ definition ∈ definitions, d.get? definition.id = none) :
    ∃ d', definitions.foldlM register d = .ok d' ∧
      d'.byId =
        definitions.foldl (fun m definition => m.insert definition.id definition) d.byId := by
  induction definitions generalizing d with
  | nil => exact ⟨d, rfl, rfl⟩
  | cons first rest ih =>
      obtain ⟨hHead, hRest⟩ := List.nodup_cons.1 hNodup
      have hFirst := hNew first List.mem_cons_self
      have hRegister : ∃ d₁, d.register first = .ok d₁ ∧
          d₁.byId = d.byId.insert first.id first := ⟨_, register_of_free hFirst, rfl⟩
      obtain ⟨d₁, hd₁, hById⟩ := hRegister
      obtain ⟨d', hFold, hFinal⟩ := @ih d₁ hRest (by
        intro definition hIn
        have hNe : first.id ≠ definition.id := by
          intro hEq
          exact hHead (List.mem_map.2 ⟨definition, hIn, hEq.symm⟩)
        have hFree := hNew definition (List.mem_cons_of_mem _ hIn)
        rw [get?, hById, ExtTreeMap.getElem?_insert,
          if_neg (fun hCompare => hNe (TypeId.compare_eq_iff.1 hCompare))]
        exact hFree)
      refine ⟨d', ?_, ?_⟩
      · rw [List.foldlM_cons, bind_eq_ok]
        exact ⟨d₁, hd₁, hFold⟩
      · rw [hFinal, hById, List.foldl_cons]

end Dictionary

namespace Registry

variable {ι : Type} {r : Registry ι}

theorem nodup_allDefinitions (h : r.WellFormed) : (r.allDefinitions.map Definition.id).Nodup := by
  have hKeys : r.allDefinitions.map Definition.id = r.definitions.keys := by
    rw [allDefinitions, List.map_map, ← ExtTreeMap.map_fst_toList_eq_keys]
    apply List.map_congr_left
    rintro ⟨id, d⟩ hIn
    exact h.keyed id d (ExtTreeMap.mem_toList_iff_getElem?_eq_some.1 hIn)
  rw [hKeys]
  exact ExtTreeMap.nodup_keys

/-- Every registry has a snapshot, which holds the registered definitions. -/
theorem snapshot_ok (h : r.WellFormed) :
    ∃ d, r.snapshot = .ok d ∧ d.byId = r.definitions := by
  obtain ⟨d, hd, hById⟩ := @Dictionary.foldlM_register r.allDefinitions Dictionary.empty
    (nodup_allDefinitions h) (by simp [Dictionary.get?, Dictionary.empty])
  refine ⟨d, hd, ?_⟩
  rw [hById]
  apply ExtTreeMap.ext_getElem?
  intro id
  rcases getElem?_foldl_insert Definition.id (fun d => d) r.allDefinitions Dictionary.empty.byId id
    with ⟨d', hd', rfl, hGet⟩ | ⟨hOthers, hGet⟩
  · rw [hGet]
    exact ((mem_allDefinitions h).1 hd').symm
  · rw [hGet]
    cases hKnown : r.definitions[id]? with
    | none => simp [Dictionary.empty]
    | some d' =>
        have hId := h.keyed id d' hKnown
        rw [← hId] at hKnown
        exact absurd hId (hOthers d' ((mem_allDefinitions h).2 hKnown))

/-- A snapshot is the dictionary of its own definitions. -/
theorem ofList_snapshot {d : Dictionary} (hSnapshot : r.snapshot = .ok d)
    (hById : d.byId = r.definitions) : Dictionary.ofList d.definitions = .ok d := by
  have hSame : d.definitions = r.allDefinitions := by
    rw [Dictionary.definitions, hById]
    rfl
  rw [hSame]
  exact hSnapshot

end Registry

/-! ## The parts of a file -/

namespace Codec

theorem faithful_fieldKind : fieldKind.Faithful := by
  intro kind hShort
  cases kind with
  | primitive k =>
      have hLength : (fieldKind.write (.primitive k)).length =
          (Varint.write 0).length + ((choice PrimitiveKind.all).write k).length :=
        List.length_append
      have hChoice := faithful_choice PrimitiveKind.mem_all (by decide) k (by omega)
      exact (Varint.yields_alternative (by decide)).bind (hChoice.map FieldKind.primitive)
  | reference => exact (Varint.yields_alternative (by decide)).followedBy (yields_pure _)
  | bytes => exact (Varint.yields_alternative (by decide)).followedBy (yields_pure _)
  | text => exact (Varint.yields_alternative (by decide)).followedBy (yields_pure _)
  | referenceList => exact (Varint.yields_alternative (by decide)).followedBy (yields_pure _)

theorem faithful_memberId : memberId.Faithful :=
  faithful_through (faithful_product (faithful_option faithful_text) faithful_text) fun _ => rfl

theorem visible_option {α : Type} (codec : Codec α) : (option codec).Visible := by
  intro a
  cases a <;> exact List.cons_ne_nil _ _

theorem faithful_member : member.Faithful :=
  faithful_through
    (faithful_product faithful_memberId (faithful_product faithful_fieldKind
      (faithful_product faithful_text (faithful_option faithful_word)))) fun _ => rfl

theorem visible_through {α β : Type} {codec : Codec β} (forth : α → β) (back : β → α)
    (h : codec.Visible) : (codec.through forth back).Visible := fun a => h (forth a)

theorem visible_member : member.Visible :=
  visible_through _ _
    (visible_product (visible_through _ _ (visible_product (visible_option text))))

theorem faithful_description : description.Faithful :=
  faithful_through
    (faithful_product faithful_word (faithful_product faithful_text
      (faithful_product (faithful_option faithful_text)
        (faithful_list faithful_member visible_member)))) fun _ => rfl

theorem visible_description : description.Visible :=
  visible_through _ _ (visible_product visible_word)

theorem sealed_fieldKind : fieldKind.Sealed := by
  intro kind
  cases kind with
  | primitive k =>
      exact (Varint.needs_write Varint.alternative 0).bind
        (fun _ => Varint.yields_alternative (by decide)) ((sealed_choice _ k).followedBy _)
  | reference => exact (Varint.needs_write Varint.alternative 1).followedBy _
  | bytes => exact (Varint.needs_write Varint.alternative 2).followedBy _
  | text => exact (Varint.needs_write Varint.alternative 3).followedBy _
  | referenceList => exact (Varint.needs_write Varint.alternative 4).followedBy _

theorem sealed_memberId : memberId.Sealed :=
  sealed_through _ _
    (sealed_product (faithful_option faithful_text) (sealed_option sealed_text) sealed_text)

theorem sealed_member : member.Sealed :=
  sealed_through _ _
    (sealed_product faithful_memberId sealed_memberId
      (sealed_product faithful_fieldKind sealed_fieldKind
        (sealed_product faithful_text sealed_text (sealed_option sealed_word))))

theorem sealed_description : description.Sealed :=
  sealed_through _ _
    (sealed_product faithful_word sealed_word
      (sealed_product faithful_text sealed_text
        (sealed_product (faithful_option faithful_text) (sealed_option sealed_text)
          (sealed_list faithful_member sealed_member))))

end Codec

/-! ## Whole files -/

namespace Dictionary

variable {d d' : Dictionary}

theorem mapM_toDefinition (definitions : List Definition) :
    (definitions.map Description.ofDefinition).mapM Description.toDefinition = .ok definitions := by
  induction definitions with
  | nil => rfl
  | cons first rest ih =>
      rw [List.map_cons, List.mapM_cons]
      refine bind_eq_ok.2 ⟨first, first.make_members, ?_⟩
      exact bind_eq_ok.2 ⟨rest, ih, rfl⟩

theorem decode_of_short {file : ByteArray} (h : file.size < FileHeader.size) :
    decode file = .error (.deserialization .tooShort) := by
  unfold decode
  rw [if_pos h]
  rfl

theorem decode_of_large {file : ByteArray} (h : maxFileSize < file.size) :
    decode file = .error (.deserialization (.tooLarge file.size maxFileSize)) := by
  have hMaxSize : maxFileSize = 67108864 := rfl
  have hHeaderSize : FileHeader.size = 5 := rfl
  have hLong : ¬file.size < FileHeader.size := by omega
  unfold decode
  simp only [hLong, h, if_true, if_false]
  rfl

/-- Behind the right header, the payload decides. -/
theorem decode_payload {payload : Bytes} (hSize : FileHeader.size + payload.length ≤ maxFileSize) :
    ∃ c : Cursor, c.rest = payload ∧
      decode ⟨(FileHeader.current.write ++ payload).toArray⟩ =
        match (Codec.list Codec.description).read c with
        | .ok (descriptions, _) => ofDescriptions descriptions
        | .error fault => .error (.deserialization (.payload fault)) := by
  have hHeader : FileHeader.current.write.length = FileHeader.size := rfl
  have hFile : (⟨(FileHeader.current.write ++ payload).toArray⟩ : ByteArray).size =
      FileHeader.size + payload.length := List.length_append
  have hFront : ((⟨(FileHeader.current.write ++ payload).toArray⟩ : ByteArray).extract 0
      FileHeader.size).data.toList = FileHeader.current.write := by
    have hTake : (FileHeader.current.write ++ payload).take FileHeader.size =
        FileHeader.current.write := by
      rw [← hHeader]
      exact List.take_left
    simp [ByteArray.data_extract, hTake]
  refine ⟨⟨⟨(FileHeader.current.write ++ payload).toArray⟩, FileHeader.size⟩, ?_, ?_⟩
  · show (FileHeader.current.write ++ payload).toArray.toList.drop FileHeader.size = _
    rw [List.toList_toArray, ← hHeader]
    exact List.drop_left
  · have hLong : ¬FileHeader.size + payload.length < FileHeader.size := by omega
    have hSmall : ¬maxFileSize < FileHeader.size + payload.length := by omega
    unfold decode
    simp only [hFile, hLong, hSmall, if_false]
    rw [hFront]
    rfl

/-- What is read comes from the descriptions in the file. -/
theorem decode_ok {file : ByteArray} (h : decode file = .ok d) :
    ∃ descriptions, ofDescriptions descriptions = .ok d := by
  by_cases hShort : file.size < FileHeader.size
  · rw [decode_of_short hShort] at h
    cases h
  by_cases hLarge : maxFileSize < file.size
  · rw [decode_of_large hLarge] at h
    cases h
  unfold decode at h
  simp only [hShort, hLarge, if_false] at h
  obtain ⟨header, -, h⟩ := bind_eq_ok.1 h
  obtain ⟨_, -, h⟩ := bind_eq_ok.1 h
  split at h
  · rename_i descriptions _ _
    exact ⟨descriptions, h⟩
  · cases h

theorem length_encode : d.encode.length =
    FileHeader.size + ((Codec.list Codec.description).write d.descriptions).length :=
  List.length_append

theorem limit_gt_maxFileSize : maxFileSize < Varint.limit := by decide

/-- A dictionary file is read back, whatever stands behind it. -/
theorem decode_encode_append (hList : ofList d.definitions = .ok d) {tail : Bytes}
    (hSize : d.encode.length + tail.length ≤ maxFileSize) :
    decode ⟨(d.encode ++ tail).toArray⟩ = .ok d := by
  have hLimit := limit_gt_maxFileSize
  rw [length_encode] at hSize
  obtain ⟨c, hRest, hDecode⟩ :=
    @decode_payload ((Codec.list Codec.description).write d.descriptions ++ tail) (by
      rw [List.length_append]
      omega)
  obtain ⟨c', hRead, -⟩ := Codec.faithful_list Codec.faithful_description Codec.visible_description
    d.descriptions (by omega) c tail hRest
  rw [encode, List.append_assoc, hDecode]
  simp only [hRead]
  exact bind_eq_ok.2 ⟨d.definitions, mapM_toDefinition d.definitions, hList⟩

/-- A dictionary file is read back. -/
theorem decode_encode (hList : ofList d.definitions = .ok d)
    (hSize : d.encode.length ≤ maxFileSize) : decode ⟨d.encode.toArray⟩ = .ok d := by
  have hDecode := @decode_encode_append d hList [] hSize
  rwa [List.append_nil] at hDecode

/-- Writing has no limit of its own, so a dictionary may be saved that is
never read again. -/
theorem decode_encode_of_large (hSize : maxFileSize < d.encode.length) :
    decode ⟨d.encode.toArray⟩ =
      .error (.deserialization (.tooLarge d.encode.length maxFileSize)) := decode_of_large hSize

theorem decode_encode_iff (hList : ofList d.definitions = .ok d) :
    decode ⟨d.encode.toArray⟩ = .ok d ↔ d.encode.length ≤ maxFileSize := by
  refine ⟨?_, decode_encode hList⟩
  intro h
  by_contra hSize
  rw [decode_encode_of_large (Nat.lt_of_not_le hSize)] at h
  cases h

/-- The file of a dictionary is never read as another one. -/
theorem decode_encode_eq (hList : ofList d.definitions = .ok d)
    (h : decode ⟨d.encode.toArray⟩ = .ok d') : d' = d := by
  by_cases hSize : d.encode.length ≤ maxFileSize
  · rw [decode_encode hList hSize] at h
    exact (Except.ok.inj h).symm
  · rw [decode_encode_of_large (Nat.lt_of_not_le hSize)] at h
    cases h

/-- A part of a dictionary file is refused, however large the file is. -/
theorem decode_part {front missing : Bytes} (hEncode : d.encode = front ++ missing)
    (hMissing : missing ≠ []) : ∃ fault, decode ⟨front.toArray⟩ = .error (.deserialization fault) := by
  by_cases hShort : front.length < FileHeader.size
  · exact ⟨_, decode_of_short hShort⟩
  by_cases hLarge : maxFileSize < front.length
  · exact ⟨_, decode_of_large hLarge⟩
  have hHeader : FileHeader.current.write.length = FileHeader.size := rfl
  have hLimit := limit_gt_maxFileSize
  obtain ⟨payload, rfl⟩ : FileHeader.current.write <+: front :=
    List.prefix_of_prefix_length_le ⟨_, rfl⟩ ⟨missing, hEncode.symm⟩ (by omega)
  have hPayload : (Codec.list Codec.description).write d.descriptions = payload ++ missing := by
    rw [encode, List.append_assoc] at hEncode
    exact List.append_cancel_left hEncode
  rw [List.length_append] at hLarge
  obtain ⟨c, hRest, hDecode⟩ := @decode_payload payload (by omega)
  obtain ⟨fault, hFault⟩ := Codec.sealed_list Codec.faithful_description Codec.sealed_description
    d.descriptions payload missing hPayload hMissing (by omega) c hRest
  rw [hDecode, hFault]
  exact ⟨_, rfl⟩

end Dictionary

end ObjectStore
