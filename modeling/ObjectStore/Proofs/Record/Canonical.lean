import ObjectStore.Proofs.Record.Lengths

/-!
# The only content with given members

What is read from a member is all that stands there: no two contents give the
same value, and no byte of a content is left over. A length prefix counts the
bytes behind it, a reference list is made of whole identifiers, and a content
whose length a definition accepts ends where its last member does.

So a record that a definition accepts is put together from the written forms
of what is read from it.

## Main results

* `Record.readVariable_eq_ok`, `Record.readObjectIds_eq_ok`: what is read from
  a variable member is its written form.
* `Record.stands_of_slice`, `Record.stands_of_readObjectId`,
  `Record.stands_of_readVariable`, `Record.stands_of_readObjectIds`: the
  written form of what is read stands at the offset of its member.
* `Definition.content_of_stands`: an accepted content consists of what stands
  at the offsets of the members.
-/

namespace ObjectStore

/-! ## Object identifiers -/

/-- Bytes that are whole identifiers are the written form of these. -/
theorem writeIds_readIds {payload : Bytes} (h : payload.length % 8 = 0) :
    writeIds (readIds payload) = payload := by
  fun_induction readIds payload with
  | case1 a b c d e f g i rest ih =>
      have hRest : rest.length % 8 = 0 := by
        simp only [List.length_cons] at h
        omega
      have hWord := @Word.ofWord_toWord [a, b, c, d, e, f, g, i] rfl
      show Word.ofWord (Word.toWord [a, b, c, d, e, f, g, i]) ++ writeIds (readIds rest) = _
      rw [hWord, ih hRest]
      rfl
  | case2 payload hShort =>
      -- Fewer than eight bytes are whole identifiers only if there are none.
      match payload, hShort, h with
      | [], _, _ => rfl
      | [_], _, h | [_, _], _, h | [_, _, _], _, h | [_, _, _, _], _, h | [_, _, _, _, _], _, h
      | [_, _, _, _, _, _], _, h | [_, _, _, _, _, _, _], _, h => simp at h
      | a :: b :: c :: d :: e :: f :: g :: i :: rest, hShort, _ =>
          exact absurd rfl (hShort a b c d e f g i rest)

namespace Record

variable {r : Record} {m : Member} {place : Nat} {offset : UInt64}

/-! ## Variable members -/

theorem drop_of_readVariable {payload : Bytes} (h : r.readVariable place = .ok payload) :
    r.content.drop place = writeVariable payload := by
  obtain ⟨length, hWord, h⟩ := bind_eq_ok.1 h
  obtain ⟨payload', hSlice, h⟩ := bind_eq_ok.1 h
  split at h
  · rename_i hEnd
    cases h
    have hPayload : payload = r.content.drop (place + 8) := by
      unfold slice at hSlice
      simp only at hSlice
      split at hSlice
      · cases hSlice
      · split at hSlice
        · cases hSlice
          apply List.take_of_length_le
          rw [List.length_drop]
          omega
        · cases hSlice
    have hCount : UInt64.ofNat payload.length = length := by
      have hLength : payload.length = length.toNat := by
        rw [hPayload, List.length_drop]
        omega
      rw [hLength, UInt64.ofNat_toNat]
    rw [writeVariable, hCount, ofWord_of_wordAt hWord, hPayload, ← List.drop_drop,
      List.take_append_drop]
  · cases h

/-- What is read as a payload is its written form. -/
theorem readVariable_eq_ok (hFits : r.Fits) {payload : Bytes} :
    r.readVariable place = .ok payload ↔ r.content.drop place = writeVariable payload :=
  ⟨drop_of_readVariable, readVariable_of_drop hFits⟩

theorem drop_of_readObjectIds {ids : List ObjectId} (h : r.readObjectIds place = .ok ids) :
    r.content.drop place = writeObjectIds ids := by
  obtain ⟨payload, hRead, h⟩ := bind_eq_ok.1 h
  split at h
  · rename_i hWhole
    cases h
    rw [drop_of_readVariable hRead, writeObjectIds_eq, writeIds_readIds hWhole]
  · cases h

/-- What is read as a list of identifiers is its written form. -/
theorem readObjectIds_eq_ok (hFits : r.Fits) {ids : List ObjectId} :
    r.readObjectIds place = .ok ids ↔ r.content.drop place = writeObjectIds ids :=
  ⟨drop_of_readObjectIds, readObjectIds_of_drop hFits⟩

/-! ## What stands at an offset -/

theorem stands_of_take {part : Bytes} (hOffset : m.offset = some offset)
    (hRoom : offset.toNat + part.length ≤ r.content.length)
    (hPart : (r.content.drop offset.toNat).take part.length = part)
    (hLast : m.kind.isVariable = true → offset.toNat + part.length = r.content.length) :
    r.Stands m part := by
  refine ⟨offset, r.content.take offset.toNat, r.content.drop (offset.toNat + part.length),
    hOffset, ?_, ?_, ?_⟩
  · rw [List.length_take]
    omega
  · have hBehind : part ++ r.content.drop (offset.toNat + part.length) =
        r.content.drop offset.toNat := by
      calc part ++ r.content.drop (offset.toNat + part.length)
          = (r.content.drop offset.toNat).take part.length ++
              (r.content.drop offset.toNat).drop part.length := by rw [hPart, List.drop_drop]
        _ = r.content.drop offset.toNat := List.take_append_drop _ _
    rw [hBehind, List.take_append_drop]
  · intro hVariable
    exact List.drop_of_length_le (Nat.le_of_eq (hLast hVariable).symm)

/-- What ends a content stands there. -/
theorem stands_of_drop {part : Bytes} (hOffset : m.offset = some offset) (hNot : part ≠ [])
    (hPart : r.content.drop offset.toNat = part) : r.Stands m part := by
  have hPos := List.length_pos_iff.2 hNot
  have hLength := congrArg List.length hPart
  rw [List.length_drop] at hLength
  refine stands_of_take hOffset (by omega) ?_ (fun _ => by omega)
  rw [hPart, List.take_length]

theorem stands_of_slice {length : Nat} {bytes : Bytes} (hFixed : m.kind.isVariable = false)
    (hOffset : m.offset = some offset) (h : r.slice offset.toNat length = .ok bytes) :
    r.Stands m bytes := by
  unfold slice at h
  simp only at h
  split at h
  · cases h
  · split at h
    · rename_i hStop
      cases h
      have hLength : ((r.content.drop offset.toNat).take length).length = length := by
        rw [List.length_take, List.length_drop]
        omega
      refine stands_of_take hOffset (by omega) (by rw [hLength]) ?_
      intro hVariable
      rw [hFixed] at hVariable
      cases hVariable
    · cases h

theorem stands_of_readObjectId {id : ObjectId} (hFixed : m.kind.isVariable = false)
    (hOffset : m.offset = some offset) (h : r.readObjectId offset.toNat = .ok id) :
    r.Stands m (Word.ofWord id.value) := by
  obtain ⟨w, hWord, rfl⟩ := map_eq_ok.1 h
  have hTake := ofWord_of_wordAt hWord
  have hLength := congrArg List.length hTake
  rw [Word.length_ofWord, List.length_take, List.length_drop] at hLength
  refine stands_of_take hOffset ?_ ?_ ?_
  · rw [Word.length_ofWord]
    omega
  · rw [Word.length_ofWord, hTake]
  · intro hVariable
    rw [hFixed] at hVariable
    cases hVariable

theorem stands_of_readVariable {payload : Bytes} (hOffset : m.offset = some offset)
    (h : r.readVariable offset.toNat = .ok payload) : r.Stands m (writeVariable payload) := by
  refine stands_of_drop hOffset ?_ (drop_of_readVariable h)
  intro hNil
  have hLength := congrArg List.length hNil
  simp [writeVariable] at hLength

theorem stands_of_readObjectIds {ids : List ObjectId} (hOffset : m.offset = some offset)
    (h : r.readObjectIds offset.toNat = .ok ids) : r.Stands m (writeObjectIds ids) := by
  refine stands_of_drop hOffset ?_ (drop_of_readObjectIds h)
  intro hNil
  have hLength := congrArg List.length hNil
  simp [writeObjectIds] at hLength

/-! ## Whole contents -/

/-- What stands at the offsets of laid out members is the content behind the
first of them, if there is not more than the members have room for. -/
theorem drop_of_stands {start : UInt64} {ms : List Member} {parts : List Bytes} (hFits : r.Fits)
    (hLaidOut : LaidOut start ms) (hFills : List.Forall₂ Fills ms parts)
    (hStands : List.Forall₂ r.Stands ms parts) (hInside : start.toNat ≤ r.content.length)
    (hEnd : r.content.length ≤ start.toNat + (ms.map fun m => m.kind.maxLength.toNat).sum) :
    r.content.drop start.toNat = parts.flatten := by
  induction hLaidOut generalizing parts with
  | nil start =>
      cases hFills
      exact List.drop_of_length_le (by simpa using hEnd)
  | @fixed start m rest hm hFixed hRest ih =>
      cases hFills with
      | @cons _ part _ parts hPart hFillsRest =>
          cases hStands with
          | cons hHead hStandsRest =>
              obtain ⟨offset, front, back, hOffset, hFront, hContent, -⟩ := hHead
              rw [hm] at hOffset
              cases hOffset
              have hLength := hPart hFixed
              have hTotal := congrArg List.length hContent
              rw [List.length_append, List.length_append, ← hFront] at hTotal
              have hLe : r.content.length ≤ Word.max.toNat := hFits
              have hNext : (Word.addSat start m.kind.minLength).toNat =
                  start.toNat + part.length := by
                rw [Word.toNat_addSat, ← hLength]
                omega
              have hMost : m.kind.maxLength.toNat = part.length := by
                rw [FieldKind.toNat_maxLength, hFixed, hLength]
                rfl
              rw [List.map_cons, List.sum_cons, hMost] at hEnd
              have hBehind := ih hFillsRest hStandsRest (by omega) (by omega)
              have hDrop : r.content.drop start.toNat = part ++ back := by
                rw [hContent, hFront, List.drop_left]
              rw [hNext, ← List.drop_drop, hDrop, List.drop_left] at hBehind
              rw [hDrop, hBehind, List.flatten_cons]
  | @last start m hm hVariable =>
      cases hStands with
      | @cons _ part _ parts hHead hNone =>
          cases hNone
          rw [hHead.drop_eq hVariable hm, List.flatten_cons, List.flatten_nil, List.append_nil]

end Record

/-- A content whose length a definition accepts consists of what stands at
the offsets of the members. -/
theorem Definition.content_of_stands {d : Definition} {r : Record} {parts : List Bytes}
    (hFits : r.Fits) (hLength : d.acceptsLength r.length = true)
    (hFills : List.Forall₂ Record.Fills d.members parts)
    (hStands : List.Forall₂ r.Stands d.members parts) : r.content = parts.flatten := by
  have hMost : r.content.length ≤ (d.members.map fun m => m.kind.maxLength.toNat).sum := by
    simp only [acceptsLength, Bool.and_eq_true, decide_eq_true_eq, UInt64.le_iff_toNat_le,
      toNat_maxLength, Record.toNat_length hFits] at hLength
    omega
  have hDrop := Record.drop_of_stands hFits d.laidOut_members.1 hFills hStands (Nat.zero_le _)
    (by rw [UInt64.toNat_zero, Nat.zero_add]; exact hMost)
  exact hDrop

end ObjectStore
