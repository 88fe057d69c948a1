import ObjectStore.Proofs.Layout.Derivation
import ObjectStore.Proofs.Record.Values

/-!
# Parts of a content

The content of a record is put together from one part for each member. When
the members are laid out and every fixed part has the length of its kind,
each part stands at the offset of its member, and the part of a variable
member ends the content. Reading a member at its offset gives the value its
part was written from.

All of this needs the content to be shorter than the largest word, for
otherwise offsets saturate.

## Main results

* `Record.stands_of_laidOut`: the parts stand at the offsets of their members.
* `Record.readVariable_of_drop`, `Record.readObjectIds_of_drop`: what ends a
  content is read.
* `Record.Stands.slice`, `Record.Stands.readObjectId`,
  `Record.Stands.readVariable`, `Record.Stands.readObjectIds`: what is read
  from a part.
-/

namespace ObjectStore

namespace Record

variable {r : Record} {m : Member} {part : Bytes}

/-- The part of a member has the length that layout derivation counts with. -/
def Fills (m : Member) (part : Bytes) : Prop :=
  m.kind.isVariable = false → part.length = m.kind.minLength.toNat

/-- The bytes `part` stand in the content at the offset of a member, and at
its end if the member is variable. -/
def Stands (r : Record) (m : Member) (part : Bytes) : Prop :=
  ∃ offset front back, m.offset = some offset ∧ offset.toNat = front.length ∧
    r.content = front ++ (part ++ back) ∧ (m.kind.isVariable = true → back = [])

/-- The parts of laid out members stand at their offsets. -/
theorem stands_of_laidOut {offset : UInt64} {ms : List Member} {parts : List Bytes} {front : Bytes}
    (hFits : r.Fits) (hLaidOut : LaidOut offset ms) (hParts : List.Forall₂ Fills ms parts)
    (hContent : r.content = front ++ parts.flatten) (hOffset : offset.toNat = front.length) :
    List.Forall₂ r.Stands ms parts := by
  induction hLaidOut generalizing parts front with
  | nil offset =>
      cases hParts
      exact List.Forall₂.nil
  | @fixed offset m rest hm hFixed hRest ih =>
      cases hParts with
      | @cons _ part _ parts hPart hRestParts =>
          have hLength := hPart hFixed
          have hWhole : r.content = front ++ (part ++ parts.flatten) := by
            rw [hContent, List.flatten_cons]
          have hSplit : r.content = (front ++ part) ++ parts.flatten := by
            rw [hWhole, List.append_assoc]
          have hSize : (front ++ part).length ≤ Word.max.toNat := by
            have hLe := hFits
            rw [Fits, hSplit, List.length_append] at hLe
            omega
          have hNext : (Word.addSat offset m.kind.minLength).toNat = (front ++ part).length := by
            rw [List.length_append] at hSize ⊢
            rw [Word.toNat_addSat, hOffset, ← hLength]
            omega
          refine List.Forall₂.cons ⟨offset, front, parts.flatten, hm, hOffset, hWhole, ?_⟩
            (ih hRestParts hSplit hNext)
          intro hVariable
          rw [hFixed] at hVariable
          cases hVariable
  | @last offset m hm hVariable =>
      cases hParts with
      | @cons _ part _ parts hPart hRestParts =>
          cases hRestParts
          refine List.Forall₂.cons ⟨offset, front, [], hm, hOffset, ?_, fun _ => rfl⟩
            List.Forall₂.nil
          simpa using hContent

/-! ## Reading -/

theorem Stands.place (h : r.Stands m part) :
    ∃ offset, m.place = .ok offset ∧ m.offset = some offset := by
  obtain ⟨offset, -, -, hOffset, -⟩ := h
  exact ⟨offset, by simp only [Member.place, hOffset], hOffset⟩

variable {offset : UInt64}

theorem Stands.slice (h : r.Stands m part) (hFits : r.Fits) (hOffset : m.offset = some offset) :
    r.slice offset.toNat part.length = .ok part := by
  obtain ⟨offset', front, back, hOffset', hFront, hContent, -⟩ := h
  rw [hOffset] at hOffset'
  cases hOffset'
  have hStop : offset.toNat + part.length ≤ r.content.length := by
    rw [hContent, List.length_append, List.length_append, hFront]
    omega
  have hMax : ¬Word.max.toNat < offset.toNat + part.length := by
    have hLe : r.content.length ≤ Word.max.toNat := hFits
    omega
  have hTake : (r.content.drop offset.toNat).take part.length = part := by
    rw [hContent, hFront, List.drop_left, List.take_left]
  simp only [Record.slice, if_neg hMax, if_pos hStop, hTake]

theorem Stands.readWord {w : UInt64} {rest : Bytes} (h : r.Stands m (Word.ofWord w ++ rest))
    (hFits : r.Fits) (hOffset : m.offset = some offset) : r.readWord offset.toNat = .ok w := by
  obtain ⟨offset', front, back, hOffset', hFront, hContent, -⟩ := h
  rw [hOffset] at hOffset'
  cases hOffset'
  have hLe : r.content.length ≤ Word.max.toNat := hFits
  have hLength := Word.length_ofWord w
  rw [hContent] at hLe
  simp only [List.length_append] at hLe
  rw [Record.readWord, hContent, hFront, List.append_assoc]
  exact wordAt_append front (rest ++ back) (by omega)

theorem Stands.readObjectId {id : ObjectId} (h : r.Stands m (Word.ofWord id.value))
    (hFits : r.Fits) (hOffset : m.offset = some offset) :
    r.readObjectId offset.toNat = .ok id := by
  rw [← List.append_nil (Word.ofWord id.value)] at h
  rw [Record.readObjectId, h.readWord hFits hOffset]
  rfl

/-- Only the part of a variable member stands from its offset on. -/
theorem Stands.drop_eq (h : r.Stands m part) (hVariable : m.kind.isVariable = true)
    (hOffset : m.offset = some offset) : r.content.drop offset.toNat = part := by
  obtain ⟨offset', front, back, hOffset', hFront, hContent, hBack⟩ := h
  rw [hOffset] at hOffset'
  cases hOffset'
  rw [hContent, hBack hVariable, hFront, List.append_nil, List.drop_left]

/-- A payload with its length in front is read if it ends the content. -/
theorem readVariable_of_drop {start : Nat} {payload : Bytes} (hFits : r.Fits)
    (h : r.content.drop start = writeVariable payload) : r.readVariable start = .ok payload := by
  have hLength := congrArg List.length h
  rw [List.length_drop, writeVariable, List.length_append, Word.length_ofWord] at hLength
  have hLe : r.content.length ≤ Word.max.toNat := hFits
  have hMax : Word.max.toNat = 18446744073709551615 := by decide
  have hNat : (UInt64.ofNat payload.length).toNat = payload.length := by
    rw [UInt64.toNat_ofNat']
    exact Nat.mod_eq_of_lt (by omega)
  have hWord : r.readWord start = .ok (UInt64.ofNat payload.length) := by
    have hNot : ¬Word.max.toNat < start + 8 := by omega
    have hTake : (r.content.drop start).take 8 = Word.ofWord (UInt64.ofNat payload.length) := by
      rw [h, writeVariable, List.take_left' (Word.length_ofWord _)]
    rw [readWord, wordAt, if_neg hNot, hTake]
    simp
  have hSlice : r.slice (start + 8) payload.length = .ok payload := by
    have hNot : ¬Word.max.toNat < start + 8 + payload.length := by omega
    have hStop : start + 8 + payload.length ≤ r.content.length := by omega
    have hDrop : r.content.drop (start + 8) = payload := by
      rw [← List.drop_drop, h, writeVariable, List.drop_left' (Word.length_ofWord _)]
    simp only [slice, if_neg hNot, if_pos hStop, hDrop, List.take_length]
  have hEnd : start + 8 + payload.length = r.content.length := by omega
  simp only [readVariable, hWord, bind, Except.bind, hNat, hSlice, hEnd, if_true]
  rfl

/-- Identifiers with their length in front are read if they end the
content. -/
theorem readObjectIds_of_drop {start : Nat} {ids : List ObjectId} (hFits : r.Fits)
    (h : r.content.drop start = writeObjectIds ids) : r.readObjectIds start = .ok ids := by
  rw [writeObjectIds_eq] at h
  have hPayload := readVariable_of_drop hFits h
  have hWhole : (writeIds ids).length % 8 = 0 := by
    rw [length_writeIds]
    omega
  simp only [readObjectIds, hPayload, bind, Except.bind, hWhole, if_true, readIds_writeIds]
  rfl

theorem Stands.readVariable {payload : Bytes} (h : r.Stands m (writeVariable payload))
    (hFits : r.Fits) (hVariable : m.kind.isVariable = true) (hOffset : m.offset = some offset) :
    r.readVariable offset.toNat = .ok payload :=
  readVariable_of_drop hFits (h.drop_eq hVariable hOffset)

theorem Stands.readObjectIds {ids : List ObjectId} (h : r.Stands m (writeObjectIds ids))
    (hFits : r.Fits) (hVariable : m.kind.isVariable = true) (hOffset : m.offset = some offset) :
    r.readObjectIds offset.toNat = .ok ids :=
  readObjectIds_of_drop hFits (h.drop_eq hVariable hOffset)

end Record

end ObjectStore
