import ObjectStore.Proofs.Record.Canonical

/-!
# Reads of variable members

Whatever the offset is, a variable member is read from it exactly if its
written form ends the content there. Everything else is a fault, and which one
is told by the bytes at the offset: there is no whole length, the length leads
beyond the content or beyond all words, bytes are left over behind the
payload, or the payload of a list is not made of whole identifiers. So there
is nothing that a reader accepts and no writer writes, and each content that
is refused has a fault that can be named.

## Main results

* `Record.Misread.readVariable`, `Record.written_or_misread`: a content that
  is not written as a payload has one of the faults, with which it is refused.
* `Record.reads_exact`: what is read at an offset, and how a read fails.
-/

namespace ObjectStore

namespace Record

variable {r : Record} {place : Nat} {w : UInt64} {cause : Corruption}

/-- A record that was read from bytes has a length that is a word. -/
theorem fits_of_parse {bytes : Bytes} (h : parse bytes = .ok r) : r.Fits := by
  obtain ⟨header, -, h⟩ := bind_eq_ok.1 h
  dsimp only at h
  split at h
  · rename_i hLength
    cases h
    have hLess := UInt64.toNat_lt header.length
    have hMax : Word.max.toNat = 18446744073709551615 := by decide
    show (bytes.drop Header.size).length ≤ Word.max.toNat
    omega
  · cases h

/-! ## Lengths and payloads -/

/-- The word stands in front of what follows the offset. -/
def Announces (r : Record) (place : Nat) (w : UInt64) : Prop :=
  (r.content.drop place).take 8 = Word.ofWord w

instance : Decidable (r.Announces place w) :=
  inferInstanceAs (Decidable ((r.content.drop place).take 8 = Word.ofWord w))

theorem Announces.room (h : r.Announces place w) : place + 8 ≤ r.content.length := by
  have hLength := congrArg List.length h
  rw [Word.length_ofWord, List.length_take, List.length_drop] at hLength
  omega

/-- Eight bytes are a word. -/
theorem exists_announces (hRoom : place + 8 ≤ r.content.length) : ∃ w, r.Announces place w := by
  have hWhole : ((r.content.drop place).take 8).length = 8 := by
    rw [List.length_take, List.length_drop]
    omega
  exact ⟨_, (Word.ofWord_toWord hWhole).symm⟩

theorem readWord_eq_ok (hFits : r.Fits) : r.readWord place = .ok w ↔ r.Announces place w := by
  constructor
  · intro h
    exact (ofWord_of_wordAt h).symm
  · intro h
    have hLe : r.content.length ≤ Word.max.toNat := hFits
    have hNot : ¬Word.max.toNat < place + 8 := by
      have hRoom := h.room
      omega
    have hTake : (r.content.drop place).take 8 = Word.ofWord w := h
    rw [readWord, wordAt, if_neg hNot, hTake]
    simp

/-- What is announced is there, and nothing behind it. -/
theorem Announces.written (h : r.Announces place w)
    (hEnd : place + 8 + w.toNat = r.content.length) :
    r.content.drop place = writeVariable (r.content.drop (place + 8)) := by
  have hCount : UInt64.ofNat (r.content.drop (place + 8)).length = w := by
    have hLength : (r.content.drop (place + 8)).length = w.toNat := by
      rw [List.length_drop]
      omega
    rw [hLength, UInt64.ofNat_toNat]
  rw [writeVariable, hCount, ← h, ← List.drop_drop, List.take_append_drop]

/-- A written payload stands inside the content. -/
theorem inside_of_written {payload : Bytes}
    (h : r.content.drop place = writeVariable payload) : place ≤ r.content.length := by
  have hLength := congrArg List.length h
  rw [writeVariable, List.length_append, Word.length_ofWord, List.length_drop] at hLength
  omega

/-! ## Faults -/

/-- Why no payload can be read at an offset. -/
inductive Misread (r : Record) (place : Nat) : Corruption → Prop where
  /-- The length would stand beyond all words. -/
  | unplaced : Word.max.toNat < place + 8 → Misread r place .offsetOverflow
  /-- There is no whole length. -/
  | noLength : place + 8 ≤ Word.max.toNat → r.content.length < place + 8 →
      Misread r place (.wordOutOfBounds place)
  /-- The payload would end beyond all words. -/
  | unending {w : UInt64} : r.Announces place w → Word.max.toNat < place + 8 + w.toNat →
      Misread r place .offsetOverflow
  /-- The payload would end beyond the content. -/
  | short {w : UInt64} : r.Announces place w → place + 8 + w.toNat ≤ Word.max.toNat →
      r.content.length < place + 8 + w.toNat →
        Misread r place
          (.rangeOutOfBounds (place + 8) (place + 8 + w.toNat) r.object r.content.length)
  /-- There is more behind the payload. -/
  | long {w : UInt64} : r.Announces place w → place + 8 + w.toNat < r.content.length →
      Misread r place (.trailingBytes r.object)

/-- Why no list of identifiers can be read at an offset. -/
inductive MisreadIds (r : Record) (place : Nat) : Corruption → Prop where
  | payload {cause : Corruption} : Misread r place cause → MisreadIds r place cause
  /-- The last identifier is not whole. -/
  | ragged {payload : Bytes} : r.content.drop place = writeVariable payload →
      payload.length % 8 ≠ 0 → MisreadIds r place (.raggedReferenceList r.object payload.length)

/-- A fault is what the read fails with. -/
theorem Misread.readVariable (hFits : r.Fits) (h : r.Misread place cause) :
    r.readVariable place = .error cause := by
  have hLe : r.content.length ≤ Word.max.toNat := hFits
  have hRead : ∀ w, r.Announces place w → r.readVariable place =
      r.slice (place + 8) w.toNat >>= fun payload =>
        if place + 8 + w.toNat = r.content.length then pure payload
        else throw (.trailingBytes r.object) := by
    intro w hWord
    rw [Record.readVariable, (readWord_eq_ok hFits).2 hWord]
    rfl
  cases h with
  | unplaced hPlace =>
      rw [Record.readVariable, readWord, wordAt, if_pos hPlace]
      rfl
  | noLength hPlace hShort =>
      have hTake : ((r.content.drop place).take 8).length ≠ 8 := by
        rw [List.length_take, List.length_drop]
        omega
      simp only [Record.readVariable, readWord, wordAt, if_neg (Nat.not_lt.2 hPlace), if_neg hTake]
      rfl
  | @unending w hWord hMax =>
      rw [hRead w hWord, slice]
      simp only [if_pos hMax]
      rfl
  | @short w hWord hMax hShort =>
      rw [hRead w hWord, slice]
      simp only [if_neg (Nat.not_lt.2 hMax), if_neg (Nat.not_le.2 hShort)]
      rfl
  | @long w hWord hLong =>
      rw [hRead w hWord, slice]
      have hMax : ¬Word.max.toNat < place + 8 + w.toNat := by omega
      simp only [if_neg hMax, if_pos (Nat.le_of_lt hLong), if_neg (Nat.ne_of_lt hLong)]
      rfl

theorem MisreadIds.readObjectIds (hFits : r.Fits) (h : r.MisreadIds place cause) :
    r.readObjectIds place = .error cause := by
  cases h with
  | payload hPayload =>
      rw [Record.readObjectIds, hPayload.readVariable hFits]
      rfl
  | @ragged payload hWritten hRagged =>
      rw [Record.readObjectIds, readVariable_of_drop hFits hWritten]
      simp only [bind, Except.bind, if_neg hRagged]
      rfl

/-- What follows an offset is a payload that ends the content, or there is a
fault. -/
theorem written_or_misread (r : Record) (place : Nat) :
    (∃ payload, r.content.drop place = writeVariable payload) ∨
      ∃ cause, r.Misread place cause := by
  by_cases hPlace : Word.max.toNat < place + 8
  · exact Or.inr ⟨_, .unplaced hPlace⟩
  by_cases hRoom : place + 8 ≤ r.content.length
  · obtain ⟨w, hAnnounced⟩ := exists_announces hRoom
    rcases Nat.lt_trichotomy (place + 8 + w.toNat) r.content.length with hLong | hEnd | hShort
    · exact Or.inr ⟨_, .long hAnnounced hLong⟩
    · exact Or.inl ⟨_, hAnnounced.written hEnd⟩
    · by_cases hMax : Word.max.toNat < place + 8 + w.toNat
      · exact Or.inr ⟨_, .unending hAnnounced hMax⟩
      · exact Or.inr ⟨_, .short hAnnounced (Nat.le_of_not_lt hMax) hShort⟩
  · exact Or.inr ⟨_, .noLength (Nat.le_of_not_lt hPlace) (Nat.lt_of_not_le hRoom)⟩

theorem ids_or_misread (r : Record) (place : Nat) :
    (∃ ids, r.content.drop place = writeObjectIds ids) ∨ ∃ cause, r.MisreadIds place cause := by
  rcases written_or_misread r place with ⟨payload, hWritten⟩ | ⟨cause, hMisread⟩
  · by_cases hWhole : payload.length % 8 = 0
    · refine Or.inl ⟨readIds payload, ?_⟩
      rw [hWritten, writeObjectIds_eq, writeIds_readIds hWhole]
    · exact Or.inr ⟨_, .ragged hWritten hWhole⟩
  · exact Or.inr ⟨cause, .payload hMisread⟩

/-! ## Exactness -/

/-- A payload is at an offset exactly if it ends the content there with its
length in front, and then it is read. Otherwise there is a fault, and it is the
one with which the read fails. The same holds of lists of identifiers. -/
theorem reads_exact {bytes : Bytes} (hParse : parse bytes = .ok r) (offset : UInt64) :
    (∀ payload, r.readVariable offset.toNat = .ok payload ↔
      offset.toNat ≤ r.content.length ∧ r.content.drop offset.toNat = writeVariable payload) ∧
    (∀ cause, r.readVariable offset.toNat = .error cause ↔ r.Misread offset.toNat cause) ∧
    (∀ ids, r.readObjectIds offset.toNat = .ok ids ↔
      offset.toNat ≤ r.content.length ∧ r.content.drop offset.toNat = writeObjectIds ids) ∧
    (∀ cause, r.readObjectIds offset.toNat = .error cause ↔
      r.MisreadIds offset.toNat cause) := by
  have hFits := fits_of_parse hParse
  refine ⟨fun payload => ⟨fun h => ?_, fun h => readVariable_of_drop hFits h.2⟩,
    fun cause => ⟨fun h => ?_, fun h => h.readVariable hFits⟩,
    fun ids => ⟨fun h => ?_, fun h => readObjectIds_of_drop hFits h.2⟩,
    fun cause => ⟨fun h => ?_, fun h => h.readObjectIds hFits⟩⟩
  · have hWritten := drop_of_readVariable h
    exact ⟨inside_of_written hWritten, hWritten⟩
  · rcases written_or_misread r offset.toNat with ⟨payload, hWritten⟩ | ⟨cause', hMisread⟩
    · rw [readVariable_of_drop hFits hWritten] at h
      cases h
    · rw [hMisread.readVariable hFits] at h
      cases h
      exact hMisread
  · have hWritten := drop_of_readObjectIds h
    exact ⟨inside_of_written (hWritten.trans (writeObjectIds_eq ids)), hWritten⟩
  · rcases ids_or_misread r offset.toNat with ⟨ids, hWritten⟩ | ⟨cause', hMisread⟩
    · rw [readObjectIds_of_drop hFits hWritten] at h
      cases h
    · rw [hMisread.readObjectIds hFits] at h
      cases h
      exact hMisread

/-- A record that is a list with a single identifier. -/
def guestList : Record := ⟨⟨1000⟩, ⟨1⟩, writeObjectIds [⟨5⟩]⟩

/-- The list is read from the front. From the identifier on there is no payload
of five bytes, behind it there is no length, and beyond all words there is
nothing. -/
theorem reads_exact_guestList :
    parse guestList.encode = .ok guestList ∧
    guestList.readObjectIds 0 = .ok [⟨5⟩] ∧
    guestList.readVariable 8 = .error (.rangeOutOfBounds 16 21 ⟨1⟩ 16) ∧
    guestList.readVariable 9 = .error (.wordOutOfBounds 9) ∧
    guestList.readObjectIds 18446744073709551615 = .error .offsetOverflow := by
  have hParse : parse guestList.encode = .ok guestList := by decide
  obtain ⟨-, -, hIds, -⟩ := reads_exact hParse 0
  obtain ⟨-, hInside, -, -⟩ := reads_exact hParse 8
  obtain ⟨-, hBehind, -, -⟩ := reads_exact hParse 9
  obtain ⟨-, -, -, hBeyond⟩ := reads_exact hParse 18446744073709551615
  refine ⟨hParse, (hIds [⟨5⟩]).2 ⟨by decide, by decide⟩, ?_, ?_, ?_⟩
  · exact (hInside _).2 (.short (w := 5) (by decide) (by decide) (by decide))
  · exact (hBehind _).2 (.noLength (by decide) (by decide))
  · exact (hBeyond _).2 (.payload (.unplaced (by decide)))

end Record

end ObjectStore
