import ObjectStore.Handler.Basic
import ObjectStore.Proofs.Record.Canonical

/-!
# Records whose references cannot be read

A content of an accepted length has room for every member, so a single
reference can always be read from it. A list of references cannot if what
stands there is no list: its length prefix counts other bytes than those that
follow, or these are no whole identifiers. Such a record is garbled, and no
check of its length tells.

## Main results

* `Definition.room`: an accepted content has room for every member.
* `Definition.references_cases`: the references of an accepted record can be
  listed, or it is garbled.
-/

namespace ObjectStore

namespace Record

variable {r : Record} {m : Member}

/-- No list of references stands at the offset of the member. -/
def GarbledAt (r : Record) (m : Member) : Prop :=
  m.kind = .referenceList ∧ ∃ offset, m.offset = some offset ∧
    ∀ ids, r.content.drop offset.toNat ≠ writeObjectIds ids

/-- One of the reference lists of the record cannot be read. -/
def Garbled (r : Record) (d : Definition) : Prop := ∃ m ∈ d.members, r.GarbledAt m

/-! ## Room for members -/

theorem room_of_laidOut {start : UInt64} {ms : List Member} (hFits : r.Fits)
    (hLaidOut : LaidOut start ms)
    (hRoom : start.toNat + (ms.map fun m => m.kind.minLength.toNat).sum ≤ r.content.length) :
    ∀ m ∈ ms, ∃ offset, m.offset = some offset ∧
      offset.toNat + m.kind.minLength.toNat ≤ r.content.length := by
  induction hLaidOut with
  | nil start => simp
  | @fixed start m rest hm hFixed hRest ih =>
      rw [List.map_cons, List.sum_cons] at hRoom
      have hLe : r.content.length ≤ Word.max.toNat := hFits
      have hNext : (Word.addSat start m.kind.minLength).toNat =
          start.toNat + m.kind.minLength.toNat := by
        rw [Word.toNat_addSat]
        omega
      refine List.forall_mem_cons.2 ⟨⟨start, hm, by omega⟩, ih ?_⟩
      omega
  | @last start m hm hVariable =>
      refine List.forall_mem_singleton.2 ⟨start, hm, ?_⟩
      simpa using hRoom

theorem readWord_isOk {place : Nat} (hFits : r.Fits) (hRoom : place + 8 ≤ r.content.length) :
    ∃ w, r.readWord place = .ok w := by
  have hLe : r.content.length ≤ Word.max.toNat := hFits
  have hNot : ¬Word.max.toNat < place + 8 := by omega
  have hTake : ((r.content.drop place).take 8).length = 8 := by
    rw [List.length_take, List.length_drop]
    omega
  refine ⟨Word.toWord ((r.content.drop place).take 8), ?_⟩
  simp only [readWord, wordAt, if_neg hNot, if_pos hTake]

/-! ## Listing references -/

/-- The references of a member that has room can be listed, or it is
garbled. -/
theorem memberReferences_cases {offset : UInt64} (hFits : r.Fits) (hOffset : m.offset = some offset)
    (hRoom : offset.toNat + m.kind.minLength.toNat ≤ r.content.length) :
    (∃ targets, (r.memberReferences m).toExcept = .ok targets ∧ ¬r.GarbledAt m) ∨
      ∃ cause, (r.memberReferences m).toExcept = .error (.corruptRecord cause) ∧
        r.GarbledAt m := by
  have hPlace : m.place = .ok offset := by simp only [Member.place, hOffset]
  have hOther : m.kind ≠ .referenceList → ¬r.GarbledAt m := fun hNe hGarbled => hNe hGarbled.1
  unfold memberReferences
  cases hKind : m.kind with
  | primitive | bytes | text =>
      left
      exact ⟨[], rfl, hOther (by simp [hKind])⟩
  | reference =>
      left
      rw [hKind] at hRoom
      obtain ⟨w, hWord⟩ := readWord_isOk hFits hRoom
      have hRead : r.readObjectId offset.toNat = .ok ⟨w⟩ := map_eq_ok.2 ⟨w, hWord, rfl⟩
      refine ⟨[⟨w⟩].filter (!·.isNull), ?_, hOther (by simp [hKind])⟩
      simp only [FieldKind.hasReferences, FieldKind.isReference, hPlace, hRead, Bool.not_true,
        Bool.false_eq_true, if_false, if_true, Enumeration.toExcept_ok]
  | referenceList =>
      cases hRead : r.readObjectIds offset.toNat with
      | ok ids =>
          left
          refine ⟨ids.filter (!·.isNull), ?_, ?_⟩
          · simp only [FieldKind.hasReferences, FieldKind.isReference, hPlace, hRead, Bool.not_true,
              Bool.false_eq_true, if_false, Enumeration.toExcept_ok]
          · rintro ⟨-, offset', hOffset', hNone⟩
            rw [hOffset] at hOffset'
            cases hOffset'
            exact hNone ids ((readObjectIds_eq_ok hFits).1 hRead)
      | error cause =>
          right
          refine ⟨cause, ?_, hKind, offset, hOffset, ?_⟩
          · simp only [FieldKind.hasReferences, FieldKind.isReference, hPlace, hRead, Bool.not_true,
              Bool.false_eq_true, if_false]
            rfl
          · intro ids hDrop
            cases hRead.symm.trans ((readObjectIds_eq_ok hFits).2 hDrop)

theorem references_cases {ms : List Member} (hFits : r.Fits)
    (hRoom : ∀ m ∈ ms, ∃ offset, m.offset = some offset ∧
      offset.toNat + m.kind.minLength.toNat ≤ r.content.length) :
    (∃ targets, (r.references ms).toExcept = .ok targets ∧ ∀ m ∈ ms, ¬r.GarbledAt m) ∨
      ∃ cause, (r.references ms).toExcept = .error (.corruptRecord cause) ∧
        ∃ m ∈ ms, r.GarbledAt m := by
  induction ms with
  | nil => exact Or.inl ⟨[], rfl, by simp⟩
  | cons m rest ih =>
      obtain ⟨⟨offset, hOffset, hHead⟩, hRest⟩ := List.forall_mem_cons.1 hRoom
      rcases memberReferences_cases hFits hOffset hHead with
        ⟨front, hFront, hFine⟩ | ⟨cause, hError, hGarbled⟩
      · rcases ih hRest with ⟨back, hBack, hAll⟩ | ⟨cause, hError, m', hm', hGarbled⟩
        · left
          exact ⟨front ++ back, Enumeration.andThen_eq_ok.2 ⟨front, back, hFront, hBack, rfl⟩,
            List.forall_mem_cons.2 ⟨hFine, hAll⟩⟩
        · right
          exact ⟨cause, Enumeration.andThen_eq_error.2 (Or.inr ⟨⟨front, hFront⟩, hError⟩), m',
            List.mem_cons_of_mem _ hm', hGarbled⟩
      · right
        exact ⟨cause, Enumeration.andThen_eq_error.2 (Or.inl hError), m, List.mem_cons_self,
          hGarbled⟩

end Record

namespace Definition

variable {d : Definition} {r : Record}

/-- A content whose length a definition accepts has room for every member. -/
theorem room (hAcceptable : Chunk.Acceptable r) (hLength : d.acceptsLength r.length = true) :
    ∀ m ∈ d.members, ∃ offset, m.offset = some offset ∧
      offset.toNat + m.kind.minLength.toNat ≤ r.content.length := by
  have hFits := Chunk.fits_of_acceptable hAcceptable
  have hLeast : (d.members.map fun m => m.kind.minLength.toNat).sum ≤ r.content.length := by
    have hSmall : r.content.length ≤ maxContentLength.toNat := hAcceptable
    have hMaxContent : maxContentLength.toNat = 1073741824 := by decide
    have hMax : Word.max.toNat = 18446744073709551615 := by decide
    simp only [acceptsLength, Bool.and_eq_true, decide_eq_true_eq, UInt64.le_iff_toNat_le,
      toNat_minLength, Record.toNat_length hFits] at hLength
    omega
  exact Record.room_of_laidOut hFits d.laidOut_members.1
    (by rw [UInt64.toNat_zero, Nat.zero_add]; exact hLeast)

/-- The references of a record whose length the definition accepts can be
listed, or the record is garbled, and then it counts as corrupt. -/
theorem references_cases (hAcceptable : Chunk.Acceptable r)
    (hLength : d.acceptsLength r.length = true) :
    (∃ targets, (d.references r).toExcept = .ok targets ∧ ¬r.Garbled d) ∨
      ∃ cause, (d.references r).toExcept = .error (.corruptRecord cause) ∧ r.Garbled d := by
  rcases Record.references_cases (Chunk.fits_of_acceptable hAcceptable)
    (d.room hAcceptable hLength) with ⟨targets, hTargets, hAll⟩ | ⟨cause, hError, hGarbled⟩
  · left
    refine ⟨targets, hTargets, ?_⟩
    rintro ⟨m, hm, hGarbled⟩
    exact hAll m hm hGarbled
  · exact Or.inr ⟨cause, hError, hGarbled⟩

end Definition

end ObjectStore
