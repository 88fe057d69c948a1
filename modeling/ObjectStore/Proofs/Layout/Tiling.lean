import ObjectStore.Proofs.Layout.Derivation
import ObjectStore.Proofs.Record.Lengths

/-!
# Members that tile a content

Members abut if the offset of each of them is the sum of the least lengths in
front of it. Such members leave no gap between them and do not overlap: each
byte of a shortest content belongs to exactly one of them.

Lengths saturate, and so laid out members abut only as long as they need fewer
bytes than a word can count.

## Main results

* `Member.abut_of_laidOut`: laid out members abut.
* `Member.existsUnique_covers`: members that abut tile their extent.
* `Member.extent_eq`: the extent of fixed and variable members.
-/

namespace ObjectStore

/-! ## Members one behind the other -/

namespace Member

/-- The bytes that members need at least. -/
def extent (ms : List Member) : Nat := (ms.map fun m => m.kind.minLength.toNat).sum

/-- The offsets that members have already are those of members that stand one
behind the other from `start` on. -/
def Agree (start : Nat) (ms : List Member) : Prop :=
  ∀ i m offset, ms[i]? = some m → m.offset = some offset →
    offset.toNat = start + extent (ms.take i)

/-- All members have offsets, and stand one behind the other from `start` on. -/
def Abut (start : Nat) (ms : List Member) : Prop :=
  ∀ i m, ms[i]? = some m → ∃ offset, m.offset = some offset ∧
    offset.toNat = start + extent (ms.take i)

/-- The byte at a place of the content belongs to the member at a position. -/
def Covers (ms : List Member) (i place : Nat) : Prop :=
  ∃ m offset, ms[i]? = some m ∧ m.offset = some offset ∧
    offset.toNat ≤ place ∧ place < offset.toNat + m.kind.minLength.toNat

variable {start : Nat} {m : Member} {ms : List Member}

@[simp] theorem extent_nil : extent [] = 0 := rfl

@[simp] theorem extent_cons (m : Member) (ms : List Member) :
    extent (m :: ms) = m.kind.minLength.toNat + extent ms := by
  simp [extent]

theorem extent_append (front back : List Member) :
    extent (front ++ back) = extent front + extent back := by
  simp [extent]

theorem extent_take_mono (ms : List Member) {i j : Nat} (h : i ≤ j) :
    extent (ms.take i) ≤ extent (ms.take j) := by
  obtain ⟨k, rfl⟩ := Nat.exists_eq_add_of_le h
  rw [List.take_add, extent_append]
  omega

theorem extent_take_succ {i : Nat} (h : ms[i]? = some m) :
    extent (ms.take (i + 1)) = extent (ms.take i) + m.kind.minLength.toNat := by
  rw [List.take_add_one, h, extent_append]
  simp

/-- Offsets agree if the first one does, and the others do behind it. -/
theorem agree_cons : Agree start (m :: ms) ↔
    (∀ offset, m.offset = some offset → offset.toNat = start) ∧
      Agree (start + m.kind.minLength.toNat) ms := by
  constructor
  · intro h
    refine ⟨fun offset hOffset => h 0 m offset rfl hOffset, ?_⟩
    intro i m' offset hAt hOffset
    have hSum := h (i + 1) m' offset hAt hOffset
    rw [List.take_succ_cons, extent_cons] at hSum
    omega
  · rintro ⟨hHead, hRest⟩ i m' offset hAt hOffset
    cases i with
    | zero =>
        cases hAt
        exact hHead offset hOffset
    | succ i =>
        have hSum := hRest i m' offset hAt hOffset
        rw [List.take_succ_cons, extent_cons]
        omega

/-- Laid out members stand one behind the other, unless an offset saturates. -/
theorem abut_of_laidOut {start : UInt64} (h : LaidOut start ms)
    (hRoom : start.toNat + extent (ms.filter fun m => !m.kind.isVariable) ≤ Word.max.toNat) :
    Abut start.toNat ms := by
  induction h with
  | nil start =>
      intro i m hAt
      simp at hAt
  | @fixed start m rest hm hFixed hRest ih =>
      rw [List.filter_cons_of_pos (by simp [hFixed]), extent_cons] at hRoom
      have hNext : (Word.addSat start m.kind.minLength).toNat =
          start.toNat + m.kind.minLength.toNat := by
        rw [Word.toNat_addSat]
        omega
      have hBehind := ih (by omega)
      intro i m' hAt
      cases i with
      | zero =>
          cases hAt
          exact ⟨start, hm, rfl⟩
      | succ i =>
          obtain ⟨offset, hOffset, hSum⟩ := hBehind i m' hAt
          refine ⟨offset, hOffset, ?_⟩
          rw [List.take_succ_cons, extent_cons]
          omega
  | @last start m hm hVariable =>
      intro i m' hAt
      cases i with
      | zero =>
          cases hAt
          exact ⟨start, hm, rfl⟩
      | succ i => simp at hAt

/-! ### Tiling -/

theorem covers_iff (h : Abut 0 ms) {i place : Nat} :
    Covers ms i place ↔
      i < ms.length ∧ extent (ms.take i) ≤ place ∧ place < extent (ms.take (i + 1)) := by
  constructor
  · rintro ⟨m, offset, hAt, hOffset, hLow, hHigh⟩
    obtain ⟨offset', hOffset', hSum⟩ := h i m hAt
    cases hOffset.symm.trans hOffset'
    have hInside := (List.getElem?_eq_some_iff.1 hAt).1
    rw [extent_take_succ hAt]
    omega
  · rintro ⟨hInside, hLow, hHigh⟩
    have hAt : ms[i]? = some ms[i] := List.getElem?_eq_getElem hInside
    obtain ⟨offset, hOffset, hSum⟩ := h i _ hAt
    rw [extent_take_succ hAt] at hHigh
    exact ⟨ms[i], offset, hAt, hOffset, by omega, by omega⟩

/-- Every byte of an extent lies between the ends of two prefixes. -/
theorem exists_take {place : Nat} (h : place < extent ms) :
    ∃ i < ms.length, extent (ms.take i) ≤ place ∧ place < extent (ms.take (i + 1)) := by
  induction ms generalizing place with
  | nil => simp at h
  | cons m rest ih =>
      rw [extent_cons] at h
      by_cases hFirst : place < m.kind.minLength.toNat
      · exact ⟨0, by simp, by simp, by simpa using hFirst⟩
      · obtain ⟨i, hInside, hLow, hHigh⟩ := @ih (place - m.kind.minLength.toNat) (by omega)
        refine ⟨i + 1, by simpa using hInside, ?_, ?_⟩
        · rw [List.take_succ_cons, extent_cons]
          omega
        · rw [List.take_succ_cons, extent_cons]
          omega

/-- Members that stand one behind the other leave no gap and do not overlap. -/
theorem existsUnique_covers (h : Abut 0 ms) {place : Nat} (hPlace : place < extent ms) :
    ∃! i, Covers ms i place := by
  obtain ⟨i, hInside, hLow, hHigh⟩ := exists_take hPlace
  refine ⟨i, (covers_iff h).2 ⟨hInside, hLow, hHigh⟩, ?_⟩
  intro j hj
  obtain ⟨-, hLow', hHigh'⟩ := (covers_iff h).1 hj
  rcases Nat.lt_trichotomy i j with hLt | hSame | hGt
  · have hMono := extent_take_mono ms (show i + 1 ≤ j from hLt)
    omega
  · exact hSame.symm
  · have hMono := extent_take_mono ms (show j + 1 ≤ i from hGt)
    omega

/-! ### Fixed and variable members -/

/-- What members need at least is what the fixed ones need, and a prefix for
each variable one. -/
theorem extent_eq (ms : List Member) :
    extent ms = extent (ms.filter fun m => !m.kind.isVariable) +
      8 * ms.countP fun m => m.kind.isVariable := by
  induction ms with
  | nil => rfl
  | cons m rest ih =>
      cases hKind : m.kind.isVariable with
      | false =>
          rw [List.filter_cons_of_pos (by simp [hKind]), List.countP_cons_of_neg (by simp [hKind]),
            extent_cons, extent_cons]
          omega
      | true =>
          rw [List.filter_cons_of_neg (by simp [hKind]), List.countP_cons_of_pos (by simp [hKind]),
            extent_cons, FieldKind.toNat_minLength_of_isVariable hKind]
          omega

/-- What members have room for is what the fixed ones need, and a whole
content for each variable one. -/
theorem sum_maxLength (ms : List Member) :
    (ms.map fun m => m.kind.maxLength.toNat).sum =
      extent (ms.filter fun m => !m.kind.isVariable) +
        maxContentLength.toNat * ms.countP fun m => m.kind.isVariable := by
  induction ms with
  | nil => rfl
  | cons m rest ih =>
      rw [List.map_cons, List.sum_cons, FieldKind.toNat_maxLength, ih]
      cases hKind : m.kind.isVariable with
      | false =>
          rw [List.filter_cons_of_pos (by simp [hKind]), List.countP_cons_of_neg (by simp [hKind]),
            extent_cons]
          simp only [Bool.false_eq_true, if_false]
          omega
      | true =>
          rw [List.filter_cons_of_neg (by simp [hKind]), List.countP_cons_of_pos (by simp [hKind]),
            if_pos rfl, Nat.mul_succ]
          omega

/-- The bytes of the fixed members are told by the kinds, in any order. -/
theorem extent_fixed_perm {ms ms' : List Member}
    (h : (ms.map Member.kind).Perm (ms'.map Member.kind)) :
    extent (ms.filter fun m => !m.kind.isVariable) =
      extent (ms'.filter fun m => !m.kind.isVariable) := by
  have hKinds : ∀ ms : List Member, extent (ms.filter fun m => !m.kind.isVariable) =
      (((ms.map Member.kind).filter fun kind => !kind.isVariable).map
        fun kind => kind.minLength.toNat).sum := by
    intro ms
    rw [List.filter_map, List.map_map]
    rfl
  rw [hKinds, hKinds]
  exact ((h.filter _).map _).sum_nat

end Member

end ObjectStore
