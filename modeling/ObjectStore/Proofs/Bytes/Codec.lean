import Mathlib.Tactic.Ring
import ObjectStore.Bytes.Codec
import ObjectStore.Proofs.Attempt.Sequences

/-!
# Reading what was written

A codec is faithful if whatever it writes is read back, whatever stands
behind it. Lengths are written as 64-bit numbers, so this can only hold of
values whose written form is shorter than `Varint.limit`; the bound carries
over from a value to its parts, since each of them is written in full.

## Main results

* `Varint.yields_write`: a number that the width has room for is read back.
* `Codec.faithful_list`, `Codec.faithful_product`: what is built from
  faithful codecs is faithful.
-/

namespace ObjectStore

/-! ## Readers -/

namespace Reader

variable {α β : Type} {reader : Reader α} {second : α → Reader β} {front back : Bytes} {a : α}
  {b : β}

/-- The bytes `front` are read as `a`, whatever stands behind them. -/
def Yields (reader : Reader α) (front : Bytes) (a : α) : Prop :=
  ∀ c tail, c.rest = front ++ tail → ∃ c', reader c = .ok (a, c') ∧ c'.rest = tail

theorem yields_pure (a : α) : Yields (pure a : Reader α) [] a := fun c _ h => ⟨c, rfl, h⟩

theorem Yields.bind (hFirst : Yields reader front a) (hSecond : Yields (second a) back b) :
    Yields (reader >>= second) (front ++ back) b := by
  intro c tail h
  rw [List.append_assoc] at h
  obtain ⟨c₁, hRead, hRest⟩ := hFirst c (back ++ tail) h
  obtain ⟨c₂, hRead₂, hRest₂⟩ := hSecond c₁ tail hRest
  refine ⟨c₂, ?_, hRest₂⟩
  show (reader c >>= fun p => second p.1 p.2) = _
  rw [hRead]
  exact hRead₂

/-- A second reader may look at what was read, and read nothing more. -/
theorem Yields.followedBy (hFirst : Yields reader front a) (hSecond : Yields (second a) [] b) :
    Yields (reader >>= second) front b := by
  have hBind := hFirst.bind hSecond
  rwa [List.append_nil] at hBind

theorem Yields.map (h : Yields reader front a) (f : α → β) :
    Yields (reader >>= fun a => pure (f a)) front (f a) :=
  h.followedBy (yields_pure (f a))

theorem yields_byte (byte : UInt8) : Yields Reader.byte [byte] byte := by
  intro c tail h
  cases hNext : c.next? with
  | none =>
      rw [Cursor.next?_eq_none.1 hNext] at h
      cases h
  | some p =>
      obtain ⟨byte', c'⟩ := p
      have hRest := Cursor.next?_eq_some hNext
      rw [h, List.singleton_append, List.cons.injEq] at hRest
      obtain ⟨rfl, rfl⟩ := hRest
      exact ⟨c', by simp only [Reader.byte, hNext], rfl⟩

theorem yields_block (bytes : Bytes) :
    Yields (Reader.block bytes.length) bytes ⟨bytes.toArray⟩ := by
  intro c tail h
  cases hTake : c.take? bytes.length with
  | none =>
      have hShort := Cursor.take?_eq_none.1 hTake
      rw [h, List.length_append] at hShort
      omega
  | some p =>
      obtain ⟨block, c'⟩ := p
      obtain ⟨hRest, hLength⟩ := Cursor.take?_eq_some hTake
      rw [h] at hRest
      obtain ⟨hBlock, hTail⟩ := List.append_inj hRest hLength.symm
      have hSame : block = ⟨bytes.toArray⟩ := by
        rw [hBlock]
      exact ⟨c', by simp only [Reader.block, hTake, hSame], hTail.symm⟩

end Reader

open Reader

/-! ## Numbers -/

namespace Varint

/-- How many numbers there are with at most `groups` groups, if the last of
them is at most `last`. -/
def capacity (last : UInt8) : Nat → Nat
  | 0 => 0
  | 1 => last.toNat + 1
  | groups + 2 => 128 * capacity last (groups + 1)

theorem yields_readFrom {last : UInt8} (hLast : last.toNat < 128) {groups n : Nat}
    (h : n < capacity last groups) (shift value : Nat) :
    Yields (readFrom last groups shift value) (write n) (value + n <<< shift) := by
  induction groups generalizing n shift value with
  | zero => exact absurd h (Nat.not_lt_zero n)
  | succ groups ih =>
      rw [write, readFrom]
      by_cases hSmall : n < 128
      · have hByte : (UInt8.ofNat n).toNat = n := by
          rw [UInt8.toNat_ofNat']
          omega
        have hLow : UInt8.ofNat n < 128 := by
          rw [UInt8.lt_iff_toNat_lt, hByte]
          exact hSmall
        have hFits : ¬(groups = 0 ∧ last < UInt8.ofNat n) := by
          rintro ⟨rfl, hLarge⟩
          rw [UInt8.lt_iff_toNat_lt, hByte] at hLarge
          simp only [capacity] at h
          omega
        rw [if_pos hSmall]
        refine (yields_byte (UInt8.ofNat n)).followedBy ?_
        simp only [hLow, if_true, hFits, if_false, hByte, Nat.mod_eq_of_lt hSmall]
        exact yields_pure _
      · have hByte : (UInt8.ofNat (n % 128 + 128)).toNat = n % 128 + 128 := by
          rw [UInt8.toNat_ofNat']
          omega
        have hHigh : ¬UInt8.ofNat (n % 128 + 128) < 128 := by
          rw [UInt8.lt_iff_toNat_lt, hByte]
          show ¬n % 128 + 128 < 128
          omega
        have hRest : n / 128 < capacity last groups := by
          cases groups with
          | zero =>
              simp only [capacity] at h
              omega
          | succ groups =>
              simp only [capacity] at h
              omega
        have hSum : value + n <<< shift =
            value + (n % 128) <<< shift + (n / 128) <<< (shift + 7) := by
          have hSplit := Nat.div_add_mod n 128
          simp only [Nat.shiftLeft_eq, Nat.pow_add]
          calc value + n * 2 ^ shift
              = value + (128 * (n / 128) + n % 128) * 2 ^ shift := by rw [hSplit]
            _ = value + n % 128 * 2 ^ shift + n / 128 * (2 ^ shift * 2 ^ 7) := by ring
        rw [if_neg hSmall, hSum]
        show Yields _ ([UInt8.ofNat (n % 128 + 128)] ++ write (n / 128)) _
        refine (yields_byte _).bind ?_
        have hMod : (n % 128 + 128) % 128 = n % 128 := by omega
        simp only [hHigh, if_false, hByte, hMod]
        exact ih hRest (shift + 7) _

theorem yields_write {width : Width} (hLast : width.last.toNat < 128) {n : Nat}
    (h : n < capacity width.last width.groups) : Yields (read width) (write n) n := by
  have hRead := yields_readFrom hLast h 0 0
  rwa [Nat.zero_add, Nat.shiftLeft_zero] at hRead

theorem yields_word {n : Nat} (h : n < limit) : Yields (read word) (write n) n :=
  yields_write (by decide) (by simpa [word, capacity, limit] using h)

theorem yields_alternative {n : Nat} (h : n < 4294967296) :
    Yields (read alternative) (write n) n :=
  yields_write (by decide) (by simpa [alternative, capacity] using h)

theorem write_ne_nil (n : Nat) : write n ≠ [] := by
  rw [write]
  split <;> simp

/-- A number has no more groups than it needs. -/
theorem length_write_le {last : UInt8} (hLast : last.toNat < 128) {groups n : Nat}
    (h : n < capacity last groups) : (write n).length ≤ groups := by
  induction groups generalizing n with
  | zero => exact absurd h (Nat.not_lt_zero n)
  | succ groups ih =>
      rw [write]
      split
      · simp
      · cases groups with
        | zero =>
            simp only [capacity] at h
            omega
        | succ groups =>
            simp only [capacity] at h
            have hRest := @ih (n / 128) (by omega)
            rw [List.length_cons]
            omega

theorem length_write_le_ten {n : Nat} (h : n < limit) : (write n).length ≤ 10 :=
  @length_write_le 1 (by decide) 10 n (by simpa [capacity, limit] using h)

end Varint

/-! ## Codecs -/

namespace Codec

variable {α β : Type}

/-- What is written is read back, unless it is as long as no length can
say. -/
def Faithful (codec : Codec α) : Prop :=
  ∀ a, (codec.write a).length < Varint.limit → Yields codec.read (codec.write a) a

/-- Everything that is written has at least one byte. -/
def Visible (codec : Codec α) : Prop := ∀ a, codec.write a ≠ []

theorem faithful_word : word.Faithful := by
  intro w _
  have hRead := (Varint.yields_word w.toNat_lt).map UInt64.ofNat
  rw [UInt64.ofNat_toNat] at hRead
  exact hRead

theorem visible_word : word.Visible := fun w => Varint.write_ne_nil w.toNat

theorem faithful_text : text.Faithful := by
  intro s hShort
  have hSize : s.toByteArray.data.toList.length = s.toByteArray.size := Cursor.length_toList _
  have hNumber : s.toByteArray.size < Varint.limit := by
    have hLength : (text.write s).length =
        (Varint.write s.toByteArray.size).length + s.toByteArray.data.toList.length :=
      List.length_append
    omega
  refine (Varint.yields_word hNumber).bind ?_
  have hBlock := yields_block s.toByteArray.data.toList
  rw [hSize] at hBlock
  refine hBlock.followedBy ?_
  have hText : String.fromUTF8? s.toByteArray = some s := by
    simp [String.fromUTF8?, String.fromUTF8, s.isValidUTF8]
  simp only [Array.toArray_toList, hText]
  exact yields_pure s

theorem faithful_option {codec : Codec α} (h : codec.Faithful) : (option codec).Faithful := by
  intro a hShort
  cases a with
  | none => exact (yields_byte 0).bind (yields_pure none)
  | some a =>
      have hPart : (codec.write a).length < Varint.limit := by
        simp only [option, List.length_cons] at hShort
        omega
      exact (yields_byte 1).bind ((h a hPart).map some)

theorem yields_readMany {codec : Codec α} (h : codec.Faithful) {as : List α}
    (hShort : (as.flatMap codec.write).length < Varint.limit) :
    Yields (readMany codec.read as.length) (as.flatMap codec.write) as := by
  induction as with
  | nil => exact yields_pure []
  | cons a rest ih =>
      rw [List.flatMap_cons, List.length_append] at hShort
      rw [List.flatMap_cons]
      have hHead := h a (by omega)
      have hTail := ih (by omega)
      exact hHead.bind (hTail.map fun rest => a :: rest)

theorem length_le_of_visible {codec : Codec α} (h : codec.Visible) (as : List α) :
    as.length ≤ (as.flatMap codec.write).length := by
  induction as with
  | nil => exact Nat.le_refl 0
  | cons a rest ih =>
      have hHead := List.length_pos_iff.2 (h a)
      rw [List.flatMap_cons, List.length_append, List.length_cons]
      omega

theorem faithful_list {codec : Codec α} (h : codec.Faithful) (hVisible : codec.Visible) :
    (list codec).Faithful := by
  intro as hShort
  have hLength : ((list codec).write as).length =
      (Varint.write as.length).length + (as.flatMap codec.write).length := List.length_append
  have hCount := length_le_of_visible hVisible as
  exact (Varint.yields_word (by omega)).bind (yields_readMany h (by omega))

theorem faithful_product {first : Codec α} {second : Codec β} (hFirst : first.Faithful)
    (hSecond : second.Faithful) : (product first second).Faithful := by
  rintro ⟨a, b⟩ hShort
  have hLength : ((product first second).write (a, b)).length =
      (first.write a).length + (second.write b).length := List.length_append
  exact (hFirst a (by omega)).bind ((hSecond b (by omega)).map fun b => (a, b))

theorem visible_product {first : Codec α} {second : Codec β} (h : first.Visible) :
    (product first second).Visible := by
  rintro ⟨a, b⟩ hNil
  exact h a (List.append_eq_nil_iff.1 hNil).1

theorem faithful_through {codec : Codec β} {forth : α → β} {back : β → α} (h : codec.Faithful)
    (hInverse : ∀ a, back (forth a) = a) : (codec.through forth back).Faithful := by
  intro a hShort
  have hRead := (h (forth a) hShort).map back
  rw [hInverse] at hRead
  exact hRead

theorem faithful_choice [DecidableEq α] {all : List α} (h : ∀ a, a ∈ all)
    (hShort : all.length < 4294967296) : (choice all).Faithful := by
  intro a _
  have hIndex := List.idxOf_lt_length_of_mem (h a)
  refine (Varint.yields_alternative (by omega)).followedBy ?_
  rw [List.getElem?_idxOf (h a)]
  exact yields_pure a

end Codec

end ObjectStore
