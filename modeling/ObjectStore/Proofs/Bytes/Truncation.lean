import ObjectStore.Proofs.Bytes.Codec

/-!
# Reading what was cut off

What is written in compact form says how long it is before it ends. So a
reader that is given only a part of it runs out of input, and nothing else
is read in its place. `Reader.Needs` says this of the bytes of one value: no
part of them that is not the whole is enough.

The bytes may be as many as no length can say. Their front is still
refused: either it ends too early, or it begins with a number that there is
no room for.

## Main results

* `Varint.needs_write`: a part of a number is refused.
* `Codec.sealed_list`, `Codec.sealed_product`: of what is built from sealed
  codecs, every part is refused.
-/

namespace ObjectStore

/-! ## Readers -/

namespace Reader

variable {α β : Type} {reader : Reader α} {second : α → Reader β} {front back bytes : Bytes} {a : α}

/-- The bytes, with nothing behind them, are refused. -/
def Refuses (reader : Reader α) (bytes : Bytes) : Prop :=
  ∀ c, c.rest = bytes → ∃ fault, reader c = .error fault

theorem Refuses.bind (h : Refuses reader bytes) (second : α → Reader β) :
    Refuses (reader >>= second) bytes := by
  intro c hRest
  obtain ⟨fault, hFault⟩ := h c hRest
  refine ⟨fault, ?_⟩
  show (reader c >>= fun p => second p.1 p.2) = _
  rw [hFault]
  rfl

/-- What the second reader refuses is refused behind what the first one
reads. -/
theorem Yields.refuses (hFirst : Yields reader front a) (hSecond : Refuses (second a) back) :
    Refuses (reader >>= second) (front ++ back) := by
  intro c hRest
  obtain ⟨c', hRead, hBack⟩ := hFirst c back hRest
  obtain ⟨fault, hFault⟩ := hSecond c' hBack
  refine ⟨fault, ?_⟩
  show (reader c >>= fun p => second p.1 p.2) = _
  rw [hRead]
  exact hFault

theorem refuses_refuse (fault : WireFault) (bytes : Bytes) :
    Refuses (Reader.refuse fault : Reader α) bytes := fun _ _ => ⟨fault, rfl⟩

theorem refuses_byte : Refuses Reader.byte [] := by
  intro c hRest
  exact ⟨.endOfInput, by simp only [Reader.byte, Cursor.next?_eq_none.2 hRest]⟩

theorem refuses_block {n : Nat} (h : bytes.length < n) : Refuses (Reader.block n) bytes := by
  intro c hRest
  have hShort : c.rest.length < n := hRest ▸ h
  exact ⟨.endOfInput, by simp only [Reader.block, Cursor.take?_eq_none.2 hShort]⟩

/-- Every part of the bytes that has an end missing, and whose length can be
said, is refused. -/
def Needs (reader : Reader α) (bytes : Bytes) : Prop :=
  ∀ front back, bytes = front ++ back → back ≠ [] → front.length < Varint.limit →
    Refuses reader front

theorem needs_nil (reader : Reader α) : Needs reader [] := by
  intro front back hSplit hBack
  exact absurd (List.append_eq_nil_iff.1 hSplit.symm).2 hBack

theorem needs_byte (byte : UInt8) : Needs Reader.byte [byte] := by
  intro front back hSplit hBack _
  cases front with
  | nil => exact refuses_byte
  | cons _ rest =>
      rw [List.cons_append, List.cons.injEq] at hSplit
      exact absurd (List.append_eq_nil_iff.1 hSplit.2.symm).2 hBack

theorem needs_block (bytes : Bytes) : Needs (Reader.block bytes.length) bytes := by
  intro front back hSplit hBack _
  apply refuses_block
  have hLength := congrArg List.length hSplit
  have hPositive := List.length_pos_iff.2 hBack
  rw [List.length_append] at hLength
  omega

/-- If the front is read or is itself too long to be said, both parts are
needed one behind the other. -/
theorem Needs.bind (hFirst : Needs reader front)
    (hYields : front.length < Varint.limit → Yields reader front a)
    (hSecond : Needs (second a) back) : Needs (reader >>= second) (front ++ back) := by
  intro part missing hSplit hMissing hShort
  rcases List.append_eq_append_iff.1 hSplit with ⟨more, rfl, hBack⟩ | ⟨less, hFront, rfl⟩
  · rw [List.length_append] at hShort
    have hMore := hSecond more missing hBack hMissing (by omega)
    exact (hYields (by omega)).refuses hMore
  · cases less with
    | nil =>
        rw [List.append_nil] at hFront
        have hNothing := hSecond [] back rfl hMissing (by decide)
        have hRefused := (hYields (hFront ▸ hShort)).refuses hNothing
        rwa [List.append_nil, hFront] at hRefused
    | cons byte less =>
        exact (hFirst part (byte :: less) hFront (List.cons_ne_nil _ _) hShort).bind second

/-- A second reader may look at what was read. -/
theorem Needs.followedBy (h : Needs reader bytes) (second : α → Reader β) :
    Needs (reader >>= second) bytes := fun front back hSplit hBack hShort =>
  (h front back hSplit hBack hShort).bind second

end Reader

open Reader

/-! ## Numbers -/

namespace Varint

theorem write_of_lt {n : Nat} (h : n < 128) : write n = [UInt8.ofNat n] := by
  rw [write, if_pos h]

theorem write_of_le {n : Nat} (h : 128 ≤ n) :
    write n = UInt8.ofNat (n % 128 + 128) :: write (n / 128) := by
  rw [write, if_neg (Nat.not_lt.2 h)]

/-- A group that is not the last one has the high bit set. -/
theorem not_lt_group (n : Nat) : ¬UInt8.ofNat (n % 128 + 128) < 128 := by
  rw [UInt8.lt_iff_toNat_lt, UInt8.toNat_ofNat']
  show ¬(n % 128 + 128) % 256 < 128
  omega

theorem needs_readFrom (last : UInt8) (groups n shift value : Nat) :
    Needs (readFrom last groups shift value) (write n) := by
  induction groups generalizing n shift value with
  | zero => exact fun _ _ _ _ _ => refuses_refuse _ _
  | succ groups ih =>
      rw [readFrom]
      by_cases hSmall : n < 128
      · rw [write_of_lt hSmall]
        exact (needs_byte _).followedBy _
      · rw [write_of_le (Nat.not_lt.1 hSmall)]
        show Needs _ ([UInt8.ofNat (n % 128 + 128)] ++ write (n / 128))
        refine (needs_byte _).bind (fun _ => yields_byte _) ?_
        simp only [not_lt_group, if_false]
        exact ih (n / 128) (shift + 7) _

/-- A part of a number is refused. -/
theorem needs_write (width : Width) (n : Nat) : Needs (read width) (write n) :=
  needs_readFrom width.last width.groups n 0 0

theorem capacity_pos (last : UInt8) (groups : Nat) : 0 < capacity last (groups + 1) := by
  induction groups with
  | zero => exact Nat.succ_pos _
  | succ groups ih =>
      rw [capacity]
      omega

/-- A number that there is no room for is refused, whatever stands behind
it. -/
theorem refuses_readFrom {last : UInt8} {groups n : Nat} (h : capacity last groups ≤ n)
    (shift value : Nat) (tail : Bytes) :
    Refuses (readFrom last groups shift value) (write n ++ tail) := by
  induction groups generalizing n shift value with
  | zero => exact refuses_refuse _ _
  | succ groups ih =>
      rw [readFrom]
      by_cases hSmall : n < 128
      · rw [write_of_lt hSmall]
        have hByte : (UInt8.ofNat n).toNat = n := by
          rw [UInt8.toNat_ofNat']
          omega
        have hLow : UInt8.ofNat n < 128 := by
          rw [UInt8.lt_iff_toNat_lt, hByte]
          exact hSmall
        have hOver : groups = 0 ∧ last < UInt8.ofNat n := by
          cases groups with
          | zero =>
              refine ⟨rfl, ?_⟩
              rw [UInt8.lt_iff_toNat_lt, hByte]
              exact h
          | succ groups =>
              have hPositive := capacity_pos last groups
              rw [capacity] at h
              omega
        refine (yields_byte _).refuses ?_
        simp only [hLow, if_true, if_pos hOver]
        exact refuses_refuse _ _
      · rw [write_of_le (Nat.not_lt.1 hSmall)]
        have hRest : capacity last groups ≤ n / 128 := by
          cases groups with
          | zero => exact Nat.zero_le _
          | succ groups =>
              rw [capacity] at h
              omega
        show Refuses _ ([UInt8.ofNat (n % 128 + 128)] ++ (write (n / 128) ++ tail))
        refine (yields_byte _).refuses ?_
        simp only [not_lt_group, if_false]
        exact ih hRest (shift + 7) _

theorem refuses_word {n : Nat} (h : limit ≤ n) (tail : Bytes) :
    Refuses (read word) (write n ++ tail) :=
  refuses_readFrom (by simpa [word, capacity, limit] using h) 0 0 tail

end Varint

/-! ## Codecs -/

namespace Codec

variable {α β : Type}

/-- Of what is written, every part is refused. -/
def Sealed (codec : Codec α) : Prop := ∀ a, Needs codec.read (codec.write a)

/-- A number in front says how much is needed behind it. A number that there
is no room for is refused at once. -/
theorem needs_counted {n : Nat} {second : Nat → Reader α} {bytes : Bytes}
    (h : n < Varint.limit → Needs (second n) bytes) :
    Needs (Varint.read Varint.word >>= second) (Varint.write n ++ bytes) := by
  have hNumber := Varint.needs_write Varint.word n
  by_cases hRoom : n < Varint.limit
  · exact hNumber.bind (fun _ => Varint.yields_word hRoom) (h hRoom)
  · intro part missing hSplit hMissing hShort
    rcases List.append_eq_append_iff.1 hSplit with ⟨more, rfl, -⟩ | ⟨less, hFront, rfl⟩
    · exact (Varint.refuses_word (Nat.not_lt.1 hRoom) more).bind second
    · cases less with
      | nil =>
          rw [List.append_nil] at hFront
          have hRefused := Varint.refuses_word (Nat.not_lt.1 hRoom) []
          rw [List.append_nil, hFront] at hRefused
          exact hRefused.bind second
      | cons byte less =>
          exact (hNumber part (byte :: less) hFront (List.cons_ne_nil _ _) hShort).bind second

theorem sealed_word : word.Sealed := fun w => (Varint.needs_write Varint.word w.toNat).followedBy _

theorem sealed_text : text.Sealed := by
  intro s
  have hSize : s.toByteArray.data.toList.length = s.toByteArray.size := Cursor.length_toList _
  have hBlock := needs_block s.toByteArray.data.toList
  rw [hSize] at hBlock
  exact needs_counted fun _ => hBlock.followedBy _

theorem sealed_option {codec : Codec α} (h : codec.Sealed) : (option codec).Sealed := by
  intro a
  cases a with
  | none => exact (needs_byte 0).followedBy _
  | some a =>
      show Needs _ ([1] ++ codec.write a)
      exact (needs_byte 1).bind (fun _ => yields_byte 1) ((h a).followedBy _)

theorem needs_readMany {codec : Codec α} (hFaithful : codec.Faithful) (h : codec.Sealed)
    (as : List α) : Needs (readMany codec.read as.length) (as.flatMap codec.write) := by
  induction as with
  | nil => exact needs_nil _
  | cons a rest ih =>
      rw [List.flatMap_cons]
      exact (h a).bind (hFaithful a) (ih.followedBy _)

theorem sealed_list {codec : Codec α} (hFaithful : codec.Faithful) (h : codec.Sealed) :
    (list codec).Sealed := fun as => needs_counted fun _ => needs_readMany hFaithful h as

theorem sealed_product {first : Codec α} {second : Codec β} (hFaithful : first.Faithful)
    (hFirst : first.Sealed) (hSecond : second.Sealed) : (product first second).Sealed :=
  fun p => (hFirst p.1).bind (hFaithful p.1) ((hSecond p.2).followedBy _)

theorem sealed_through {codec : Codec β} (forth : α → β) (back : β → α) (h : codec.Sealed) :
    (codec.through forth back).Sealed := fun a => (h (forth a)).followedBy _

theorem sealed_choice [DecidableEq α] (all : List α) : (choice all).Sealed := fun a =>
  (Varint.needs_write Varint.alternative (all.idxOf a)).followedBy _

end Codec

end ObjectStore
