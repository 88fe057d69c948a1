/-!
# Little-endian words

A record is a sequence of bytes in which numbers stand as fixed-width
little-endian words. This module holds the two directions of that encoding
for words of any width, and their specialisation to the 64-bit words that
headers, references and length prefixes are made of.

Everything is stated on `List UInt8`: reading at an offset is `drop`, and
writing is `++`.

## Main results

* `Word.decode_encode`: reading a written number gives it back modulo the
  width.
* `Word.encode_decode`: every byte sequence is the encoding of the number it
  denotes, so no two sequences of one width denote the same number.
* `Word.ofWord_toWord`, `Word.toWord_ofWord`: both directions at 64 bits.
* `Word.toNat_addSat`: the saturating sum of lengths and offsets.
-/

namespace ObjectStore

/-- A byte sequence. -/
abbrev Bytes := List UInt8

namespace Word

/-! ## Words of any width -/

/-- The `width` low-order bytes of `n`, least significant first. -/
def encode : Nat → Nat → Bytes
  | 0, _ => []
  | width + 1, n => UInt8.ofNat n :: encode width (n / 256)

/-- The number a little-endian byte sequence denotes. -/
def decode : Bytes → Nat
  | [] => 0
  | byte :: rest => byte.toNat + 256 * decode rest

@[simp] theorem length_encode (width n : Nat) : (encode width n).length = width := by
  induction width generalizing n with
  | zero => rfl
  | succ width ih => simp [encode, ih]

/-- How many numbers the words of a width denote. -/
def span : Nat → Nat
  | 0 => 1
  | width + 1 => 256 * span width

theorem decode_lt (bytes : Bytes) : decode bytes < span bytes.length := by
  induction bytes with
  | nil => simp [decode, span]
  | cons byte rest ih =>
      have hByte : byte.toNat < 256 := byte.toNat_lt
      simp only [decode, List.length_cons, span]
      omega

theorem decode_encode (width n : Nat) : decode (encode width n) = n % span width := by
  induction width generalizing n with
  | zero => simp [encode, decode, span, Nat.mod_one]
  | succ width ih =>
      have hLow : (UInt8.ofNat n).toNat = n % 256 := by simp
      simp only [encode, decode, ih, hLow, span]
      rw [Nat.mod_mul]

theorem decode_encode_of_lt {width n : Nat} (h : n < span width) :
    decode (encode width n) = n := by
  rw [decode_encode, Nat.mod_eq_of_lt h]

theorem encode_decode (bytes : Bytes) : encode bytes.length (decode bytes) = bytes := by
  induction bytes with
  | nil => rfl
  | cons byte rest ih =>
      have hByte : byte.toNat < 256 := byte.toNat_lt
      have hLow : UInt8.ofNat (byte.toNat + 256 * decode rest) = byte := by
        apply UInt8.toNat.inj
        simp
      have hHigh : (byte.toNat + 256 * decode rest) / 256 = decode rest := by omega
      simp only [List.length_cons, encode, decode, hLow, hHigh, ih]

/-! ## 64-bit words -/

/-- The eight bytes of a 64-bit word. -/
def ofWord (w : UInt64) : Bytes := encode 8 w.toNat

/-- The 64-bit word that the bytes denote. -/
def toWord (bytes : Bytes) : UInt64 := UInt64.ofNat (decode bytes)

@[simp] theorem length_ofWord (w : UInt64) : (ofWord w).length = 8 :=
  length_encode 8 w.toNat

@[simp] theorem toWord_ofWord (w : UInt64) : toWord (ofWord w) = w := by
  have hWord : w.toNat < span 8 := w.toNat_lt
  simp [toWord, ofWord, decode_encode_of_lt hWord]

theorem ofWord_toWord {bytes : Bytes} (h : bytes.length = 8) : ofWord (toWord bytes) = bytes := by
  have hLt : decode bytes < span 8 := h ▸ decode_lt bytes
  have hNat : (UInt64.ofNat (decode bytes)).toNat = decode bytes := by
    rw [UInt64.toNat_ofNat']
    exact Nat.mod_eq_of_lt hLt
  rw [ofWord, toWord, hNat, ← h, encode_decode]

/-! ## Saturating sums -/

/-- The largest 64-bit word. -/
def max : UInt64 := 18446744073709551615

/-- The sum of two words, or the largest word if it does not fit. -/
def addSat (a b : UInt64) : UInt64 :=
  if a.toNat + b.toNat ≤ max.toNat then a + b else max

/-- The number as a word, or the largest word if it does not fit. -/
def ofNatSat (n : Nat) : UInt64 :=
  if n ≤ max.toNat then UInt64.ofNat n else max

theorem toNat_addSat (a b : UInt64) :
    (addSat a b).toNat = min (a.toNat + b.toNat) max.toNat := by
  unfold addSat
  split
  · rename_i h
    rw [UInt64.toNat_add]
    exact (Nat.mod_eq_of_lt (Nat.lt_succ_of_le h)).trans (Nat.min_eq_left h).symm
  · omega

end Word

end ObjectStore
