import ObjectStore.Bytes.Word

/-!
# Hexadecimal text

Bytes and numbers in lower-case hexadecimal digits, as diagnostics show
them. A byte has two digits; a number has as many as it needs, or leading
zeros up to a width.

## Main results

* `Hex.bytes_render`: bytes can be read back from their digits.
-/

namespace ObjectStore

namespace Hex

/-- The digits of a number, with zeros in front up to a width. -/
def digits (width n : Nat) : String :=
  let shown := Nat.toDigits 16 n
  String.ofList (List.replicate (width - shown.length) '0' ++ shown)

/-- The value of a digit. -/
def digitValue (c : Char) : Nat :=
  if c.isDigit then c.toNat - '0'.toNat else c.toNat - 'a'.toNat + 10

/-- The number that has the digits. -/
def number (text : String) : Nat := text.toList.foldl (fun n c => 16 * n + digitValue c) 0

/-- The two digits of each byte. -/
def pairs (bytes : Bytes) : List Char :=
  bytes.flatMap fun byte => [Nat.digitChar (byte.toNat / 16), Nat.digitChar (byte.toNat % 16)]

/-- The digits of bytes. -/
def render (bytes : Bytes) : String := String.ofList (pairs bytes)

/-- The bytes that pairs of digits stand for. A single digit at the end
stands for nothing. -/
def ofPairs : List Char → Bytes
  | high :: low :: rest => UInt8.ofNat (16 * digitValue high + digitValue low) :: ofPairs rest
  | _ => []

/-- The bytes that have the digits. -/
def bytes (text : String) : Bytes := ofPairs text.toList

theorem digitValue_digitChar : ∀ n < 16, digitValue (Nat.digitChar n) = n := by decide

theorem ofPairs_pairs (bs : Bytes) : ofPairs (pairs bs) = bs := by
  induction bs with
  | nil => rfl
  | cons byte rest ih =>
      have hByte := byte.toNat_lt
      have hHigh := digitValue_digitChar (byte.toNat / 16) (by omega)
      have hLow := digitValue_digitChar (byte.toNat % 16) (by omega)
      have hValue : 16 * (byte.toNat / 16) + byte.toNat % 16 = byte.toNat := by omega
      simp only [pairs] at ih
      simp [pairs, ofPairs, hHigh, hLow, hValue, ih]

theorem bytes_render (bs : Bytes) : bytes (render bs) = bs := by
  simp [bytes, render, ofPairs_pairs]

end Hex

end ObjectStore
