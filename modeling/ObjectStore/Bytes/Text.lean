import ObjectStore.Bytes.Word

/-!
# Text as bytes

Text is stored as UTF-8. Bytes that are no UTF-8 text are refused with the
place of the first fault: the length of the well-formed part before it, and
the length of the faulty sequence, or nothing for the latter when the bytes
end inside a character that is well formed so far.

## Main results

* `Text.decode_encode`: reading a written text gives it back.
* `Text.encode_of_decode`: what is read as a text is its written form.
-/

namespace ObjectStore

/--
The first fault of a byte sequence that is no UTF-8 text.

`index` bytes in front of it are well formed. The faulty sequence itself has
`length` bytes; it has none when the input ends too early.
-/
structure TextFault where
  index : Nat
  length : Option Nat
deriving DecidableEq, Inhabited

namespace TextFault

/-- The wording of the fault. -/
def message (fault : TextFault) : String :=
  match fault.length with
  | some length => s!"invalid utf-8 sequence of {length} bytes from index {fault.index}"
  | none => s!"incomplete utf-8 byte sequence from index {fault.index}"

/-- What a leading byte announces: how many bytes follow it, and the range of
the first of them. A continuation byte or a byte that no character starts
with announces nothing. -/
def announced (byte : UInt8) : Option (Nat × UInt8 × UInt8) :=
  if byte < 0x80 then some (0, 0x80, 0xBF)
  else if byte < 0xC2 then none
  else if byte < 0xE0 then some (1, 0x80, 0xBF)
  else if byte = 0xE0 then some (2, 0xA0, 0xBF)
  else if byte = 0xED then some (2, 0x80, 0x9F)
  else if byte < 0xF0 then some (2, 0x80, 0xBF)
  else if byte = 0xF0 then some (3, 0x90, 0xBF)
  else if byte < 0xF4 then some (3, 0x80, 0xBF)
  else if byte = 0xF4 then some (3, 0x80, 0x8F)
  else none

/--
Looks for the first fault, `index` bytes into the input.

`start` is the index of the current character's first byte, `owed` the
number of bytes it still lacks, and `low` and `high` bound the next of them.
-/
def scan (start index owed : Nat) (low high : UInt8) : Bytes → TextFault
  | [] => ⟨start, none⟩
  | byte :: rest =>
      match owed with
      | 0 =>
          match announced byte with
          | some (owed, low, high) => scan index (index + 1) owed low high rest
          | none => ⟨index, some 1⟩
      | owed + 1 =>
          if low ≤ byte ∧ byte ≤ high then
            scan (if owed = 0 then index + 1 else start) (index + 1) owed 0x80 0xBF rest
          else ⟨start, some (index - start)⟩

/-- The first fault of bytes that are no text. -/
def locate (bytes : Bytes) : TextFault := scan 0 0 0 0x80 0xBF bytes

end TextFault

namespace Text

/-- The bytes of a text. -/
def encode (text : String) : Bytes := text.toByteArray.data.toList

/-- The text that the bytes stand for, or the first fault in them. -/
def decode (bytes : Bytes) : Except TextFault String :=
  match String.fromUTF8? ⟨bytes.toArray⟩ with
  | some text => .ok text
  | none => .error (TextFault.locate bytes)

theorem decode_encode (text : String) : decode (encode text) = .ok text := by
  have h : String.fromUTF8? text.toByteArray = some text := by
    simp [String.fromUTF8?, String.fromUTF8, text.isValidUTF8]
  simp [decode, encode, h]

theorem encode_of_decode {bytes : Bytes} {text : String} (h : decode bytes = .ok text) :
    encode text = bytes := by
  unfold decode at h
  split at h
  · rename_i found hFound
    cases h
    simp only [String.fromUTF8?] at hFound
    split at hFound
    · cases hFound
      simp [encode, String.fromUTF8]
    · cases hFound
  · cases h

end Text

end ObjectStore
