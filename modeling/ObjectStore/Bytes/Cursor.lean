import ObjectStore.Error

/-!
# Reading from the front of a file

A dictionary file may be tens of megabytes long, and what stands behind its
payload is ignored. So it is not read as a list: a `Cursor` is a position in
a byte array, which moves forward over what is read.

All reasoning is about the bytes that are left, `Cursor.rest`. The two ways
to move the cursor are characterised on it, and a reader is anything built
from them.

## Main results

* `Cursor.next?_eq_some`, `Cursor.next?_eq_none`: one byte is taken off the
  front of the rest.
* `Cursor.take?_eq_some`, `Cursor.take?_eq_none`: a block is taken off.
-/

namespace ObjectStore

/-- A position in a byte array. -/
structure Cursor where
  bytes : ByteArray
  position : Nat

namespace Cursor

/-- The cursor in front of all bytes. -/
def start (bytes : ByteArray) : Cursor := ⟨bytes, 0⟩

/-- The bytes that are left. -/
def rest (c : Cursor) : Bytes := c.bytes.data.toList.drop c.position

/-- Takes the next byte. -/
def next? (c : Cursor) : Option (UInt8 × Cursor) :=
  if h : c.position < c.bytes.size then
    some (c.bytes[c.position], { c with position := c.position + 1 })
  else none

/-- Takes the next `n` bytes. -/
def take? (c : Cursor) (n : Nat) : Option (ByteArray × Cursor) :=
  if n ≤ c.bytes.size - c.position then
    some (c.bytes.extract c.position (c.position + n), { c with position := c.position + n })
  else none

@[simp] theorem rest_start (bytes : ByteArray) : (start bytes).rest = bytes.data.toList := by
  simp [start, rest]

theorem length_toList (bytes : ByteArray) : bytes.data.toList.length = bytes.size := by
  rw [Array.length_toList]
  rfl

theorem length_rest (c : Cursor) : c.rest.length = c.bytes.size - c.position := by
  simp only [rest, List.length_drop, length_toList]

theorem next?_eq_none {c : Cursor} : c.next? = none ↔ c.rest = [] := by
  rw [← List.length_eq_zero_iff, length_rest]
  unfold next?
  split <;> simp <;> omega

theorem next?_eq_some {c c' : Cursor} {byte : UInt8} (h : c.next? = some (byte, c')) :
    c.rest = byte :: c'.rest := by
  unfold next? at h
  split at h
  · rename_i hLt
    have hList : c.position < c.bytes.data.toList.length := by rwa [length_toList]
    simp only [Option.some.injEq, Prod.mk.injEq] at h
    obtain ⟨rfl, rfl⟩ := h
    simp only [rest]
    rw [List.drop_eq_getElem_cons hList]
    simp [ByteArray.getElem_eq_getElem_data]
  · cases h

theorem take?_eq_none {c : Cursor} {n : Nat} : c.take? n = none ↔ c.rest.length < n := by
  rw [length_rest]
  unfold take?
  split <;> simp <;> omega

theorem take?_eq_some {c c' : Cursor} {n : Nat} {block : ByteArray}
    (h : c.take? n = some (block, c')) :
    c.rest = block.data.toList ++ c'.rest ∧ block.data.toList.length = n := by
  unfold take? at h
  split at h
  · rename_i hLe
    have hLength : n ≤ c.bytes.data.toList.length - c.position := by rwa [length_toList]
    simp only [Option.some.injEq, Prod.mk.injEq] at h
    obtain ⟨rfl, rfl⟩ := h
    have hBlock :
        (c.bytes.extract c.position (c.position + n)).data.toList =
          (c.bytes.data.toList.drop c.position).take n := by
      simp [ByteArray.data_extract, List.extract_eq_take_drop]
    refine ⟨?_, ?_⟩
    · rw [hBlock]
      simp only [rest, ← List.drop_drop]
      exact (List.take_append_drop n _).symm
    · rw [hBlock, List.length_take, List.length_drop]
      omega
  · cases h

end Cursor

/-! ## Readers -/

/-- Reads a value off the front of the input. -/
abbrev Reader (α : Type) := StateT Cursor (Except WireFault) α

namespace Reader

/-- Reads one byte. -/
def byte : Reader UInt8 := fun c =>
  match c.next? with
  | some (byte, c') => .ok (byte, c')
  | none => .error .endOfInput

/-- Reads a block of `n` bytes. -/
def block (n : Nat) : Reader ByteArray := fun c =>
  match c.take? n with
  | some (block, c') => .ok (block, c')
  | none => .error .endOfInput

/-- Refuses the input. -/
def refuse {α : Type} (fault : WireFault) : Reader α := fun _ => .error fault

end Reader

end ObjectStore
