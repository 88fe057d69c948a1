import ObjectStore.Error

/-!
# Records

A record is what a store keeps of one object: a header of three words, the
content length, the type identifier and the object identifier, followed by
the content. A complete record is read by `Record.parse`, which accepts
exactly the written forms of records.

## Main results

* `Header.read_write`: a written header is read back.
* `Record.parse_encode`: a written record is read back.
-/

namespace ObjectStore

/-! ## Words in a byte sequence -/

/-- The word at a position, which must lie wholly inside the bytes. -/
def wordAt (bytes : Bytes) (position : Nat) : Except Corruption UInt64 :=
  if Word.max.toNat < position + 8 then .error .offsetOverflow
  else
    let word := (bytes.drop position).take 8
    if word.length = 8 then .ok (Word.toWord word)
    else .error (.wordOutOfBounds position)

theorem wordAt_append (front back : Bytes) {w : UInt64}
    (h : front.length + 8 ≤ Word.max.toNat) :
    wordAt (front ++ (Word.ofWord w ++ back)) front.length = .ok w := by
  have hNot : ¬Word.max.toNat < front.length + 8 := by omega
  have hTake : (Word.ofWord w ++ back).take 8 = Word.ofWord w := by
    rw [List.take_append_of_le_length (by simp), List.take_of_length_le (by simp)]
  rw [wordAt, if_neg hNot]
  simp [hTake]

/-! ## Headers -/

/-- The header in front of a record's content. -/
structure Header where
  length : UInt64
  type : TypeId
  object : ObjectId
deriving DecidableEq, Inhabited

namespace Header

/-- The bytes a header occupies. -/
def size : Nat := 24

/-- The bytes of a header. -/
def write (h : Header) : Bytes :=
  Word.ofWord h.length ++ (Word.ofWord h.type.value ++ Word.ofWord h.object.value)

/-- The header at the front of the bytes. -/
def read (bytes : Bytes) : Except Corruption Header := do
  let length ← wordAt bytes 0
  let type ← wordAt bytes 8
  let object ← wordAt bytes 16
  return ⟨length, ⟨type⟩, ⟨object⟩⟩

/-- The header of a record that is about to be written. A content that no
reader would accept is refused. -/
def begin (h : Header) : Except Error Bytes :=
  if maxContentLength < h.length then
    .error (.capacityExceeded (.recordContent h.object h.type h.length.toNat))
  else .ok h.write

@[simp] theorem length_write (h : Header) : h.write.length = size := by
  simp [write, size]

theorem read_write (h : Header) (back : Bytes) : read (h.write ++ back) = .ok h := by
  have h0 := wordAt_append [] (Word.ofWord h.type.value ++ (Word.ofWord h.object.value ++ back))
    (w := h.length) (by decide)
  have h8 := wordAt_append (Word.ofWord h.length) (Word.ofWord h.object.value ++ back)
    (w := h.type.value) (by simp [Word.max])
  have h16 := wordAt_append (Word.ofWord h.length ++ Word.ofWord h.type.value) back
    (w := h.object.value) (by simp [Word.max])
  simp only [List.nil_append, List.length_nil] at h0
  simp only [Word.length_ofWord] at h8
  simp only [List.length_append, Word.length_ofWord, List.append_assoc] at h16
  simp only [read, write, List.append_assoc, h0, h8, h16]
  rfl

end Header

/-! ## Records -/

/-- The stored form of one object. -/
structure Record where
  type : TypeId
  object : ObjectId
  content : Bytes
deriving DecidableEq, Inhabited

namespace Record

/-- The content length as the header states it. -/
def length (r : Record) : UInt64 := UInt64.ofNat r.content.length

/-- The header of a record. -/
def header (r : Record) : Header := ⟨r.length, r.type, r.object⟩

/-- The bytes of a record. -/
def encode (r : Record) : Bytes := r.header.write ++ r.content

/-- The record that the bytes are the written form of. -/
def parse (bytes : Bytes) : Except Corruption Record := do
  let header ← Header.read bytes
  let content := bytes.drop Header.size
  if content.length = header.length.toNat then
    return ⟨header.type, header.object, content⟩
  else
    throw (.lengthMismatch header.object header.length content.length)

/-- The records that memory has room for: their length fits into a word. -/
def Fits (r : Record) : Prop := r.content.length ≤ Word.max.toNat

theorem toNat_length {r : Record} (h : r.Fits) : r.length.toNat = r.content.length := by
  simp only [length, UInt64.toNat_ofNat']
  exact Nat.mod_eq_of_lt (Nat.lt_succ_of_le h)

theorem length_encode (r : Record) : r.encode.length = Header.size + r.content.length := by
  simp [encode]

theorem parse_encode {r : Record} (h : r.Fits) : parse r.encode = .ok r := by
  have hDrop : r.encode.drop Header.size = r.content := by
    rw [encode, List.drop_append_of_le_length (by simp), List.drop_of_length_le (by simp)]
    rfl
  have hRead : Header.read r.encode = .ok r.header := Header.read_write _ _
  simp only [parse, hRead, hDrop]
  show (if r.content.length = r.length.toNat then _ else _) = _
  rw [if_pos (toNat_length h).symm]
  rfl

end Record

end ObjectStore
