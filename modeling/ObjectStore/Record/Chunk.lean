import ObjectStore.Record.Basic

/-!
# Chunks of records

A chunk is a byte sequence in which records stand one behind the other. It
is split from the front; the first header that is cut off, claims an
impossible length, or has too little content behind it ends the splitting.

## Main results

* `Chunk.takeRecord_encode`: the record at the front of a chunk is found.
* `Chunk.split_join`: the records of a chunk are found again.
-/

namespace ObjectStore

/-- The records at the front of a chunk, and the fault behind them if there
is one. -/
structure Chunk where
  records : List Record
  fault : Option Corruption
deriving DecidableEq, Inhabited

namespace Chunk

/-- The record at the front of the bytes, which stand at a position of the
chunk. -/
def takeRecord (position : Nat) (bytes : Bytes) : Except Corruption Record :=
  if (bytes.take Header.size).length < Header.size then .error (.truncatedHeader position)
  else
    match Header.read bytes with
    | .error cause => .error cause
    | .ok header =>
        if maxContentLength < header.length then
          .error (.impossibleLength header.object header.length)
        else
          let content := (bytes.drop Header.size).take header.length.toNat
          if content.length < header.length.toNat then
            .error (.truncatedContent header.object position)
          else .ok ⟨header.type, header.object, content⟩

/-- Splits the bytes that stand at a position of the chunk. -/
def splitFrom (position : Nat) (bytes : Bytes) : Chunk :=
  if _h : bytes = [] then ⟨[], none⟩
  else
    match takeRecord position bytes with
    | .error cause => ⟨[], some cause⟩
    | .ok record =>
        let size := Header.size + record.content.length
        let chunk := splitFrom (position + size) (bytes.drop size)
        ⟨record :: chunk.records, chunk.fault⟩
termination_by bytes.length
decreasing_by
  have hPos := List.length_pos_iff.2 ‹¬bytes = []›
  have hSize : 0 < Header.size := by decide
  simp only [List.length_drop]
  omega

/-- Splits a chunk into its records. -/
def split (bytes : Bytes) : Chunk := splitFrom 0 bytes

/-- The bytes of records, one behind the other. -/
def join (records : List Record) : Bytes := records.flatMap Record.encode

/-- The records, if the whole chunk could be split. -/
def toExcept (chunk : Chunk) : Except Error (List Record) :=
  match chunk.fault with
  | none => .ok chunk.records
  | some cause => .error (.corruptRecord cause)

/-! ## Splitting what was joined -/

/-- The records that every reader accepts: their content is not too large. -/
def Acceptable (r : Record) : Prop := r.content.length ≤ maxContentLength.toNat

theorem takeRecord_encode {r : Record} (h : Acceptable r) (position : Nat) (back : Bytes) :
    takeRecord position (r.encode ++ back) = .ok r := by
  have hMax : maxContentLength.toNat = 1073741824 := by decide
  have hWord : Word.max.toNat = 18446744073709551615 := by decide
  have hSize : Header.size = 24 := rfl
  have hLength : r.length.toNat = r.content.length := by
    apply Record.toNat_length
    unfold Acceptable at h
    unfold Record.Fits
    omega
  have hRead : Header.read (r.encode ++ back) = .ok r.header := by
    rw [Record.encode, List.append_assoc]
    exact Header.read_write _ _
  have hFront : ¬((r.encode ++ back).take Header.size).length < Header.size := by
    have := Record.length_encode r
    simp only [List.length_take, List.length_append]
    omega
  have hDrop : (r.encode ++ back).drop Header.size = r.content ++ back := by
    rw [Record.encode, List.append_assoc, List.drop_append_of_le_length (by simp),
      List.drop_of_length_le (by simp)]
    rfl
  have hNot : ¬maxContentLength < r.length := by
    rw [UInt64.lt_iff_toNat_lt, hLength]
    unfold Acceptable at h
    omega
  have hContent : (r.content ++ back).take r.content.length = r.content := List.take_left
  simp only [takeRecord, hFront, if_false, hRead, hDrop, Record.header, hNot, hLength, hContent,
    Nat.lt_irrefl]

theorem splitFrom_join {records : List Record} (h : ∀ r ∈ records, Acceptable r)
    (position : Nat) : splitFrom position (join records) = ⟨records, none⟩ := by
  induction records generalizing position with
  | nil => simp [join, splitFrom]
  | cons r rest ih =>
      have hRest := ih (fun r' hr' => h r' (List.mem_cons_of_mem _ hr'))
      have hNot : join (r :: rest) ≠ [] := by
        intro hNil
        have hLength := congrArg List.length hNil
        simp [join, Record.length_encode, Header.size] at hLength
      have hDrop : (join (r :: rest)).drop (Header.size + r.content.length) = join rest := by
        simp only [join, List.flatMap_cons]
        rw [← Record.length_encode r, List.drop_left]
      have hTake : takeRecord position (join (r :: rest)) = .ok r :=
        takeRecord_encode (h r List.mem_cons_self) position _
      rw [splitFrom, dif_neg hNot, hTake]
      simp only [hDrop, hRest]

/-- A chunk of acceptable records splits into exactly these. -/
theorem split_join {records : List Record} (h : ∀ r ∈ records, Acceptable r) :
    split (join records) = ⟨records, none⟩ :=
  splitFrom_join h 0

end Chunk

end ObjectStore
