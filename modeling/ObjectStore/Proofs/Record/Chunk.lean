import ObjectStore.Proofs.Attempt.Sequences
import ObjectStore.Record.Chunk

/-!
# Records of a chunk

Every record that is split off a chunk is one that every reader accepts, and
such a record is told by its bytes. A chunk that can be split to its end is
nothing but its records.

## Main results

* `Record.encode_of_parse`: what is read as a record is its written form.
* `Chunk.acceptable_of_mem_split`: what is split off is acceptable.
* `Chunk.begin_eq_ok`: only the headers of acceptable records can be written.
* `Chunk.acceptable_of_split_join`: records that can be split again are
  acceptable.
* `Chunk.join_of_split`: a chunk without fault consists of its records.
* `Chunk.encode_inj`: different records have different written forms.
-/

namespace ObjectStore

theorem ofWord_of_wordAt {bytes : Bytes} {position : Nat} {w : UInt64}
    (h : wordAt bytes position = .ok w) : Word.ofWord w = (bytes.drop position).take 8 := by
  simp only [wordAt] at h
  split at h
  · cases h
  · split at h
    · rename_i hLength
      cases h
      exact Word.ofWord_toWord hLength
    · cases h

/-- What is read as a header is its written form. -/
theorem Header.write_of_read {bytes : Bytes} {header : Header} (h : read bytes = .ok header) :
    header.write = bytes.take size := by
  obtain ⟨length, hLength, h⟩ := bind_eq_ok.1 h
  obtain ⟨type, hType, h⟩ := bind_eq_ok.1 h
  obtain ⟨object, hObject, h⟩ := bind_eq_ok.1 h
  cases h
  have hWords : bytes.take (8 + (8 + 8)) =
      bytes.take 8 ++ ((bytes.drop 8).take 8 ++ (bytes.drop 16).take 8) := by
    rw [List.take_add, List.take_add, List.drop_drop]
  rw [write, ofWord_of_wordAt hLength, ofWord_of_wordAt hType, ofWord_of_wordAt hObject,
    List.drop_zero]
  exact hWords.symm

/-- A header can be written if every reader accepts the announced length. -/
theorem Header.begin_eq_ok {length : UInt64} {type : TypeId} {object : ObjectId} {bytes : Bytes} :
    Header.begin ⟨length, type, object⟩ = .ok bytes ↔
      length.toNat ≤ maxContentLength.toNat ∧ bytes = Header.write ⟨length, type, object⟩ := by
  unfold Header.begin
  split
  · rename_i hLarge
    rw [UInt64.lt_iff_toNat_lt] at hLarge
    constructor
    · intro h
      cases h
    · intro h
      exact absurd h.1 (Nat.not_le_of_lt hLarge)
  · rename_i hSmall
    rw [UInt64.lt_iff_toNat_lt] at hSmall
    rw [Except.ok.injEq]
    constructor
    · intro h
      exact ⟨Nat.le_of_not_lt hSmall, h.symm⟩
    · intro h
      exact h.2.symm

namespace Record

/-- A record with a content of the length that a header states has this
header. -/
theorem header_of_length {header : Header} {content : Bytes}
    (h : content.length = header.length.toNat) :
    Record.header ⟨header.type, header.object, content⟩ = header := by
  simp only [Record.header, length, h, UInt64.ofNat_toNat]

/-- What is read as a record is its written form. -/
theorem encode_of_parse {bytes : Bytes} {r : Record} (h : parse bytes = .ok r) :
    r.encode = bytes := by
  obtain ⟨header, hRead, h⟩ := bind_eq_ok.1 h
  dsimp only at h
  split at h
  · rename_i hLength
    cases h
    rw [encode, header_of_length hLength, Header.write_of_read hRead, List.take_append_drop]
  · cases h

end Record

namespace Chunk

theorem acceptable_of_takeRecord {position : Nat} {bytes : Bytes} {r : Record}
    (h : takeRecord position bytes = .ok r) : Acceptable r := by
  unfold takeRecord at h
  split at h
  · cases h
  · split at h
    · cases h
    · rename_i header _
      split at h
      · cases h
      · rename_i hPossible
        rw [UInt64.lt_iff_toNat_lt] at hPossible
        simp only at h
        split at h
        · cases h
        · cases h
          simp only [Acceptable, List.length_take, List.length_drop]
          omega

theorem acceptable_of_mem_splitFrom (position : Nat) (bytes : Bytes) :
    ∀ r ∈ (splitFrom position bytes).records, Acceptable r := by
  fun_induction splitFrom position bytes with
  | case1 => simp
  | case2 => simp
  | case3 position bytes hNot record hTake size chunk ih =>
      intro r hr
      rcases List.mem_cons.1 hr with rfl | hIn
      · exact acceptable_of_takeRecord hTake
      · exact ih r hIn

theorem acceptable_of_mem_split {bytes : Bytes} : ∀ r ∈ (split bytes).records, Acceptable r :=
  acceptable_of_mem_splitFrom 0 bytes

/-! ## What was split off -/

/-- The written form of the record at the front is the front. -/
theorem encode_of_takeRecord {position : Nat} {bytes : Bytes} {r : Record}
    (h : takeRecord position bytes = .ok r) :
    r.encode = bytes.take (Header.size + r.content.length) := by
  unfold takeRecord at h
  split at h
  · cases h
  · split at h
    · cases h
    · rename_i header hRead
      split at h
      · cases h
      · simp only at h
        split at h
        · cases h
        · rename_i hWhole
          cases h
          have hLength : ((bytes.drop Header.size).take header.length.toNat).length =
              header.length.toNat := by
            rw [List.length_take] at hWhole ⊢
            omega
          rw [Record.encode, Record.header_of_length hLength, Header.write_of_read hRead, hLength,
            List.take_add]

theorem join_of_splitFrom {position : Nat} {bytes : Bytes}
    (h : (splitFrom position bytes).fault = none) :
    join (splitFrom position bytes).records = bytes := by
  fun_induction splitFrom position bytes with
  | case1 => rfl
  | case2 => cases h
  | case3 position bytes hNot record hTake size chunk ih =>
      have hRest : join chunk.records = bytes.drop size := ih h
      show record.encode ++ join chunk.records = bytes
      rw [encode_of_takeRecord hTake, hRest, List.take_append_drop]

/-- A chunk without fault consists of its records. -/
theorem join_of_split {bytes : Bytes} (h : (split bytes).fault = none) :
    join (split bytes).records = bytes := join_of_splitFrom h

/-! ## Records that fit -/

theorem fits_of_acceptable {r : Record} (h : Acceptable r) : r.Fits := by
  have hMaxContent : maxContentLength.toNat = 1073741824 := by decide
  have hMax : Word.max.toNat = 18446744073709551615 := by decide
  unfold Acceptable at h
  unfold Record.Fits
  omega

/-- The header of a record that readers accept can be written, and no other
one. The length in it stops at the largest word. -/
theorem begin_eq_ok {r : Record} {length : UInt64} {front : Bytes}
    (hLength : length.toNat = min r.content.length Word.max.toNat) :
    Header.begin ⟨length, r.type, r.object⟩ = .ok front ↔
      Acceptable r ∧ front = r.header.write := by
  have hMaxContent : maxContentLength.toNat = 1073741824 := by decide
  have hMax : Word.max.toNat = 18446744073709551615 := by decide
  have hSmall : length.toNat ≤ maxContentLength.toNat ↔ Acceptable r := by
    show _ ↔ r.content.length ≤ _
    omega
  rw [Header.begin_eq_ok, hSmall]
  refine and_congr_right fun hAcceptable => ?_
  have hContent : r.content.length ≤ maxContentLength.toNat := hAcceptable
  have hSame : r.length = length := by
    apply UInt64.toNat.inj
    rw [Record.toNat_length (fits_of_acceptable hAcceptable)]
    omega
  rw [Record.header, hSame]

/-- A record with too much content is not read. -/
theorem takeRecord_of_not_acceptable {r : Record} (hFits : r.Fits) (h : ¬Acceptable r)
    (position : Nat) (back : Bytes) :
    takeRecord position (r.encode ++ back) = .error (.impossibleLength r.object r.length) := by
  have hRead : Header.read (r.encode ++ back) = .ok r.header := by
    rw [Record.encode, List.append_assoc]
    exact Header.read_write _ _
  have hFront : ¬((r.encode ++ back).take Header.size).length < Header.size := by
    have hLength := Record.length_encode r
    simp only [List.length_take, List.length_append]
    omega
  have hLong : maxContentLength < r.length := by
    rw [UInt64.lt_iff_toNat_lt, Record.toNat_length hFits]
    exact Nat.lt_of_not_le h
  rw [takeRecord, if_neg hFront, hRead]
  exact if_pos hLong

theorem acceptable_of_splitFrom_join {records : List Record} (hFits : ∀ r ∈ records, r.Fits)
    {position : Nat} (h : (splitFrom position (join records)).fault = none) :
    ∀ r ∈ records, Acceptable r := by
  induction records generalizing position with
  | nil => simp
  | cons r rest ih =>
      have hNot : join (r :: rest) ≠ [] := by
        intro hNil
        have hLength := congrArg List.length hNil
        simp [join, Record.length_encode, Header.size] at hLength
      have hFront : join (r :: rest) = r.encode ++ join rest := List.flatMap_cons
      rw [splitFrom, dif_neg hNot, hFront] at h
      by_cases hHead : Acceptable r
      · rw [takeRecord_encode hHead] at h
        simp only [← Record.length_encode r, List.drop_left] at h
        exact List.forall_mem_cons.2
          ⟨hHead, ih (fun r' hr' => hFits r' (List.mem_cons_of_mem _ hr')) h⟩
      · rw [takeRecord_of_not_acceptable (hFits r List.mem_cons_self) hHead] at h
        cases h

/-- If a chunk of records can be split to its end, all of them are
acceptable. -/
theorem acceptable_of_split_join {records : List Record} (hFits : ∀ r ∈ records, r.Fits)
    (h : (split (join records)).fault = none) : ∀ r ∈ records, Acceptable r :=
  acceptable_of_splitFrom_join hFits h

theorem fault_of_toExcept {chunk : Chunk} {records : List Record}
    (h : chunk.toExcept = .ok records) : chunk.fault = none := by
  unfold toExcept at h
  split at h
  · assumption
  · cases h

/-- Different records have different written forms. -/
theorem encode_inj {r r' : Record} (h : Acceptable r) (h' : Acceptable r')
    (hSame : r.encode = r'.encode) : r = r' := by
  have hParse := Record.parse_encode (fits_of_acceptable h)
  rw [hSame, Record.parse_encode (fits_of_acceptable h')] at hParse
  exact (Except.ok.inj hParse).symm

end Chunk

end ObjectStore
