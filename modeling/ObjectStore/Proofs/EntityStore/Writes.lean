import ObjectStore.Proofs.EntityStore.RootList
import ObjectStore.Proofs.Record.Chunk
import ObjectStore.Proofs.Registry.Registration

/-!
# What an entity store consists of

A store is written to by committing chunks and by saving dictionaries. A
chunk whose bytes cannot be split, or whose root list cannot be written,
leaves no trace. Of any other chunk each record is kept under its object, the
last one if there are several. So the bytes of a store are those of one record
for each object, in ascending order, whatever the records say, and its root
list can be read.

## Main results

* `EntityStore.Arranged.lists`: the bytes of a store as a list of records.
* `EntityStore.record?_committed`: the records after a commit.
* `EntityStore.start_commit_of_committed`: what a commit makes of a store.
* `EntityStore.arranged_writeAll`, `EntityStore.readable_writeAll`: what has been
  written to a store.
-/

namespace ObjectStore

open Std

namespace EntityStore

variable {s : EntityStore}

/-! ## Records by object -/

/-- The stored bytes are those of the records, one for each object. -/
structure Lists (s : EntityStore) (records : List Record) : Prop where
  bytes : s.records = Chunk.join records
  acceptable : ∀ r ∈ records, Chunk.Acceptable r
  stored : ∀ r ∈ records, s.record? r.object = some r.encode
  complete : ∀ id, (s.record? id).isSome = true → ∃ r ∈ records, r.object = id
  nodup : (records.map Record.object).Nodup
  size : records.length = s.size

/-- The stored bytes are split into the records again. -/
theorem Lists.split {records : List Record} (h : s.Lists records) :
    Chunk.split s.records = ⟨records, none⟩ := by
  rw [h.bytes]
  exact Chunk.split_join h.acceptable

/-- A store consists of one list of records. -/
theorem Lists.unique {records records' : List Record} (h : s.Lists records)
    (h' : s.Lists records') : records' = records := by
  have hSame := h.split.symm.trans h'.split
  cases hSame
  rfl

/-- An entry of a store is the written form of a record of its object. -/
def Written (entry : ObjectId × Bytes) (r : Record) : Prop :=
  entry.2 = r.encode ∧ Chunk.Acceptable r ∧ r.object = entry.1

/-- Every entry of the store is the written form of a record. -/
def Arranged (s : EntityStore) : Prop :=
  ∀ id bytes, s.record? id = some bytes → ∃ r, Written (id, bytes) r

/-- The records are of different objects, in ascending order. -/
def Ascending (records : List Record) : Prop :=
  records.Pairwise fun r r' => r.object.value < r'.object.value

theorem Ascending.nodup {records : List Record} (h : Ascending records) :
    (records.map Record.object).Nodup := by
  rw [List.Nodup, List.pairwise_map]
  refine h.imp fun hLess hSame => ?_
  rw [hSame] at hLess
  exact absurd hLess (UInt64.lt_irrefl _)

theorem flatMap_of_written {entries : List (ObjectId × Bytes)} {records : List Record}
    (h : List.Forall₂ Written entries records) :
    entries.flatMap Prod.snd = Chunk.join records ∧
      entries.map Prod.fst = records.map Record.object := by
  induction h with
  | nil => exact ⟨rfl, rfl⟩
  | cons hHead _ ih =>
      obtain ⟨hBytes, -, hObject⟩ := hHead
      obtain ⟨hJoin, hObjects⟩ := ih
      constructor
      · rw [List.flatMap_cons, hBytes, hJoin]
        rfl
      · rw [List.map_cons, List.map_cons, hObjects, hObject]

/-- The entries of a store are the written forms of records, in ascending
order. -/
theorem Arranged.lists (h : s.Arranged) : ∃ records, s.Lists records ∧ Ascending records := by
  have hEach : ∀ entry ∈ s.entities.toList, ∃ r, Written entry r := by
    rintro ⟨id, bytes⟩ hEntry
    exact h id bytes (ExtTreeMap.mem_toList_iff_getElem?_eq_some.1 hEntry)
  obtain ⟨records, hWritten⟩ := forall₂_of_exists hEach
  obtain ⟨hBytes, hObjects⟩ := flatMap_of_written hWritten
  have hKeys : records.map Record.object = s.entities.keys := by
    rw [← hObjects, ExtTreeMap.map_fst_toList_eq_keys]
  refine ⟨records, ⟨hBytes, ?_, ?_, ?_, ?_, ?_⟩, ?_⟩
  · intro r hr
    obtain ⟨entry, -, -, hAcceptable, -⟩ := forall₂_exists_left hWritten hr
    exact hAcceptable
  · intro r hr
    obtain ⟨⟨id, bytes⟩, hEntry, hEncode, -, hObject⟩ := forall₂_exists_left hWritten hr
    have hGet : s.record? id = some bytes := ExtTreeMap.mem_toList_iff_getElem?_eq_some.1 hEntry
    rw [hObject, hGet]
    exact congrArg some hEncode
  · intro id hStored
    obtain ⟨bytes, hGet⟩ := Option.isSome_iff_exists.1 hStored
    have hEntry := ExtTreeMap.mem_toList_iff_getElem?_eq_some.2 hGet
    obtain ⟨r, hr, -, -, hObject⟩ := forall₂_exists_right hWritten hEntry
    exact ⟨r, hr, hObject⟩
  · rw [hKeys]
    exact ExtTreeMap.nodup_keys
  · rw [← hWritten.length_eq]
    exact ExtTreeMap.length_toList
  · have hOrdered := ExtTreeMap.ordered_keys (t := s.entities)
    rw [← hKeys, List.pairwise_map] at hOrdered
    refine hOrdered.imp ?_
    intro r r' hLess
    show r.object.value < r'.object.value
    exact compare_eq_lt.1 hLess

/-! ## Commits -/

/-- The store with records, roots and a counter in place of former ones, and
with another dictionary if there is one. -/
def committed (s : EntityStore) (records : List Record) (roots : List ObjectId) (next : UInt64)
    (dictionary : Option Dictionary) : EntityStore where
  entities := records.foldl (fun es r => es.insert r.object r.encode) s.entities
  rootList := some (RootList.codec.write roots)
  dictionaryFile := (dictionary.map fun d => ⟨d.encode.toArray⟩).or s.dictionaryFile
  counter := some (max next s.next)
  next := max next s.next
  mirrored := rfl

section

variable {records : List Record} {roots : List ObjectId} {next : UInt64}
  {dictionary : Option Dictionary} {chunk : StoredChunk} {id : ObjectId}

/-- A chunk that can be split is committed, if its root list can be
written. -/
theorem start_commit (hSplit : Chunk.split chunk.bytes = ⟨records, none⟩)
    (hFits : RootList.Fits chunk.roots) :
    (commit chunk next dictionary).start s =
      (.ok (), s.committed records chunk.roots next dictionary) := by
  apply Attempt.start_modify_ok
  simp only [hSplit, Chunk.toExcept, RootList.write, if_pos hFits]
  cases dictionary with
  | some d => rfl
  | none => rfl

/-- A commit whose root list cannot be written changes nothing. -/
theorem start_commit_of_not_fits (hSplit : Chunk.split chunk.bytes = ⟨records, none⟩)
    (hLong : ¬RootList.Fits chunk.roots) :
    ∃ e, (commit chunk next dictionary).start s = (.error e, s) := by
  obtain ⟨e, hWrite⟩ : ∃ e, RootList.write chunk.roots = .error e := ⟨_, if_neg hLong⟩
  refine ⟨e, Attempt.start_modify_error ?_⟩
  simp only [hSplit, Chunk.toExcept, hWrite]
  rfl

/-- The roots of a commit are read back. -/
theorem readRoots_committed (hFits : RootList.Fits roots) :
    (s.committed records roots next dictionary).readRoots = .ok roots :=
  readRoots_of_write rfl hFits

/-- The record of an object is one of the committed records, or the former
one if none of them is of the object. -/
theorem record?_committed (s : EntityStore) (records : List Record) (roots : List ObjectId)
    (next : UInt64) (dictionary : Option Dictionary) (id : ObjectId) :
    (∃ r ∈ records, r.object = id ∧
        (s.committed records roots next dictionary).record? id = some r.encode) ∨
      (∀ r ∈ records, r.object ≠ id) ∧
        (s.committed records roots next dictionary).record? id = s.record? id :=
  getElem?_foldl_insert Record.object Record.encode records s.entities id

theorem isSome_record?_committed (hOld : (s.record? id).isSome = true) :
    ((s.committed records roots next dictionary).record? id).isSome = true := by
  rcases record?_committed s records roots next dictionary id with ⟨r, -, -, hGet⟩ | ⟨-, hGet⟩
  · rw [hGet]
    rfl
  · rw [hGet]
    exact hOld

theorem isSome_record?_of_mem {r : Record} (hr : r ∈ records) :
    ((s.committed records roots next dictionary).record? r.object).isSome = true := by
  rcases record?_committed s records roots next dictionary r.object with
    ⟨r', -, -, hGet⟩ | ⟨hNone, -⟩
  · rw [hGet]
    rfl
  · exact absurd rfl (hNone r hr)

end

/-- What a commit that succeeds puts into a store. -/
structure Committed where
  records : List Record
  roots : List ObjectId
  next : UInt64
  acceptable : ∀ r ∈ records, Chunk.Acceptable r
  fits : RootList.Fits roots

/-- What the commit of a chunk puts into a store: nothing if the chunk cannot
be split, or if its root list cannot be written. -/
def committed? (chunk : StoredChunk) (next : UInt64) : Option Committed :=
  if h : (Chunk.split chunk.bytes).fault = none ∧ RootList.Fits chunk.roots then
    some ⟨(Chunk.split chunk.bytes).records, chunk.roots, next, Chunk.acceptable_of_mem_split, h.2⟩
  else none

variable {chunk : StoredChunk} {next : UInt64} {dictionary : Option Dictionary} {c : Committed}

theorem committed?_eq_some : committed? chunk next = some c ↔
    Chunk.split chunk.bytes = ⟨c.records, none⟩ ∧ chunk.roots = c.roots ∧ next = c.next := by
  unfold committed?
  split
  · rename_i hOk
    constructor
    · rintro ⟨⟩
      refine ⟨?_, rfl, rfl⟩
      show Chunk.split chunk.bytes = ⟨(Chunk.split chunk.bytes).records, none⟩
      rw [← hOk.1]
    · rintro ⟨hSplit, hRoots, rfl⟩
      obtain ⟨records, roots, next, hAcceptable, hFits⟩ := c
      simp only [hSplit, hRoots]
  · rename_i hNot
    constructor
    · intro h
      cases h
    · rintro ⟨hSplit, hRoots, -⟩
      refine absurd ⟨?_, ?_⟩ hNot
      · rw [hSplit]
      · rw [hRoots]
        exact c.fits

/-- Which commits put something into a store. -/
theorem isSome_committed? : (committed? chunk next).isSome = true ↔
    (Chunk.split chunk.bytes).fault = none ∧ RootList.Fits chunk.roots := by
  unfold committed?
  split
  · rename_i hOk
    simp [hOk]
  · rename_i hNot
    simp [hNot]

/-- A commit puts its records into the store. -/
theorem start_commit_of_committed (h : committed? chunk next = some c) (s : EntityStore)
    (dictionary : Option Dictionary) :
    (commit chunk next dictionary).start s =
      (.ok (), s.committed c.records c.roots c.next dictionary) := by
  obtain ⟨hSplit, hRoots, rfl⟩ := committed?_eq_some.1 h
  have hFits : RootList.Fits chunk.roots := hRoots ▸ c.fits
  rw [start_commit hSplit hFits, hRoots]

/-- Any other commit fails, and leaves the store as it is. -/
theorem start_commit_of_not_committed (h : committed? chunk next = none) (s : EntityStore)
    (dictionary : Option Dictionary) :
    ∃ e, (commit chunk next dictionary).start s = (.error e, s) := by
  have hNot : ¬((Chunk.split chunk.bytes).fault = none ∧ RootList.Fits chunk.roots) := by
    rw [← @isSome_committed? chunk next, h]
    simp
  cases hSplit : Chunk.split chunk.bytes with
  | mk records fault =>
      cases fault with
      | none => exact start_commit_of_not_fits hSplit fun hFits => hNot ⟨by rw [hSplit], hFits⟩
      | some cause =>
          refine ⟨.corruptRecord cause, start_commit_error ?_⟩
          simp only [Chunk.toExcept, hSplit]

/-- A commit succeeds exactly if its chunk can be split and its root list can
be written. -/
theorem start_commit_ok :
    ((commit chunk next dictionary).start s).1 = .ok () ↔
      (Chunk.split chunk.bytes).fault = none ∧ RootList.Fits chunk.roots := by
  rw [← @isSome_committed? chunk next]
  cases hCommitted : committed? chunk next with
  | some c => simp [start_commit_of_committed hCommitted]
  | none =>
      obtain ⟨e, hError⟩ := start_commit_of_not_committed hCommitted s dictionary
      simp [hError]

/-- A commit that fails changes nothing. -/
theorem start_commit_failed {e : Error}
    (h : ((commit chunk next dictionary).start s).1 = .error e) :
    ((commit chunk next dictionary).start s).2 = s := by
  cases hCommitted : committed? chunk next with
  | some c =>
      rw [start_commit_of_committed hCommitted] at h
      cases h
  | none =>
      obtain ⟨e, hError⟩ := start_commit_of_not_committed hCommitted s dictionary
      rw [hError]

/-! ## Writes -/

/-- What is done to a store. -/
inductive Write where
  | commit (chunk : StoredChunk) (next : UInt64) (dictionary : Option Dictionary)
  | saveDictionary (d : Dictionary)

/-- The store after something was done to it, whether it has succeeded or
not. -/
def write (s : EntityStore) : Write → EntityStore
  | .commit chunk next dictionary => ((commit chunk next dictionary).start s).2
  | .saveDictionary d => s.saveDictionary d

/-- The store to which all this was done, one after the other. -/
def writeAll (writes : List Write) : EntityStore := writes.foldl write empty

/-- What every write keeps, a store has, whatever was written to it. -/
theorem writeAll_keeps {P : EntityStore → Prop} (hEmpty : P empty)
    (hWrite : ∀ s action, P s → P (s.write action)) (writes : List Write) :
    P (writeAll writes) := by
  have hAll : ∀ s : EntityStore, P s → P (writes.foldl write s) := by
    induction writes with
    | nil => exact fun s h => h
    | cons first rest ih => exact fun s h => ih _ (hWrite s first h)
  exact hAll empty hEmpty

@[simp] theorem record?_empty (id : ObjectId) : empty.record? id = none :=
  ExtTreeMap.getElem?_empty

theorem arranged_empty : empty.Arranged := by
  intro id bytes hGet
  simp at hGet

/-- Whatever is written to a store, its entries are records. -/
theorem Arranged.write (h : s.Arranged) (action : Write) : (s.write action).Arranged := by
  cases action with
  | saveDictionary d => exact h
  | commit chunk next dictionary =>
      cases hCommitted : committed? chunk next with
      | none =>
          obtain ⟨e, hFailed⟩ := start_commit_of_not_committed hCommitted s dictionary
          rw [EntityStore.write, hFailed]
          exact h
      | some c =>
          intro id bytes hGet
          rw [EntityStore.write, start_commit_of_committed hCommitted] at hGet
          rcases record?_committed s c.records c.roots c.next dictionary id with
            ⟨r, hr, hObject, hNew⟩ | ⟨-, hOld⟩
          · cases hNew.symm.trans hGet
            exact ⟨r, rfl, c.acceptable r hr, hObject⟩
          · exact h id bytes (hOld.symm.trans hGet)

theorem arranged_writeAll (writes : List Write) : (writeAll writes).Arranged :=
  writeAll_keeps arranged_empty (fun _ action h => h.write action) writes

/-- The root list of the store can be read. -/
def Readable (s : EntityStore) : Prop := s.readRoots = .ok s.roots

theorem readable_of_readRoots {roots : List ObjectId} (h : s.readRoots = .ok roots) :
    s.Readable := by
  rw [Readable, roots_eq h]
  exact h

theorem readable_empty : empty.Readable := rfl

/-- Whatever is written to a store, its root list can be read. -/
theorem Readable.write (h : s.Readable) (action : Write) : (s.write action).Readable := by
  cases action with
  | saveDictionary d => exact h
  | commit chunk next dictionary =>
      cases hCommitted : committed? chunk next with
      | none =>
          obtain ⟨e, hFailed⟩ := start_commit_of_not_committed hCommitted s dictionary
          rw [EntityStore.write, hFailed]
          exact h
      | some c =>
          rw [EntityStore.write, start_commit_of_committed hCommitted]
          exact readable_of_readRoots (readRoots_committed c.fits)

theorem readable_writeAll (writes : List Write) : (writeAll writes).Readable :=
  writeAll_keeps readable_empty (fun _ action h => h.write action) writes

end EntityStore

end ObjectStore
