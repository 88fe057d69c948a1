import ObjectStore.Proofs.EntityStore.Writes
import ObjectStore.Proofs.Host.Reopening

/-!
# The last write wins

A store is a map from objects to records. What it holds is told by the
commits that have succeeded, in their order: of each object the record that
was committed last, the root list of the last commit, and the greatest counter
of all. A commit that fails is none of them.

A store is closed and opened again through the disk, which keeps its tables
only. The roots are decoded from what was written of them, and the counter in
memory is read again from the tables, where each commit has put it as well. So
this goes unnoticed.

## Main results

* `EntityStore.Follows.write`: what one write does to a store that follows a
  log of commits.
* `EntityStore.Follows.latest`: what can be read from a store that follows a
  log.
* `EntityStore.run_latest`: what can be read from a store after any number of
  writes, with any number of reopenings in between.
-/

namespace ObjectStore

namespace EntityStore

/-! ## Logs of commits -/

/-- What a write commits. -/
def Write.committed? : Write → Option Committed
  | .commit chunk next _ => EntityStore.committed? chunk next
  | .saveDictionary _ => none

/-- The record of an object that was committed last. -/
def last? (log : List Committed) (id : ObjectId) : Option Record :=
  (log.flatMap Committed.records).reverse.find? (·.object = id)

/-- The counters of a log, among them the one of a store in which nothing was
committed. -/
def counters (log : List Committed) : List UInt64 :=
  ObjectId.first.value :: log.map Committed.next

/-- The store holds what the log says. -/
structure Follows (log : List Committed) (s : EntityStore) : Prop where
  record : ∀ id, s.record? id = (last? log id).map Record.encode
  roots : s.readRoots = .ok ((log.getLast?.map Committed.roots).getD [])
  reached : s.next ∈ counters log
  greatest : ∀ n ∈ counters log, n ≤ s.next

variable {log : List Committed} {s : EntityStore}

theorem last?_object {id : ObjectId} {r : Record} (h : last? log id = some r) : r.object = id := by
  simpa using List.find?_some h

theorem last?_acceptable {id : ObjectId} {r : Record} (h : last? log id = some r) :
    Chunk.Acceptable r := by
  have hr := List.mem_reverse.1 (List.mem_of_find?_eq_some h)
  obtain ⟨c, -, hr⟩ := List.mem_flatMap.1 hr
  exact c.acceptable r hr

/-- The last record is one of the last commit if that has one of the object. -/
theorem last?_append (c : Committed) (id : ObjectId) :
    last? (log ++ [c]) id = (c.records.reverse.find? (·.object = id)).or (last? log id) := by
  rw [last?, List.flatMap_append, List.reverse_append, List.find?_append, List.flatMap_singleton]
  rfl

/-! ## One write -/

theorem follows_empty : Follows [] empty where
  record := fun id => by simp [last?]
  roots := rfl
  reached := List.mem_singleton.2 rfl
  greatest := by
    intro n hn
    rw [List.mem_singleton.1 hn]
    exact UInt64.le_refl _

/-- The store after a commit follows the log with that commit at its end. -/
theorem Follows.committed (h : Follows log s) (c : Committed) (dictionary : Option Dictionary) :
    Follows (log ++ [c]) (s.committed c.records c.roots c.next dictionary) := by
  have hCounters : ∀ n, n ∈ counters (log ++ [c]) ↔ n ∈ counters log ∨ n = c.next := by
    intro n
    simp only [counters, List.map_append, List.map_singleton, ← List.cons_append,
      List.mem_append, List.mem_singleton]
  have hMax : (s.committed c.records c.roots c.next dictionary).next =
      if c.next ≤ s.next then s.next else c.next := rfl
  refine ⟨?_, ?_, ?_, ?_⟩
  · intro id
    show (c.records.foldl (fun es r => es.insert r.object r.encode) s.entities)[id]? = _
    rw [getElem?_foldl_insert_last, last?_append, Option.map_or, ← h.record]
    rfl
  · rw [readRoots_committed c.fits, List.getLast?_concat]
    rfl
  · rw [hMax, hCounters]
    split
    · exact .inl h.reached
    · exact .inr rfl
  · intro n hn
    rw [hMax]
    rcases (hCounters n).1 hn with hOld | rfl
    · have hLe := h.greatest n hOld
      split
      · exact hLe
      · rename_i hNot
        exact UInt64.le_trans hLe (UInt64.le_of_lt (UInt64.not_le.1 hNot))
    · split
      · assumption
      · exact UInt64.le_refl _

/-- What one write does: a commit that succeeds is added to the log, and
everything else leaves it as it is. -/
theorem Follows.write (h : Follows log s) (w : Write) :
    Follows (log ++ w.committed?.toList) (s.write w) := by
  cases w with
  | saveDictionary d =>
      rw [Write.committed?, Option.toList_none, List.append_nil]
      exact ⟨h.record, h.roots, h.reached, h.greatest⟩
  | commit chunk next dictionary =>
      rw [Write.committed?, EntityStore.write]
      cases hCommitted : EntityStore.committed? chunk next with
      | some c =>
          rw [start_commit_of_committed hCommitted]
          exact h.committed c dictionary
      | none =>
          obtain ⟨e, hFailed⟩ :=
            start_commit_of_not_committed hCommitted s dictionary
          rw [hFailed, Option.toList_none, List.append_nil]
          exact h

/-- Of a store that is closed and opened again, the tables are left and the
mirror is made anew. It is what it was, since every commit sets both. -/
theorem Follows.reopened (h : Follows log s) : Follows log (opened s.toStoreTables) := by
  rw [opened_toStoreTables]
  exact h

/-! ## What can be read -/

/-- What can be read from a store: the last record of every object, in
ascending order and one by one, the last roots, and the greatest counter. -/
structure Latest (log : List Committed) (s : EntityStore) : Prop extends Follows log s where
  records : ∃ records, Ascending records ∧
    (∀ r, r ∈ records ↔ last? log r.object = some r) ∧
    s.records = Chunk.join records ∧ Chunk.split s.records = ⟨records, none⟩ ∧
    s.size = records.length

theorem Follows.arranged (h : Follows log s) : s.Arranged := by
  intro id bytes hGet
  rw [h.record, Option.map_eq_some_iff] at hGet
  obtain ⟨r, hLast, rfl⟩ := hGet
  exact ⟨r, rfl, last?_acceptable hLast, last?_object hLast⟩

theorem Follows.latest (h : Follows log s) : Latest log s := by
  obtain ⟨records, hLists, hAscending⟩ := h.arranged.lists
  refine ⟨h, records, hAscending, ?_, hLists.bytes, hLists.split, hLists.size.symm⟩
  intro r
  constructor
  · intro hr
    have hStored := hLists.stored r hr
    rw [h.record, Option.map_eq_some_iff] at hStored
    obtain ⟨r', hLast, hSame⟩ := hStored
    rw [hLast, Chunk.encode_inj (last?_acceptable hLast) (hLists.acceptable r hr) hSame]
  · intro hLast
    have hRecord := h.record r.object
    rw [hLast, Option.map_some] at hRecord
    obtain ⟨r', hr', hObject⟩ := hLists.complete r.object (by rw [hRecord]; rfl)
    have hSame := hLists.stored r' hr'
    rw [hObject, hRecord] at hSame
    rw [Chunk.encode_inj (last?_acceptable hLast) (hLists.acceptable r' hr')
      (Option.some.inj hSame)]
    exact hr'

/-! ## Histories -/

/-- What happens to a store that is kept on a disk. -/
inductive Step where
  | write (w : Write)
  | reopen

/-- The commits of a history that succeed. -/
def commits (steps : List Step) : List Committed :=
  steps.flatMap fun step =>
    match step with
    | .write w => w.committed?.toList
    | .reopen => []

/-- A store that is open, by the number of its file. The disk does not know
yet what became of the store. -/
structure Opened where
  number : Nat
  store : EntityStore
  disk : Disk

namespace Opened

variable {path : String} {o : Opened}

/-- One step of a store that is open under a path. -/
def step (path : String) (o : Opened) : Step → Except StoreFault Opened
  | .write w => .ok { o with store := o.store.write w }
  | .reopen => do
      let ((number, store), disk) ← (o.disk.closeStore o.number o.store).openStore path
      return ⟨number, store, disk⟩

/-- A history of a store that is open under a path. -/
def run (path : String) (o : Opened) (steps : List Step) : Except StoreFault Opened :=
  steps.foldlM (step path) o

/-- The store was opened under the path, as whatever it then was. -/
def Held (path : String) (o : Opened) : Prop :=
  ∃ (d : Disk) (s : EntityStore), d.openStore path = .ok ((o.number, s), o.disk)

/-- A step does not fail, and after it the log is the one that the step makes
of it. -/
theorem step_follows (hHeld : o.Held path) (h : Follows log o.store) (action : Step) :
    ∃ o', o.step path action = .ok o' ∧ o'.Held path ∧
      Follows (log ++ commits [action]) o'.store := by
  cases action with
  | write w =>
      refine ⟨{ o with store := o.store.write w }, rfl, hHeld, ?_⟩
      rw [commits, List.flatMap_singleton]
      exact h.write w
  | reopen =>
      obtain ⟨d, s, hOpen⟩ := hHeld
      obtain ⟨disk, hAgain⟩ := Disk.reopen hOpen o.store
      refine ⟨⟨o.number, opened o.store.toStoreTables, disk⟩, ?_, ⟨_, _, hAgain⟩, ?_⟩
      · rw [step, hAgain]
        rfl
      · rw [commits, List.flatMap_singleton, List.append_nil]
        exact h.reopened

theorem run_follows (steps : List Step) (hHeld : o.Held path) (h : Follows log o.store) :
    ∃ o', o.run path steps = .ok o' ∧ Follows (log ++ commits steps) o'.store := by
  induction steps generalizing o log with
  | nil => exact ⟨o, rfl, by rw [commits, List.flatMap_nil, List.append_nil]; exact h⟩
  | cons action rest ih =>
      obtain ⟨next, hStep, hNext, hFollows⟩ := step_follows hHeld h action
      obtain ⟨last, hRest, hLast⟩ := ih hNext hFollows
      refine ⟨last, ?_, ?_⟩
      · rw [run, List.foldlM_cons, hStep]
        exact hRest
      · have hCommits : commits (action :: rest) = commits [action] ++ commits rest := by
          simp only [commits, List.flatMap_cons, List.flatMap_nil, List.append_nil]
        rw [hCommits, ← List.append_assoc]
        exact hLast

end Opened

/-- After any history of a store that was empty when it was first opened,
every object has the record that was committed last, whichever way one asks
for it; the roots are those of the last commit, and the counter is the
greatest of all. A further commit fails only if its chunk cannot be split, or
if its root list is longer than any that can be written; then it changes
nothing. -/
theorem run_latest {d d' : Disk} {path : String} {number : Nat}
    (hOpen : d.openStore path = .ok ((number, empty), d')) (steps : List Step) :
    ∃ o, Opened.run path ⟨number, empty, d'⟩ steps = .ok o ∧ Latest (commits steps) o.store ∧
      (∀ chunk next dictionary, ((commit chunk next dictionary).start o.store).1 = .ok () ↔
        (Chunk.split chunk.bytes).fault = none ∧ RootList.Fits chunk.roots) ∧
      (∀ roots : List ObjectId, roots.length < 1152921504606846976 → RootList.Fits roots) ∧
      (∀ chunk next dictionary e, ((commit chunk next dictionary).start o.store).1 = .error e →
        ((commit chunk next dictionary).start o.store).2 = o.store) := by
  have hHeld : Opened.Held path ⟨number, empty, d'⟩ := ⟨d, empty, hOpen⟩
  obtain ⟨o, hRun, hFollows⟩ := Opened.run_follows steps hHeld follows_empty
  rw [List.nil_append] at hFollows
  exact ⟨o, hRun, hFollows.latest, fun _ _ _ => start_commit_ok,
    fun _ hLength => RootList.fits_of_length hLength, fun _ _ _ _ => start_commit_failed⟩

/-! ## A store on a shelf -/

/-- Three records of two objects. -/
def early : List Record := [⟨⟨1001⟩, ⟨1⟩, [1, 2, 3]⟩, ⟨⟨1001⟩, ⟨2⟩, []⟩, ⟨⟨1002⟩, ⟨1⟩, [4]⟩]

/-- A longer record of one of them. -/
def late : List Record := [⟨⟨1001⟩, ⟨1⟩, [5, 6, 7, 8]⟩]

theorem acceptable_early : ∀ r ∈ early, Chunk.Acceptable r := by
  unfold early Chunk.Acceptable
  decide

theorem acceptable_late : ∀ r ∈ late, Chunk.Acceptable r := by
  unfold late Chunk.Acceptable
  decide

/-- The early records are committed and, after one that is cut off and after
the store was opened again, the late ones with a smaller counter. -/
def shelved : List Step :=
  [.write (.commit ⟨Chunk.join early, [⟨2⟩, ⟨1⟩, ⟨2⟩], 3⟩ 5 (some .empty)),
    .write (.commit ⟨[8], [⟨3⟩], 1⟩ 9 none), .reopen,
    .write (.commit ⟨Chunk.join late, [⟨1⟩, ⟨1⟩], 1⟩ 3 none), .write (.saveDictionary .empty),
    .reopen]

/-- What the early records put into the store. -/
def earlyCommit : Committed :=
  ⟨early, [⟨2⟩, ⟨1⟩, ⟨2⟩], 5, acceptable_early, RootList.fits_of_length (by decide)⟩

/-- What the late ones put into it. -/
def lateCommit : Committed :=
  ⟨late, [⟨1⟩, ⟨1⟩], 3, acceptable_late, RootList.fits_of_length (by decide)⟩

theorem commits_shelved : commits shelved = [earlyCommit, lateCommit] := by
  have hEarly : committed? ⟨Chunk.join early, [⟨2⟩, ⟨1⟩, ⟨2⟩], 3⟩ 5 = some earlyCommit :=
    committed?_eq_some.2 ⟨Chunk.split_join acceptable_early, rfl, rfl⟩
  have hLate : committed? ⟨Chunk.join late, [⟨1⟩, ⟨1⟩], 1⟩ 3 = some lateCommit :=
    committed?_eq_some.2 ⟨Chunk.split_join acceptable_late, rfl, rfl⟩
  have hCut : committed? ⟨[8], [⟨3⟩], 1⟩ 9 = none := by
    have hSplit : Chunk.split [8] = ⟨[], some (.truncatedHeader 0)⟩ := by
      rw [Chunk.split, Chunk.splitFrom]
      rfl
    refine dif_neg fun hWhole => ?_
    rw [hSplit] at hWhole
    cases hWhole.1
  simp [commits, shelved, Write.committed?, hEarly, hCut, hLate]

/-- The counter of the early records outlives the late ones and the memory. -/
theorem run_latest_shelf :
    ∃ d, (Disk.empty "/home").openStore "shelf" = .ok ((0, empty), d) ∧
      ∃ o, Opened.run "shelf" ⟨0, empty, d⟩ shelved = .ok o ∧
        o.store.record? ⟨1⟩ = some (Record.encode ⟨⟨1001⟩, ⟨1⟩, [5, 6, 7, 8]⟩) ∧
        o.store.record? ⟨2⟩ = some (Record.encode ⟨⟨1001⟩, ⟨2⟩, []⟩) ∧
        o.store.readRoots = .ok [⟨1⟩, ⟨1⟩] ∧ o.store.next = 5 := by
  obtain ⟨d, hOpen⟩ := Disk.openStore_shelf
  obtain ⟨o, hRun, hLatest, -⟩ := run_latest hOpen shelved
  rw [commits_shelved] at hLatest
  refine ⟨d, hOpen, o, hRun, hLatest.record ⟨1⟩, hLatest.record ⟨2⟩, hLatest.roots, ?_⟩
  have hLeast : 5 ≤ o.store.next := hLatest.greatest 5 (by decide)
  have hReached : o.store.next ∈ [1, 5, 3] := hLatest.reached
  simp only [List.mem_cons, List.not_mem_nil, or_false] at hReached
  rcases hReached with hNext | hNext | hNext
  · rw [hNext] at hLeast
    exact absurd hLeast (by decide)
  · exact hNext
  · rw [hNext] at hLeast
    exact absurd hLeast (by decide)

end EntityStore

end ObjectStore
