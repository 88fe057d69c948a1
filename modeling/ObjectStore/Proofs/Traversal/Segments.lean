import ObjectStore.Proofs.Traversal.Queue

/-!
# The segments of a worklist

However nodes are appended and taken, a worklist answers as a plain queue
does, and its segments stay in one shape: all of them are full but the newest,
and the newest holds a node unless it is the only one. So a segment that was
read to its end can only be the oldest, and the one behind it has a node to
give. The search for the oldest node, which goes on from a segment that was
read to its end to the next one, therefore ends in its second round at the
latest.

## Main results

* `Worklist.Shaped.append`, `Worklist.Shaped.takeFrom`: every operation keeps
  the shape of the segments.
* `Worklist.Shaped.ends_pop`: how long the search for a node takes.
* `Worklist.run_queues`: every run of a worklist is that of a queue.
-/

namespace ObjectStore

namespace Worklist

variable {ν : Type} {w : Worklist ν} {size head : Nat} {x : ν} {segment : Array ν}
  {segments rest : List (Array ν)}

/-! ## The shape of the segments -/

/-- Segments behind the oldest one: they are full but for the newest, which
holds a node. -/
inductive Trail (size : Nat) : List (Array ν) → Prop where
  | newest {segment : Array ν} : 0 < segment.size → segment.size ≤ size → Trail size [segment]
  | full {segment : Array ν} {rest : List (Array ν)} :
      segment.size = size → Trail size rest → Trail size (segment :: rest)

/-- The read position lies inside the oldest segment, which is full or the
only one. -/
inductive Shaped (size : Nat) : Nat → List (Array ν) → Prop where
  | single {head : Nat} {segment : Array ν} :
      head ≤ segment.size → segment.size ≤ size → Shaped size head [segment]
  | chain {head : Nat} {segment : Array ν} {rest : List (Array ν)} :
      head ≤ segment.size → segment.size = size → Trail size rest →
        Shaped size head (segment :: rest)

theorem Trail.ne_nil (h : Trail size segments) : segments ≠ [] := by
  cases h with
  | newest => simp
  | full => simp

/-- A trail is in shape when it is read from the front. -/
theorem Trail.shaped (h : Trail size segments) (hPos : 0 < size) :
    ∃ segment rest, segments = segment :: rest ∧ 0 < segment.size ∧ Shaped size 1 segments := by
  cases h with
  | @newest segment hHolds hRoom => exact ⟨segment, [], rfl, hHolds, .single hHolds hRoom⟩
  | @full segment rest hFull hRest =>
      have hHolds : 0 < segment.size := hFull ▸ hPos
      exact ⟨segment, rest, rfl, hHolds, .chain hHolds hFull hRest⟩

theorem Shaped.inside (h : Shaped size head segments) :
    ∃ segment rest, segments = segment :: rest ∧ head ≤ segment.size := by
  cases h with
  | @single segment hHead hRoom => exact ⟨segment, [], rfl, hHead⟩
  | @chain segment rest hHead hFull hRest => exact ⟨segment, rest, rfl, hHead⟩

/-! ### Counting -/

/-- The number of nodes in the segments. -/
def total (segments : List (Array ν)) : Nat :=
  segments.foldr (fun segment sum => segment.size + sum) 0

theorem total_cons (segment : Array ν) (rest : List (Array ν)) :
    total (segment :: rest) = segment.size + total rest := rfl

theorem length_eq (w : Worklist ν) : w.length = total w.segments - w.head := rfl

theorem Trail.le_total (h : Trail size segments) :
    (segments.length - 1) * size < total segments := by
  induction h with
  | @newest segment hHolds hRoom => simpa [total] using hHolds
  | @full segment rest hFull hRest ih =>
      have hSome : 0 < rest.length := List.length_pos_iff.2 hRest.ne_nil
      have hStep : (segment :: rest).length - 1 = (rest.length - 1) + 1 := by
        rw [List.length_cons]
        omega
      rw [hStep, Nat.succ_mul, total_cons]
      omega

theorem Trail.full_of_mem (h : Trail size segments) :
    ∀ segment ∈ segments.dropLast, segment.size = size := by
  induction h with
  | newest => simp
  | @full segment rest hFull hRest ih =>
      rw [List.dropLast_cons_of_ne_nil hRest.ne_nil]
      exact List.forall_mem_cons.2 ⟨hFull, ih⟩

/-- Every segment but the newest is full. -/
theorem Shaped.full_of_mem (h : Shaped size head segments) :
    ∀ segment ∈ segments.dropLast, segment.size = size := by
  cases h with
  | single => simp
  | @chain segment rest hHead hFull hRest => exact (Trail.full hFull hRest).full_of_mem

/-- The read position does not lie behind the nodes. -/
theorem Shaped.head_le_total (h : Shaped size head segments) : head ≤ total segments := by
  obtain ⟨segment, rest, rfl, hHead⟩ := h.inside
  rw [total_cons]
  omega

theorem Shaped.length_toList (h : Shaped size w.head w.segments) : w.length = w.toList.length := by
  obtain ⟨segment, rest, hSegments, hHead⟩ := h.inside
  have hRest : ∀ rest : List (Array ν), (rest.flatMap Array.toList).length = total rest := by
    intro rest
    induction rest with
    | nil => rfl
    | cons segment rest ih =>
        rw [List.flatMap_cons, List.length_append, ih, Array.length_toList, total_cons]
  rw [length_eq, toList, hSegments, pending, List.length_append, hRest, List.length_drop,
    Array.length_toList, total_cons]
  omega

/-- At most one segment holds no pending node: but for the oldest and the
newest, there are only full ones. -/
theorem Shaped.segmentCount_le (h : Shaped size w.head w.segments) :
    w.segmentCount = 1 ∨ (w.segmentCount - 2) * size < w.length := by
  rw [length_eq, segmentCount]
  generalize w.head = head at h
  generalize w.segments = segments at h
  cases h with
  | single => exact Or.inl rfl
  | @chain segment rest hHead hFull hRest =>
      have hBehind := hRest.le_total
      have hCount : (segment :: rest).length - 2 = rest.length - 1 := by
        rw [List.length_cons]
        omega
      refine Or.inr ?_
      rw [hCount, total_cons]
      omega

/-! ### Appending -/

theorem Trail.append (h : Trail size segments) (hPos : 0 < size) (x : ν) :
    Trail size (append size x segments) := by
  induction h with
  | @newest segment hHolds hRoom =>
      simp only [Worklist.append]
      split
      · rename_i hLess
        exact .newest (by simp) (by rw [Array.size_push]; exact hLess)
      · rename_i hFull
        exact .full (Nat.le_antisymm hRoom (Nat.not_lt.1 hFull)) (.newest Nat.one_pos hPos)
  | @full segment rest hFull hRest ih =>
      cases rest with
      | nil => exact absurd rfl hRest.ne_nil
      | cons next rest => exact .full hFull ih

/-- Appending a node keeps the shape. -/
theorem Shaped.append (h : Shaped size head segments) (hPos : 0 < size) (x : ν) :
    Shaped size head (append size x segments) := by
  cases h with
  | @single segment hHead hRoom =>
      simp only [Worklist.append]
      split
      · rename_i hLess
        have hSize : (segment.push x).size = segment.size + 1 := Array.size_push x
        exact .single (by omega) (by omega)
      · rename_i hFull
        exact .chain hHead (Nat.le_antisymm hRoom (Nat.not_lt.1 hFull)) (.newest Nat.one_pos hPos)
  | @chain segment rest hHead hFull hRest =>
      cases rest with
      | nil => exact absurd rfl hRest.ne_nil
      | cons next rest => exact .chain hHead hFull (hRest.append hPos x)

/-! ### Taking -/

theorem takeFrom_of_some (rest : List (Array ν)) (h : segment[head]? = some x) :
    takeFrom head (segment :: rest) = (some x, segment :: rest, head + 1) := by
  cases rest with
  | nil => simp only [takeFrom, h]
  | cons next rest => simp only [takeFrom, h]

theorem takeFrom_of_none (hRest : rest ≠ []) (h : segment[head]? = none) :
    takeFrom head (segment :: rest) = takeFrom 0 rest := by
  cases rest with
  | nil => exact absurd rfl hRest
  | cons next rest => simp only [takeFrom, h]

/-- Taking a node keeps the shape. -/
theorem Shaped.takeFrom (h : Shaped size head segments) (hPos : 0 < size) :
    Shaped size (takeFrom head segments).2.2 (takeFrom head segments).2.1 := by
  cases h with
  | @single segment hHead hRoom =>
      cases hGet : segment[head]? with
      | some x =>
          have hLess := (Array.getElem?_eq_some_iff.1 hGet).1
          rw [takeFrom_of_some [] hGet]
          exact .single hLess hRoom
      | none =>
          simp only [Worklist.takeFrom, hGet]
          exact .single (Nat.le_refl 0) (Nat.zero_le _)
  | @chain segment rest hHead hFull hRest =>
      cases hGet : segment[head]? with
      | some x =>
          have hLess := (Array.getElem?_eq_some_iff.1 hGet).1
          rw [takeFrom_of_some rest hGet]
          exact .chain hLess hFull hRest
      | none =>
          obtain ⟨next, behind, hNext, hHolds, hShaped⟩ := hRest.shaped hPos
          have hFirst : next[0]? = some next[0] := Array.getElem?_eq_getElem hHolds
          rw [takeFrom_of_none hRest.ne_nil hGet, hNext, takeFrom_of_some behind hFirst, ← hNext]
          exact hShaped

/-! ## Rounds of the search -/

/-- One round of the search for the oldest pending node: the answer, with what
is left, or the worklist without a segment that was read to its end. -/
def round (w : Worklist ν) : (Option ν × Worklist ν) ⊕ Worklist ν :=
  match w.segments with
  | [] => .inl (none, w)
  | segment :: rest =>
      match segment[w.head]? with
      | some x => .inl (some x, { w with head := w.head + 1 })
      | none =>
          if rest.isEmpty then .inl (none, { w with segments := [#[]], head := 0 })
          else .inr { w with segments := rest, head := 0 }

/-- The search ends with an answer in the round of that number. -/
inductive Ends : Worklist ν → Nat → Option ν × Worklist ν → Prop where
  | answer {w : Worklist ν} {outcome : Option ν × Worklist ν} :
      w.round = .inl outcome → Ends w 1 outcome
  | again {w w' : Worklist ν} {n : Nat} {outcome : Option ν × Worklist ν} :
      w.round = .inr w' → Ends w' n outcome → Ends w (n + 1) outcome

theorem round_of_some (hSegments : w.segments = segment :: rest)
    (hGet : segment[w.head]? = some x) : w.round = .inl w.pop := by
  simp only [round, pop, hSegments, hGet, takeFrom_of_some rest hGet]

theorem round_of_none (hSegments : w.segments = segment :: rest) (hRest : rest ≠ [])
    (hGet : segment[w.head]? = none) : w.round = .inr { w with segments := rest, head := 0 } := by
  simp only [round, hSegments, hGet, List.isEmpty_iff, hRest, if_false]

theorem pop_of_none (hSegments : w.segments = segment :: rest) (hRest : rest ≠ [])
    (hGet : segment[w.head]? = none) :
    w.pop = Worklist.pop { w with segments := rest, head := 0 } := by
  simp only [pop, hSegments, takeFrom_of_none hRest hGet]

/-- What a worklist answers is found in the first round or in the second. -/
theorem Shaped.ends_pop (h : Shaped size w.head w.segments) (hPos : 0 < size) :
    ∃ rounds ≤ 2, Ends w rounds w.pop := by
  obtain ⟨segment, rest, hSegments, -⟩ := h.inside
  cases hGet : segment[w.head]? with
  | some x => exact ⟨1, by omega, .answer (round_of_some hSegments hGet)⟩
  | none =>
      rw [hSegments] at h
      cases h with
      | single =>
          refine ⟨1, by omega, .answer ?_⟩
          simp only [round, pop, hSegments, hGet, Worklist.takeFrom, List.isEmpty_nil, if_true]
      | chain _ _ hRest =>
          obtain ⟨next, behind, hNext, hHolds, -⟩ := hRest.shaped hPos
          have hFirst : next[0]? = some next[0] := Array.getElem?_eq_getElem hHolds
          rw [pop_of_none hSegments hRest.ne_nil hGet]
          exact ⟨2, by omega, .again (round_of_none hSegments hRest.ne_nil hGet)
            (.answer (round_of_some hNext hFirst))⟩

/-! ## Runs -/

/-- One use of a worklist. -/
inductive Use (ν : Type) where
  | push (x : ν)
  | pop

/-- The worklist after a use, behind the answer if a node was asked for. -/
def perform (w : Worklist ν) : Use ν → List (Option ν) × Worklist ν
  | .push x => ([], w.push x)
  | .pop => ([w.pop.1], w.pop.2)

/-- The answers to a run of uses, and the worklist that it leaves. -/
def run (w : Worklist ν) : List (Use ν) → List (Option ν) × Worklist ν
  | [] => ([], w)
  | use :: uses =>
      let (answers, w') := run (w.perform use).2 uses
      ((w.perform use).1 ++ answers, w')

/-- What a plain queue answers to the same uses, and what it holds then. -/
def queued (pending : List ν) : List (Use ν) → List (Option ν) × List ν
  | [] => ([], pending)
  | .push x :: uses => queued (pending ++ [x]) uses
  | .pop :: uses => (pending.head? :: (queued pending.tail uses).1, (queued pending.tail uses).2)

/-- The nodes that a run appends, in order. -/
def pushed (uses : List (Use ν)) : List ν :=
  uses.filterMap fun
    | .push x => some x
    | .pop => none

theorem queued_cons (pending : List ν) (use : Use ν) (uses : List (Use ν)) :
    queued pending (use :: uses) =
      ((queued pending [use]).1 ++ (queued (queued pending [use]).2 uses).1,
        (queued (queued pending [use]).2 uses).2) := by
  cases use with
  | push x => rfl
  | pop => rfl

/-- A queue hands out what was put into it, in that order, and holds the rest. -/
theorem queued_conserves (pending : List ν) (uses : List (Use ν)) :
    pending ++ pushed uses = (queued pending uses).1.filterMap id ++ (queued pending uses).2 := by
  induction uses generalizing pending with
  | nil => simp [pushed, queued]
  | cons use uses ih =>
      cases use with
      | push x => simpa [pushed, queued] using ih (pending ++ [x])
      | pop =>
          cases pending with
          | nil => simpa [pushed, queued] using ih []
          | cons x pending => simpa [pushed, queued] using ih pending

/-- The worklist stands for a plain queue of the pending nodes, in segments of
the given size. -/
structure IsQueue (size : Nat) (pending : List ν) (w : Worklist ν) : Prop where
  contents : w.toList = pending
  next : w.pop.1 = pending.head?
  /-- The search for the next node ends. -/
  ends : ∃ rounds ≤ 2, Ends w rounds w.pop
  /-- The number of pending nodes is a difference that is not cut off. -/
  inside : w.head ≤ total w.segments
  length : w.length = pending.length
  full : ∀ segment ∈ w.segments.dropLast, segment.size = size
  oneExhausted : w.segmentCount = 1 ∨ (w.segmentCount - 2) * size < w.length

/-- A worklist of segments of that size whose segments are in shape. -/
structure Sound (size : Nat) (w : Worklist ν) : Prop where
  positive : 0 < size
  segmentSize : w.segmentSize = size
  shaped : Shaped size w.head w.segments

theorem sound_withSegmentSize (size : Nat) :
    Sound (max size 1) (withSegmentSize size : Worklist ν) where
  positive := Nat.lt_of_lt_of_le Nat.one_pos (Nat.le_max_right size 1)
  segmentSize := rfl
  shaped := .single (Nat.le_refl 0) (Nat.zero_le _)

theorem pop_fst (w : Worklist ν) : w.pop.1 = w.toList.head? := by
  cases hPop : w.pop with
  | mk x w' =>
      cases x with
      | none => rw [toList_of_pop_none hPop, List.head?_nil]
      | some x => rw [toList_of_pop_some hPop, List.head?_cons]

theorem toList_pop (w : Worklist ν) : w.pop.2.toList = w.toList.tail := by
  cases hPop : w.pop with
  | mk x w' =>
      cases x with
      | some x => rw [toList_of_pop_some hPop, List.tail_cons]
      | none =>
          rw [toList_of_pop_none hPop, List.tail_nil, ← congrArg Prod.snd hPop]
          exact takeFrom_none (congrArg Prod.fst hPop)

namespace Sound

theorem wellFormed (h : Sound size w) : w.WellFormed := h.shaped.inside

theorem isQueue (h : Sound size w) : IsQueue size w.toList w where
  contents := rfl
  next := pop_fst w
  ends := h.shaped.ends_pop h.positive
  inside := h.shaped.head_le_total
  length := h.shaped.length_toList
  full := h.shaped.full_of_mem
  oneExhausted := h.shaped.segmentCount_le

/-- One use keeps a worklist sound, and answers as a plain queue does. -/
theorem perform (h : Sound size w) (use : Use ν) :
    Sound size (w.perform use).2 ∧
      ((w.perform use).1, (w.perform use).2.toList) = queued w.toList [use] := by
  cases use with
  | push x =>
      refine ⟨⟨h.positive, h.segmentSize, ?_⟩, ?_⟩
      · have hAppended := h.shaped.append h.positive x
        rw [← h.segmentSize] at hAppended ⊢
        exact hAppended
      · exact Prod.ext rfl (toList_push h.wellFormed x)
  | pop =>
      refine ⟨⟨h.positive, h.segmentSize, h.shaped.takeFrom h.positive⟩, ?_⟩
      exact Prod.ext (congrArg (fun x => [x]) (pop_fst w)) (toList_pop w)

/-- A run keeps a worklist sound, and answers as a plain queue does. -/
theorem run (h : Sound size w) (uses : List (Use ν)) :
    Sound size (w.run uses).2 ∧ ((w.run uses).1, (w.run uses).2.toList) = queued w.toList uses := by
  induction uses generalizing w with
  | nil => exact ⟨h, rfl⟩
  | cons use uses ih =>
      obtain ⟨hStep, hAnswer⟩ := h.perform use
      obtain ⟨hRest, hAnswers⟩ := ih hStep
      refine ⟨hRest, ?_⟩
      rw [queued_cons, ← hAnswer, ← hAnswers]
      rfl

end Sound

/-- A worklist is a queue: whatever it is used for, it answers as a plain
queue does that holds the pending nodes, and what was appended is what was
handed out, in that order, and what is still pending. -/
theorem run_queues (size : Nat) (uses : List (Use ν)) :
    ∃ pending : List ν,
      IsQueue (max size 1) pending ((withSegmentSize size).run uses).2 ∧
        (((withSegmentSize size).run uses).1, pending) = queued [] uses ∧
        pushed uses = ((withSegmentSize size).run uses).1.filterMap id ++ pending := by
  obtain ⟨hSound, hAnswers⟩ := (sound_withSegmentSize (ν := ν) size).run uses
  have hConserves := queued_conserves [] uses
  refine ⟨((withSegmentSize size).run uses).2.toList, hSound.isQueue, hAnswers, ?_⟩
  rw [← show _ = queued [] uses from hAnswers] at hConserves
  exact hConserves

end Worklist

end ObjectStore
