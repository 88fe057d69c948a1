import Std.Data.HashMap
import Std.Data.HashSet

/-!
# Segmented worklists

A worklist is a queue of pending nodes, kept as a chain of segments of a
fixed size. Nodes are appended to the newest segment and taken from the
oldest one, at the read position `head`. A segment that has been read to its
end is released when the next node is asked for, except that the last
remaining segment is emptied and kept.

The view of a worklist is `Worklist.toList`, the pending nodes in order.

## Main results

* `Worklist.toList_of_pop_some`: what is taken is the oldest pending node.
* `Worklist.toList_of_pop_none`: nothing is taken only if nothing is pending.
* `Worklist.length_push_le`: appending adds at most one pending node.
-/

namespace ObjectStore

/-- A queue of pending nodes in segments. -/
structure Worklist (ν : Type) where
  segmentSize : Nat
  /-- The segments, the oldest first. -/
  segments : List (Array ν)
  /-- The read position in the oldest segment. -/
  head : Nat

namespace Worklist

variable {ν : Type}

/-- The segment size of traversals. -/
def defaultSegmentSize : Nat := 500

/-- The worklist without nodes. A segment holds at least one. -/
def withSegmentSize (size : Nat) : Worklist ν := ⟨max size 1, [#[]], 0⟩

/-- The worklist without nodes. -/
def empty : Worklist ν := withSegmentSize defaultSegmentSize

/-- Appends a node to the last segment, or to a new one behind it if that is
full. -/
def append (size : Nat) (x : ν) : List (Array ν) → List (Array ν)
  | [] => [#[x]]
  | [last] => if last.size < size then [last.push x] else [last, #[x]]
  | segment :: next :: rest => segment :: append size x (next :: rest)

/-- Appends a node. -/
def push (w : Worklist ν) (x : ν) : Worklist ν :=
  { w with segments := append w.segmentSize x w.segments }

/-- Takes the oldest node of the segments, which are read from position
`head` on. The segments and the read position that are left come with it. -/
def takeFrom (head : Nat) : List (Array ν) → Option ν × List (Array ν) × Nat
  | [] => (none, [], head)
  | [last] =>
      match last[head]? with
      | some x => (some x, [last], head + 1)
      | none => (none, [#[]], 0)
  | segment :: next :: rest =>
      match segment[head]? with
      | some x => (some x, segment :: next :: rest, head + 1)
      | none => takeFrom 0 (next :: rest)

/-- Takes the oldest pending node. -/
def pop (w : Worklist ν) : Option ν × Worklist ν :=
  let (x, segments, head) := takeFrom w.head w.segments
  (x, { w with segments, head })

/-- The number of pending nodes. -/
def length (w : Worklist ν) : Nat :=
  w.segments.foldr (fun segment total => segment.size + total) 0 - w.head

/-- Whether no node is pending. -/
def isEmpty (w : Worklist ν) : Bool := w.length == 0

/-- The number of segments, the exhausted one included. -/
def segmentCount (w : Worklist ν) : Nat := w.segments.length

/-! ## The view -/

/-- The nodes of segments that are read from position `head` on. -/
def pending (head : Nat) : List (Array ν) → List ν
  | [] => []
  | segment :: rest => segment.toList.drop head ++ rest.flatMap Array.toList

/-- The pending nodes, the oldest first. -/
def toList (w : Worklist ν) : List ν := pending w.head w.segments

theorem pending_zero (segments : List (Array ν)) :
    pending 0 segments = segments.flatMap Array.toList := by
  cases segments <;> simp [pending]

theorem pending_takeFrom (head : Nat) (segments : List (Array ν)) :
    pending head segments =
      (takeFrom head segments).1.toList ++
        pending (takeFrom head segments).2.2 (takeFrom head segments).2.1 := by
  have hDrop : ∀ (segment : Array ν) (x : ν), segment[head]? = some x →
      segment.toList.drop head = x :: segment.toList.drop (head + 1) := by
    intro segment x h
    obtain ⟨hLt, rfl⟩ := Array.getElem?_eq_some_iff.1 h
    exact List.drop_eq_getElem_cons (by simpa using hLt)
  have hNil : ∀ segment : Array ν, segment[head]? = none → segment.toList.drop head = [] := by
    intro segment h
    exact List.drop_eq_nil_of_le (by simpa using Array.getElem?_eq_none_iff.1 h)
  fun_cases takeFrom head segments
  · rfl
  · rename_i last x hGet
    simp [pending, hDrop last x hGet]
  · rename_i last hGet
    simp [pending, hNil last hGet]
  · rename_i segment next rest x hGet
    simp [pending, hDrop segment x hGet]
  · rename_i segment next rest hGet
    have ih := pending_takeFrom 0 (next :: rest)
    rw [pending_zero] at ih
    simp only [pending, hNil segment hGet, List.nil_append]
    exact ih
termination_by segments.length

theorem toList_of_pop_some {w w' : Worklist ν} {x : ν} (h : w.pop = (some x, w')) :
    w.toList = x :: w'.toList := by
  have hPending := pending_takeFrom w.head w.segments
  simp only [pop, Prod.mk.injEq] at h
  obtain ⟨hx, rfl⟩ := h
  rw [hx] at hPending
  exact hPending

theorem takeFrom_none {head : Nat} {segments : List (Array ν)}
    (h : (takeFrom head segments).1 = none) :
    pending (takeFrom head segments).2.2 (takeFrom head segments).2.1 = [] := by
  fun_induction takeFrom head segments with
  | case1 => rfl
  | case2 => cases h
  | case3 => rfl
  | case4 => cases h
  | case5 head segment next rest hGet ih => exact ih h

theorem toList_of_pop_none {w w' : Worklist ν} (h : w.pop = (none, w')) : w.toList = [] := by
  have hPending := pending_takeFrom w.head w.segments
  simp only [pop, Prod.mk.injEq] at h
  rw [h.1, takeFrom_none h.1] at hPending
  exact hPending

theorem flatMap_append (size : Nat) (x : ν) (segments : List (Array ν)) :
    (append size x segments).flatMap Array.toList = segments.flatMap Array.toList ++ [x] := by
  fun_induction append size x segments with
  | case1 => rfl
  | case2 last h => simp
  | case3 last h => simp
  | case4 segment next rest ih => simp [ih]

theorem length_pending_append_le (size : Nat) (x : ν) (head : Nat) (segments : List (Array ν)) :
    (pending head (append size x segments)).length ≤ (pending head segments).length + 1 := by
  fun_cases append size x segments
  · simp [pending]
  · simp [pending]
    omega
  · simp [pending]
  · rename_i segment next rest
    simp only [pending, List.length_append, flatMap_append, List.length_singleton]
    omega

theorem length_push_le (w : Worklist ν) (x : ν) :
    (w.push x).toList.length ≤ w.toList.length + 1 :=
  length_pending_append_le _ _ _ _

end Worklist

end ObjectStore
