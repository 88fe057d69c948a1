import ObjectStore.Traversal.Worklist

/-!
# Segmented worklists are queues

The segments and the read position of a worklist are an implementation of a
plain queue, whose contents are `Worklist.toList`. What keeps the two in
step is that there is always a segment, and that the read position never
leaves it: a node that is appended to a segment that was read to its end is
then still in front of the read position.

## Main results

* `Worklist.toList_push`: appending adds the node behind all pending ones.
* `Worklist.wellFormed_push`, `Worklist.wellFormed_pop`: the read position
  stays inside the oldest segment.
-/

namespace ObjectStore

namespace Worklist

variable {ν : Type}

/-- There is an oldest segment, and the read position lies inside it. -/
def WellFormed (w : Worklist ν) : Prop :=
  ∃ first rest, w.segments = first :: rest ∧ w.head ≤ first.size

theorem wellFormed_empty : (empty : Worklist ν).WellFormed :=
  ⟨#[], [], rfl, Nat.zero_le _⟩

/-! ## Appending -/

theorem wellFormed_push {w : Worklist ν} (h : w.WellFormed) (x : ν) : (w.push x).WellFormed := by
  obtain ⟨first, rest, hSegments, hHead⟩ := h
  simp only [WellFormed, push, hSegments]
  cases rest with
  | nil =>
      simp only [append]
      split
      · exact ⟨_, _, rfl, by simp only [Array.size_push]; omega⟩
      · exact ⟨_, _, rfl, hHead⟩
  | cons next rest => exact ⟨_, _, rfl, hHead⟩

theorem toList_push {w : Worklist ν} (h : w.WellFormed) (x : ν) :
    (w.push x).toList = w.toList ++ [x] := by
  obtain ⟨first, rest, hSegments, hHead⟩ := h
  simp only [toList, push, hSegments]
  cases rest with
  | nil =>
      simp only [append]
      split
      · have hLength : w.head ≤ first.toList.length := by simpa using hHead
        simp [pending, List.drop_append_of_le_length hLength]
      · simp [pending]
  | cons next rest => simp [append, pending, flatMap_append]

/-! ## Taking -/

theorem wellFormed_takeFrom {head : Nat} {first : Array ν} {rest : List (Array ν)}
    (h : head ≤ first.size) :
    ∃ first' rest', (takeFrom head (first :: rest)).2.1 = first' :: rest' ∧
      (takeFrom head (first :: rest)).2.2 ≤ first'.size := by
  induction rest generalizing head first with
  | nil =>
      simp only [takeFrom]
      split
      · rename_i x hGet
        have hLt := (Array.getElem?_eq_some_iff.1 hGet).1
        exact ⟨_, _, rfl, hLt⟩
      · exact ⟨_, _, rfl, Nat.zero_le _⟩
  | cons next rest ih =>
      simp only [takeFrom]
      split
      · rename_i x hGet
        have hLt := (Array.getElem?_eq_some_iff.1 hGet).1
        exact ⟨_, _, rfl, hLt⟩
      · exact ih (Nat.zero_le _)

theorem wellFormed_pop {w : Worklist ν} (h : w.WellFormed) : w.pop.2.WellFormed := by
  obtain ⟨first, rest, hSegments, hHead⟩ := h
  simp only [WellFormed, pop, hSegments]
  exact wellFormed_takeFrom hHead

end Worklist

end ObjectStore
