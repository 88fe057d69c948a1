import ObjectStore.Graph
import ObjectStore.Proofs.Attempt.Sequences

/-!
# Changing instances one by one

Two phases of a load go over a list and change one instance for each entry.
As the instances are different ones, no change sees the effect of another:
what becomes of an instance is what its own change makes of its former
state. A pass that fails has changed the instances in front of the failing
entry, the failing one as far as its attempt came, and nothing behind it.

## Main results

* `Graph.changeAll_ok`: what a pass that succeeds leaves behind.
* `Graph.changeAll_error`: what a pass that fails leaves behind.
* `Graph.changeAll_isOk`: a pass succeeds if every change does.
-/

namespace ObjectStore

namespace Graph

variable {ι α : Type} {g g' : Graph ι} {ref other : Ref} {x : ι}

/-! ## Single steps -/

theorem lt_size_of_get? (h : g.get? ref = some x) : ref.index < g.size :=
  (Array.getElem?_eq_some_iff.1 h).1

theorem get?_of_lt (h : ref.index < g.size) : ∃ x, g.get? ref = some x :=
  ⟨g.instances[ref.index], Array.getElem?_eq_some_iff.2 ⟨h, rfl⟩⟩

theorem mem_refs : ref ∈ g.refs ↔ ref.index < g.size := by
  constructor
  · intro hRef
    obtain ⟨index, hIndex, rfl⟩ := List.mem_map.1 hRef
    exact List.mem_range.1 hIndex
  · intro hLt
    exact List.mem_map.2 ⟨ref.index, List.mem_range.2 hLt, rfl⟩

theorem get?_eq_none (h : g.size ≤ ref.index) : g.get? ref = none :=
  Array.getElem?_eq_none_iff.2 h

/-- Graphs with the same instances are equal. -/
theorem ext_get? (h : ∀ ref, g.get? ref = g'.get? ref) : g = g' := by
  cases g
  cases g'
  congr 1
  apply Array.ext_getElem?
  intro i
  exact h ⟨i⟩

theorem eq_empty_of_size (h : g.size = 0) : g = empty := by
  apply ext_get?
  intro ref
  rw [get?_eq_none (h ▸ Nat.zero_le _)]
  rfl

theorem get_eq_ok : g.get ref = .ok x ↔ g.get? ref = some x := by
  unfold get
  cases g.get? ref <;> simp

@[simp] theorem size_set (g : Graph ι) (ref : Ref) (x : ι) : (g.set ref x).size = g.size := by
  simp [size, set]

theorem get?_set_self (h : ref.index < g.size) (x : ι) : (g.set ref x).get? ref = some x := by
  have hBound : ref.index < g.instances.size := h
  simp [get?, set, hBound]

/-- To put an instance where it is already changes nothing. -/
theorem set_eq_self (h : g.get? ref = some x) : g.set ref x = g := by
  apply ext_get?
  intro other
  by_cases hEq : ref = other
  · rw [← hEq, get?_set_self (lt_size_of_get? h), h]
  · exact get_set hEq

/-- The graph with one more instance. -/
def push (g : Graph ι) (x : ι) : Graph ι := ⟨g.instances.push x⟩

@[simp] theorem size_push (g : Graph ι) (x : ι) : (g.push x).size = g.size + 1 := by
  simp [size, push]

theorem get?_push_self (g : Graph ι) (x : ι) : (g.push x).get? ⟨g.size⟩ = some x := by
  simp [get?, push, size]

theorem get?_push (h : ref.index < g.size) (x : ι) : (g.push x).get? ref = g.get? ref := by
  have hBound : ref.index < g.instances.size := h
  have hNe : ref.index ≠ g.instances.size := Nat.ne_of_lt hBound
  simp [get?, push, Array.getElem?_push, hNe]

theorem start_insert (g : Graph ι) (x : ι) :
    (insert x).start g =
      if g.size < capacity then (.ok ⟨g.size⟩, g.push x)
      else (.error (.capacityExceeded .instances), g) := rfl

theorem size_truncate (g : Graph ι) (n : Nat) : (g.truncate n).size = min n g.size := by
  simp [size, truncate]

theorem get?_truncate {n : Nat} (h : ref.index < n) : (g.truncate n).get? ref = g.get? ref := by
  by_cases hInside : ref.index < g.instances.size
  · have hMin : ref.index < min n g.instances.size := by omega
    simp [get?, truncate, hMin]
  · have hMin : ¬ref.index < min n g.instances.size := by omega
    have hNone : g.instances[ref.index]? = none := Array.getElem?_eq_none_iff.2 (by omega)
    simp [get?, truncate, hMin, hNone]

theorem start_change (attempt : Attempt ι α) (h : g.get? ref = some x) :
    (change ref attempt).start g = ((attempt.start x).1, g.set ref (attempt.start x).2) := by
  have hGet : g.get ref = .ok x := get_eq_ok.2 h
  simp only [change, Attempt.start_of, hGet]

theorem start_change_of_none (attempt : Attempt ι α) (h : g.get? ref = none) :
    (change ref attempt).start g = (.error (.unknownInstance ref), g) := by
  have hGet : g.get ref = .error (.unknownInstance ref) := by simp only [get, h]
  simp only [change, Attempt.start_of, hGet]

theorem size_change {α : Type} (ref : Ref) (attempt : Attempt ι α) (g : Graph ι) :
    ((change ref attempt).start g).2.size = g.size := by
  cases hGet : g.get? ref with
  | none => rw [start_change_of_none _ hGet]
  | some x => rw [start_change _ hGet, size_set]

theorem size_le_insert (x : ι) (g : Graph ι) : g.size ≤ ((insert x).start g).2.size := by
  have hStart := start_insert g x
  by_cases hRoom : g.size < capacity
  · rw [if_pos hRoom] at hStart
    rw [hStart]
    show g.size ≤ (g.push x).size
    rw [size_push]
    omega
  · rw [if_neg hRoom] at hStart
    exact Nat.le_of_eq (by rw [hStart])

theorem size_changeAs [Instance ι] (runtime : RuntimeType) (ref : Ref) (f : ι → ι) (g : Graph ι) :
    ((changeAs runtime ref f).start g).2.size = g.size := by
  rw [changeAs, Attempt.start_modify]
  cases hGet : g.getAs runtime ref with
  | error e => rfl
  | ok x => exact size_set g ref (f x)

/-! ## Passes -/

section

variable (place : α → Ref) (attempt : α → Attempt ι Unit)

/-- Changes one instance for each entry of a list. -/
def changeAll (as : List α) : Attempt (Graph ι) Unit :=
  as.forM fun a => change (place a) (attempt a)

/-- The instances of the entries have become what their changes make of
them, and all others are as they were. -/
structure Changed (as : List α) (g g' : Graph ι) : Prop where
  size : g'.size = g.size
  done : ∀ a ∈ as, ∀ x, g.get? (place a) = some x →
    g'.get? (place a) = some ((attempt a).start x).2
  others : ∀ other, (∀ a ∈ as, place a ≠ other) → g'.get? other = g.get? other

/-- Every change of the entries succeeds. -/
def Accepts (as : List α) (g : Graph ι) : Prop :=
  ∀ a ∈ as, ∃ x, g.get? (place a) = some x ∧ ((attempt a).start x).1 = .ok ()

/-- A pass stops at the entry `a`: every change in front of it succeeds, and
its own fails. -/
structure Stops (front : List α) (a : α) (e : Error) (g : Graph ι) : Prop where
  accepts : Accepts place attempt front g
  fails : ∃ x, g.get? (place a) = some x ∧ ((attempt a).start x).1 = .error e

end

variable {place : α → Ref} {attempt : α → Attempt ι Unit} {a : α} {as : List α}

theorem changed_nil : Changed place attempt [] g g :=
  ⟨rfl, by simp, fun _ _ => rfl⟩

theorem changed_single (h : g.get? (place a) = some x) :
    Changed place attempt [a] g (g.set (place a) ((attempt a).start x).2) := by
  refine ⟨size_set _ _ _, ?_, ?_⟩
  · intro b hb y hy
    rw [List.mem_singleton.1 hb] at hy ⊢
    rw [h] at hy
    cases hy
    exact get?_set_self (lt_size_of_get? h) _
  · intro other hOther
    exact get_set (hOther a List.mem_cons_self)

theorem Changed.cons (h : g.get? (place a) = some x) (hNew : place a ∉ as.map place)
    (hRest : Changed place attempt as (g.set (place a) ((attempt a).start x).2) g') :
    Changed place attempt (a :: as) g g' := by
  have hApart : ∀ b ∈ as, place b ≠ place a := by
    intro b hb hEq
    exact hNew (hEq ▸ List.mem_map_of_mem hb)
  have hHead : Changed place attempt [a] g (g.set (place a) ((attempt a).start x).2) :=
    changed_single h
  refine ⟨hRest.size.trans hHead.size, ?_, ?_⟩
  · intro b hb y hy
    rcases List.mem_cons.1 hb with rfl | hIn
    · rw [hRest.others _ hApart]
      exact hHead.done b List.mem_cons_self y hy
    · apply hRest.done b hIn y
      rw [get_set (hApart b hIn).symm]
      exact hy
  · intro other hOther
    rw [hRest.others other fun b hb => hOther b (List.mem_cons_of_mem _ hb)]
    exact get_set (hOther a List.mem_cons_self)

/-- What a pass that succeeds leaves behind. -/
theorem changeAll_ok (hNodup : (as.map place).Nodup)
    (h : (changeAll place attempt as).start g = (.ok (), g')) :
    Changed place attempt as g g' ∧ Accepts place attempt as g := by
  induction as generalizing g with
  | nil =>
      cases h
      exact ⟨changed_nil, by simp [Accepts]⟩
  | cons a rest ih =>
      obtain ⟨hNew, hRestNodup⟩ := List.nodup_cons.1 hNodup
      obtain ⟨g₁, hHead, hRest⟩ := Attempt.start_forM_cons_ok.1 h
      cases hGet : g.get? (place a) with
      | none =>
          rw [start_change_of_none _ hGet] at hHead
          cases hHead
      | some x =>
          rw [start_change _ hGet] at hHead
          obtain ⟨hOk, rfl⟩ := Prod.mk.inj hHead
          obtain ⟨hChanged, hAccepts⟩ := ih hRestNodup hRest
          refine ⟨hChanged.cons hGet hNew, ?_⟩
          intro b hb
          rcases List.mem_cons.1 hb with rfl | hIn
          · exact ⟨x, hGet, hOk⟩
          · obtain ⟨y, hy, hyOk⟩ := hAccepts b hIn
            have hApart : place a ≠ place b := by
              intro hEq
              exact hNew (hEq ▸ List.mem_map_of_mem hIn)
            rw [get_set hApart] at hy
            exact ⟨y, hy, hyOk⟩

/-- A pass succeeds if every change does. -/
theorem changeAll_isOk (hNodup : (as.map place).Nodup) (h : Accepts place attempt as g) :
    ∃ g', (changeAll place attempt as).start g = (.ok (), g') := by
  induction as generalizing g with
  | nil => exact ⟨g, rfl⟩
  | cons a rest ih =>
      obtain ⟨hNew, hRestNodup⟩ := List.nodup_cons.1 hNodup
      obtain ⟨x, hGet, hOk⟩ := h a List.mem_cons_self
      have hHead := start_change (attempt a) hGet
      rw [hOk] at hHead
      have hRest : Accepts place attempt rest (g.set (place a) ((attempt a).start x).2) := by
        intro b hb
        obtain ⟨y, hy, hyOk⟩ := h b (List.mem_cons_of_mem _ hb)
        refine ⟨y, ?_, hyOk⟩
        rw [get_set]
        · exact hy
        · intro hEq
          exact hNew (hEq ▸ List.mem_map_of_mem hb)
      obtain ⟨g', hTail⟩ := ih hRestNodup hRest
      exact ⟨g', Attempt.start_forM_cons_ok.2 ⟨_, hHead, hTail⟩⟩

/-- What a pass that fails leaves behind: the entries up to the failing one
have been changed, the failing one as far as it came. -/
theorem changeAll_error {e : Error} (hNodup : (as.map place).Nodup)
    (hInside : ∀ a ∈ as, (place a).index < g.size)
    (h : (changeAll place attempt as).start g = (.error e, g')) :
    ∃ front a rest, as = front ++ a :: rest ∧ Stops place attempt front a e g ∧
      Changed place attempt (front ++ [a]) g g' := by
  induction as generalizing g with
  | nil => cases h
  | cons a rest ih =>
      obtain ⟨hNew, hRestNodup⟩ := List.nodup_cons.1 hNodup
      obtain ⟨x, hGet⟩ := get?_of_lt (hInside a List.mem_cons_self)
      have hStart := start_change (attempt a) hGet
      rcases Attempt.start_bind_error.1 h with hHead | ⟨_, g₁, hHead, hRest⟩
      · rw [hStart] at hHead
        obtain ⟨hError, rfl⟩ := Prod.mk.inj hHead
        exact ⟨[], a, rest, rfl, ⟨by simp [Accepts], x, hGet, hError⟩, changed_single hGet⟩
      · rw [hStart] at hHead
        obtain ⟨hOk, rfl⟩ := Prod.mk.inj hHead
        have hInsideRest : ∀ b ∈ rest,
            (place b).index < (g.set (place a) ((attempt a).start x).2).size := by
          intro b hb
          rw [size_set]
          exact hInside b (List.mem_cons_of_mem _ hb)
        obtain ⟨front, b, rest, rfl, hStops, hChanged⟩ := ih hRestNodup hInsideRest hRest
        have hApart : ∀ c ∈ front ++ b :: rest, place a ≠ place c := by
          intro c hc hEq
          exact hNew (hEq ▸ List.mem_map_of_mem hc)
        have hNewFront : place a ∉ (front ++ [b]).map place := by
          intro hIn
          obtain ⟨c, hc, hEq⟩ := List.mem_map.1 hIn
          refine hApart c ?_ hEq.symm
          rcases List.mem_append.1 hc with hc | hc
          · exact List.mem_append_left _ hc
          · exact List.mem_append_right _ (by simp [List.mem_singleton.1 hc])
        refine ⟨a :: front, b, rest, rfl, ⟨?_, ?_⟩, hChanged.cons hGet hNewFront⟩
        · intro c hc
          rcases List.mem_cons.1 hc with rfl | hIn
          · exact ⟨x, hGet, hOk⟩
          · obtain ⟨y, hy, hyOk⟩ := hStops.accepts c hIn
            rw [get_set (hApart c (List.mem_append_left _ hIn))] at hy
            exact ⟨y, hy, hyOk⟩
        · obtain ⟨y, hy, hyError⟩ := hStops.fails
          rw [get_set (hApart b (by simp))] at hy
          exact ⟨y, hy, hyError⟩

end Graph

end ObjectStore
