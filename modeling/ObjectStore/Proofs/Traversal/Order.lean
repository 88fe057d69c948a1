import Mathlib.Data.List.Perm.Subperm
import ObjectStore.Proofs.Traversal.Coverage

/-!
# The order of a walk

A breadth-first order is known from the roots and the references alone: every
node of it is a root, or is met among the references of a node in front of
it. So a network has one such order for each list of roots, and two walks
that visit all reachable nodes visit them in the same order.

It follows that a list of visits determines the walk: if the nodes are in
breadth-first order and each visit goes on, the walk makes these visits and
no others.

## Main results

* `BreadthFirst.unique`: there is only one breadth-first order.
* `Walk.run_of_visits`: a walk makes the visits of a breadth-first order.
-/

namespace ObjectStore

variable {ν : Type} [BEq ν] [LawfulBEq ν]

theorem nodup_eraseDups (l : List ν) : l.eraseDups.Nodup := by
  induction hLength : l.length using Nat.strongRecOn generalizing l with
  | ind length ih =>
      cases l with
      | nil => simp
      | cons n rest =>
          have hShorter : (rest.filter fun m => !m == n).length < length :=
            hLength ▸ Nat.lt_succ_of_le (List.length_filter_le _ _)
          rw [List.eraseDups_cons, List.nodup_cons, List.mem_eraseDups]
          exact ⟨by simp, ih _ hShorter _ rfl⟩

theorem eraseDups_initial (l more : List ν) : l.eraseDups <+: (l ++ more).eraseDups := by
  rw [List.eraseDups_append]
  exact List.prefix_append _ _

omit [BEq ν] [LawfulBEq ν] in
theorem take_of_initial {l l' : List ν} {n : Nat} (h : l <+: l') (hLength : n ≤ l.length) :
    l'.take n = l.take n := by
  obtain ⟨rest, rfl⟩ := h
  exact List.take_append_of_le_length hLength

namespace BreadthFirst

variable {net : Network ν} {rules : Rules ν} {roots visited visited' : List ν}

/-- What a walk has come upon when it has visited some nodes. -/
def met (net : Network ν) (rules : Rules ν) (roots visited : List ν) : List ν :=
  (roots ++ visited.flatMap (Frontier.followed net rules)).eraseDups.filter fun n => !rules.skip n

theorem mem_met {n : ν} : n ∈ met net rules roots visited ↔
    (n ∈ roots ∨ ∃ m ∈ visited, n ∈ Frontier.followed net rules m) ∧ rules.skip n = false := by
  simp [met]

/-- Reachable nodes that are what a walk comes upon when it visits them are all
that it visits. -/
theorem of_met (hMet : visited = met net rules roots visited)
    (hReached : ∀ n ∈ visited, Reachable net rules roots n) :
    BreadthFirst net rules roots visited := by
  refine ⟨fun n => ⟨hReached n, fun hReachable => ?_⟩, hMet⟩
  induction hReachable with
  | root hRoot hSkip =>
      rw [hMet]
      exact mem_met.2 ⟨Or.inl hRoot, hSkip⟩
  | @step k m next _ hFull hNext hIn hSkip ih =>
      have hFollowed : m ∈ Frontier.followed net rules k := by
        rw [Frontier.followed, if_pos hFull, hNext]
        exact hIn
      rw [hMet]
      exact mem_met.2 ⟨Or.inr ⟨k, ih, hFollowed⟩, hSkip⟩

/-- What was met first stays in front. -/
theorem met_initial (visited : List ν) (n : Nat) :
    met net rules roots (visited.take n) <+: met net rules roots visited := by
  have hAll : roots ++ visited.flatMap (Frontier.followed net rules) =
      (roots ++ (visited.take n).flatMap (Frontier.followed net rules)) ++
        (visited.drop n).flatMap (Frontier.followed net rules) := by
    rw [List.append_assoc, ← List.flatMap_append, List.take_append_drop]
  rw [met, met, hAll]
  exact (eraseDups_initial _ _).filter _

theorem nodup (h : BreadthFirst net rules roots visited) : visited.Nodup := by
  rw [h.order]
  exact (nodup_eraseDups _).filter _

theorem initial_visited (h : BreadthFirst net rules roots visited) (n : Nat) :
    met net rules roots (visited.take n) <+: visited := by
  have hPrefix := @met_initial _ _ _ net rules roots visited n
  have hAll : met net rules roots visited = visited := h.order.symm
  rwa [hAll] at hPrefix

/-- If a walk comes upon nothing but what it has visited, it has visited
everything. -/
theorem length_le (h : BreadthFirst net rules roots visited) {n : Nat}
    (hClosed : (met net rules roots (visited.take n)).length ≤ n) : visited.length ≤ n := by
  have hFront : ∀ m ∈ met net rules roots (visited.take n), m ∈ visited.take n :=
    (List.prefix_take_iff.2 ⟨h.initial_visited n, hClosed⟩).subset
  have hAll : visited ⊆ visited.take n := by
    intro m hm
    have hReachable := (h.reachable m).1 hm
    clear hm
    induction hReachable with
    | root hRoot hSkip => exact hFront _ (mem_met.2 ⟨Or.inl hRoot, hSkip⟩)
    | @step k m next _ hFull hNext hIn hSkip ih =>
        have hFollowed : m ∈ Frontier.followed net rules k := by
          rw [Frontier.followed, if_pos hFull, hNext]
          exact hIn
        exact hFront m (mem_met.2 ⟨Or.inr ⟨k, ih, hFollowed⟩, hSkip⟩)
  exact Nat.le_trans (h.nodup.subperm hAll).length_le (List.length_take_le n visited)

/-- There is only one breadth-first order. -/
theorem unique (h : BreadthFirst net rules roots visited)
    (h' : BreadthFirst net rules roots visited') : visited = visited' := by
  have hTake : ∀ n, visited.take n = visited'.take n := by
    intro n
    induction n with
    | zero => rw [List.take_zero, List.take_zero]
    | succ n ih =>
        have hPrefix := h.initial_visited n
        have hPrefix' := h'.initial_visited n
        rw [← ih] at hPrefix'
        by_cases hMore : n < (met net rules roots (visited.take n)).length
        · -- The next node is one that the walk has come upon already.
          rw [take_of_initial hPrefix hMore, take_of_initial hPrefix' hMore]
        · have hLength := h.length_le (Nat.le_of_not_lt hMore)
          have hLength' := h'.length_le (ih ▸ Nat.le_of_not_lt hMore)
          rw [List.take_of_length_le (Nat.le_succ_of_le hLength),
            List.take_of_length_le (Nat.le_succ_of_le hLength'),
            ← List.take_of_length_le hLength, ih, List.take_of_length_le hLength']
  have hLong := hTake (max visited.length visited'.length)
  rwa [List.take_of_length_le (Nat.le_max_left _ _),
    List.take_of_length_le (Nat.le_max_right _ _)] at hLong

end BreadthFirst

/-! ## Walks along a given order -/

section

variable {σ : Type} [Hashable ν] {net : Network ν} {rules : Rules ν} {roots before rest : List ν}
  {visit : ν → Visit → σ → Signal × σ}

/-- The next pending node is the one that is next in breadth-first order. -/
theorem Frontier.Covers.pop_breadthFirst {f : Frontier ν} {queue : Worklist ν} {n : ν}
    (h : f.Covers net rules roots before) (hOrder : BreadthFirst net rules roots (before ++ rest))
    (hPop : f.queue.pop = (some n, queue)) : ∃ later, rest = n :: later := by
  have hMet : BreadthFirst.met net rules roots before = before ++ n :: queue.toList := by
    rw [← Worklist.toList_of_pop_some hPop, ← h.admitted, Frontier.admitted, h.order]
    rfl
  have hInitial := hOrder.initial_visited before.length
  rw [List.take_left, hMet, List.prefix_append_right_inj] at hInitial
  obtain ⟨later, hLater⟩ := hInitial
  exact ⟨queue.toList ++ later, by rw [← hLater, List.cons_append]⟩

namespace Walk

theorem drain_of_visits {f : Frontier ν} {summary : Summary} {s s' : σ}
    (hCovers : f.Covers net rules roots before)
    (hOrder : BreadthFirst net rules roots (before ++ rest))
    (hVisits : Visits rules visit s rest s')
    (hNext : ∀ n ∈ rest, rules.classify n = .full → ∃ next, net.successors n = .ok next) :
    (drain net rules visit f summary s).state = s' ∧
      ∃ total, (drain net rules visit f summary s).result = .ok total := by
  fun_induction drain net rules visit f summary s generalizing before rest with
  | case1 f summary s queue hPop =>
      have hDone := hCovers.breadthFirst (Worklist.toList_of_pop_none hPop)
      have hNone : rest = [] := List.self_eq_append_right.1 (hDone.unique hOrder)
      rw [hNone] at hVisits
      cases hVisits
      exact ⟨rfl, summary, rfl⟩
  | case2 f summary s n queue hPop treatment e s₁ =>
      rename_i hStep
      obtain ⟨later, rfl⟩ := hCovers.pop_breadthFirst hOrder hPop
      cases hVisits with
      | cons hVisit _ =>
          rw [hStep] at hVisit
          cases hVisit
  | case3 f summary s n queue hPop treatment s₁ =>
      rename_i hStep
      obtain ⟨later, rfl⟩ := hCovers.pop_breadthFirst hOrder hPop
      cases hVisits with
      | cons hVisit _ =>
          rw [hStep] at hVisit
          cases hVisit
  | case4 f summary s n queue hPop treatment s₁ hStep hFull e =>
      rename_i hError
      obtain ⟨later, rfl⟩ := hCovers.pop_breadthFirst hOrder hPop
      obtain ⟨next, hOk⟩ := hNext n List.mem_cons_self hFull
      rw [hOk] at hError
      cases hError
  | case5 f summary s n queue hPop treatment summary₁ s₁ hStep hFull next =>
      rename_i hOk ih
      obtain ⟨later, rfl⟩ := hCovers.pop_breadthFirst hOrder hPop
      rw [← List.singleton_append, ← List.append_assoc] at hOrder
      cases hVisits with
      | cons hVisit hLater =>
          rw [hStep] at hVisit
          cases hVisit
          exact ih (hCovers.follow hPop hFull hOk) hOrder hLater fun m hm =>
            hNext m (List.mem_cons_of_mem _ hm)
  | case6 f summary s n queue hPop treatment summary₁ s₁ hStep =>
      rename_i hNotFull ih
      obtain ⟨later, rfl⟩ := hCovers.pop_breadthFirst hOrder hPop
      rw [← List.singleton_append, ← List.append_assoc] at hOrder
      cases hVisits with
      | cons hVisit hLater =>
          rw [hStep] at hVisit
          cases hVisit
          exact ih (hCovers.visit hPop hNotFull) hOrder hLater fun m hm =>
            hNext m (List.mem_cons_of_mem _ hm)

/-- A walk makes the visits of a breadth-first order, if each of them goes on
and what the nodes lead to can be listed. -/
theorem run_of_visits {visited : List ν} {s s' : σ}
    (hOrder : BreadthFirst net rules roots visited) (hVisits : Visits rules visit s visited s')
    (hNext : ∀ n ∈ visited, rules.classify n = .full → ∃ next, net.successors n = .ok next) :
    (run net rules roots visit s).state = s' ∧
      ∃ total, (run net rules roots visit s).result = .ok total :=
  drain_of_visits Frontier.covers_roots hOrder hVisits hNext

end Walk

end

end ObjectStore
