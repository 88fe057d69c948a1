import Mathlib.Data.List.Nodup
import ObjectStore.Proofs.Traversal.Order

/-!
# How far a walk has come

The distance of a node is the least number of references on a path to it
from a root. In a breadth-first order the nodes within any distance stand in
front of all others, since each layer is what the layers in front of it have
come upon. So the distances never fall along the order.

A walk that nothing interrupts therefore does the same thing whatever its
visitor is: it hands every node of the breadth-first order to the visitor,
with the treatment of that node. Which nodes are to be skipped is a question
that it asks about every node it discovers, and about no other.

## Main results

* `BreadthFirst.sorted`: distances never fall along a breadth-first order.
* `Walk.run_congr`: what a walk asks about the nodes that it may skip.
* `Walk.run_visits`: what an uninterrupted walk does.
-/

namespace ObjectStore

variable {ν σ : Type}

/-! ## Distances -/

/-- The node can be reached from a root by a path of at most so many
references, of which each is followed. -/
inductive Within (net : Network ν) (rules : Rules ν) (roots : List ν) : Nat → ν → Prop where
  | root {k : Nat} {n : ν} : n ∈ roots → rules.skip n = false → Within net rules roots k n
  | step {k : Nat} {n m : ν} {next : List ν} :
      Within net rules roots k n → rules.classify n = .full → net.successors n = .ok next →
        m ∈ next → rules.skip m = false → Within net rules roots (k + 1) m

/-- The reachable nodes are those within some distance. -/
theorem reachable_iff_within {net : Network ν} {rules : Rules ν} {roots : List ν} {n : ν} :
    Reachable net rules roots n ↔ ∃ k, Within net rules roots k n := by
  constructor
  · intro h
    induction h with
    | root hRoot hSkip => exact ⟨0, Within.root hRoot hSkip⟩
    | step _ hFull hNext hIn hSkip ih =>
        obtain ⟨k, hWithin⟩ := ih
        exact ⟨k + 1, Within.step hWithin hFull hNext hIn hSkip⟩
  · rintro ⟨k, h⟩
    induction h with
    | root hRoot hSkip => exact Reachable.root hRoot hSkip
    | step _ hFull hNext hIn hSkip ih => exact Reachable.step ih hFull hNext hIn hSkip

theorem Frontier.mem_followed {net : Network ν} {rules : Rules ν} {n m : ν} :
    m ∈ Frontier.followed net rules n ↔
      rules.classify n = .full ∧ ∃ next, net.successors n = .ok next ∧ m ∈ next := by
  unfold Frontier.followed
  by_cases hFull : rules.classify n = .full
  · rw [if_pos hFull]
    cases hNext : net.successors n with
    | error e => simp
    | ok next => simp [hFull]
  · rw [if_neg hFull]
    simp [hFull]

namespace BreadthFirst

variable [BEq ν] [LawfulBEq ν] {net : Network ν} {rules : Rules ν} {roots visited : List ν}

/-- The nodes that have been met when some nodes were visited stand in front
of all others. -/
theorem take_met (h : BreadthFirst net rules roots visited) (n : Nat) :
    visited.take (met net rules roots (visited.take n)).length =
      met net rules roots (visited.take n) :=
  (List.prefix_iff_eq_take.1 (h.initial_visited n)).symm

/-- The nodes within a distance stand in front of all others. -/
theorem within_initial (h : BreadthFirst net rules roots visited) (k : Nat) :
    ∃ n, ∀ m, m ∈ visited.take n ↔ Within net rules roots k m := by
  induction k with
  | zero =>
      refine ⟨(met net rules roots (visited.take 0)).length, fun m => ?_⟩
      rw [h.take_met 0, List.take_zero, mem_met]
      constructor
      · rintro ⟨hRoot | ⟨_, hNone, -⟩, hSkip⟩
        · exact Within.root hRoot hSkip
        · cases hNone
      · rintro (⟨hRoot, hSkip⟩ | _)
        exact ⟨Or.inl hRoot, hSkip⟩
  | succ k ih =>
      obtain ⟨n, hFront⟩ := ih
      refine ⟨(met net rules roots (visited.take n)).length, fun m => ?_⟩
      rw [h.take_met n, mem_met]
      constructor
      · rintro ⟨hRoot | ⟨j, hj, hFollowed⟩, hSkip⟩
        · exact Within.root hRoot hSkip
        · obtain ⟨hFull, next, hNext, hIn⟩ := Frontier.mem_followed.1 hFollowed
          exact Within.step ((hFront j).1 hj) hFull hNext hIn hSkip
      · rintro (⟨hRoot, hSkip⟩ | ⟨hWithin, hFull, hNext, hIn, hSkip⟩)
        · exact ⟨Or.inl hRoot, hSkip⟩
        · have hFollowed := Frontier.mem_followed.2 ⟨hFull, _, hNext, hIn⟩
          exact ⟨Or.inr ⟨_, (hFront _).2 hWithin, hFollowed⟩, hSkip⟩

/-- The distances of the nodes never fall along the order: a node is within
every distance that a later one is within. -/
theorem sorted (h : BreadthFirst net rules roots visited) :
    visited.Pairwise fun n m => ∀ k, Within net rules roots k m → Within net rules roots k n := by
  rw [List.pairwise_iff_getElem]
  intro i j hi hj hLess k hLater
  obtain ⟨n, hFront⟩ := h.within_initial k
  obtain ⟨p, hp, hSame⟩ := List.getElem_of_mem ((hFront _).2 hLater)
  rw [List.getElem_take] at hSame
  have hPlace : p = j := h.nodup.getElem_inj_iff.1 hSame
  rw [List.length_take] at hp
  refine (hFront _).1 (List.mem_take_iff_getElem.2 ⟨i, by omega, rfl⟩)

/-- The order begins with the roots. -/
theorem roots_initial (h : BreadthFirst net rules roots visited) :
    (roots.eraseDups.filter fun n => !rules.skip n) <+: visited := by
  have hInitial := h.initial_visited 0
  rwa [met, List.take_zero, List.flatMap_nil, List.append_nil] at hInitial

end BreadthFirst

/-! ## What a walk asks -/

section

variable [BEq ν] [Hashable ν] [LawfulBEq ν] {net : Network ν} {rules : Rules ν} {skip : ν → Bool}
  {roots : List ν} {visit : ν → Visit → σ → Signal × σ}

namespace Frontier

omit [LawfulBEq ν] in
theorem discovered_discover_subset (rules : Rules ν) (f : Frontier ν) (n : ν) :
    f.discovered.toList ⊆ (f.discover rules n).discovered.toList := by
  unfold discover
  split
  · exact List.Subset.refl _
  · rw [Array.toList_push]
    exact List.subset_append_left _ _

omit [LawfulBEq ν] in
theorem discovered_discoverAll_subset (rules : Rules ν) (f : Frontier ν) (ns : List ν) :
    f.discovered.toList ⊆ (f.discoverAll rules ns).discovered.toList := by
  induction ns generalizing f with
  | nil => exact List.Subset.refl _
  | cons n rest ih => exact List.Subset.trans (discovered_discover_subset rules f n) (ih _)

omit [LawfulBEq ν] in
/-- Meeting a node asks about this node, and only if it is discovered by
that. -/
theorem discover_congr {f : Frontier ν} {n : ν}
    (h : ∀ m ∈ (f.discover rules n).discovered.toList, skip m = rules.skip m) :
    f.discover { rules with skip } n = f.discover rules n := by
  unfold discover at h ⊢
  by_cases hHandled : n ∈ f.handled
  · rw [if_pos hHandled, if_pos hHandled]
  · rw [if_neg hHandled] at h
    rw [if_neg hHandled, if_neg hHandled]
    simp only [h n (by simp)]

omit [LawfulBEq ν] in
theorem discoverAll_congr {f : Frontier ν} {ns : List ν}
    (h : ∀ m ∈ (f.discoverAll rules ns).discovered.toList, skip m = rules.skip m) :
    f.discoverAll { rules with skip } ns = f.discoverAll rules ns := by
  induction ns generalizing f with
  | nil => rfl
  | cons n rest ih =>
      have hHead : f.discover { rules with skip } n = f.discover rules n := by
        apply discover_congr
        exact fun m hm => h m (discovered_discoverAll_subset rules _ rest hm)
      show (f.discover { rules with skip } n).discoverAll { rules with skip } rest = _
      rw [hHead]
      exact ih h

end Frontier

namespace Walk

theorem discovered_drain_subset (f : Frontier ν) (summary : Summary) (s : σ) :
    f.discovered.toList ⊆ (drain net rules visit f summary s).discovered.toList := by
  fun_induction drain net rules visit f summary s with
  | case1 | case2 | case3 | case4 => exact List.Subset.refl _
  | case5 f summary s n queue hPop treatment summary₁ s₁ hVisit hFull next hNext =>
      rename_i ih
      exact List.Subset.trans
        (Frontier.discovered_discoverAll_subset rules { f with queue } next) ih
  | case6 f summary s n queue hPop treatment summary₁ s₁ hVisit hNotFull =>
      rename_i ih
      exact ih

theorem drain_congr {f : Frontier ν} {summary : Summary} {s : σ}
    (h : ∀ n ∈ (drain net rules visit f summary s).discovered.toList, skip n = rules.skip n) :
    drain net { rules with skip } visit f summary s = drain net rules visit f summary s := by
  have hClassify : ∀ n, Rules.classify { rules with skip } n = rules.classify n := fun _ => rfl
  fun_induction drain net rules visit f summary s with
  | case1 f summary s queue hPop => rw [drain_eq, hPop]
  | case2 f summary s n queue hPop treatment e s₁ hVisit =>
      rw [drain_eq, hPop]
      simp only [hClassify, treatment, hVisit]
  | case3 f summary s n queue hPop treatment summary₁ s₁ =>
      rename_i hVisit
      rw [drain_eq, hPop]
      simp only [hClassify, summary₁, treatment, hVisit]
  | case4 f summary s n queue hPop treatment s₁ hVisit hFull e hNext =>
      dsimp only [treatment] at hVisit hFull
      rw [hFull] at hVisit
      rw [drain_eq, hPop]
      simp only [hClassify, hVisit, hFull, hNext, if_true]
  | case5 f summary s n queue hPop treatment summary₁ s₁ hVisit hFull next hNext =>
      rename_i ih
      dsimp only [treatment] at hVisit hFull
      rw [hFull] at hVisit
      have hMet : Frontier.discoverAll { rules with skip } { f with queue } next =
          Frontier.discoverAll rules { f with queue } next :=
        Frontier.discoverAll_congr fun m hm => h m (discovered_drain_subset _ _ _ hm)
      rw [drain_eq, hPop, ← ih h]
      simp only [hClassify, hVisit, hFull, hNext, if_true, hMet, summary₁, treatment]
  | case6 f summary s n queue hPop treatment summary₁ s₁ hVisit hNotFull =>
      rename_i ih
      dsimp only [treatment] at hVisit hNotFull
      rw [drain_eq, hPop, ← ih h]
      simp only [hClassify, hVisit, hNotFull, if_false, summary₁, treatment]

/-- A walk asks about the nodes that it discovers, and about no other: it is
the same for all predicates that agree on these. -/
theorem run_congr {s : σ}
    (h : ∀ n ∈ (run net rules roots visit s).discovered.toList, skip n = rules.skip n) :
    run net { rules with skip } roots visit s = run net rules roots visit s := by
  have hRoots : Frontier.discoverAll { rules with skip } Frontier.empty roots =
      Frontier.discoverAll rules Frontier.empty roots :=
    Frontier.discoverAll_congr fun n hn => h n (discovered_drain_subset _ _ _ hn)
  rw [run, hRoots]
  exact drain_congr h

end Walk

end

/-! ## Uninterrupted walks -/

/-- How many of the nodes are treated in which way. -/
def Summary.tally (rules : Rules ν) (visited : List ν) : Summary where
  full := visited.countP fun n => rules.classify n = .full
  node := visited.countP fun n => rules.classify n = .node
  leaf := visited.countP fun n => rules.classify n = .leaf
  aborted := false

theorem Summary.foldl_count (rules : Rules ν) (visited : List ν) (start : Summary) :
    visited.foldl (fun total n => total.count (rules.classify n)) start =
      ⟨start.full + (tally rules visited).full, start.node + (tally rules visited).node,
        start.leaf + (tally rules visited).leaf, start.aborted⟩ := by
  induction visited generalizing start with
  | nil => rfl
  | cons n rest ih =>
      rw [List.foldl_cons, ih]
      cases hClassify : rules.classify n <;>
        simp [tally, count, hClassify] <;> omega

/-- The state after a list of visits. -/
theorem Visits.state_eq {rules : Rules ν} {visit : ν → Visit → σ → Signal × σ} {visited : List ν}
    {s s' : σ} (h : Visits rules visit s visited s') :
    s' = visited.foldl (fun s n => (visit n (rules.classify n) s).2) s := by
  induction h with
  | nil s => rfl
  | cons hVisit _ ih => rw [ih, List.foldl_cons, hVisit]

/-- The nodes are the reachable ones, each once, in the order in which a walk
comes upon them. -/
structure Itinerary [BEq ν] (net : Network ν) (rules : Rules ν) (roots visited : List ν) : Prop where
  reachable : ∀ n, n ∈ visited ↔ Reachable net rules roots n
  nodup : visited.Nodup
  /-- First come the roots, then what the first node leads to, then what the
  second one leads to, and so on. -/
  order : visited =
    (roots ++ visited.flatMap (Frontier.followed net rules)).eraseDups.filter fun n => !rules.skip n
  rootsFirst : (roots.eraseDups.filter fun n => !rules.skip n) <+: visited
  /-- A node is not farther from the roots than a later one. -/
  sorted : visited.Pairwise fun n m =>
    ∀ k, Within net rules roots k m → Within net rules roots k n

/-- The walk has handed the nodes to its visitor, one after the other, and
has asked of every node that it came upon, once, whether it is to be
skipped. -/
structure Walk.Completed (net : Network ν) (rules : Rules ν) (roots visited : List ν)
    (visit : ν → Visit → σ → Signal × σ) (s : σ) (walk : Walk ν σ) : Prop where
  state : walk.state = visited.foldl (fun s n => (visit n (rules.classify n) s).2) s
  result : walk.result = .ok (Summary.tally rules visited)
  askedOnce : walk.discovered.toList.Nodup
  asked : ∀ n, n ∈ walk.discovered.toList ↔
    n ∈ roots ∨ ∃ m ∈ visited, rules.classify m = .full ∧
      ∃ next, net.successors m = .ok next ∧ n ∈ next

variable [BEq ν] [Hashable ν] [LawfulBEq ν] {net : Network ν} {rules : Rules ν} {roots : List ν}

omit [Hashable ν] in
theorem BreadthFirst.itinerary {visited : List ν} (h : BreadthFirst net rules roots visited) :
    Itinerary net rules roots visited :=
  ⟨h.reachable, h.nodup, h.order, h.roots_initial, h.sorted⟩

namespace Walk

/-- A walk that nothing interrupts completes some breadth-first order. -/
theorem run_completed {visit : ν → Visit → σ → Signal × σ} {s : σ}
    (hNet : ∀ n, ∃ next, net.successors n = .ok next)
    (hVisitor : ∀ n treatment s, (visit n treatment s).1 = .proceed) :
    ∃ visited, BreadthFirst net rules roots visited ∧
      Completed net rules roots visited visit s (run net rules roots visit s) := by
  obtain ⟨summary, hResult⟩ := @run_result _ _ _ _ _ net rules roots visit s
    (fun n s _ => hVisitor n _ s) fun n _ _ => hNet n
  obtain ⟨visited, f, hVisits, hCovers, hEmpty, hDiscovered, hSummary⟩ :=
    drain_ok (fun n treatment s => by simp [hVisitor]) Frontier.covers_roots hResult
  rw [List.nil_append] at hCovers
  have hAsked : (run net rules roots visit s).discovered.toList =
      (roots ++ visited.flatMap (Frontier.followed net rules)).eraseDups := by
    rw [run, hDiscovered, hCovers.order]
  refine ⟨visited, hCovers.breadthFirst hEmpty, hVisits.state_eq, ?_, ?_, ?_⟩
  · rw [hResult, hSummary, Summary.foldl_count]
    simp [Summary.empty, Summary.tally]
  · rw [hAsked]
    exact nodup_eraseDups _
  · intro n
    rw [hAsked, List.mem_eraseDups, List.mem_append, List.mem_flatMap]
    simp only [Frontier.mem_followed]

/-- For every network without faults there is one order in which all walks
visit the reachable nodes, whatever their visitors are, as long as these go
on. -/
theorem run_visits (net : Network ν) (rules : Rules ν) (roots : List ν)
    (hNet : ∀ n, ∃ next, net.successors n = .ok next) :
    ∃ visited, Itinerary net rules roots visited ∧
      ∀ {σ : Type} (visit : ν → Visit → σ → Signal × σ) (s : σ),
        (∀ n treatment s, (visit n treatment s).1 = .proceed) →
          Completed net rules roots visited visit s (run net rules roots visit s) ∧
          ∀ skip : ν → Bool,
            (∀ n ∈ (run net rules roots visit s).discovered.toList, skip n = rules.skip n) →
              run net { rules with skip } roots visit s = run net rules roots visit s := by
  obtain ⟨visited, hOrder, -⟩ := @run_completed ν Unit _ _ _ net rules roots
    (fun _ _ s => (.proceed, s)) () hNet fun _ _ _ => rfl
  refine ⟨visited, hOrder.itinerary, fun visit s hVisitor => ?_⟩
  obtain ⟨visited', hOrder', hCompleted⟩ :=
    @run_completed ν _ _ _ _ net rules roots visit s hNet hVisitor
  rw [← hOrder.unique hOrder'] at hCompleted
  exact ⟨hCompleted, fun skip hAgree => run_congr hAgree⟩

/-- Five rooms. From the first ones a way leads back and on, behind the fourth
room lies the sixth, and the fifth room is closed. -/
def maze : Network Nat where
  successors n := .ok (([[1, 2], [3, 0], [4, 3], [5]][n]?).getD [])
  finite := by
    apply Network.finite_of_sources [0, 1, 2, 3]
    intro n next h
    by_cases hRoom : n < 4
    · exact Or.inl (by simp; omega)
    · cases h
      exact Or.inr (by rw [List.getElem?_eq_none (by simpa using hRoom)]; rfl)

/-- The way is not to lead through the fifth room, and it ends in the
fourth one. -/
def mazeRules : Rules Nat where
  skip := (· == 4)
  leaf := (· == 3)

theorem breadthFirst_maze : BreadthFirst maze mazeRules [0, 0, 4] [0, 1, 2, 3] := by
  have hFirst : Reachable maze mazeRules [0, 0, 4] 0 := Reachable.root (by decide) rfl
  have hSecond := Reachable.step (m := 1) hFirst rfl rfl (by decide) rfl
  have hThird := Reachable.step (m := 2) hFirst rfl rfl (by decide) rfl
  have hFourth := Reachable.step (m := 3) hSecond rfl rfl (by decide) rfl
  refine BreadthFirst.of_met (by decide) fun n hIn => ?_
  simp only [List.mem_cons, List.not_mem_nil, or_false] at hIn
  rcases hIn with rfl | rfl | rfl | rfl <;> assumption

/-- The way through the rooms, with how each is treated. -/
theorem run_visits_maze :
    (∀ n, ∃ next, maze.successors n = .ok next) ∧
      let walk := run maze mazeRules [0, 0, 4] (fun n treatment seen =>
        (.proceed, seen ++ [(n, treatment)])) []
      walk.state = [(0, .full), (1, .full), (2, .full), (3, .leaf)] ∧
        walk.result = .ok ⟨3, 0, 1, false⟩ ∧
          walk.discovered.toList.Nodup ∧ 4 ∈ walk.discovered.toList ∧
            5 ∉ walk.discovered.toList := by
  have hNet : ∀ n, ∃ next, maze.successors n = .ok next := fun _ => ⟨_, rfl⟩
  refine ⟨hNet, ?_⟩
  intro walk
  obtain ⟨visited, hItinerary, hAll⟩ := run_visits maze mazeRules [0, 0, 4] hNet
  obtain ⟨hCompleted, -⟩ := hAll (fun n treatment seen => (.proceed, seen ++ [(n, treatment)]))
    [] fun _ _ _ => rfl
  have hVisited : visited = [0, 1, 2, 3] :=
    BreadthFirst.unique ⟨hItinerary.reachable, hItinerary.order⟩ breadthFirst_maze
  subst hVisited
  refine ⟨hCompleted.state, hCompleted.result, hCompleted.askedOnce, ?_, ?_⟩
  · exact (hCompleted.asked 4).2 (Or.inl (by decide))
  · intro hAsked
    rcases (hCompleted.asked 5).1 hAsked with hRoot | ⟨m, hm, hFull, next, hNext, hIn⟩
    · exact absurd hRoot (by decide)
    · have hNone : ∀ m ∈ [0, 1, 2, 3], 5 ∉ Frontier.followed maze mazeRules m := by decide
      exact hNone m hm (Frontier.mem_followed.2 ⟨hFull, next, hNext, hIn⟩)

end Walk

end ObjectStore
