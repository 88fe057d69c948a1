import ObjectStore.Proofs.Traversal.Queue
import ObjectStore.Traversal.Walk

/-!
# What a walk visits

A walk visits every node that `Reachable` names, each once, and hands its
state from one visit to the next. The argument is an invariant of the
frontier, `Frontier.Covers`: the discovered nodes that are not left out are
the visited ones followed by the pending ones, all of them are reachable,
and whatever a visited node leads to has been discovered, node by node. When
nothing is pending any more, the visited nodes are the reachable ones in the
order in which they were met.

A visitor that never ends the walk early is described by `Visits`, the
relation between the state before a list of visits and the state after it.

## Main results

* `Walk.run_ok`: a walk that succeeds has visited exactly the reachable
  nodes, breadth-first.
* `Walk.run_keeps`: what every visit keeps, the walk keeps.
* `Walk.run_result`: a walk succeeds if every visit of a reachable node does
  and the references of every reachable node can be listed.
* `Walk.run_error`: a walk fails because of a reachable node.
-/

namespace ObjectStore

variable {ν σ : Type} [BEq ν] [Hashable ν]

/-! ## Meeting nodes -/

namespace Frontier

/-- The queue is in order, and the set and the list of discovered nodes are
the same. -/
structure WellFormed (f : Frontier ν) : Prop where
  queue : f.queue.WellFormed
  handled : ∀ n, n ∈ f.handled ↔ n ∈ f.discovered.toList
  nodup : f.discovered.toList.Nodup

/-- The discovered nodes that are not left out, in the order of discovery. -/
def admitted (rules : Rules ν) (f : Frontier ν) : List ν :=
  f.discovered.toList.filter fun n => !rules.skip n

/-- The frontier `f'` is `f` after it has met the nodes `ns`. -/
structure Meets (rules : Rules ν) (f : Frontier ν) (ns : List ν) (f' : Frontier ν) : Prop where
  wellFormed : f'.WellFormed
  handled : ∀ n, n ∈ f'.handled ↔ n ∈ f.handled ∨ n ∈ ns
  /-- Those met for the first time and not left out are pending. -/
  news : ∃ news, (∀ n ∈ news, n ∈ ns ∧ rules.skip n = false) ∧
    f'.queue.toList = f.queue.toList ++ news ∧ f'.admitted rules = f.admitted rules ++ news

theorem wellFormed_empty : (empty : Frontier ν).WellFormed where
  queue := Worklist.wellFormed_empty
  handled := by intro n; simp [empty]
  nodup := by simp [empty]

theorem meets_discover [LawfulBEq ν] {f : Frontier ν} (h : f.WellFormed) (rules : Rules ν) (n : ν) :
    Meets rules f [n] (f.discover rules n) := by
  by_cases hHandled : n ∈ f.handled
  · have hSame : f.discover rules n = f := by simp [discover, hHandled]
    rw [hSame]
    refine ⟨h, ?_, [], by simp, by simp, by simp⟩
    intro m
    constructor
    · exact Or.inl
    · rintro (hm | hm)
      · exact hm
      · rwa [List.mem_singleton.1 hm]
  · have hNew : n ∉ f.discovered.toList := fun hIn => hHandled ((h.handled n).2 hIn)
    have hHandledIff : ∀ m, m ∈ f.handled.insert n ↔ m ∈ f.handled ∨ m ∈ [n] := by
      intro m
      rw [Std.HashSet.mem_insert, List.mem_singleton, or_comm, beq_iff_eq, eq_comm]
    have hList : (f.discovered.push n).toList = f.discovered.toList ++ [n] := by simp
    have hNodup : (f.discovered.push n).toList.Nodup := by
      rw [hList, List.nodup_append]
      refine ⟨h.nodup, by simp, ?_⟩
      intro a ha b hb hab
      rw [List.mem_singleton.1 hb] at hab
      exact hNew (hab ▸ ha)
    have hAgree : ∀ m, m ∈ f.handled.insert n ↔ m ∈ (f.discovered.push n).toList := by
      intro m
      rw [hHandledIff, hList, List.mem_append, h.handled]
    simp only [discover, hHandled, if_false]
    by_cases hSkip : rules.skip n = true
    · rw [if_pos hSkip]
      refine ⟨⟨h.queue, hAgree, hNodup⟩, hHandledIff, [], by simp, by simp, ?_⟩
      simp [admitted, hSkip]
    · rw [if_neg hSkip]
      refine ⟨⟨Worklist.wellFormed_push h.queue n, hAgree, hNodup⟩, hHandledIff, [n], ?_,
        Worklist.toList_push h.queue n, ?_⟩
      · intro m hm
        rw [List.mem_singleton.1 hm]
        exact ⟨by simp, by simpa using hSkip⟩
      · simp [admitted, hSkip]

theorem meets_discoverAll [LawfulBEq ν] {f : Frontier ν} (h : f.WellFormed) (rules : Rules ν)
    (ns : List ν) :
    Meets rules f ns (f.discoverAll rules ns) := by
  induction ns generalizing f with
  | nil =>
      refine ⟨h, ?_, [], by simp, by simp [discoverAll], by simp [discoverAll]⟩
      intro n
      simp [discoverAll]
  | cons n rest ih =>
      have hHead := meets_discover h rules n
      have hRest := ih hHead.wellFormed
      obtain ⟨first, hFirst, hFirstQueue, hFirstAdmitted⟩ := hHead.news
      obtain ⟨others, hOthers, hOthersQueue, hOthersAdmitted⟩ := hRest.news
      have hSame : f.discoverAll rules (n :: rest) = (f.discover rules n).discoverAll rules rest :=
        rfl
      rw [hSame]
      refine ⟨hRest.wellFormed, ?_, first ++ others, ?_, ?_, ?_⟩
      · intro m
        rw [hRest.handled, hHead.handled, List.mem_singleton, List.mem_cons, or_assoc]
      · intro m hm
        rcases List.mem_append.1 hm with hIn | hIn
        · obtain ⟨hEq, hSkip⟩ := hFirst m hIn
          rw [List.mem_singleton] at hEq
          exact ⟨by simp [hEq], hSkip⟩
        · obtain ⟨hEq, hSkip⟩ := hOthers m hIn
          exact ⟨List.mem_cons_of_mem _ hEq, hSkip⟩
      · rw [hOthersQueue, hFirstQueue, List.append_assoc]
      · rw [hOthersAdmitted, hFirstAdmitted, List.append_assoc]

/-- Meeting a node puts it behind the discovered ones, unless it is one of
them. -/
theorem discovered_discover [LawfulBEq ν] {f : Frontier ν} (h : f.WellFormed) (rules : Rules ν)
    {met : List ν} (hMet : f.discovered.toList = met.eraseDups) (n : ν) :
    (f.discover rules n).discovered.toList = (met ++ [n]).eraseDups := by
  have hKnown : n ∈ f.handled ↔ n ∈ met := by rw [h.handled, hMet, List.mem_eraseDups]
  rw [List.eraseDups_append]
  by_cases hHandled : n ∈ f.handled
  · have hOld : n ∈ met := hKnown.1 hHandled
    simp [discover, hHandled, List.removeAll, hOld, hMet]
  · have hNew : n ∉ met := fun hIn => hHandled (hKnown.2 hIn)
    simp [discover, hHandled, List.removeAll, hNew, hMet, List.eraseDups_cons]

theorem discovered_discoverAll [LawfulBEq ν] {f : Frontier ν} (h : f.WellFormed) (rules : Rules ν)
    {met : List ν} (hMet : f.discovered.toList = met.eraseDups) (ns : List ν) :
    (f.discoverAll rules ns).discovered.toList = (met ++ ns).eraseDups := by
  induction ns generalizing f met with
  | nil => simpa [discoverAll] using hMet
  | cons n rest ih =>
      have hHead := discovered_discover h rules hMet n
      have hRest := ih (meets_discover h rules n).wellFormed hHead
      rw [List.append_assoc, List.singleton_append] at hRest
      exact hRest

/-! ## The invariant of a walk -/

/-- What a visited node leads to, if its references are followed. -/
def followed (net : Network ν) (rules : Rules ν) (n : ν) : List ν :=
  if rules.classify n = .full then
    match net.successors n with
    | .ok next => next
    | .error _ => []
  else []

/-- Where a walk stands after it has visited some nodes. -/
structure Covers (net : Network ν) (rules : Rules ν) (roots : List ν) (f : Frontier ν)
    (visited : List ν) : Prop where
  wellFormed : f.WellFormed
  admitted : f.admitted rules = visited ++ f.queue.toList
  reachable : ∀ n ∈ f.admitted rules, Reachable net rules roots n
  order : f.discovered.toList = (roots ++ visited.flatMap (followed net rules)).eraseDups
  roots : ∀ n ∈ roots, n ∈ f.handled
  closed : ∀ n ∈ visited, rules.classify n = .full →
    ∃ next, net.successors n = .ok next ∧ ∀ m ∈ next, m ∈ f.handled

variable {net : Network ν} {rules : Rules ν} {roots : List ν} {f : Frontier ν} {visited : List ν}

theorem covers_roots [LawfulBEq ν] :
    Covers net rules roots (discoverAll rules empty roots) [] := by
  have hMeets := meets_discoverAll (f := empty) wellFormed_empty rules roots
  obtain ⟨news, hNews, hQueue, hAdmitted⟩ := hMeets.news
  have hOrder := @discovered_discoverAll _ _ _ _ empty wellFormed_empty rules [] rfl roots
  refine ⟨hMeets.wellFormed, ?_, ?_, by simpa using hOrder, ?_, by simp⟩
  · rw [hAdmitted, hQueue]
    rfl
  · intro n hn
    rw [hAdmitted] at hn
    obtain ⟨hRoot, hSkip⟩ := hNews n (by simpa [admitted, empty] using hn)
    exact Reachable.root hRoot hSkip
  · intro n hn
    exact (hMeets.handled n).2 (Or.inr hn)

/-- A node that is taken from the queue is reachable. -/
theorem Covers.reachable_pop {queue : Worklist ν} {n : ν} (h : Covers net rules roots f visited)
    (hPop : f.queue.pop = (some n, queue)) : Reachable net rules roots n := by
  apply h.reachable
  rw [h.admitted, Worklist.toList_of_pop_some hPop]
  simp

/-- Taking a node off the queue and visiting it, without following its
references. -/
theorem Covers.visit {queue : Worklist ν} {n : ν} (h : Covers net rules roots f visited)
    (hPop : f.queue.pop = (some n, queue)) (hClassify : rules.classify n ≠ .full) :
    Covers net rules roots { f with queue } (visited ++ [n]) := by
  have hQueue : queue.WellFormed := by
    have hWellFormed := Worklist.wellFormed_pop h.wellFormed.queue
    rwa [hPop] at hWellFormed
  have hNothing : followed net rules n = [] := if_neg hClassify
  refine ⟨⟨hQueue, h.wellFormed.handled, h.wellFormed.nodup⟩, ?_, h.reachable, ?_, h.roots, ?_⟩
  · show f.admitted rules = _
    rw [h.admitted, Worklist.toList_of_pop_some hPop, List.append_assoc]
    rfl
  · show f.discovered.toList = _
    rw [h.order, List.flatMap_append, List.flatMap_singleton, hNothing, List.append_nil]
  · intro m hm hFull
    rcases List.mem_append.1 hm with hIn | hIn
    · exact h.closed m hIn hFull
    · rw [List.mem_singleton.1 hIn] at hFull
      exact absurd hFull hClassify

/-- Taking a node off the queue, visiting it, and following its references. -/
theorem Covers.follow [LawfulBEq ν] {queue : Worklist ν} {n : ν} {next : List ν}
    (h : Covers net rules roots f visited) (hPop : f.queue.pop = (some n, queue))
    (hClassify : rules.classify n = .full) (hNext : net.successors n = .ok next) :
    Covers net rules roots (discoverAll rules { f with queue } next) (visited ++ [n]) := by
  have hReachable := h.reachable_pop hPop
  have hQueue : queue.WellFormed := by
    have hWellFormed := Worklist.wellFormed_pop h.wellFormed.queue
    rwa [hPop] at hWellFormed
  have hMeets := meets_discoverAll (f := { f with queue })
    ⟨hQueue, h.wellFormed.handled, h.wellFormed.nodup⟩ rules next
  obtain ⟨news, hNews, hNewQueue, hAdmitted⟩ := hMeets.news
  have hFormer : Frontier.admitted rules { f with queue } = visited ++ n :: queue.toList := by
    show f.admitted rules = _
    rw [h.admitted, Worklist.toList_of_pop_some hPop]
  have hFollowed : followed net rules n = next := by
    rw [followed, if_pos hClassify, hNext]
  have hOrder := discovered_discoverAll (f := { f with queue })
    ⟨hQueue, h.wellFormed.handled, h.wellFormed.nodup⟩ rules h.order next
  refine ⟨hMeets.wellFormed, ?_, ?_, ?_, ?_, ?_⟩
  · rw [hAdmitted, hNewQueue, hFormer]
    simp
  · intro m hm
    rw [hAdmitted, List.mem_append] at hm
    rcases hm with hIn | hIn
    · exact h.reachable m hIn
    · obtain ⟨hNextIn, hSkip⟩ := hNews m hIn
      exact Reachable.step hReachable hClassify hNext hNextIn hSkip
  · rw [hOrder, List.flatMap_append, List.flatMap_singleton, hFollowed, List.append_assoc]
  · intro m hm
    exact (hMeets.handled m).2 (Or.inl (h.roots m hm))
  · intro m hm hFull
    rcases List.mem_append.1 hm with hIn | hIn
    · obtain ⟨others, hOthers, hHandled⟩ := h.closed m hIn hFull
      exact ⟨others, hOthers, fun k hk => (hMeets.handled k).2 (Or.inl (hHandled k hk))⟩
    · rw [List.mem_singleton.1 hIn]
      exact ⟨next, hNext, fun k hk => (hMeets.handled k).2 (Or.inr hk)⟩

/-- When nothing is pending, what was visited is what is reachable. -/
theorem Covers.mem_iff (h : Covers net rules roots f visited) (hDone : f.queue.toList = [])
    (n : ν) : n ∈ visited ↔ Reachable net rules roots n := by
  have hVisited : f.admitted rules = visited := by rw [h.admitted, hDone, List.append_nil]
  have hMem : ∀ m, m ∈ f.handled → rules.skip m = false → m ∈ visited := by
    intro m hm hSkip
    rw [← hVisited]
    exact List.mem_filter.2 ⟨(h.wellFormed.handled m).1 hm, by simp [hSkip]⟩
  constructor
  · intro hn
    exact h.reachable n (hVisited ▸ hn)
  · intro hn
    induction hn with
    | root hRoot hSkip => exact hMem _ (h.roots _ hRoot) hSkip
    | step _ hFull hNext hIn hSkip ih =>
        obtain ⟨next, hNext', hHandled⟩ := h.closed _ ih hFull
        rw [hNext] at hNext'
        cases hNext'
        exact hMem _ (hHandled _ hIn) hSkip

theorem Covers.nodup (h : Covers net rules roots f visited) : visited.Nodup := by
  have hAll : (f.admitted rules).Nodup := h.wellFormed.nodup.filter _
  rw [h.admitted] at hAll
  exact (List.nodup_append.1 hAll).1

end Frontier

/-! ## Breadth-first order -/

/-- The nodes are those that a walk has to visit, in the order in which it
comes upon them: the roots, then what the first node leads to, then what the
second one leads to, and so on, each where it is met first. -/
structure BreadthFirst (net : Network ν) (rules : Rules ν) (roots visited : List ν) : Prop where
  reachable : ∀ n, n ∈ visited ↔ Reachable net rules roots n
  order : visited =
    (roots ++ visited.flatMap (Frontier.followed net rules)).eraseDups.filter fun n => !rules.skip n

theorem Frontier.Covers.breadthFirst {net : Network ν} {rules : Rules ν} {roots visited : List ν}
    {f : Frontier ν} (h : Covers net rules roots f visited) (hDone : f.queue.toList = []) :
    BreadthFirst net rules roots visited := by
  refine ⟨h.mem_iff hDone, ?_⟩
  have hAdmitted := h.admitted
  rw [hDone, List.append_nil, Frontier.admitted, h.order] at hAdmitted
  exact hAdmitted.symm

/-! ## Visits -/

/-- A visitor that goes on from node to node, and what becomes of its
state. -/
inductive Visits (rules : Rules ν) (visit : ν → Visit → σ → Signal × σ) :
    σ → List ν → σ → Prop where
  | nil (s : σ) : Visits rules visit s [] s
  | cons {n : ν} {ns : List ν} {s s' s'' : σ} :
      visit n (rules.classify n) s = (.proceed, s') → Visits rules visit s' ns s'' →
        Visits rules visit s (n :: ns) s''

namespace Walk

variable [LawfulBEq ν] {net : Network ν} {rules : Rules ν} {roots : List ν}
  {visit : ν → Visit → σ → Signal × σ}

theorem drain_ok {f : Frontier ν} {summary summary' : Summary} {s : σ} {visited : List ν}
    (hVisitor : ∀ n treatment s, (visit n treatment s).1 ≠ .stop)
    (hCovers : f.Covers net rules roots visited)
    (hResult : (drain net rules visit f summary s).result = .ok summary') :
    ∃ rest f', Visits rules visit s rest (drain net rules visit f summary s).state ∧
      Frontier.Covers net rules roots f' (visited ++ rest) ∧ f'.queue.toList = [] ∧
      (drain net rules visit f summary s).discovered = f'.discovered ∧
      summary' = rest.foldl (fun total n => total.count (rules.classify n)) summary := by
  fun_induction drain net rules visit f summary s generalizing visited with
  | case1 f summary s queue hPop =>
      cases hResult
      refine ⟨[], f, Visits.nil s, by simpa using hCovers, ?_, rfl, rfl⟩
      exact Worklist.toList_of_pop_none hPop
  | case2 f summary s n queue hPop treatment e s₁ => cases hResult
  | case3 f summary s n queue hPop treatment summary₁ s₁ =>
      rename_i hVisit
      exact absurd (congrArg Prod.fst hVisit) (hVisitor n _ s)
  | case4 f summary s n queue hPop treatment s₁ hVisit hFull e => cases hResult
  | case5 f summary s n queue hPop treatment summary₁ s₁ hVisit hFull next hNext =>
      rename_i ih
      obtain ⟨rest, f', hVisits, hDone, hEmpty, hLeft⟩ :=
        ih (hCovers.follow hPop hFull hNext) hResult
      refine ⟨n :: rest, f', Visits.cons hVisit hVisits, ?_, hEmpty, hLeft⟩
      simpa using hDone
  | case6 f summary s n queue hPop treatment summary₁ s₁ hVisit hNotFull =>
      rename_i ih
      obtain ⟨rest, f', hVisits, hDone, hEmpty, hLeft⟩ :=
        ih (hCovers.visit hPop hNotFull) hResult
      refine ⟨n :: rest, f', Visits.cons hVisit hVisits, ?_, hEmpty, hLeft⟩
      simpa using hDone

/-- A walk that succeeds, and that no visitor ends early, visits exactly the
reachable nodes, each once and breadth-first. What a fully visited node leads
to could be listed. -/
theorem run_ok {s : σ} {summary : Summary}
    (hVisitor : ∀ n treatment s, (visit n treatment s).1 ≠ .stop)
    (hResult : (run net rules roots visit s).result = .ok summary) :
    ∃ visited, visited.Nodup ∧ BreadthFirst net rules roots visited ∧
      Visits rules visit s visited (run net rules roots visit s).state ∧
      ∀ n ∈ visited, rules.classify n = .full → ∃ next, net.successors n = .ok next := by
  obtain ⟨visited, f, hVisits, hCovers, hEmpty, -⟩ :=
    drain_ok hVisitor Frontier.covers_roots hResult
  rw [List.nil_append] at hCovers
  refine ⟨visited, hCovers.nodup, hCovers.breadthFirst hEmpty, hVisits, ?_⟩
  intro n hn hFull
  obtain ⟨next, hNext, -⟩ := hCovers.closed n hn hFull
  exact ⟨next, hNext⟩

theorem drain_result {f : Frontier ν} {summary : Summary} {s : σ} {visited : List ν}
    (hVisitor : ∀ n s, Reachable net rules roots n → (visit n (rules.classify n) s).1 = .proceed)
    (hNext : ∀ n, Reachable net rules roots n → rules.classify n = .full →
      ∃ next, net.successors n = .ok next)
    (hCovers : f.Covers net rules roots visited) :
    ∃ summary', (drain net rules visit f summary s).result = .ok summary' := by
  fun_induction drain net rules visit f summary s generalizing visited with
  | case1 f summary s queue hPop => exact ⟨summary, rfl⟩
  | case2 f summary s n queue hPop treatment e s₁ =>
      rename_i hVisit
      have hProceed := hVisitor n s (hCovers.reachable_pop hPop)
      rw [hVisit] at hProceed
      cases hProceed
  | case3 f summary s n queue hPop treatment summary₁ s₁ => exact ⟨_, rfl⟩
  | case4 f summary s n queue hPop treatment s₁ hVisit hFull e =>
      rename_i hError
      obtain ⟨next, hOk⟩ := hNext n (hCovers.reachable_pop hPop) hFull
      rw [hOk] at hError
      cases hError
  | case5 f summary s n queue hPop treatment summary₁ s₁ hVisit hFull next hOk =>
      rename_i ih
      exact ih (hCovers.follow hPop hFull hOk)
  | case6 f summary s n queue hPop treatment summary₁ s₁ hVisit hNotFull =>
      rename_i ih
      exact ih (hCovers.visit hPop hNotFull)

/-- A walk succeeds if every visit of a reachable node goes on and its
references can be listed. -/
theorem run_result {s : σ}
    (hVisitor : ∀ n s, Reachable net rules roots n → (visit n (rules.classify n) s).1 = .proceed)
    (hNext : ∀ n, Reachable net rules roots n → rules.classify n = .full →
      ∃ next, net.successors n = .ok next) :
    ∃ summary, (run net rules roots visit s).result = .ok summary :=
  drain_result hVisitor hNext Frontier.covers_roots

theorem drain_error {f : Frontier ν} {summary : Summary} {s : σ} {visited : List ν} {e : Error}
    (hCovers : f.Covers net rules roots visited)
    (hResult : (drain net rules visit f summary s).result = .error e) :
    ∃ n, Reachable net rules roots n ∧
      ((∃ s', (visit n (rules.classify n) s').1 = .fail e) ∨ net.successors n = .error e) := by
  fun_induction drain net rules visit f summary s generalizing visited with
  | case1 f summary s queue hPop => cases hResult
  | case2 f summary s n queue hPop treatment e₁ s₁ =>
      rename_i hVisit
      cases hResult
      exact ⟨n, hCovers.reachable_pop hPop, Or.inl ⟨s, by rw [hVisit]⟩⟩
  | case3 f summary s n queue hPop treatment summary₁ s₁ => cases hResult
  | case4 f summary s n queue hPop treatment s₁ hVisit hFull e₁ =>
      rename_i hError
      cases hResult
      exact ⟨n, hCovers.reachable_pop hPop, Or.inr hError⟩
  | case5 f summary s n queue hPop treatment summary₁ s₁ hVisit hFull next hOk =>
      rename_i ih
      exact ih (hCovers.follow hPop hFull hOk) hResult
  | case6 f summary s n queue hPop treatment summary₁ s₁ hVisit hNotFull =>
      rename_i ih
      exact ih (hCovers.visit hPop hNotFull) hResult

/-- A walk fails because the visit of a reachable node does, or because the
references of one cannot be listed. -/
theorem run_error {s : σ} {e : Error} (hResult : (run net rules roots visit s).result = .error e) :
    ∃ n, Reachable net rules roots n ∧
      ((∃ s', (visit n (rules.classify n) s').1 = .fail e) ∨ net.successors n = .error e) :=
  drain_error Frontier.covers_roots hResult

theorem drain_keeps {P : σ → Prop} {f : Frontier ν} {summary : Summary} {s : σ}
    (hVisit : ∀ n treatment s, P s → P (visit n treatment s).2) (h : P s) :
    P (drain net rules visit f summary s).state := by
  fun_induction drain net rules visit f summary s with
  | case1 f summary s queue hPop => exact h
  | case2 f summary s n queue hPop treatment e s₁ hStep =>
      have hNext := hVisit n treatment s h
      rwa [hStep] at hNext
  | case3 f summary s n queue hPop treatment summary₁ s₁ hStep =>
      have hNext := hVisit n treatment s h
      rwa [hStep] at hNext
  | case4 f summary s n queue hPop treatment s₁ hStep =>
      have hNext := hVisit n treatment s h
      rwa [hStep] at hNext
  | case5 f summary s n queue hPop treatment summary₁ s₁ hStep hFull next hOk ih =>
      have hNext := hVisit n treatment s h
      rw [hStep] at hNext
      exact ih hNext
  | case6 f summary s n queue hPop treatment summary₁ s₁ hStep hNotFull ih =>
      have hNext := hVisit n treatment s h
      rw [hStep] at hNext
      exact ih hNext

/-- What every visit keeps, the walk keeps, however it ends. -/
theorem run_keeps {P : σ → Prop} {s : σ}
    (hVisit : ∀ n treatment s, P s → P (visit n treatment s).2) (h : P s) :
    P (run net rules roots visit s).state :=
  drain_keeps hVisit h

/-! ### Single steps -/

/-- What a walk does with the next pending node. -/
theorem drain_eq (f : Frontier ν) (summary : Summary) (s : σ) :
    drain net rules visit f summary s =
      match f.queue.pop with
      | (none, _) => ⟨s, f.discovered, .ok summary⟩
      | (some n, queue) =>
          match visit n (rules.classify n) s with
          | (.fail e, s') => ⟨s', f.discovered, .error e⟩
          | (.stop, s') =>
              ⟨s', f.discovered, .ok { summary.count (rules.classify n) with aborted := true }⟩
          | (.proceed, s') =>
              if rules.classify n = .full then
                match net.successors n with
                | .error e => ⟨s', f.discovered, .error e⟩
                | .ok next =>
                    drain net rules visit (Frontier.discoverAll rules { f with queue } next)
                      (summary.count (rules.classify n)) s'
              else drain net rules visit { f with queue } (summary.count (rules.classify n)) s' := by
  rw [drain]
  split
  · rename_i hPop
    rw [hPop]
  · rename_i n queue hPop
    rw [hPop]
    dsimp only
    rcases visit n (rules.classify n) s with ⟨_ | _ | e, s'⟩
    · dsimp only
      split
      · split
        · rename_i hNext
          rw [hNext]
        · rename_i hNext
          rw [hNext]
      · rfl
    · rfl
    · rfl

/-! ### Walks from a single node -/

theorem drain_of_pop_none {f : Frontier ν} {summary : Summary} {s : σ}
    (hPop : f.queue.pop.1 = none) :
    drain net rules visit f summary s = ⟨s, f.discovered, .ok summary⟩ := by
  rw [drain_eq]
  split
  · rfl
  · rename_i hSome
    rw [hSome] at hPop
    cases hPop

theorem drain_of_end {f : Frontier ν} {queue : Worklist ν} {n : ν} {summary : Summary} {s s' : σ}
    (hPop : f.queue.pop = (some n, queue)) (hFull : rules.classify n = .full)
    (hVisit : visit n .full s = (.proceed, s')) (hNext : net.successors n = .ok []) :
    drain net rules visit f summary s =
      drain net rules visit { f with queue } (summary.count .full) s' := by
  rw [drain_eq, hPop]
  simp only [hFull, hVisit, hNext, if_true]
  rfl

/-- A walk from a node that refers to nothing visits this node alone. -/
theorem run_single {n : ν} {s t : σ} (hVisit : visit n .full s = (.proceed, t))
    (hNext : net.successors n = .ok []) :
    run net {} [n] visit s = ⟨t, #[n], .ok ⟨1, 0, 0, false⟩⟩ := by
  have hFrontier : Frontier.discoverAll {} Frontier.empty [n] =
      (⟨Worklist.empty.push n, (∅ : Std.HashSet ν).insert n, #[n]⟩ : Frontier ν) := by
    simp [Frontier.discoverAll, Frontier.discover, Frontier.empty]
  have hPop : (Worklist.empty.push n).pop = (some n, (Worklist.empty.push n).pop.2) := rfl
  unfold run
  rw [hFrontier, drain_of_end hPop rfl hVisit hNext, drain_of_pop_none rfl]
  rfl

end Walk

end ObjectStore
