import ObjectStore.Proofs.Traversal.Distance

/-!
# Interrupted walks

A walk ends before its time when its visitor ends it or fails, or when the
references of a node that are to be followed cannot be listed. Up to the node
where this happens, it is the walk that nothing interrupts: it makes the same
visits, the one of this node is its last, and what it has come upon by then is
what the nodes in front of this one lead to.

`Leads` is a walk without its visitor: a frontier leads to another one by
visiting nodes. Both walks go along the same frontiers, so that the visits of
the whole walk tell where the interrupted one stands.

## Main results

* `Walk.leads_of_drain`: the visits of a walk that is not interrupted.
* `Walk.drain_leads`: a walk goes along while nothing interrupts it.
* `Walk.run_interrupted`: an interrupted walk is the front of the whole one.
-/

namespace ObjectStore

variable {ν σ : Type}

namespace Walk

/-! ## Interruptions -/

/-- Why a walk ends with a visit, if it does: the visitor fails or ends it,
or the references of the node are to be followed and cannot be listed. -/
def interruption? (net : Network ν) (visit : ν → Visit → σ → Signal × σ) (v : ν × Visit) (s : σ) :
    Option (Except Error Unit) :=
  match (visit v.1 v.2 s).1 with
  | .fail e => some (.error e)
  | .stop => some (.ok ())
  | .proceed =>
      if v.2 = .full then
        match net.successors v.1 with
        | .error e => some (.error e)
        | .ok _ => none
      else none

/-- The state of a visitor after some visits. -/
def after (visit : ν → Visit → σ → Signal × σ) (s : σ) (visited : List (ν × Visit)) : σ :=
  visited.foldl (fun s v => (visit v.1 v.2 s).2) s

/-- The summary with some more visits. -/
def counted (summary : Summary) (visited : List (ν × Visit)) : Summary :=
  visited.foldl (fun total v => total.count v.2) summary

/-- None of the visits interrupts the walk. -/
def Proceeds (net : Network ν) (visit : ν → Visit → σ → Signal × σ) (s : σ) :
    List (ν × Visit) → Prop
  | [] => True
  | v :: visited =>
      interruption? net visit v s = none ∧ Proceeds net visit (visit v.1 v.2 s).2 visited

/-- The visitor that keeps a log of its visits. -/
def logging (visit : ν → Visit → σ → Signal × σ) (n : ν) (treatment : Visit)
    (s : σ × List (ν × Visit)) : Signal × (σ × List (ν × Visit)) :=
  ((visit n treatment s.1).1, (visit n treatment s.1).2, s.2 ++ [(n, treatment)])

/-- The visits that a walk makes, the treatments of the nodes included. -/
def visits [BEq ν] [Hashable ν] [LawfulBEq ν] (net : Network ν) (rules : Rules ν) (roots : List ν)
    (visit : ν → Visit → σ → Signal × σ) (s : σ) : List (ν × Visit) :=
  (run net rules roots (logging visit) (s, [])).state.2

section

variable {net net' : Network ν} {visit : ν → Visit → σ → Signal × σ} {v : ν × Visit} {s : σ}
  {visited : List (ν × Visit)}

theorem after_append (visited visited' : List (ν × Visit)) :
    after visit s (visited ++ visited') = after visit (after visit s visited) visited' :=
  List.foldl_append

theorem counted_append (summary : Summary) (visited visited' : List (ν × Visit)) :
    counted summary (visited ++ visited') = counted (counted summary visited) visited' :=
  List.foldl_append

/-- Every visit is counted once. -/
theorem visited_counted (summary : Summary) (visited : List (ν × Visit)) :
    (counted summary visited).visited = summary.visited + visited.length := by
  induction visited generalizing summary with
  | nil => rfl
  | cons v visited ih =>
      have hOne : (summary.count v.2).visited = summary.visited + 1 := by
        cases v.2 <;> simp only [Summary.count, Summary.visited] <;> omega
      rw [counted, List.foldl_cons, ← counted, ih, hOne, List.length_cons]
      omega

theorem interruption?_eq_none : interruption? net visit v s = none ↔
    (visit v.1 v.2 s).1 = .proceed ∧ (v.2 = .full → ∃ next, net.successors v.1 = .ok next) := by
  unfold interruption?
  cases (visit v.1 v.2 s).1 with
  | fail e => simp
  | stop => simp
  | proceed =>
      by_cases hFull : v.2 = .full
      · cases hNext : net.successors v.1 with
        | error e => simp [hFull]
        | ok next => simp [hFull]
      · simp [hFull]

/-- A log interrupts nothing. -/
theorem interruption?_logging (log : List (ν × Visit)) :
    interruption? net (logging visit) v (s, log) = interruption? net visit v s := rfl

theorem after_logging (log : List (ν × Visit)) :
    after (logging visit) (s, log) visited = (after visit s visited, log ++ visited) := by
  induction visited generalizing s log with
  | nil => simp [after]
  | cons v visited ih =>
      show after (logging visit) (_, log ++ [v]) visited = _
      rw [ih, List.append_assoc]
      rfl

theorem proceeds_logging (log : List (ν × Visit)) :
    Proceeds net (logging visit) (s, log) visited ↔ Proceeds net visit s visited := by
  induction visited generalizing s log with
  | nil => exact Iff.rfl
  | cons v visited ih => exact and_congr Iff.rfl (ih _)

/-- What interrupts a visit is known from the references of its node. -/
theorem interruption?_congr (h : net'.successors v.1 = net.successors v.1) :
    interruption? net' visit v s = interruption? net visit v s := by
  unfold interruption?
  rw [h]

theorem Proceeds.congr (h : Proceeds net visit s visited)
    (hNet : ∀ v ∈ visited, net'.successors v.1 = net.successors v.1) :
    Proceeds net' visit s visited := by
  induction visited generalizing s with
  | nil => trivial
  | cons v visited ih =>
      obtain ⟨hHead, hRest⟩ := h
      exact ⟨(interruption?_congr (hNet v List.mem_cons_self)).trans hHead,
        ih hRest fun u hu => hNet u (List.mem_cons_of_mem v hu)⟩

/-- References that cannot be listed end the walk, if they are followed. -/
theorem Proceeds.successors (h : Proceeds net visit s visited) :
    ∀ v ∈ visited, v.2 = .full → ∃ next, net.successors v.1 = .ok next := by
  induction visited generalizing s with
  | nil => simp
  | cons v visited ih =>
      obtain ⟨hHead, hRest⟩ := h
      exact List.forall_mem_cons.2 ⟨(interruption?_eq_none.1 hHead).2, ih hRest⟩

/-- If the visitor does not go on, the references are not asked for. -/
theorem interruption?_of_signal (h : (visit v.1 v.2 s).1 ≠ .proceed) :
    interruption? net' visit v s = interruption? net visit v s := by
  unfold interruption?
  cases hSignal : (visit v.1 v.2 s).1 with
  | fail e => rfl
  | stop => rfl
  | proceed => exact absurd hSignal h

end

/-! ## Walks without a visitor -/

section

variable [BEq ν] [Hashable ν] {net net' : Network ν} {rules : Rules ν}

/-- A frontier leads to another one by visits of pending nodes. -/
inductive Leads (net : Network ν) (rules : Rules ν) :
    Frontier ν → List (ν × Visit) → Frontier ν → Prop where
  | done (f : Frontier ν) : Leads net rules f [] f
  | visit {f f' : Frontier ν} {queue : Worklist ν} {n : ν} {visited : List (ν × Visit)} :
      f.queue.pop = (some n, queue) → rules.classify n ≠ .full →
        Leads net rules { f with queue } visited f' →
          Leads net rules f ((n, rules.classify n) :: visited) f'
  | follow {f f' : Frontier ν} {queue : Worklist ν} {n : ν} {next : List ν}
      {visited : List (ν × Visit)} :
      f.queue.pop = (some n, queue) → rules.classify n = .full → net.successors n = .ok next →
        Leads net rules (Frontier.discoverAll rules { f with queue } next) visited f' →
          Leads net rules f ((n, rules.classify n) :: visited) f'

namespace Leads

variable {f f' : Frontier ν} {v : ν × Visit} {before later visited : List (ν × Visit)}

/-- The frontier in front of a visit. -/
theorem split (h : Leads net rules f (before ++ later) f') :
    ∃ middle, Leads net rules f before middle ∧ Leads net rules middle later f' := by
  induction before generalizing f with
  | nil => exact ⟨f, .done f, h⟩
  | cons v before ih =>
      cases h with
      | visit hPop hTreatment hRest =>
          obtain ⟨middle, hFront, hLater⟩ := ih hRest
          exact ⟨middle, .visit hPop hTreatment hFront, hLater⟩
      | follow hPop hFull hNext hRest =>
          obtain ⟨middle, hFront, hLater⟩ := ih hRest
          exact ⟨middle, .follow hPop hFull hNext hFront, hLater⟩

/-- The node of the first visit is the one that is taken next. -/
theorem pop_cons (h : Leads net rules f (v :: visited) f') :
    v.2 = rules.classify v.1 ∧ ∃ queue, f.queue.pop = (some v.1, queue) := by
  cases h with
  | visit hPop => exact ⟨rfl, _, hPop⟩
  | follow hPop => exact ⟨rfl, _, hPop⟩

/-- Only the references that are followed matter. -/
theorem congr (h : Leads net rules f visited f')
    (hNet : ∀ v ∈ visited, v.2 = .full → net'.successors v.1 = net.successors v.1) :
    Leads net' rules f visited f' := by
  induction h with
  | done f => exact .done f
  | visit hPop hTreatment _ ih =>
      exact .visit hPop hTreatment (ih fun v hv => hNet v (List.mem_cons_of_mem _ hv))
  | follow hPop hFull hNext _ ih =>
      have hSame := hNet _ List.mem_cons_self hFull
      exact .follow hPop hFull (hSame.trans hNext)
        (ih fun v hv => hNet v (List.mem_cons_of_mem _ hv))

theorem covers [LawfulBEq ν] {roots nodes : List ν} (h : Leads net rules f visited f')
    (hCovers : f.Covers net rules roots nodes) :
    f'.Covers net rules roots (nodes ++ visited.map Prod.fst) := by
  induction h generalizing nodes with
  | done => simpa using hCovers
  | visit hPop hTreatment _ ih => simpa using ih (hCovers.visit hPop hTreatment)
  | follow hPop hFull hNext _ ih => simpa using ih (hCovers.follow hPop hFull hNext)

end Leads

end

variable [BEq ν] [Hashable ν] [LawfulBEq ν] {net net' : Network ν} {rules : Rules ν}
  {roots : List ν} {visit : ν → Visit → σ → Signal × σ} {f f' : Frontier ν} {queue : Worklist ν}
  {n : ν} {summary summary' : Summary} {s : σ} {visited : List (ν × Visit)}

/-! ## One visit -/

/-- A walk ends with the visit that interrupts it. -/
theorem drain_interrupted {ending : Except Error Unit} (hPop : f.queue.pop = (some n, queue))
    (hEnd : interruption? net visit (n, rules.classify n) s = some ending) :
    drain net rules visit f summary s =
      ⟨(visit n (rules.classify n) s).2, f.discovered,
        ending.map fun _ => { summary.count (rules.classify n) with aborted := true }⟩ := by
  rw [drain_eq, hPop]
  dsimp only
  unfold interruption? at hEnd
  rcases hVisit : visit n (rules.classify n) s with ⟨_ | _ | e, s'⟩
  · simp only [hVisit] at hEnd
    by_cases hFull : rules.classify n = .full
    · rw [if_pos hFull] at hEnd
      dsimp only
      rw [if_pos hFull]
      cases hNext : net.successors n with
      | error e =>
          rw [hNext] at hEnd
          cases hEnd
          rfl
      | ok next =>
          rw [hNext] at hEnd
          cases hEnd
    · rw [if_neg hFull] at hEnd
      cases hEnd
  · simp only [hVisit] at hEnd
    cases hEnd
    rfl
  · simp only [hVisit] at hEnd
    cases hEnd
    rfl

theorem drain_visit (hPop : f.queue.pop = (some n, queue)) (hTreatment : rules.classify n ≠ .full)
    (hGoes : interruption? net visit (n, rules.classify n) s = none) :
    drain net rules visit f summary s =
      drain net rules visit { f with queue } (summary.count (rules.classify n))
        (visit n (rules.classify n) s).2 := by
  obtain ⟨hSignal, -⟩ := interruption?_eq_none.1 hGoes
  rw [drain_eq, hPop]
  rcases hVisit : visit n (rules.classify n) s with ⟨signal, s'⟩
  rw [hVisit] at hSignal
  subst hSignal
  dsimp only
  rw [hVisit]
  exact if_neg hTreatment

theorem drain_follow {next : List ν} (hPop : f.queue.pop = (some n, queue))
    (hFull : rules.classify n = .full) (hNext : net.successors n = .ok next)
    (hGoes : interruption? net visit (n, rules.classify n) s = none) :
    drain net rules visit f summary s =
      drain net rules visit (Frontier.discoverAll rules { f with queue } next)
        (summary.count (rules.classify n)) (visit n (rules.classify n) s).2 := by
  obtain ⟨hSignal, -⟩ := interruption?_eq_none.1 hGoes
  rw [drain_eq, hPop]
  rcases hVisit : visit n (rules.classify n) s with ⟨signal, s'⟩
  rw [hVisit] at hSignal
  subst hSignal
  dsimp only
  rw [hVisit]
  dsimp only
  rw [if_pos hFull, hNext]

/-! ## Whole walks -/

/-- A walk that has not been interrupted has visited what its frontier leads
to, until no node was pending. -/
theorem leads_of_drain (hUnaborted : summary'.aborted = false)
    (hResult : (drain net rules visit f summary s).result = .ok summary') :
    ∃ visited f', Leads net rules f visited f' ∧ f'.queue.pop.1 = none ∧
      Proceeds net visit s visited ∧ summary' = counted summary visited := by
  fun_induction drain net rules visit f summary s with
  | case1 f summary s queue hPop =>
      cases hResult
      exact ⟨[], f, .done f, congrArg Prod.fst hPop, trivial, rfl⟩
  | case2 f summary s n queue hPop treatment e s₁ => cases hResult
  | case3 f summary s n queue hPop treatment summary₁ s₁ =>
      cases hResult
      cases hUnaborted
  | case4 f summary s n queue hPop treatment s₁ hVisit hFull e => cases hResult
  | case5 f summary s n queue hPop treatment summary₁ s₁ hVisit hFull next hNext =>
      rename_i ih
      obtain ⟨visited, f', hLeads, hDone, hGoes, hCounted⟩ := ih hResult
      refine ⟨(n, rules.classify n) :: visited, f', .follow hPop hFull hNext hLeads, hDone,
        ⟨interruption?_eq_none.2 ⟨?_, fun _ => ⟨next, hNext⟩⟩, ?_⟩, hCounted⟩
      · exact congrArg Prod.fst hVisit
      · rw [show visit n (rules.classify n) s = (.proceed, s₁) from hVisit]
        exact hGoes
  | case6 f summary s n queue hPop treatment summary₁ s₁ hVisit hNotFull =>
      rename_i ih
      obtain ⟨visited, f', hLeads, hDone, hGoes, hCounted⟩ := ih hResult
      refine ⟨(n, rules.classify n) :: visited, f', .visit hPop hNotFull hLeads, hDone,
        ⟨interruption?_eq_none.2 ⟨?_, fun hFull => absurd hFull hNotFull⟩, ?_⟩, hCounted⟩
      · exact congrArg Prod.fst hVisit
      · rw [show visit n (rules.classify n) s = (.proceed, s₁) from hVisit]
        exact hGoes

/-- A walk goes along while nothing interrupts it. -/
theorem drain_leads (h : Leads net rules f visited f') (hGoes : Proceeds net visit s visited) :
    drain net rules visit f summary s =
      drain net rules visit f' (counted summary visited) (after visit s visited) := by
  induction h generalizing summary s with
  | done => rfl
  | visit hPop hTreatment _ ih => rw [drain_visit hPop hTreatment hGoes.1, ih hGoes.2]; rfl
  | follow hPop hFull hNext _ ih => rw [drain_follow hPop hFull hNext hGoes.1, ih hGoes.2]; rfl

/-- A walk along some visits that ends with the next one. -/
theorem drain_cut {v : ν × Visit} {ending : Except Error Unit} (h : Leads net rules f visited f')
    (hTreatment : v.2 = rules.classify v.1) (hPop : f'.queue.pop = (some v.1, queue))
    (hGoes : Proceeds net visit s visited)
    (hEnd : interruption? net visit v (after visit s visited) = some ending) :
    drain net rules visit f summary s =
      ⟨after visit s (visited ++ [v]), f'.discovered,
        ending.map fun _ => { counted summary (visited ++ [v]) with aborted := true }⟩ := by
  obtain ⟨n, treatment⟩ := v
  dsimp only at hTreatment hPop
  subst hTreatment
  rw [drain_leads h hGoes, drain_interrupted hPop hEnd, after_append, counted_append]
  rfl

/-- The walk has made the visits `before` and the visit `v`, which ended it. -/
structure CutShort (net : Network ν) (rules : Rules ν) (roots : List ν)
    (visit : ν → Visit → σ → Signal × σ) (s : σ) (before : List (ν × Visit)) (v : ν × Visit)
    (ending : Except Error Unit) : Prop where
  made : visits net rules roots visit s = before ++ [v]
  state : (run net rules roots visit s).state = after visit s (before ++ [v])
  /-- If the visitor has ended the walk, these visits are counted. -/
  result : (run net rules roots visit s).result =
    ending.map fun _ => { counted .empty (before ++ [v]) with aborted := true }
  number : (run net rules roots visit s).result.map Summary.visited =
    ending.map fun _ => before.length + 1
  /-- What was come upon are the roots, and what the nodes before lead to. -/
  discovered : (run net rules roots visit s).discovered.toList =
    (roots ++ (before.map Prod.fst).flatMap (Frontier.followed net rules)).eraseDups
  /-- Where the visitor does not go on, no references are asked for. -/
  unasked : (visit v.1 v.2 (after visit s before)).1 ≠ .proceed →
    ∀ other : Network ν, (∀ u ∈ before, other.successors u.1 = net.successors u.1) →
      run other rules roots visit s = run net rules roots visit s

theorem Leads.cutShort {v : ν × Visit} {ending : Except Error Unit}
    (h : Leads net rules (Frontier.discoverAll rules .empty roots) visited f')
    (hTreatment : v.2 = rules.classify v.1) (hPop : f'.queue.pop = (some v.1, queue))
    (hGoes : Proceeds net visit s visited)
    (hEnd : interruption? net visit v (after visit s visited) = some ending) :
    CutShort net rules roots visit s visited v ending := by
  have hRun : run net rules roots visit s = _ := drain_cut h hTreatment hPop hGoes hEnd
  refine ⟨?_, by rw [hRun], by rw [hRun], ?_, ?_, ?_⟩
  · have hLog : interruption? net (logging visit) v (after (logging visit) (s, []) visited) =
        some ending := by rw [after_logging, interruption?_logging, hEnd]
    rw [visits, run, drain_cut h hTreatment hPop ((proceeds_logging []).2 hGoes) hLog,
      after_logging, List.nil_append]
  · have hNumber : (counted .empty (visited ++ [v])).visited = visited.length + 1 := by
      rw [visited_counted, List.length_append, List.length_singleton]
      exact Nat.zero_add _
    rw [hRun, ← hNumber]
    cases ending with
    | error e => rfl
    | ok _ => rfl
  · rw [hRun, (h.covers Frontier.covers_roots).order, List.nil_append]
  · intro hSignal other hOther
    have hOtherEnd : interruption? other visit v (after visit s visited) = some ending :=
      (interruption?_of_signal hSignal).trans hEnd
    rw [hRun]
    exact drain_cut (h.congr fun u hu _ => hOther u hu) hTreatment hPop (hGoes.congr hOther)
      hOtherEnd

/-- A walk that makes all visits that lead from the roots to a frontier without
pending nodes. -/
theorem Leads.completed
    (h : Leads net rules (Frontier.discoverAll rules .empty roots) visited f')
    (hDone : f'.queue.pop.1 = none) (hGoes : Proceeds net visit s visited) :
    visits net rules roots visit s = visited ∧
      (run net rules roots visit s).result = .ok (counted .empty visited) := by
  constructor
  · rw [visits, run, drain_leads h ((proceeds_logging []).2 hGoes), drain_of_pop_none hDone,
      after_logging, List.nil_append]
  · rw [run, drain_leads h hGoes, drain_of_pop_none hDone]

/-- An interrupted walk is the front of the one that nothing interrupts: both
make the same visits, up to the one that ends the walk, which is the last. If
the visitor has ended it there, the summary counts these visits, and nothing
depends on the references of the node. The visitors need not have anything in
common, and the references of any node may fail to be listed. -/
theorem run_interrupted {τ : Type} {first : ν → Visit → τ → Signal × τ} {t : τ}
    (hResult : (run net rules roots first t).result = .ok summary)
    (hUnaborted : summary.aborted = false)
    (hNet : ∀ n, net'.successors n = net.successors n ∨ ∃ e, net'.successors n = .error e)
    (visit : ν → Visit → σ → Signal × σ) (s : σ) :
    (Proceeds net' visit s (visits net rules roots first t) →
      visits net' rules roots visit s = visits net rules roots first t ∧
        (run net' rules roots visit s).result = .ok summary) ∧
    ∀ before v later ending, visits net rules roots first t = before ++ v :: later →
      Proceeds net' visit s before →
        interruption? net' visit v (after visit s before) = some ending →
          CutShort net' rules roots visit s before v ending := by
  obtain ⟨whole, f', hLeads, hDone, hGoes, rfl⟩ := leads_of_drain hUnaborted hResult
  rw [(hLeads.completed hDone hGoes).1]
  have hListed : ∀ visited, Proceeds net' visit s visited →
      ∀ v ∈ visited, v.2 = .full → net'.successors v.1 = net.successors v.1 := by
    intro visited hVisited v hv hFull
    obtain ⟨next, hNext⟩ := hVisited.successors v hv hFull
    rcases hNet v.1 with hSame | ⟨e, hError⟩
    · exact hSame
    · rw [hNext] at hError
      cases hError
  refine ⟨fun hVisited => (hLeads.congr (hListed whole hVisited)).completed hDone hVisited, ?_⟩
  rintro before v later ending rfl hBefore hEnd
  obtain ⟨middle, hFront, hLater⟩ := hLeads.split
  obtain ⟨hTreatment, queue, hPop⟩ := hLater.pop_cons
  exact (hFront.congr (hListed before hBefore)).cutShort hTreatment hPop hBefore hEnd

/-- The rooms, of which nobody can see what lies behind the third one. -/
def darkMaze : Network Nat where
  successors n := if n = 2 then .error (.unresolvedReference ⟨2⟩) else maze.successors n
  finite := by
    obtain ⟨rooms, hRooms⟩ := maze.finite
    refine ⟨rooms, fun n next hNext => ?_⟩
    by_cases hDark : n = 2
    · rw [if_pos hDark] at hNext
      cases hNext
    · rw [if_neg hDark] at hNext
      exact hRooms n next hNext

/-- A guest who looks at every room. -/
def stroll : Nat → Visit → Unit → Signal × Unit := fun _ _ s => (.proceed, s)

/-- A guest who leaves at the third one. -/
def leave : Nat → Visit → Unit → Signal × Unit :=
  fun n _ s => (if n = 2 then .stop else .proceed, s)

theorem run_stroll :
    (run maze mazeRules [0, 0, 4] stroll ()).result = .ok ⟨3, 0, 1, false⟩ ∧
      visits maze mazeRules [0, 0, 4] stroll () =
        [(0, .full), (1, .full), (2, .full), (3, .leaf)] := by
  have hNet : ∀ n, ∃ next, maze.successors n = .ok next := fun _ => ⟨_, rfl⟩
  obtain ⟨visited, hOrder, hCompleted⟩ :=
    @run_completed _ _ _ _ _ maze mazeRules [0, 0, 4] stroll () hNet fun _ _ _ => rfl
  obtain ⟨logged, hLogOrder, hLogged⟩ :=
    @run_completed _ _ _ _ _ maze mazeRules [0, 0, 4] (logging stroll) ((), []) hNet
      fun _ _ _ => rfl
  rw [hOrder.unique breadthFirst_maze] at hCompleted
  rw [hLogOrder.unique breadthFirst_maze] at hLogged
  exact ⟨hCompleted.result, congrArg Prod.snd hLogged.state⟩

/-- The guest who leaves has seen three rooms, and does not notice the dark. The
one who wants to go on fails there. -/
theorem run_interrupted_maze :
    (run maze mazeRules [0, 0, 4] stroll ()).result = .ok ⟨3, 0, 1, false⟩ ∧
    (∀ n, darkMaze.successors n = maze.successors n ∨ ∃ e, darkMaze.successors n = .error e) ∧
    visits darkMaze mazeRules [0, 0, 4] leave () = [(0, .full), (1, .full), (2, .full)] ∧
    (run darkMaze mazeRules [0, 0, 4] leave ()).result = .ok ⟨3, 0, 0, true⟩ ∧
    visits darkMaze mazeRules [0, 0, 4] stroll () = [(0, .full), (1, .full), (2, .full)] ∧
    (run darkMaze mazeRules [0, 0, 4] stroll ()).result = .error (.unresolvedReference ⟨2⟩) := by
  obtain ⟨hResult, hVisits⟩ := run_stroll
  have hNet : ∀ n, darkMaze.successors n = maze.successors n ∨
      ∃ e, darkMaze.successors n = .error e := by
    intro n
    by_cases hDark : n = 2
    · exact Or.inr ⟨_, if_pos hDark⟩
    · exact Or.inl (if_neg hDark)
  obtain ⟨-, hLeaves⟩ := run_interrupted hResult rfl hNet leave ()
  obtain ⟨-, hGoesOn⟩ := run_interrupted hResult rfl hNet stroll ()
  have hLeft := hLeaves [(0, .full), (1, .full)] (2, .full) [(3, .leaf)] (.ok ()) hVisits
    ⟨rfl, rfl, trivial⟩ rfl
  have hFailed := hGoesOn [(0, .full), (1, .full)] (2, .full) [(3, .leaf)] _ hVisits
    ⟨rfl, rfl, trivial⟩ rfl
  exact ⟨hResult, hNet, hLeft.made, hLeft.result, hFailed.made, hFailed.result⟩

end Walk

end ObjectStore
