import ObjectStore.Error
import ObjectStore.Traversal.Worklist

/-!
# Walks over reference graphs

A walk visits every node that can be reached from the roots, breadth first
and each once. It knows nothing about the nodes: a `Network` tells which
nodes a node refers to, `Rules` tell which nodes are left out and how a
visited node is treated, and a visitor decides, node by node, whether the
walk goes on.

A node is marked as discovered when it is met for the first time, and only
then is asked whether it is to be skipped; so cycles do no harm, and the
question is asked once for each node.

A network is finite: there is a list of nodes beyond which no reference
leads. That is why every walk ends.

## Main results

* `Frontier.potential_discover_le`: discovering nodes does not raise the
  potential, so that each visit lowers it.
* `Network.finite_of_sources`: a network is finite if only finitely many
  nodes refer to others.
-/

namespace ObjectStore

variable {ν σ : Type}

/-! ## Networks -/

/-- Which nodes a node refers to. -/
structure Network (ν : Type) where
  successors : ν → Except Error (List ν)
  /-- All references lead to finitely many nodes. -/
  finite : ∃ nodes : List ν, ∀ n next, successors n = .ok next → ∀ m ∈ next, m ∈ nodes

namespace Network

/-- Only finitely many nodes need to refer to others. -/
theorem finite_of_sources {successors : ν → Except Error (List ν)} (sources : List ν)
    (h : ∀ n next, successors n = .ok next → n ∈ sources ∨ next = []) :
    ∃ nodes : List ν, ∀ n next, successors n = .ok next → ∀ m ∈ next, m ∈ nodes := by
  refine ⟨sources.flatMap fun n => (successors n).toOption.getD [], ?_⟩
  intro n next _hNext m hm
  rcases h n next _hNext with hIn | hNil
  · exact List.mem_flatMap.2 ⟨n, hIn, by simpa [_hNext, Except.toOption] using hm⟩
  · simp [hNil] at hm

/-- The references of every node, in the order in which they are listed. -/
def table [BEq ν] [Hashable ν] (edges : List (ν × List ν)) : Std.HashMap ν (List ν) :=
  edges.foldl (fun all e => all.alter e.1 fun old => some (old.getD [] ++ e.2)) ∅

/-- The network of a table of references, unless asking for them fails. -/
def ofTable [BEq ν] [LawfulBEq ν] [Hashable ν] (edges : Std.HashMap ν (List ν))
    (fault : ν → Option Error) : Network ν where
  successors n :=
    match fault n with
    | some e => .error e
    | none => .ok (edges[n]?.getD [])
  finite := by
    apply finite_of_sources edges.keys
    intro n next h
    split at h
    · cases h
    · cases h
      by_cases hIn : n ∈ edges
      · exact Or.inl (Std.HashMap.mem_keys.2 hIn)
      · exact Or.inr (by simp [hIn])

/-- The network whose references are listed. -/
def ofEdges [BEq ν] [LawfulBEq ν] [Hashable ν] (edges : List (ν × List ν))
    (fault : ν → Option Error) : Network ν :=
  ofTable (table edges) fault

end Network

/-! ## Rules -/

/-- How a visited node is treated. -/
inductive Visit where
  /-- Its references are followed. -/
  | full
  /-- It is visited, but its references are not followed. -/
  | node
  /-- It is visited as the end of a path. -/
  | leaf
deriving DecidableEq, Inhabited

/-- The word for a treatment. -/
def Visit.word : Visit → String
  | full => "full"
  | node => "node"
  | leaf => "leaf"

/-- What a walk does with the nodes it meets. -/
structure Rules (ν : Type) where
  /-- How a node is treated that no predicate claims. -/
  mode : Visit := .full
  /-- The nodes that are left out. -/
  skip : ν → Bool := fun _ => false
  leaf : ν → Bool := fun _ => false
  node : ν → Bool := fun _ => false
  full : ν → Bool := fun _ => false

/-- How a node is treated. The predicates for the treatments other than the
default one are asked in a fixed order. -/
def Rules.classify (rules : Rules ν) (n : ν) : Visit :=
  match rules.mode with
  | .full => if rules.leaf n then .leaf else if rules.node n then .node else .full
  | .node => if rules.full n then .full else if rules.leaf n then .leaf else .node
  | .leaf => if rules.full n then .full else if rules.node n then .node else .leaf

/-! ## The frontier -/

/-- The nodes that have been discovered, and those among them that are still
to be visited. -/
structure Frontier (ν : Type) [BEq ν] [Hashable ν] where
  queue : Worklist ν
  handled : Std.HashSet ν
  /-- Every discovered node, in the order of discovery. -/
  discovered : Array ν

namespace Frontier

variable [BEq ν] [Hashable ν]

/-- Nothing has been discovered. -/
def empty : Frontier ν := ⟨Worklist.empty, ∅, #[]⟩

/-- Meets a node. -/
def discover (rules : Rules ν) (f : Frontier ν) (n : ν) : Frontier ν :=
  if n ∈ f.handled then f
  else
    { queue := if rules.skip n then f.queue else f.queue.push n
      handled := f.handled.insert n
      discovered := f.discovered.push n }

/-- Meets several nodes. -/
def discoverAll (rules : Rules ν) (f : Frontier ν) (ns : List ν) : Frontier ν :=
  ns.foldl (discover rules) f

/-- What is left of a walk over the given nodes: every node still to be
discovered counts twice, and every pending node once. -/
def potential (nodes : List ν) (f : Frontier ν) : Nat :=
  2 * nodes.countP (fun n => !f.handled.contains n) + f.queue.toList.length

theorem countP_insert_lt [LawfulBEq ν] {nodes : List ν} {handled : Std.HashSet ν} {n : ν}
    (hIn : n ∈ nodes) (hNew : n ∉ handled) :
    nodes.countP (fun m => !(handled.insert n).contains m) <
      nodes.countP (fun m => !handled.contains m) := by
  have hMono : ∀ ms : List ν,
      ms.countP (fun m => !(handled.insert n).contains m) ≤
        ms.countP (fun m => !handled.contains m) := by
    intro ms
    apply List.countP_mono_left
    intro m _ h
    rw [Std.HashSet.contains_insert] at h
    simp only [Bool.not_or, Bool.and_eq_true] at h
    exact h.2
  obtain ⟨before, after, rfl⟩ := List.append_of_mem hIn
  have hBefore := hMono before
  have hAfter := hMono after
  have hContains : handled.contains n = false := by
    rw [← Bool.not_eq_true, Std.HashSet.contains_iff_mem]
    exact hNew
  simp only [List.countP_append, List.countP_cons, hContains, Std.HashSet.contains_insert_self,
    Bool.not_true, Bool.not_false, Bool.false_eq_true, if_true, if_false]
  omega

theorem potential_discover_le [LawfulBEq ν] {rules : Rules ν} {nodes : List ν} {f : Frontier ν}
    {n : ν} (hIn : n ∈ nodes) : (f.discover rules n).potential nodes ≤ f.potential nodes := by
  unfold discover
  split
  · exact Nat.le_refl _
  · rename_i hNew
    have hLt := countP_insert_lt hIn hNew
    have hPush := f.queue.length_push_le n
    simp only [potential]
    split <;> omega

theorem potential_discoverAll_le [LawfulBEq ν] {rules : Rules ν} {nodes : List ν} {f : Frontier ν}
    {ns : List ν} (hIn : ∀ n ∈ ns, n ∈ nodes) :
    (f.discoverAll rules ns).potential nodes ≤ f.potential nodes := by
  induction ns generalizing f with
  | nil => exact Nat.le_refl _
  | cons n rest ih =>
      have hHead : (f.discover rules n).potential nodes ≤ f.potential nodes :=
        potential_discover_le (hIn n List.mem_cons_self)
      have hRest := ih (f := f.discover rules n) fun m hm => hIn m (List.mem_cons_of_mem _ hm)
      exact Nat.le_trans hRest hHead

theorem potential_pop_lt {nodes : List ν} {f : Frontier ν} {queue : Worklist ν} {n : ν}
    (h : f.queue.pop = (some n, queue)) :
    potential nodes { f with queue } < f.potential nodes := by
  have hView := Worklist.toList_of_pop_some h
  simp only [potential, hView, List.length_cons]
  omega

end Frontier

/-! ## The walk -/

/-- How a visitor answers. -/
inductive Signal where
  /-- The walk goes on. -/
  | proceed
  /-- The walk ends here. -/
  | stop
  /-- The walk fails. -/
  | fail (error : Error)
deriving Inhabited

/-- How many nodes were visited in which way. -/
structure Summary where
  full : Nat
  node : Nat
  leaf : Nat
  /-- Whether the visitor ended the walk. -/
  aborted : Bool
deriving DecidableEq, Inhabited

namespace Summary

/-- Nothing was visited. -/
def empty : Summary := ⟨0, 0, 0, false⟩

/-- The number of visited nodes. -/
def visited (s : Summary) : Nat := s.full + s.node + s.leaf

/-- One more node was visited. -/
def count (s : Summary) : Visit → Summary
  | .full => { s with full := s.full + 1 }
  | .node => { s with node := s.node + 1 }
  | .leaf => { s with leaf := s.leaf + 1 }

end Summary

/-- What a walk leaves behind: the visitor's state and the discovered nodes
also when it failed. -/
structure Walk (ν σ : Type) where
  state : σ
  discovered : Array ν
  result : Except Error Summary

namespace Walk

variable [BEq ν] [Hashable ν]

/-- Visits the pending nodes, and whatever they lead to. -/
def drain [LawfulBEq ν] (net : Network ν) (rules : Rules ν) (visit : ν → Visit → σ → Signal × σ)
    (f : Frontier ν) (summary : Summary) (s : σ) : Walk ν σ :=
  match _hPop : f.queue.pop with
  | (none, _) => ⟨s, f.discovered, .ok summary⟩
  | (some n, queue) =>
      let treatment := rules.classify n
      let summary := summary.count treatment
      match visit n treatment s with
      | (.fail e, s) => ⟨s, f.discovered, .error e⟩
      | (.stop, s) => ⟨s, f.discovered, .ok { summary with aborted := true }⟩
      | (.proceed, s) =>
          if treatment = .full then
            match _hNext : net.successors n with
            | .error e => ⟨s, f.discovered, .error e⟩
            | .ok next =>
                drain net rules visit (Frontier.discoverAll rules { f with queue } next) summary s
          else drain net rules visit { f with queue } summary s
termination_by f.potential (Classical.choose net.finite)
decreasing_by
  · have hClosed := Classical.choose_spec net.finite n next _hNext
    exact Nat.lt_of_le_of_lt (Frontier.potential_discoverAll_le hClosed)
      (Frontier.potential_pop_lt _hPop)
  · exact Frontier.potential_pop_lt _hPop

/-- Walks over everything that can be reached from the roots. -/
def run [LawfulBEq ν] (net : Network ν) (rules : Rules ν) (roots : List ν)
    (visit : ν → Visit → σ → Signal × σ) (s : σ) : Walk ν σ :=
  drain net rules visit (Frontier.discoverAll rules Frontier.empty roots) Summary.empty s

end Walk

/-! ## Reachability -/

/-- The nodes that a walk is to visit: the roots, and what they lead to
through nodes whose references are followed. Skipped nodes and what only
they lead to are not among them. -/
inductive Reachable (net : Network ν) (rules : Rules ν) (roots : List ν) : ν → Prop where
  | root {n : ν} : n ∈ roots → rules.skip n = false → Reachable net rules roots n
  | step {n m : ν} {next : List ν} :
      Reachable net rules roots n → rules.classify n = .full → net.successors n = .ok next →
        m ∈ next → rules.skip m = false → Reachable net rules roots m

end ObjectStore
