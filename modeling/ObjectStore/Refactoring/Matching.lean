import ObjectStore.Refactoring.Similarity
import ObjectStore.Refactoring.Table

/-!
# Matching legacy members

To read old records of a type, each of its legacy members needs a
counterpart among the current ones, or has to be given up. They are matched
in three rounds:

1. a member with an entry in the refactoring table goes where that says;
2. a member whose identifier still exists keeps it, unless an entry has
   claimed the current member;
3. of what is left, pairs are formed greedily, the most similar first, as
   long as they reach a threshold. Among equal scores the order of the
   legacy members decides, and then that of the current ones.

The members of a type have distinct identifiers, so they stand for
themselves and not for their positions.

## Main results

* `Matching.mem_greedy`: what the greedy round adds are candidates.
-/

namespace ObjectStore

/-- Why a legacy member is matched as it is. -/
inductive Basis where
  /-- The refactoring table says so. -/
  | explicit
  /-- The refactoring table says that it was removed. -/
  | deleted
  /-- Its identifier still exists. -/
  | exact
  /-- It is the most similar one. -/
  | similar (score : Float)

/-- A legacy member and its counterpart. -/
structure Match where
  source : Member
  target : Option Member
  basis : Basis

/-- How the members of a legacy type correspond to those of a current one. -/
structure Matching where
  /-- The matched legacy members, in stored order. -/
  matched : List Match
  /-- The legacy members without counterpart, in stored order. -/
  unmatched : List Member
  /-- The current members that no legacy member leads to, in stored order. -/
  added : List Member

/-- What matching depends on. -/
structure Matcher where
  refactoring : Refactoring
  types : TypeSimilarity
  threshold : Float
  /-- How alike two names are. -/
  names : String → String → Float

namespace Matcher

/-- The least score of a match by similarity, if none is asked for. -/
def defaultThreshold : Float := 0.8

/-- The matcher with another threshold, cut to the range of scores. -/
def withThreshold (m : Matcher) (threshold : Float) : Matcher :=
  { m with threshold := clampScore threshold }

/-- How likely a current member is the counterpart of a legacy member. -/
def score (m : Matcher) : Member → Member → Float := m.types.scoreBy m.names

end Matcher

namespace Matching

/-- A pair of members that may be matched by similarity. -/
structure Candidate where
  score : Float
  source : Member
  target : Member

/-- The match that a candidate becomes. -/
def Candidate.toMatch (c : Candidate) : Match := ⟨c.source, some c.target, .similar c.score⟩

/-- The current members that matches lead to. -/
def targets (ms : List Match) : List Member := ms.filterMap Match.target

/-- The matches that the refactoring table asks for. -/
def explicitMatches (r : Refactoring) (source target : Definition) : Except Error (List Match) := do
  let found ← source.members.mapM fun m => do
    match ← r.memberTarget source m target with
    | none => return none
    | some none => return some (Match.mk m none .deleted)
    | some (some counterpart) => return some (Match.mk m (some counterpart) .explicit)
  return found.filterMap id

/-- The matches of members whose identifier still exists. -/
def exactMatches (sources targets : List Member) : List Match :=
  sources.filterMap fun m =>
    (targets.find? (·.id = m.id)).map fun counterpart => ⟨m, some counterpart, .exact⟩

/-- The pairs whose score reaches the threshold, the best first. -/
def candidates (matcher : Matcher) (sources targets : List Member) : List Candidate :=
  let pairs := sources.flatMap fun source =>
    targets.map fun target => Candidate.mk (matcher.score source target) source target
  let close := pairs.filter fun c => matcher.threshold ≤ c.score
  close.mergeSort fun a b => scoreRank b.score ≤ scoreRank a.score

/-- Takes candidates in order, leaving out those of which one side is
already taken. -/
def greedy (taken : List Candidate) : List Candidate → List Candidate
  | [] => []
  | c :: rest =>
      if taken.any fun t => t.source = c.source || t.target = c.target then greedy taken rest
      else c :: greedy (c :: taken) rest

/-- Members that are not among others. -/
def without (ms others : List Member) : List Member := ms.filter fun m => !others.contains m

end Matching

namespace Matcher

open Matching

/-- Matches the members of a legacy type with those of a current one. -/
def run (matcher : Matcher) (source target : Definition) : Except Error Matching := do
  let explicit ← explicitMatches matcher.refactoring source target
  let sources := without source.members (explicit.map Match.source)
  let targets := without target.members (Matching.targets explicit)
  let exact := exactMatches sources targets
  let sources := without sources (exact.map Match.source)
  let targets := without targets (Matching.targets exact)
  let similar := (greedy [] (candidates matcher sources targets)).map Candidate.toMatch
  let all := explicit ++ exact ++ similar
  return {
    matched := source.members.filterMap fun m => all.find? (·.source = m)
    unmatched := without source.members (all.map Match.source)
    added := without target.members (Matching.targets all) }

end Matcher

namespace Matching

theorem mem_greedy {taken cs : List Candidate} {c : Candidate} (h : c ∈ greedy taken cs) :
    c ∈ cs := by
  fun_induction greedy taken cs with
  | case1 => simp at h
  | case2 taken head rest _ ih => exact List.mem_cons_of_mem _ (ih h)
  | case3 taken head rest _ ih =>
      rcases List.mem_cons.1 h with rfl | hRest
      · exact List.mem_cons_self
      · exact List.mem_cons_of_mem _ (ih hRest)

end Matching

end ObjectStore
