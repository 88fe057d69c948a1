import ObjectStore.Proofs.Refactoring.Rounds

/-!
# Matches by similarity

The members that are free are those that no entry and no identifier has
disposed of. Matches by similarity are found among the pairs of free members,
and they are a greedy choice of these: where a pair that is alike enough is
not matched, one side of it is matched in a pair that stands in front of it.

## Main results

* `Matching.Rounds.freeSource_iff`, `Matching.Rounds.freeTarget_iff`: the free
  members are those that the first two rounds leave.
* `Matcher.run_greedy`: matches by similarity are a greedy choice.
-/

namespace ObjectStore

/-- The match was made without a score, by an entry or by the identifier. -/
def Basis.Given : Basis → Prop
  | .similar _ => False
  | _ => True

namespace Matching

variable {matcher : Matcher} {source target : Definition} {matching : Matching} {m t : Member}
  {explicit exact similar : List Match} {x y : Match} {c : Candidate}

/-! ## Free members -/

/-- The legacy member is matched by no entry, which may also say that it was
removed, and not by its identifier. -/
def FreeSource (source : Definition) (matching : Matching) (m : Member) : Prop :=
  m ∈ source.members ∧ ∀ x ∈ matching.matched, x.basis.Given → x.source ≠ m

/-- The current member is matched by no entry and not by its identifier. -/
def FreeTarget (target : Definition) (matching : Matching) (t : Member) : Prop :=
  t ∈ target.members ∧ ∀ x ∈ matching.matched, x.basis.Given → x.target ≠ some t

/-- Both members are free, and they are alike enough. -/
structure IsCandidate (matcher : Matcher) (source target : Definition) (matching : Matching)
    (c : Candidate) : Prop where
  leaves : FreeSource source matching c.source
  reaches : FreeTarget target matching c.target
  scored : c.score = matcher.score c.source c.target
  close : matcher.threshold ≤ c.score

namespace Rounds

/-- The first two rounds go without a score. -/
theorem mem_given (h : Rounds matcher source target explicit exact similar) :
    x ∈ (report source target (explicit ++ exact ++ similar)).matched ∧ x.basis.Given ↔
      x ∈ explicit ++ exact := by
  rw [h.mem_matched]
  constructor
  · rintro ⟨hx, hGiven⟩
    rcases h.cases_of_mem hx with ⟨hExplicit, -⟩ | ⟨hExact, -⟩ | ⟨-, score, hBasis⟩
    · exact List.mem_append_left _ hExplicit
    · exact List.mem_append_right _ hExact
    · rw [hBasis] at hGiven
      cases hGiven
  · intro hx
    refine ⟨List.mem_append_left _ hx, ?_⟩
    rcases List.mem_append.1 hx with hExplicit | hExact
    · rcases (h.mem_explicit.1 hExplicit).basis with hBasis | hBasis <;>
        (rw [hBasis]; trivial)
    · rw [h.basis_of_mem_exact hExact]
      trivial

theorem freeSource_iff (h : Rounds matcher source target explicit exact similar) :
    FreeSource source (report source target (explicit ++ exact ++ similar)) m ↔
      m ∈ unpaired source.members (explicit ++ exact) := by
  rw [mem_unpaired]
  refine and_congr_right fun _ => forall_congr' fun x => ?_
  rw [← and_imp, h.mem_given]

theorem freeTarget_iff (h : Rounds matcher source target explicit exact similar) :
    FreeTarget target (report source target (explicit ++ exact ++ similar)) t ↔
      t ∈ unclaimed target.members (explicit ++ exact) := by
  rw [mem_unclaimed]
  refine and_congr_right fun _ => forall_congr' fun x => ?_
  rw [← and_imp, h.mem_given]

/-- What the last round chooses from. -/
theorem isCandidate_iff (h : Rounds matcher source target explicit exact similar) :
    IsCandidate matcher source target (report source target (explicit ++ exact ++ similar)) c ↔
      c ∈ candidates matcher (unpaired source.members (explicit ++ exact))
        (unclaimed target.members (explicit ++ exact)) := by
  rw [mem_candidates, ← h.freeSource_iff, ← h.freeTarget_iff]
  exact ⟨fun hc => ⟨hc.leaves, hc.reaches, hc.scored, hc.close⟩,
    fun ⟨hLeaves, hReaches, hScored, hClose⟩ => ⟨hLeaves, hReaches, hScored, hClose⟩⟩

/-! ## Targets -/

/-- What an identifier has found was there for it. -/
theorem target_of_mem_exact (h : Rounds matcher source target explicit exact similar)
    (hx : x ∈ exact) : ∃ t, x.target = some t ∧ t.id = x.source.id ∧
      ∀ y ∈ explicit, y.target ≠ some t := by
  obtain ⟨-, t, ht, hId, hMatch⟩ := h.mem_exact.1 hx
  exact ⟨t, congrArg Match.target hMatch, hId, (mem_unclaimed.1 ht).2⟩

/-- What similarity has found was there for it. -/
theorem target_of_mem_similar (h : Rounds matcher source target explicit exact similar)
    (hx : x ∈ similar) : ∃ t, x.target = some t ∧ ∀ y ∈ explicit ++ exact, y.target ≠ some t := by
  obtain ⟨c, hc, rfl⟩ := h.candidate_of_mem_similar hx
  exact ⟨c.target, rfl, (mem_unclaimed.1 (mem_candidates.1 hc).2.1).2⟩

/-- No current member is found by two identifiers. -/
theorem eq_of_target_exact (h : Rounds matcher source target explicit exact similar)
    (hx : x ∈ exact) (hy : y ∈ exact) (hSame : y.target = x.target) : y = x := by
  obtain ⟨t, hTarget, hId, -⟩ := h.target_of_mem_exact hx
  obtain ⟨t', hTarget', hId', -⟩ := h.target_of_mem_exact hy
  have hTargets : t' = t := Option.some.inj (hTarget'.symm.trans (hSame.trans hTarget))
  rw [hTargets] at hId'
  have hSources : y.source = x.source :=
    List.inj_on_of_nodup_map source.laidOut_members.2.2 (h.source_of_mem_exact hy).1
      (h.source_of_mem_exact hx).1 (hId'.symm.trans hId)
  have hAll : ∀ z ∈ exact, z ∈ explicit ++ exact ++ similar := fun z hz =>
    List.mem_append_left _ (List.mem_append_right _ hz)
  exact h.single y (hAll y hy) x (hAll x hx) hSources

/-- No current member is chosen twice. -/
theorem eq_of_target_similar (h : Rounds matcher source target explicit exact similar)
    (hx : x ∈ similar) (hy : y ∈ similar) (hSame : y.target = x.target) : y = x := by
  obtain ⟨c, hc, rfl⟩ := h.mem_similar.1 hx
  obtain ⟨c', hc', rfl⟩ := h.mem_similar.1 hy
  rw [eq_of_rivals hc' hc (Or.inr (Option.some.inj hSame))]

/-- What is matched without an entry is matched once. -/
theorem eq_of_target (h : Rounds matcher source target explicit exact similar)
    (hx : x ∈ exact ++ similar) (hy : y ∈ explicit ++ exact ++ similar)
    (hSame : y.target = x.target) : y = x := by
  rcases List.mem_append.1 hx with hExact | hSimilar
  · obtain ⟨t, hTarget, -, hExplicit⟩ := h.target_of_mem_exact hExact
    rcases h.cases_of_mem hy with ⟨hFirst, -⟩ | ⟨hSecond, -⟩ | ⟨hLast, -⟩
    · exact absurd (hSame.trans hTarget) (hExplicit y hFirst)
    · exact h.eq_of_target_exact hExact hSecond hSame
    · -- The last round leaves the targets of the second one alone.
      obtain ⟨t', hTarget', hBefore⟩ := h.target_of_mem_similar hLast
      exact absurd (hSame.symm.trans hTarget')
        (hBefore x (List.mem_append_right _ hExact))
  · obtain ⟨t, hTarget, hBefore⟩ := h.target_of_mem_similar hSimilar
    rcases List.mem_append.1 hy with hFirst | hLast
    · exact absurd (hSame.trans hTarget) (hBefore y hFirst)
    · exact h.eq_of_target_similar hSimilar hLast hSame

theorem nodup_matched (h : Rounds matcher source target explicit exact similar) :
    (report source target (explicit ++ exact ++ similar)).matched.Nodup :=
  List.Nodup.of_map Match.source (source.nodup_members.sublist h.accounts.matched)

end Rounds

/-! ## Greedy choices -/

/-- Matches by similarity are a greedy choice of candidates. -/
structure IsGreedy (matcher : Matcher) (source target : Definition) (matching : Matching) :
    Prop where
  /-- What is matched by similarity is a candidate with its score. -/
  candidate : ∀ x ∈ matching.matched, ∀ score, x.basis = .similar score →
    ∃ t, x.target = some t ∧ IsCandidate matcher source target matching ⟨score, x.source, t⟩
  /-- A candidate is matched, unless one side of it is in another match by
  similarity that stands in front of it. -/
  blocked : ∀ c, IsCandidate matcher source target matching c →
    c.toMatch ∈ matching.matched ∨
      ∃ g, IsCandidate matcher source target matching g ∧ g.toMatch ∈ matching.matched ∧
        Precedes source target g c ∧ (g.source = c.source ∨ g.target = c.target)
  /-- What is matched without an entry is matched once. -/
  sole : ∀ x ∈ matching.matched, (x.basis = .exact ∨ ∃ score, x.basis = .similar score) →
    ∃ t, x.target = some t ∧ (matching.matched.filter fun y => y.target = some t) = [x]

theorem Rounds.isGreedy (h : Rounds matcher source target explicit exact similar) :
    IsGreedy matcher source target (report source target (explicit ++ exact ++ similar)) where
  candidate := by
    intro x hx score hBasis
    obtain ⟨c, hc, rfl⟩ :=
      h.candidate_of_mem_similar (h.mem_similar_of_basis (h.mem_matched.1 hx) hBasis)
    cases hBasis
    exact ⟨c.target, rfl, h.isCandidate_iff.2 hc⟩
  blocked := by
    intro c hc
    have hChosen : ∀ g ∈ greedy [] (candidates matcher
        (unpaired source.members (explicit ++ exact))
        (unclaimed target.members (explicit ++ exact))),
        g.toMatch ∈ (report source target (explicit ++ exact ++ similar)).matched := fun g hg =>
      h.mem_matched.2 (List.mem_append_right _ (h.mem_similar.2 ⟨g, hg, rfl⟩))
    rcases greedy_or_rival (pairwise_candidates List.filter_sublist List.filter_sublist)
        (h.isCandidate_iff.1 hc) with hTaken | ⟨g, hNone, -⟩ | ⟨g, hg, hFirst, hRival⟩
    · exact Or.inl (hChosen c hTaken)
    · cases hNone
    · exact Or.inr ⟨g, h.isCandidate_iff.2 (mem_greedy hg), hChosen g hg, hFirst, hRival⟩
  sole := by
    intro x hx hBasis
    have hFound : x ∈ exact ++ similar := by
      rcases hBasis with hExact | ⟨score, hSimilar⟩
      · exact List.mem_append_left _ (h.mem_exact_of_basis (h.mem_matched.1 hx) hExact)
      · exact List.mem_append_right _ (h.mem_similar_of_basis (h.mem_matched.1 hx) hSimilar)
    obtain ⟨t, hTarget⟩ : ∃ t, x.target = some t := by
      rcases List.mem_append.1 hFound with hExact | hSimilar
      · exact (h.target_of_mem_exact hExact).imp fun _ ht => ht.1
      · exact (h.target_of_mem_similar hSimilar).imp fun _ ht => ht.1
    refine ⟨t, hTarget, List.Perm.eq_singleton ?_⟩
    refine (List.perm_ext_iff_of_nodup (h.nodup_matched.filter _) (List.nodup_singleton x)).2 ?_
    intro y
    rw [List.mem_filter, List.mem_singleton, decide_eq_true_eq]
    constructor
    · rintro ⟨hy, hSame⟩
      exact h.eq_of_target hFound (h.mem_matched.1 hy) (hSame.trans hTarget.symm)
    · rintro rfl
      exact ⟨hx, hTarget⟩

end Matching

namespace Matcher

open Matching

/-! ## Main statement -/

/--
Matches by similarity are a greedy choice among the pairs of free members that
reach the threshold: a pair that is left out shares a member with a match by
similarity of a higher score, or of the same score and members that are stored
before. What is matched by identifier or by similarity is matched once.
-/
theorem run_greedy {matcher : Matcher} {source target : Definition} {matching : Matching}
    (h : matcher.run source target = .ok matching) : IsGreedy matcher source target matching := by
  obtain ⟨explicit, exact, similar, hRounds, rfl⟩ := run_eq_ok.1 h
  exact hRounds.isGreedy

/-- How much is in stock. -/
def amount : Member := ⟨.unqualified "amount", .primitive .u32, "u32", some 0⟩

/-- Things in stock. -/
def stock : Definition where
  id := ⟨2010⟩
  name := "Stock"
  runtime := none
  members := [amount]
  laidOut := ⟨[.ofKind (.unqualified "amount") (.primitive .u32)], _, rfl⟩

/-- How much was in stock once. -/
def amounted : Member := ⟨.unqualified "amounted", .primitive .u32, "u32", some 0⟩

/-- How much is in stock, under its former name. -/
def amounts : Member := ⟨.unqualified "amounts", .primitive .u32, "u32", some 4⟩

/-- Things in stock as they were before. -/
def formerStock : Definition where
  id := ⟨2000⟩
  name := "Stock"
  runtime := none
  members := [amounted, amounts]
  laidOut := ⟨[.ofKind (.unqualified "amounted") (.primitive .u32),
    .ofKind (.unqualified "amounts") (.primitive .u32)], _, rfl⟩

/-- Nothing is said of any member. -/
def stockMatcher : Matcher := .of (.ofTable .empty) TypeSimilarity.empty

/-- The legacy member `m` is a candidate for what is in stock. -/
def restocked (m : Member) : Candidate := ⟨stockMatcher.score m amount, m, amount⟩

/-- Nothing stands in front of the member that is the most similar one. -/
theorem not_precedes_amounts :
    ∀ m ∈ formerStock.members, ¬Precedes formerStock stock (restocked m) (restocked amounts) := by
  unfold Precedes StoredBefore
  decide +kernel

/-- Both names are similar enough, and the one that is stored behind is the
more similar one. -/
theorem run_greedy_stock : ∃ matching score,
    stockMatcher.run formerStock stock = .ok matching ∧
      ⟨amounts, some amount, .similar score⟩ ∈ matching.matched ∧
      ∀ score', ⟨amounted, some amount, .similar score'⟩ ∉ matching.matched := by
  obtain ⟨matching, hRun⟩ : ∃ matching,
      stockMatcher.run formerStock stock = .ok matching := ⟨_, rfl⟩
  have hGreedy := run_greedy hRun
  obtain ⟨explicit, exact, similar, hRounds, rfl⟩ := run_eq_ok.1 hRun
  -- The first two rounds find nothing.
  have hExplicit : explicit = [] := (Except.ok.inj hRounds.asked).symm
  subst hExplicit
  have hExact : exact = [] := hRounds.kept
  subst hExact
  have hBest : restocked amounts ∈ candidates stockMatcher
      (unpaired formerStock.members []) (unclaimed stock.members []) :=
    mem_candidates.2 ⟨by decide, by decide, by rw [restocked], by decide +kernel⟩
  have hIn : (restocked amounts).toMatch ∈
      (report formerStock stock ([] ++ [] ++ similar)).matched := by
    rcases hGreedy.blocked _ (hRounds.isCandidate_iff.2 hBest) with
      hIn | ⟨g, hCandidate, -, hFirst, -⟩
    · exact hIn
    · have hTarget : g.target = amount := List.mem_singleton.1 hCandidate.reaches.1
      have hOther : g = restocked g.source := by
        rw [restocked, ← hTarget, ← hCandidate.scored]
      rw [hOther] at hFirst
      exact absurd hFirst (not_precedes_amounts _ hCandidate.leaves.1)
  refine ⟨_, (restocked amounts).score, hRun, hIn, ?_⟩
  intro score hOther
  obtain ⟨t, hTarget, hSole⟩ := hGreedy.sole _ hIn (Or.inr ⟨_, rfl⟩)
  have hFound : ⟨amounted, some amount, .similar score⟩ ∈ [(restocked amounts).toMatch] := by
    rw [← hSole]
    exact List.mem_filter.2 ⟨hOther, decide_eq_true hTarget⟩
  cases congrArg (fun x : Match => x.source.offset) (List.mem_singleton.1 hFound)

end Matcher

end ObjectStore
