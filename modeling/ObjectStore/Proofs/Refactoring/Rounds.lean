import Mathlib.Data.List.Nodup
import ObjectStore.Proofs.Attempt.Sequences
import ObjectStore.Proofs.Refactoring.Candidates
import ObjectStore.Refactoring.NameSimilarity

/-!
# The rounds of a matching

Members are matched in three rounds, and what one round takes is not there for
the next one. The first round asks the table about every legacy member, so it
is the only one that can fail. What the rounds have found is put in stored
order in the end. No round takes a member twice, hence every legacy member is
either matched or left over, and it is told by the table and the identifiers
alone which of them are matched in the first two rounds.

## Main results

* `Matcher.run_eq_ok`: a matching is made in three rounds.
* `Matcher.run_eq_error`: a matching fails where the table does.
* `Matching.Rounds.mem_matched`: the matches are those of the rounds.
* `Matcher.run_accounts`: what becomes of every member on either side.
-/

namespace ObjectStore

namespace Matching

variable {r : Refactoring} {matcher : Matcher} {source target : Definition} {m t : Member}
  {ms : List Member} {all explicit exact similar : List Match} {x : Match}

/-! ## Matches side by side -/

/-- No legacy member is matched twice. -/
def Single (all : List Match) : Prop := ∀ x ∈ all, ∀ y ∈ all, x.source = y.source → x = y

/-- The members that are no source of a match. -/
def unpaired (ms : List Member) (all : List Match) : List Member :=
  without ms (all.map Match.source)

/-- The members that no match leads to. -/
def unclaimed (ms : List Member) (all : List Match) : List Member := without ms (targets all)

theorem mem_unpaired : m ∈ unpaired ms all ↔ m ∈ ms ∧ ∀ x ∈ all, x.source ≠ m := by
  simp [unpaired, without]

theorem mem_unclaimed : m ∈ unclaimed ms all ↔ m ∈ ms ∧ ∀ x ∈ all, x.target ≠ some m := by
  simp [unclaimed, without, targets]

/-- The matches in the order of their legacy members. -/
def inOrder (ms : List Member) (all : List Match) : List Match :=
  ms.filterMap fun m => all.find? (·.source = m)

theorem mem_inOrder (hSingle : Single all) (hSources : ∀ x ∈ all, x.source ∈ ms) :
    x ∈ inOrder ms all ↔ x ∈ all := by
  rw [inOrder, List.mem_filterMap]
  constructor
  · rintro ⟨m, -, hFind⟩
    exact List.mem_of_find?_eq_some hFind
  · intro hx
    refine ⟨x.source, hSources x hx, ?_⟩
    obtain ⟨y, hFind⟩ := Option.isSome_iff_exists.1
      (List.find?_isSome.2 ⟨x, hx, decide_eq_true rfl⟩ :
        (all.find? (·.source = x.source)).isSome)
    have hSame : y.source = x.source := by simpa using List.find?_some hFind
    rw [hFind, hSingle y (List.mem_of_find?_eq_some hFind) x hx hSame]

/-- Those that are matched are the members that are not left over. -/
theorem sources_inOrder (ms : List Member) (all : List Match) :
    (inOrder ms all).map Match.source = ms.filter fun m => (all.map Match.source).contains m := by
  induction ms with
  | nil => rfl
  | cons m rest ih =>
      rw [inOrder, List.filterMap_cons, List.filter_cons, ← ih]
      cases hFind : all.find? (·.source = m) with
      | none =>
          have hNone : ¬(all.map Match.source).contains m = true := by
            rw [List.contains_iff_mem, List.mem_map]
            rintro ⟨x, hx, hSame⟩
            simpa [hSame] using List.find?_eq_none.1 hFind x hx
          rw [if_neg hNone]
          rfl
      | some x =>
          have hSame : x.source = m := by simpa using List.find?_some hFind
          have hIn : (all.map Match.source).contains m = true := by
            rw [List.contains_iff_mem, ← hSame]
            exact List.mem_map_of_mem (List.mem_of_find?_eq_some hFind)
          rw [if_pos hIn]
          show x.source :: _ = m :: _
          rw [hSame]
          rfl

/-- A member is matched or left over, in stored order on either side. -/
theorem perm_inOrder (ms : List Member) (all : List Match) :
    ((inOrder ms all).map Match.source ++ unpaired ms all).Perm ms := by
  rw [sources_inOrder]
  exact List.filter_append_perm _ ms

/-! ## The first round -/

/-- The match that the answer of the table asks for. -/
def entryMatch (m : Member) : Option (Option Member) → Option Match
  | none => none
  | some none => some ⟨m, none, .deleted⟩
  | some (some counterpart) => some ⟨m, some counterpart, .explicit⟩

theorem explicitMatches_eq (r : Refactoring) (source target : Definition) :
    explicitMatches r source target =
      (source.members.mapM fun m => (r.memberTarget source m target).map (entryMatch m)).map
        (·.filterMap id) := by
  have hPass : ∀ step : Member → Except Error (Option Match),
      (∀ m, step m = (r.memberTarget source m target).map (entryMatch m)) →
        (do return (← source.members.mapM step).filterMap id) =
          (source.members.mapM fun m => (r.memberTarget source m target).map (entryMatch m)).map
            (·.filterMap id) := by
    intro step hStep
    rw [funext hStep]
    cases source.members.mapM fun m => (r.memberTarget source m target).map (entryMatch m) <;> rfl
  refine hPass _ fun m => ?_
  cases r.memberTarget source m target with
  | error e => rfl
  | ok answer =>
      cases answer with
      | none => rfl
      | some counterpart => cases counterpart <;> rfl

theorem source_of_entryMatch {answer : Option (Option Member)}
    (h : entryMatch m answer = some x) : x.source = m := by
  cases answer with
  | none => cases h
  | some counterpart => cases counterpart <;> (cases h; rfl)

/-- The table asks for a match. -/
def Asked (r : Refactoring) (source target : Definition) (x : Match) : Prop :=
  x.source ∈ source.members ∧ ∃ answer,
    r.memberTarget source x.source target = .ok answer ∧ entryMatch x.source answer = some x

/-- The first round finds the matches that the table asks for. -/
theorem mem_explicitMatches (h : explicitMatches r source target = .ok explicit) :
    x ∈ explicit ↔ Asked r source target x := by
  rw [explicitMatches_eq] at h
  obtain ⟨found, hFound, rfl⟩ := map_eq_ok.1 h
  have hEach := mapM_eq_ok.1 hFound
  simp only [List.mem_filterMap, id]
  constructor
  · rintro ⟨o, ho, rfl⟩
    obtain ⟨m, hm, hStep⟩ := forall₂_exists_left hEach ho
    obtain ⟨answer, hAnswer, hEntry⟩ := map_eq_ok.1 hStep
    have hSource := source_of_entryMatch hEntry
    rw [← hSource] at hm hAnswer hEntry
    exact ⟨hm, answer, hAnswer, hEntry⟩
  · rintro ⟨hx, answer, hAnswer, hEntry⟩
    obtain ⟨o, ho, hStep⟩ := forall₂_exists_right hEach hx
    refine ⟨o, ho, ?_⟩
    rw [hAnswer] at hStep
    rw [← hEntry]
    exact (Except.ok.inj hStep).symm

theorem asked_explicit : Asked r source target ⟨m, some t, .explicit⟩ ↔
    m ∈ source.members ∧ r.memberTarget source m target = .ok (some (some t)) := by
  refine and_congr_right fun _ => ⟨?_, fun h => ⟨_, h, rfl⟩⟩
  rintro ⟨_ | _ | found, hAnswer, hEntry⟩
  · cases hEntry
  · cases hEntry
  · cases hEntry
    exact hAnswer

theorem asked_deleted : Asked r source target ⟨m, none, .deleted⟩ ↔
    m ∈ source.members ∧ r.memberTarget source m target = .ok (some none) := by
  refine and_congr_right fun _ => ⟨?_, fun h => ⟨_, h, rfl⟩⟩
  rintro ⟨_ | _ | found, hAnswer, hEntry⟩
  · cases hEntry
  · exact hAnswer
  · cases hEntry

/-- The table asks for nothing but members and removals. -/
theorem Asked.cases (h : Asked r source target x) :
    (∃ t, x = ⟨x.source, some t, .explicit⟩) ∨ x = ⟨x.source, none, .deleted⟩ := by
  obtain ⟨-, _ | _ | t, -, hEntry⟩ := h
  · cases hEntry
  · exact Or.inr (Option.some.inj hEntry).symm
  · exact Or.inl ⟨t, (Option.some.inj hEntry).symm⟩

theorem Asked.basis (h : Asked r source target x) : x.basis = .explicit ∨ x.basis = .deleted := by
  rcases h.cases with ⟨t, hMatch⟩ | hMatch
  · exact Or.inl (congrArg Match.basis hMatch)
  · exact Or.inr (congrArg Match.basis hMatch)

theorem Asked.explicit_of_target (h : Asked r source target x) (hTarget : x.target = some t) :
    x.basis = .explicit := by
  rcases h.cases with ⟨t', hMatch⟩ | hMatch
  · exact congrArg Match.basis hMatch
  · cases hTarget.symm.trans (congrArg Match.target hMatch)

/-- The table asks for one match of a legacy member. -/
theorem Asked.eq {y : Match} (h : Asked r source target x) (h' : Asked r source target y)
    (hSame : x.source = y.source) : x = y := by
  obtain ⟨-, answer, hAnswer, hEntry⟩ := h
  obtain ⟨-, answer', hAnswer', hEntry'⟩ := h'
  rw [hSame] at hAnswer hEntry
  cases hAnswer.symm.trans hAnswer'
  exact Option.some.inj (hEntry.symm.trans hEntry')

/-- The table is asked about every legacy member. -/
theorem answered_of_explicitMatches (h : explicitMatches r source target = .ok explicit)
    (hm : m ∈ source.members) : ∃ answer, r.memberTarget source m target = .ok answer := by
  rw [explicitMatches_eq] at h
  obtain ⟨found, hFound, -⟩ := map_eq_ok.1 h
  obtain ⟨o, -, hStep⟩ := forall₂_exists_right (mapM_eq_ok.1 hFound) hm
  obtain ⟨answer, hAnswer, -⟩ := map_eq_ok.1 hStep
  exact ⟨answer, hAnswer⟩

/-! ## The second round -/

/-- The second round finds the members whose identifiers are still there. -/
theorem mem_exactMatches {sources targets : List Member}
    (hIds : (targets.map Member.id).Nodup) :
    x ∈ exactMatches sources targets ↔
      x.source ∈ sources ∧ ∃ t ∈ targets, t.id = x.source.id ∧ x = ⟨x.source, some t, .exact⟩ := by
  rw [exactMatches, List.mem_filterMap]
  constructor
  · rintro ⟨m, hm, hMatch⟩
    obtain ⟨t, hFind, rfl⟩ := Option.map_eq_some_iff.1 hMatch
    obtain ⟨ht, hSame⟩ := (find?_key hIds).1 hFind
    exact ⟨hm, t, ht, hSame, rfl⟩
  · rintro ⟨hx, t, ht, hSame, hMatch⟩
    refine ⟨x.source, hx, ?_⟩
    rw [(find?_key hIds).2 ⟨ht, hSame⟩, hMatch]
    rfl

/-! ## All rounds -/

/-- What the three rounds have found. -/
structure Rounds (matcher : Matcher) (source target : Definition)
    (explicit exact similar : List Match) : Prop where
  asked : explicitMatches matcher.refactoring source target = .ok explicit
  kept : exact =
    exactMatches (unpaired source.members explicit) (unclaimed target.members explicit)
  chosen : similar =
    (greedy [] (candidates matcher (unpaired source.members (explicit ++ exact))
      (unclaimed target.members (explicit ++ exact)))).map Candidate.toMatch

/-- What is reported of all matches. -/
def report (source target : Definition) (all : List Match) : Matching :=
  ⟨inOrder source.members all, unpaired source.members all, unclaimed target.members all⟩

theorem without_append (ms others others' : List Member) :
    without ms (others ++ others') = without (without ms others) others' := by
  simp only [without, List.filter_filter, List.contains_eq_mem, List.mem_append, Bool.not_or,
    Bool.decide_or, Bool.and_comm]

theorem unpaired_append (ms : List Member) (all all' : List Match) :
    unpaired ms (all ++ all') = without (unpaired ms all) (all'.map Match.source) := by
  rw [unpaired, List.map_append, without_append, unpaired]

theorem unclaimed_append (ms : List Member) (all all' : List Match) :
    unclaimed ms (all ++ all') = without (unclaimed ms all) (targets all') := by
  rw [unclaimed, targets, List.filterMap_append, without_append, unclaimed, targets, targets]

end Matching

/-- A matching is made in three rounds. -/
theorem Matcher.run_eq_ok {matcher : Matcher} {source target : Definition} {matching : Matching} :
    matcher.run source target = .ok matching ↔ ∃ explicit exact similar,
      Matching.Rounds matcher source target explicit exact similar ∧
        matching = Matching.report source target (explicit ++ exact ++ similar) := by
  unfold Matcher.run
  rw [bind_eq_ok]
  constructor
  · rintro ⟨explicit, hAsked, h⟩
    refine ⟨explicit, _, _, ⟨hAsked, rfl, rfl⟩, ?_⟩
    rw [Matching.unpaired_append, Matching.unclaimed_append]
    exact (Except.ok.inj h).symm
  · rintro ⟨explicit, exact, similar, ⟨hAsked, rfl, rfl⟩, rfl⟩
    refine ⟨explicit, hAsked, ?_⟩
    rw [Matching.unpaired_append, Matching.unclaimed_append]
    rfl

namespace Matching

variable {matcher : Matcher} {source target : Definition} {m t : Member}
  {all all' explicit exact similar : List Match} {x : Match}

/-! ## No member is matched twice -/

theorem Single.append (h : Single all) (h' : Single all')
    (hApart : ∀ x ∈ all, ∀ y ∈ all', x.source ≠ y.source) : Single (all ++ all') := by
  intro x hx y hy hSame
  rcases List.mem_append.1 hx with hx | hx <;> rcases List.mem_append.1 hy with hy | hy
  · exact h x hx y hy hSame
  · exact absurd hSame (hApart x hx y hy)
  · exact absurd hSame.symm (hApart y hy x hx)
  · exact h' x hx y hy hSame

namespace Rounds

theorem mem_explicit (h : Rounds matcher source target explicit exact similar) :
    x ∈ explicit ↔ Asked matcher.refactoring source target x :=
  mem_explicitMatches h.asked

theorem mem_exact (h : Rounds matcher source target explicit exact similar) :
    x ∈ exact ↔ x.source ∈ unpaired source.members explicit ∧
      ∃ t ∈ unclaimed target.members explicit, t.id = x.source.id ∧
        x = ⟨x.source, some t, .exact⟩ := by
  rw [h.kept]
  exact mem_exactMatches (target.laidOut_members.2.2.sublist (List.filter_sublist.map _))

theorem mem_similar (h : Rounds matcher source target explicit exact similar) :
    x ∈ similar ↔ ∃ c ∈ greedy [] (candidates matcher
      (unpaired source.members (explicit ++ exact)) (unclaimed target.members (explicit ++ exact))),
        c.toMatch = x := by
  rw [h.chosen, List.mem_map]

/-- What the last round takes was there for it. -/
theorem candidate_of_mem_similar (h : Rounds matcher source target explicit exact similar)
    (hx : x ∈ similar) :
    ∃ c ∈ candidates matcher (unpaired source.members (explicit ++ exact))
      (unclaimed target.members (explicit ++ exact)), c.toMatch = x := by
  obtain ⟨c, hc, hMatch⟩ := h.mem_similar.1 hx
  exact ⟨c, mem_greedy hc, hMatch⟩

/-! ### The basis tells the round -/

theorem basis_of_mem_exact (h : Rounds matcher source target explicit exact similar)
    (hx : x ∈ exact) : x.basis = .exact := by
  obtain ⟨-, t, -, -, hMatch⟩ := h.mem_exact.1 hx
  rw [hMatch]

theorem basis_of_mem_similar (h : Rounds matcher source target explicit exact similar)
    (hx : x ∈ similar) : ∃ score, x.basis = .similar score := by
  obtain ⟨c, -, rfl⟩ := h.mem_similar.1 hx
  exact ⟨c.score, rfl⟩

theorem cases_of_mem (h : Rounds matcher source target explicit exact similar)
    (hx : x ∈ explicit ++ exact ++ similar) :
    (x ∈ explicit ∧ (x.basis = .explicit ∨ x.basis = .deleted)) ∨
      (x ∈ exact ∧ x.basis = .exact) ∨ (x ∈ similar ∧ ∃ score, x.basis = .similar score) := by
  rcases List.mem_append.1 hx with hx | hSimilar
  · rcases List.mem_append.1 hx with hExplicit | hExact
    · exact Or.inl ⟨hExplicit, (h.mem_explicit.1 hExplicit).basis⟩
    · exact Or.inr (Or.inl ⟨hExact, h.basis_of_mem_exact hExact⟩)
  · exact Or.inr (Or.inr ⟨hSimilar, h.basis_of_mem_similar hSimilar⟩)

theorem mem_explicit_of_basis (h : Rounds matcher source target explicit exact similar)
    (hx : x ∈ explicit ++ exact ++ similar) (hBasis : x.basis = .explicit ∨ x.basis = .deleted) :
    x ∈ explicit := by
  rcases h.cases_of_mem hx with ⟨hExplicit, -⟩ | ⟨-, hOther⟩ | ⟨-, score, hOther⟩
  · exact hExplicit
  all_goals
    rw [hOther] at hBasis
    rcases hBasis with hBasis | hBasis <;> cases hBasis

theorem mem_exact_of_basis (h : Rounds matcher source target explicit exact similar)
    (hx : x ∈ explicit ++ exact ++ similar) (hBasis : x.basis = .exact) : x ∈ exact := by
  rcases h.cases_of_mem hx with ⟨-, hOther⟩ | ⟨hExact, -⟩ | ⟨-, score, hOther⟩
  · rw [hBasis] at hOther
    rcases hOther with hOther | hOther <;> cases hOther
  · exact hExact
  · rw [hBasis] at hOther
    cases hOther

theorem mem_similar_of_basis (h : Rounds matcher source target explicit exact similar)
    {score : Float} (hx : x ∈ explicit ++ exact ++ similar) (hBasis : x.basis = .similar score) :
    x ∈ similar := by
  rcases h.cases_of_mem hx with ⟨-, hOther⟩ | ⟨-, hOther⟩ | ⟨hSimilar, -⟩
  · rw [hBasis] at hOther
    rcases hOther with hOther | hOther <;> cases hOther
  · rw [hBasis] at hOther
    cases hOther
  · exact hSimilar

/-! ### Every round takes what is left -/

theorem source_of_mem_exact (h : Rounds matcher source target explicit exact similar)
    (hx : x ∈ exact) : x.source ∈ source.members ∧ ∀ y ∈ explicit, y.source ≠ x.source :=
  mem_unpaired.1 (h.mem_exact.1 hx).1

theorem source_of_mem_similar (h : Rounds matcher source target explicit exact similar)
    (hx : x ∈ similar) :
    x.source ∈ source.members ∧ ∀ y ∈ explicit ++ exact, y.source ≠ x.source := by
  obtain ⟨c, hc, rfl⟩ := h.candidate_of_mem_similar hx
  exact mem_unpaired.1 (mem_candidates.1 hc).1

theorem source_mem (h : Rounds matcher source target explicit exact similar)
    (hx : x ∈ explicit ++ exact ++ similar) : x.source ∈ source.members := by
  rcases h.cases_of_mem hx with ⟨hExplicit, -⟩ | ⟨hExact, -⟩ | ⟨hSimilar, -⟩
  · exact (h.mem_explicit.1 hExplicit).1
  · exact (h.source_of_mem_exact hExact).1
  · exact (h.source_of_mem_similar hSimilar).1

theorem single (h : Rounds matcher source target explicit exact similar) :
    Single (explicit ++ exact ++ similar) := by
  have hExplicit : Single explicit := fun x hx y hy hSame =>
    (h.mem_explicit.1 hx).eq (h.mem_explicit.1 hy) hSame
  have hExact : Single exact := by
    intro x hx y hy hSame
    obtain ⟨-, t, ht, hId, hMatch⟩ := h.mem_exact.1 hx
    obtain ⟨-, t', ht', hId', hMatch'⟩ := h.mem_exact.1 hy
    have hTargets := List.inj_on_of_nodup_map target.laidOut_members.2.2 (mem_unclaimed.1 ht).1
      (mem_unclaimed.1 ht').1 (hId.trans (hSame ▸ hId'.symm))
    rw [hMatch, hMatch', hSame, hTargets]
  have hSimilar : Single similar := by
    intro x hx y hy hSame
    obtain ⟨c, hc, rfl⟩ := h.mem_similar.1 hx
    obtain ⟨c', hc', rfl⟩ := h.mem_similar.1 hy
    rw [eq_of_rivals hc hc' (Or.inl hSame)]
  refine (hExplicit.append hExact ?_).append hSimilar ?_
  · intro x hx y hy
    exact (h.source_of_mem_exact hy).2 x hx
  · intro x hx y hy
    exact (h.source_of_mem_similar hy).2 x hx

/-- The matches that are reported are those of the rounds. -/
theorem mem_matched (h : Rounds matcher source target explicit exact similar) :
    x ∈ (report source target (explicit ++ exact ++ similar)).matched ↔
      x ∈ explicit ++ exact ++ similar :=
  mem_inOrder h.single fun _ hx => h.source_mem hx

/-- What the table asks for is told by the basis. -/
theorem mem_matched_of_entry (h : Rounds matcher source target explicit exact similar)
    (hBasis : x.basis = .explicit ∨ x.basis = .deleted) :
    x ∈ (report source target (explicit ++ exact ++ similar)).matched ↔
      Asked matcher.refactoring source target x := by
  rw [h.mem_matched, ← h.mem_explicit]
  exact ⟨fun hx => h.mem_explicit_of_basis hx hBasis,
    fun hx => List.mem_append_left _ (List.mem_append_left _ hx)⟩

/-- A legacy member without an entry is left for the second round. -/
theorem unpaired_explicit (h : Rounds matcher source target explicit exact similar)
    (hm : m ∈ source.members)
    (hNone : matcher.refactoring.memberTarget source m target = .ok none) :
    m ∈ unpaired source.members explicit := by
  refine mem_unpaired.2 ⟨hm, ?_⟩
  rintro x hx rfl
  obtain ⟨-, answer, hAnswer, hEntry⟩ := h.mem_explicit.1 hx
  cases hNone.symm.trans hAnswer
  cases hEntry

end Rounds

/-! ## Accounts -/

/-- What becomes of the members on either side. -/
structure Accounts (r : Refactoring) (source target : Definition) (matching : Matching) : Prop where
  /-- A legacy member is matched or left over, and not both. -/
  once : (matching.matched.map Match.source ++ matching.unmatched).Perm source.members
  distinct : (matching.matched.map Match.source ++ matching.unmatched).Nodup
  matched : (matching.matched.map Match.source).Sublist source.members
  unmatched : matching.unmatched.Sublist source.members
  /-- The current members that no match leads to are new. -/
  added : matching.added = target.members.filter fun t =>
    matching.matched.all fun x => x.target ≠ some t
  /-- A member with an entry goes where this leads. -/
  explicit : ∀ m ∈ source.members, ∀ t, ⟨m, some t, .explicit⟩ ∈ matching.matched ↔
    r.memberTarget source m target = .ok (some (some t))
  deleted : ∀ m ∈ source.members, ⟨m, none, .deleted⟩ ∈ matching.matched ↔
    r.memberTarget source m target = .ok (some none)
  /-- One without an entry keeps its identifier, unless an entry has claimed
  the current member. -/
  exact : ∀ m ∈ source.members, r.memberTarget source m target = .ok none →
    ∀ t, ⟨m, some t, .exact⟩ ∈ matching.matched ↔
      t ∈ target.members ∧ t.id = m.id ∧
        ∀ x ∈ matching.matched, x.basis = .explicit → x.target ≠ some t

theorem Rounds.accounts (h : Rounds matcher source target explicit exact similar) :
    Accounts matcher.refactoring source target
      (report source target (explicit ++ exact ++ similar)) where
  once := perm_inOrder _ _
  distinct := (perm_inOrder _ _).nodup_iff.2 source.nodup_members
  matched := by
    show ((inOrder _ _).map Match.source).Sublist _
    rw [sources_inOrder]
    exact List.filter_sublist
  unmatched := List.filter_sublist
  added := by
    refine List.filter_congr fun t _ => ?_
    rw [Bool.eq_iff_iff, Bool.not_eq_true', ← Bool.not_eq_true, List.contains_iff_mem,
      List.all_eq_true]
    simp only [targets, List.mem_filterMap, h.mem_matched, decide_eq_true_eq, not_exists, not_and]
  explicit := by
    intro m hm t
    rw [h.mem_matched_of_entry (Or.inl rfl), asked_explicit, and_iff_right hm]
  deleted := by
    intro m hm
    rw [h.mem_matched_of_entry (Or.inr rfl), asked_deleted, and_iff_right hm]
  exact := by
    intro m hm hNone t
    rw [h.mem_matched]
    constructor
    · intro hx
      obtain ⟨-, t', ht', hId, hMatch⟩ := h.mem_exact.1 (h.mem_exact_of_basis hx rfl)
      cases hMatch
      obtain ⟨ht, hFree⟩ := mem_unclaimed.1 ht'
      refine ⟨ht, hId, fun x hx' hBasis => ?_⟩
      exact hFree x (h.mem_explicit_of_basis (h.mem_matched.1 hx') (Or.inl hBasis))
    · rintro ⟨ht, hId, hFree⟩
      refine List.mem_append_left _ (List.mem_append_right _ (h.mem_exact.2
        ⟨h.unpaired_explicit hm hNone, t, mem_unclaimed.2 ⟨ht, ?_⟩, hId, rfl⟩))
      intro x hx hTarget
      have hAsked := h.mem_explicit.1 hx
      have hBasis := hAsked.explicit_of_target hTarget
      exact hFree x ((h.mem_matched_of_entry (Or.inl hBasis)).2 hAsked) hBasis hTarget

end Matching

namespace Matcher

open Matching

variable {matcher : Matcher} {source target : Definition} {e : Error}

/-- A matching ends with the first fault of the table. -/
theorem run_eq_error : matcher.run source target = .error e ↔
    ∃ before m after, source.members = before ++ m :: after ∧
      matcher.refactoring.memberTarget source m target = .error e ∧
        ∀ m' ∈ before, ∃ answer,
          matcher.refactoring.memberTarget source m' target = .ok answer := by
  have hFirst : matcher.run source target = .error e ↔
      explicitMatches matcher.refactoring source target = .error e := by
    unfold run
    cases explicitMatches matcher.refactoring source target with
    | error e' =>
        constructor
        · intro h
          cases h
          rfl
        · intro h
          cases h
          rfl
    | ok explicit =>
        constructor
        · intro h
          cases h
        · intro h
          cases h
  have hEntry : ∀ m, (∃ b, (matcher.refactoring.memberTarget source m target).map (entryMatch m) =
      .ok b) ↔ ∃ answer, matcher.refactoring.memberTarget source m target = .ok answer := by
    intro m
    simp only [map_eq_ok]
    exact ⟨fun ⟨_, answer, hAnswer, _⟩ => ⟨answer, hAnswer⟩,
      fun ⟨answer, hAnswer⟩ => ⟨_, answer, hAnswer, rfl⟩⟩
  rw [hFirst, explicitMatches_eq, map_eq_error, mapM_eq_error_iff]
  simp only [map_eq_error, hEntry]

/-! ## Main statement -/

/--
A matching fails exactly if the table does for some legacy member, with the
first of these faults. Otherwise every member on either side is accounted for:
legacy members are matched as their entries say, or else by their identifiers
unless an entry was there first, or by similarity, or they are left over.
-/
theorem run_accounts (matcher : Matcher) (source target : Definition) :
    ((∃ e, matcher.run source target = .error e) ↔
        ∃ m ∈ source.members, ∃ e,
          matcher.refactoring.memberTarget source m target = .error e) ∧
      (∀ e, matcher.run source target = .error e ↔
        ∃ before m after, source.members = before ++ m :: after ∧
          matcher.refactoring.memberTarget source m target = .error e ∧
            ∀ m' ∈ before, ∃ answer,
              matcher.refactoring.memberTarget source m' target = .ok answer) ∧
      ∀ matching, matcher.run source target = .ok matching →
        Accounts matcher.refactoring source target matching := by
  have hAccounts : ∀ matching, matcher.run source target = .ok matching →
      Accounts matcher.refactoring source target matching := by
    intro matching h
    obtain ⟨explicit, exact, similar, hRounds, rfl⟩ := run_eq_ok.1 h
    exact hRounds.accounts
  refine ⟨⟨?_, ?_⟩, fun e => run_eq_error, hAccounts⟩
  · rintro ⟨e, h⟩
    obtain ⟨before, m, after, hSplit, hError, -⟩ := run_eq_error.1 h
    exact ⟨m, by simp [hSplit], e, hError⟩
  · rintro ⟨m, hm, e, hError⟩
    cases hRun : matcher.run source target with
    | error e' => exact ⟨e', rfl⟩
    | ok matching =>
        obtain ⟨explicit, exact, similar, hRounds, -⟩ := run_eq_ok.1 hRun
        obtain ⟨answer, hAnswer⟩ := answered_of_explicitMatches hRounds.asked hm
        cases hAnswer.symm.trans hError

/-- The holder of an account, which a former version calls its owner. -/
def holder : Member := ⟨.unqualified "holder", .primitive .u64, "u64", some 0⟩

/-- Accounts have one holder and a currency. -/
def account : Definition where
  id := ⟨1010⟩
  name := "Account"
  runtime := none
  members := [holder, ⟨.unqualified "currency", .primitive .u32, "u32", some 8⟩]
  laidOut := ⟨[.ofKind (.unqualified "holder") (.primitive .u64),
    .ofKind (.unqualified "currency") (.primitive .u32)], _, rfl⟩

/-- The owner of a former account. -/
def owner : Member := ⟨.unqualified "owner", .primitive .u64, "u64", some 0⟩

/-- The former holder is whoever else may use the account. -/
def formerHolder : Member := ⟨.unqualified "holder", .primitive .u64, "u64", some 8⟩

/-- Whether a former account is closed. -/
def closed : Member := ⟨.unqualified "closed", .primitive .bool, "bool", some 16⟩

/-- Accounts as they were before. -/
def formerAccount : Definition where
  id := ⟨1000⟩
  name := "Account"
  runtime := none
  members := [owner, formerHolder, closed]
  laidOut := ⟨[.ofKind (.unqualified "owner") (.primitive .u64),
    .ofKind (.unqualified "holder") (.primitive .u64),
    .ofKind (.unqualified "closed") (.primitive .bool)], _, rfl⟩

/-- The owner has become the holder, and no account is closed any more. -/
def accountMatcher : Matcher :=
  .of (.ofTable ((RenameTable.empty.insert "Account#owner" (some "#holder")).insert "#closed" none))
    TypeSimilarity.empty

/-- An entry comes before an identifier: the former holder is not the new
one. -/
theorem run_accounts_account : ∃ matching,
    accountMatcher.run formerAccount account = .ok matching ∧
      ⟨owner, some holder, .explicit⟩ ∈ matching.matched ∧
      ⟨closed, none, .deleted⟩ ∈ matching.matched ∧
      ⟨formerHolder, some holder, .exact⟩ ∉ matching.matched ∧
      (matching.matched.map Match.source ++ matching.unmatched).Perm
        [owner, formerHolder, closed] := by
  obtain ⟨matching, hRun⟩ : ∃ matching,
      accountMatcher.run formerAccount account = .ok matching := ⟨_, rfl⟩
  have hAccounts := (run_accounts accountMatcher formerAccount account).2.2 matching hRun
  have hOwner : ⟨owner, some holder, .explicit⟩ ∈ matching.matched :=
    (hAccounts.explicit owner (by simp [formerAccount]) holder).2 rfl
  refine ⟨matching, hRun, hOwner,
    (hAccounts.deleted closed (by simp [formerAccount])).2 rfl, ?_, hAccounts.once⟩
  intro hExact
  have hFree := ((hAccounts.exact formerHolder (by simp [formerAccount]) rfl holder).1 hExact).2.2
  exact hFree _ hOwner rfl rfl

end Matcher

end ObjectStore
