import Mathlib.Data.List.Pairwise
import ObjectStore.Proofs.Layout.Derivation
import ObjectStore.Refactoring.Matching

/-!
# Choosing among candidates

Pairs of members that are alike enough are candidates. They are put in order,
the highest score first, then as the legacy members are stored, and then as
the current ones are. The greedy choice walks along that order and leaves out
a candidate only if one side of it was taken by another one before. So what is
left out always has a reason, which stands in front of it, and no two
candidates that are taken share a side.

## Main results

* `pairwise_mergeSort`: a stable sort keeps the former order where it does not
  sort.
* `Matching.pairwise_candidates`: the order of the candidates.
* `Matching.greedy_or_rival`: why a candidate is left out.
* `Matching.pairwise_greedy`: those that are taken are apart.
-/

namespace ObjectStore

/-! ## Sorting -/

/-- A stable sort leaves elements in their former order, unless it has to put
them in another one. -/
theorem pairwise_mergeSort {α : Type} {le : α → α → Bool} {R : α → α → Prop} {as : List α}
    (hTrans : ∀ a b c, le a b = true → le b c = true → le a c = true)
    (hTotal : ∀ a b, (le a b || le b a) = true) (h : as.Pairwise R) :
    (as.mergeSort le).Pairwise fun a b => le a b = true ∧ (le b a = true → R a b) := by
  induction as with
  | nil => simp
  | cons a rest ih =>
      obtain ⟨hHead, hRest⟩ := List.pairwise_cons.1 h
      -- The first element goes behind those that are strictly less.
      obtain ⟨front, back, hAll, hBoth, hFront⟩ := List.mergeSort_cons hTrans hTotal a rest
      have hSorted := List.pairwise_mergeSort hTrans hTotal (a :: rest)
      have hOrdered := ih hRest
      rw [hAll] at hSorted ⊢
      rw [hBoth] at hOrdered
      have hMem : ∀ b, b ∈ back → b ∈ rest := by
        intro b hb
        refine List.mem_mergeSort.1 (?_ : b ∈ rest.mergeSort le)
        rw [hBoth]
        exact List.mem_append_right _ hb
      obtain ⟨hOrderedFront, hOrderedBack, hAcross⟩ := List.pairwise_append.1 hOrdered
      obtain ⟨-, hSortedBack, hSortedAcross⟩ := List.pairwise_append.1 hSorted
      obtain ⟨hBehind, -⟩ := List.pairwise_cons.1 hSortedBack
      refine List.pairwise_append.2 ⟨hOrderedFront, List.pairwise_cons.2 ⟨?_, hOrderedBack⟩, ?_⟩
      · intro b hb
        exact ⟨hBehind b hb, fun _ => hHead b (hMem b hb)⟩
      · intro b hb c hc
        rcases List.mem_cons.1 hc with rfl | hIn
        · refine ⟨hSortedAcross b hb _ List.mem_cons_self, fun hLess => ?_⟩
          have hNot := hFront b hb
          rw [hLess] at hNot
          cases hNot
        · exact hAcross b hb c hIn

/-- The members of a definition are distinct. -/
theorem Definition.nodup_members (d : Definition) : d.members.Nodup :=
  List.Pairwise.of_map Member.id (fun _ _ hIds hSame => hIds (congrArg Member.id hSame))
    d.laidOut_members.2.2

namespace Matching

variable {matcher : Matcher} {source target : Definition} {sources targets : List Member}
  {taken cs : List Candidate} {c : Candidate}

/-! ## The order of candidates -/

/-- The legacy member of one candidate is stored before that of the other, or
they have one legacy member and its current member is stored before. -/
def StoredBefore (source target : Definition) (a b : Candidate) : Prop :=
  source.members.idxOf a.source < source.members.idxOf b.source ∨
    a.source = b.source ∧ target.members.idxOf a.target < target.members.idxOf b.target

/-- One candidate stands in front of the other: its score is higher, or it is
the same and its members are stored before. -/
def Precedes (source target : Definition) (a b : Candidate) : Prop :=
  scoreRank b.score < scoreRank a.score ∨
    scoreRank a.score = scoreRank b.score ∧ StoredBefore source target a b

/-- Distinct elements stand in the order of their positions. -/
theorem pairwise_idxOf {ms : List Member} (h : ms.Nodup) :
    ms.Pairwise fun a b => ms.idxOf a < ms.idxOf b := by
  rw [List.pairwise_iff_getElem]
  intro i j hi hj hLt
  rw [h.idxOf_getElem i hi, h.idxOf_getElem j hj]
  exact hLt

theorem mem_candidates : c ∈ candidates matcher sources targets ↔
    c.source ∈ sources ∧ c.target ∈ targets ∧
      c.score = matcher.score c.source c.target ∧ matcher.threshold ≤ c.score := by
  unfold candidates
  simp only [List.mem_mergeSort, List.mem_filter, List.mem_flatMap, List.mem_map,
    decide_eq_true_eq]
  constructor
  · rintro ⟨⟨s, hs, t, ht, rfl⟩, hClose⟩
    exact ⟨hs, ht, rfl, hClose⟩
  · rintro ⟨hs, ht, hScore, hClose⟩
    refine ⟨⟨c.source, hs, c.target, ht, ?_⟩, hClose⟩
    rw [← hScore]

theorem pairwise_pairs (score : Member → Member → Float)
    (hSources : sources.Sublist source.members) (hTargets : targets.Sublist target.members) :
    (sources.flatMap fun s => targets.map fun t => Candidate.mk (score s t) s t).Pairwise
      (StoredBefore source target) := by
  have hSourceOrder := (pairwise_idxOf source.nodup_members).sublist hSources
  have hTargetOrder := (pairwise_idxOf target.nodup_members).sublist hTargets
  refine List.pairwise_flatMap.2 ⟨?_, ?_⟩
  · intro s _
    exact List.pairwise_map.2 (hTargetOrder.imp fun hLt => Or.inr ⟨rfl, hLt⟩)
  · refine hSourceOrder.imp fun hLt => ?_
    intro a ha b hb
    obtain ⟨t, -, rfl⟩ := List.mem_map.1 ha
    obtain ⟨t', -, rfl⟩ := List.mem_map.1 hb
    exact Or.inl hLt

/-- The candidates stand in their order. -/
theorem pairwise_candidates (hSources : sources.Sublist source.members)
    (hTargets : targets.Sublist target.members) :
    (candidates matcher sources targets).Pairwise (Precedes source target) := by
  have hPairs := (pairwise_pairs matcher.score hSources hTargets).filter
    fun c => matcher.threshold ≤ c.score
  refine (pairwise_mergeSort ?_ ?_ hPairs).imp ?_
  · intro a b c hab hbc
    rw [decide_eq_true_eq] at hab hbc ⊢
    exact Nat.le_trans hbc hab
  · intro a b
    rw [Bool.or_eq_true, decide_eq_true_eq, decide_eq_true_eq]
    exact Nat.le_total _ _
  · rintro a b ⟨hLe, hTie⟩
    rw [decide_eq_true_eq] at hLe hTie
    rcases Nat.lt_or_eq_of_le hLe with hLt | hSame
    · exact Or.inl hLt
    · exact Or.inr ⟨hSame.symm, hTie (Nat.le_of_eq hSame.symm)⟩

/-! ## The greedy choice -/

/-- The candidates have the legacy or the current member in common. -/
def Rivals (a b : Candidate) : Prop := a.source = b.source ∨ a.target = b.target

theorem any_rival : (taken.any fun t => t.source = c.source || t.target = c.target) = true ↔
    ∃ t ∈ taken, Rivals t c := by
  simp [Rivals]

/-- A candidate that is left out has a rival in front of it that is taken. -/
theorem greedy_or_rival {R : Candidate → Candidate → Prop} (hOrder : cs.Pairwise R)
    (h : c ∈ cs) :
    c ∈ greedy taken cs ∨ (∃ t ∈ taken, Rivals t c) ∨
      ∃ g ∈ greedy taken cs, R g c ∧ Rivals g c := by
  fun_induction greedy taken cs with
  | case1 => cases h
  | case2 taken head rest hTaken ih =>
      obtain ⟨-, hRest⟩ := List.pairwise_cons.1 hOrder
      rcases List.mem_cons.1 h with rfl | hIn
      · exact Or.inr (Or.inl (any_rival.1 hTaken))
      · exact ih hRest hIn
  | case3 taken head rest hFree ih =>
      obtain ⟨hHead, hRest⟩ := List.pairwise_cons.1 hOrder
      rcases List.mem_cons.1 h with rfl | hIn
      · exact Or.inl List.mem_cons_self
      · rcases ih hRest hIn with hChosen | ⟨t, ht, hRival⟩ | ⟨g, hg, hFirst, hRival⟩
        · exact Or.inl (List.mem_cons_of_mem _ hChosen)
        · -- The rival was taken before, or it has just been.
          rcases List.mem_cons.1 ht with rfl | hBefore
          · exact Or.inr (Or.inr ⟨t, List.mem_cons_self, hHead c hIn, hRival⟩)
          · exact Or.inr (Or.inl ⟨t, hBefore, hRival⟩)
        · exact Or.inr (Or.inr ⟨g, List.mem_cons_of_mem _ hg, hFirst, hRival⟩)

theorem not_rival_of_mem_greedy (h : c ∈ greedy taken cs) : ∀ t ∈ taken, ¬Rivals t c := by
  fun_induction greedy taken cs with
  | case1 => cases h
  | case2 taken head rest _ ih => exact ih h
  | case3 taken head rest hFree ih =>
      intro t ht hRival
      rcases List.mem_cons.1 h with rfl | hIn
      · exact hFree (any_rival.2 ⟨t, ht, hRival⟩)
      · exact ih hIn t (List.mem_cons_of_mem _ ht) hRival

/-- No two candidates that are taken are rivals. -/
theorem pairwise_greedy : (greedy taken cs).Pairwise fun a b => ¬Rivals a b := by
  fun_induction greedy taken cs with
  | case1 => exact List.Pairwise.nil
  | case2 taken head rest _ ih => exact ih
  | case3 taken head rest _ ih =>
      refine List.pairwise_cons.2 ⟨?_, ih⟩
      intro c hc
      exact not_rival_of_mem_greedy hc head List.mem_cons_self

theorem Rivals.symm {a b : Candidate} (h : Rivals a b) : Rivals b a := h.imp Eq.symm Eq.symm

theorem eq_of_rivals {a b : Candidate} (ha : a ∈ greedy taken cs) (hb : b ∈ greedy taken cs)
    (h : Rivals a b) : a = b := by
  have hSymm : Std.Symm fun a b : Candidate => Rivals a b → a = b :=
    ⟨fun _ _ hSame hRivals => (hSame hRivals.symm).symm⟩
  have hApart : (greedy taken cs).Pairwise fun a b => Rivals a b → a = b :=
    pairwise_greedy.imp fun hNot hRivals => absurd hRivals hNot
  exact hApart.forall_of_forall (fun _ _ _ => rfl) ha hb h

end Matching

end ObjectStore
