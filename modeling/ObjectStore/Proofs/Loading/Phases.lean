import ObjectStore.Proofs.Loading.Placing

/-!
# The phases of a load

A load that gets past the checks places all records, settles all of them and
completes all of them. The last two phases are passes over the instances of
the records, `Graph.changeAll`, and leave the identifiers alone.

## Main results

* `Loading.apply_ok`, `Loading.apply_error`: the phases of a load that
  succeeds, and where one that fails has failed.
* `Loading.keeps_apply`: what every phase keeps, a load keeps.
* `loadObjects_cases`: what a load may do, seen from outside.
* `keeps_loadObjects`: a load leaves the identifiers in order.
-/

namespace ObjectStore

namespace Loading

variable {ι : Type} {live : Live ι}

/-! ## What every phase keeps -/

/-- The state has the bindings of `live` and those that it lists, and all of
them lead to its instances. -/
structure Expands (live : Live ι) (s : State ι) : Prop where
  ids : live.ids.Grows s.bound s.live.ids
  within : s.live.ids.Within s.live.graph.size
  size : live.graph.size ≤ s.live.graph.size

theorem Expands.refl (h : live.WellFormed) : Expands live ⟨live, []⟩ :=
  ⟨ObjectIds.Grows.refl h.ids, h.within, Nat.le_refl _⟩

theorem keeps_place (live : Live ι) (p : PlannedRecord ι) :
    Attempt.Keeps (Expands live) (place p) := by
  intro s h
  obtain ⟨added, hBound, hExtends⟩ := advances_place ⟨h.ids.wellFormed, h.within⟩ p
  refine ⟨?_, hExtends.within, Nat.le_trans h.size hExtends.size⟩
  rw [hBound]
  exact h.ids.trans hExtends.ids

/-- The state with another graph. -/
def State.withGraph (s : State ι) (graph : Graph ι) : State ι :=
  ⟨⟨graph, s.live.ids⟩, s.bound⟩

/-- What looks at the graph for its size only, changing an instance keeps. -/
theorem keeps_change_of_size {P : State ι → Prop}
    (h : ∀ s g, g.size = s.live.graph.size → P s → P (s.withGraph g)) (ref : Ref)
    (attempt : Attempt ι Unit) : Attempt.Keeps P (onGraph (Graph.change ref attempt)) :=
  fun s hs => h s _ (Graph.size_change ref attempt s.live.graph) hs

theorem keeps_change (live : Live ι) (ref : Ref) (attempt : Attempt ι Unit) :
    Attempt.Keeps (Expands live) (onGraph (Graph.change ref attempt)) := by
  refine keeps_change_of_size (fun s g hSize h => ⟨h.ids, ?_, ?_⟩) ref attempt
  · show s.live.ids.Within g.size
    rw [hSize]
    exact h.within
  · show live.graph.size ≤ g.size
    rw [hSize]
    exact h.size

/-! ## The phases -/

variable [Instance ι]

/-- The records with their instances, of a pass over them. -/
abbrev Pairs (ι : Type) := List (PlannedRecord ι × Ref)

/-- What the third phase attempts on the instance of a record. -/
def settling (lookup : Lookup) (q : PlannedRecord ι × Ref) : Attempt ι Unit :=
  if q.1.existing.isSome then q.1.handler.refresh lookup q.1.record
  else q.1.handler.connect lookup q.1.record

/-- What the last phase attempts on the instance of a record. -/
def completing (q : PlannedRecord ι × Ref) : Attempt ι Unit := q.1.handler.complete

/-- The third phase, as a pass over the graph. -/
def settleAll (lookup : Lookup) (pairs : Pairs ι) : Attempt (Graph ι) Unit :=
  Graph.changeAll Prod.snd (settling lookup) pairs

/-- The last phase, as a pass over the graph. -/
def completeAll (pairs : Pairs ι) : Attempt (Graph ι) Unit :=
  Graph.changeAll Prod.snd completing pairs

variable {s s' : State ι} {planned : List (PlannedRecord ι)} {dropped : List ObjectId}
  {refs : List Ref} {e : Error} {result : Except Error Unit}

theorem start_settlePass (lookup : Lookup) (pairs : Pairs ι) :
    (pairs.forM fun (p, ref) => settle lookup p ref).start s = (result, s') ↔
      ∃ g, (settleAll lookup pairs).start s.live.graph = (result, g) ∧ s.withGraph g = s' := by
  have hPass := Attempt.start_forM_within
    (fun s : State ι => s.live.graph) (fun graph s => { s with live := { s.live with graph } })
    (fun _ _ => rfl) (fun _ _ _ => rfl) (fun _ => rfl)
    (fun q => Graph.change q.2 (settling lookup q)) pairs s
  exact Iff.trans (Eq.congr_left hPass) Attempt.start_within_eq

theorem start_completePass (pairs : Pairs ι) :
    (pairs.forM fun (p, ref) => complete p ref).start s = (result, s') ↔
      ∃ g, (completeAll pairs).start s.live.graph = (result, g) ∧ s.withGraph g = s' := by
  have hPass := Attempt.start_forM_within
    (fun s : State ι => s.live.graph) (fun graph s => { s with live := { s.live with graph } })
    (fun _ _ => rfl) (fun _ _ _ => rfl) (fun _ => rfl)
    (fun q : PlannedRecord ι × Ref => Graph.change q.2 (completing q)) pairs s
  exact Iff.trans (Eq.congr_left hPass) Attempt.start_within_eq

/-- The phases of a load that succeeds. -/
theorem apply_ok :
    (apply planned dropped).start s = (.ok refs, s') ↔
      ∃ s₁ g₂ g₃, (planned.mapM place).start s = (.ok refs, s₁) ∧
        (settleAll (resolver s₁.live.ids dropped) (planned.zip refs)).start s₁.live.graph =
          (.ok (), g₂) ∧
        (completeAll (planned.zip refs)).start g₂ = (.ok (), g₃) ∧ s₁.withGraph g₃ = s' := by
  unfold apply
  constructor
  · intro h
    obtain ⟨refs₁, s₁, hPlace, h⟩ := Attempt.start_bind_ok.1 h
    obtain ⟨s₁', s₁'', hGet, h⟩ := Attempt.start_bind_ok.1 h
    cases hGet
    obtain ⟨_, s₂, hSettle, h⟩ := Attempt.start_bind_ok.1 h
    obtain ⟨_, s₃, hComplete, h⟩ := Attempt.start_bind_ok.1 h
    cases h
    obtain ⟨g₂, hSettleAll, rfl⟩ := (start_settlePass _ _).1 hSettle
    obtain ⟨g₃, hCompleteAll, rfl⟩ := (start_completePass _).1 hComplete
    exact ⟨s₁, g₂, g₃, hPlace, hSettleAll, hCompleteAll, rfl⟩
  · rintro ⟨s₁, g₂, g₃, hPlace, hSettleAll, hCompleteAll, rfl⟩
    have hSettle := (start_settlePass _ _).2 ⟨g₂, hSettleAll, rfl⟩
    have hComplete := (start_completePass (s := s₁.withGraph g₂) _).2 ⟨g₃, hCompleteAll, rfl⟩
    refine Attempt.start_bind_ok.2 ⟨refs, s₁, hPlace, ?_⟩
    refine Attempt.start_bind_ok.2 ⟨s₁, s₁, rfl, ?_⟩
    refine Attempt.start_bind_ok.2 ⟨(), _, hSettle, ?_⟩
    exact Attempt.start_bind_ok.2 ⟨(), _, hComplete, rfl⟩

/-- Where a load has failed: at placing, at settling or at completing. -/
theorem apply_error (h : (apply planned dropped).start s = (.error e, s')) :
    (planned.mapM place).start s = (.error e, s') ∨
      ∃ refs s₁, (planned.mapM place).start s = (.ok refs, s₁) ∧ ∃ g,
        s₁.withGraph g = s' ∧
        ((settleAll (resolver s₁.live.ids dropped) (planned.zip refs)).start s₁.live.graph =
            (.error e, g) ∨
          ∃ g₂, (settleAll (resolver s₁.live.ids dropped) (planned.zip refs)).start
              s₁.live.graph = (.ok (), g₂) ∧
            (completeAll (planned.zip refs)).start g₂ = (.error e, g)) := by
  unfold apply at h
  rcases Attempt.start_bind_error.1 h with hPlace | ⟨refs, s₁, hPlace, h⟩
  · exact Or.inl hPlace
  · refine Or.inr ⟨refs, s₁, hPlace, ?_⟩
    rcases Attempt.start_bind_error.1 h with hGet | ⟨s₁', s₁'', hGet, h⟩
    · cases hGet
    · cases hGet
      rcases Attempt.start_bind_error.1 h with hSettle | ⟨_, s₂, hSettle, h⟩
      · obtain ⟨g, hSettleAll, hState⟩ := (start_settlePass _ _).1 hSettle
        exact ⟨g, hState, Or.inl hSettleAll⟩
      · obtain ⟨g₂, hSettleAll, rfl⟩ := (start_settlePass _ _).1 hSettle
        rcases Attempt.start_bind_error.1 h with hComplete | ⟨_, s₃, hComplete, h⟩
        · obtain ⟨g, hCompleteAll, hState⟩ := (start_completePass _).1 hComplete
          exact ⟨g, hState, Or.inr ⟨g₂, hSettleAll, hCompleteAll⟩⟩
        · cases h

/-- What placing a record and changing an instance keep, the phases keep. -/
theorem keeps_apply {P : State ι → Prop} (planned : List (PlannedRecord ι))
    (dropped : List ObjectId) (hPlace : ∀ p ∈ planned, Attempt.Keeps P (place p))
    (hChange : ∀ ref (attempt : Attempt ι Unit),
      Attempt.Keeps P (onGraph (Graph.change ref attempt))) :
    Attempt.Keeps P (apply planned dropped) := by
  refine (Attempt.keeps_mapM hPlace).bind fun refs => ?_
  refine Attempt.Keeps.bind (fun s h => h) fun s => ?_
  refine (Attempt.keeps_forM fun q _ => hChange q.2 _).bind fun _ => ?_
  refine (Attempt.keeps_forM fun q _ => hChange q.2 _).bind fun _ => ?_
  exact Attempt.keeps_pure refs

end Loading

open Loading

variable {ι : Type} [Instance ι] {registry : Registry ι} {matcher : Option Matcher} {bytes : Bytes}
  {live live' : Live ι}

/-- A load is refused at once, or it runs through its phases. If these fail,
it is rolled back. -/
theorem loadObjects_cases {result : Except Error (List Ref)}
    (h : (loadObjects registry matcher bytes).start live = (result, live')) :
    (∃ e, prepare registry matcher live.ids bytes = .error e ∧ result = .error e ∧ live' = live) ∨
      ∃ planned dropped s, prepare registry matcher live.ids bytes = .ok (planned, dropped) ∧
        (((apply planned dropped).start ⟨live, []⟩ = (result, s) ∧ (∃ refs, result = .ok refs) ∧
            live' = s.live) ∨
          (apply planned dropped).start ⟨live, []⟩ = (result, s) ∧ (∃ e, result = .error e) ∧
            live' = rollBack live s) := by
  simp only [loadObjects, Attempt.start_of] at h
  cases hPrepare : prepare registry matcher live.ids bytes with
  | error e =>
      simp only [hPrepare] at h
      obtain ⟨rfl, rfl⟩ := Prod.mk.inj h
      exact Or.inl ⟨e, rfl, rfl, rfl⟩
  | ok prepared =>
      obtain ⟨planned, dropped⟩ := prepared
      simp only [hPrepare] at h
      split at h
      · rename_i refs s hApply
        obtain ⟨rfl, rfl⟩ := Prod.mk.inj h
        exact Or.inr ⟨planned, dropped, s, rfl, Or.inl ⟨hApply, ⟨refs, rfl⟩, rfl⟩⟩
      · rename_i e s hApply
        obtain ⟨rfl, rfl⟩ := Prod.mk.inj h
        exact Or.inr ⟨planned, dropped, s, rfl, Or.inr ⟨hApply, ⟨e, rfl⟩, rfl⟩⟩

theorem loadObjects_eq_ok {refs : List Ref} :
    (loadObjects registry matcher bytes).start live = (.ok refs, live') ↔
      ∃ planned dropped s, prepare registry matcher live.ids bytes = .ok (planned, dropped) ∧
        (apply planned dropped).start ⟨live, []⟩ = (.ok refs, s) ∧ live' = s.live := by
  constructor
  · intro h
    rcases loadObjects_cases h with
      ⟨e, -, hError, -⟩ | ⟨planned, dropped, s, hPrepare, ⟨hApply, -, rfl⟩ | ⟨-, ⟨e, hError⟩, -⟩⟩
    · cases hError
    · exact ⟨planned, dropped, s, hPrepare, hApply, rfl⟩
    · cases hError
  · rintro ⟨planned, dropped, s, hPrepare, hApply, rfl⟩
    simp only [loadObjects, Attempt.start_of, hPrepare, hApply]

/-- A load, whether it succeeds or not, adds bindings and instances and takes
none away. -/
theorem expands_loadObjects (h : live.WellFormed) {result : Except Error (List Ref)}
    (hLoad : (loadObjects registry matcher bytes).start live = (result, live')) :
    ∃ bound, Expands live ⟨live', bound⟩ := by
  rcases loadObjects_cases hLoad with ⟨-, -, -, rfl⟩ | ⟨planned, dropped, s, -, hPhases⟩
  · exact ⟨[], Expands.refl h⟩
  · have hExpands := keeps_apply planned dropped (fun p _ => keeps_place live p)
      (keeps_change live) ⟨live, []⟩ (Expands.refl h)
    rcases hPhases with ⟨hApply, -, rfl⟩ | ⟨hApply, -, rfl⟩
    · rw [hApply] at hExpands
      exact ⟨s.bound, hExpands⟩
    · rw [hApply] at hExpands
      have hIds : (rollBack live s).ids = live.ids :=
        ObjectIds.release_of_grows h.ids hExpands.ids
      have hSize : (rollBack live s).graph.size = live.graph.size := by
        have hLe : live.graph.size ≤ s.live.graph.size := hExpands.size
        rw [rollBack, Graph.size_truncate]
        omega
      refine ⟨[], ?_, ?_, Nat.le_of_eq hSize.symm⟩
      · show live.ids.Grows [] (rollBack live s).ids
        rw [hIds]
        exact ObjectIds.Grows.refl h.ids
      · show (rollBack live s).ids.Within (rollBack live s).graph.size
        rw [hIds, hSize]
        exact h.within

/-- A load leaves the identifiers in order, whether it succeeds or not. -/
theorem keeps_loadObjects (registry : Registry ι) (matcher : Option Matcher) (bytes : Bytes) :
    Attempt.Keeps Live.WellFormed (loadObjects registry matcher bytes) := by
  intro live h
  obtain ⟨bound, hExpands⟩ := expands_loadObjects h
    (rfl : (loadObjects registry matcher bytes).start live = _)
  exact ⟨hExpands.ids.wellFormed, hExpands.within⟩

end ObjectStore
