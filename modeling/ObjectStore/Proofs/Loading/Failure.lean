import ObjectStore.Proofs.Handler.Slots
import ObjectStore.Proofs.Loading.Phases

/-!
# What a failed load leaves behind

A load that fails gives back all that it has added: afterwards there are the
same instances as before, bound to the same identifiers. Whether the
instances are as they were depends on the phase that failed. Checking and
placing touch no instance that was live. Settling and completing do, and
what they have set stays: an object of the chunk that was live before holds
what its record says if the load came as far as its record. It may then
refer to instances that are not there any more.

## Main results

* `loadObjects_error`: the state after a failed load.
-/

namespace ObjectStore

variable {ι : Type}

/-! ## Instances that were live before -/

namespace Loading

/-- The instances of the records `done` that were live before have been
changed, and all others are as they were. -/
structure OnlyChanged (change : PlannedRecord ι → ι → ι) (done : List (PlannedRecord ι))
    (before after : Graph ι) : Prop where
  size : after.size = before.size
  changed : ∀ p ∈ done, ∀ ref x, p.existing = some ref → before.get? ref = some x →
    after.get? ref = some (change p x)
  others : ∀ ref, (∀ p ∈ done, p.existing ≠ some ref) → after.get? ref = before.get? ref

variable {g₀ g₁ g₂ : Graph ι}

/-- The records of the pairs have their instances in the graph `g₁`. Those that
were live before are at the same positions of the former graph `g₀`, and
behind it are the others. -/
structure Situated (pairs : Pairs ι) (g₀ g₁ : Graph ι) : Prop where
  size : g₀.size ≤ g₁.size
  kept : ∀ ref : Ref, ref.index < g₀.size → g₁.get? ref = g₀.get? ref
  distinct : (pairs.map Prod.snd).Nodup
  inside : ∀ q ∈ pairs, q.2.index < g₁.size
  former : ∀ q ∈ pairs, ∀ ref, q.1.existing = some ref → ref = q.2
  created : ∀ q ∈ pairs, q.1.existing = none → g₀.size ≤ q.2.index

theorem situated_of_placed {live : Live ι} {s : State ι} {planned : List (PlannedRecord ι)}
    {refs : List Ref} (hExtends : live.Extends s.bound s.live)
    (hNodup : (planned.map (·.record.object)).Nodup)
    (hPlaced : List.Forall₂ (Placed live s) planned refs) :
    Situated (planned.zip refs) live.graph s.live.graph := by
  obtain ⟨-, -, hZip⟩ := placed_zip hPlaced
  exact ⟨hExtends.size, hExtends.kept, distinct_of_placed hExtends.ids.wellFormed hNodup hPlaced,
    fun q hq => hExtends.within _ _ (hZip q hq).bound, fun q hq => (hZip q hq).existing,
    fun q hq hNone => ((hZip q hq).created hNone).1⟩

/-- A pass over some of the instances is seen from the former graph only at
the records that had an instance before. -/
theorem Situated.onlyChanged {attempt : PlannedRecord ι × Ref → Attempt ι Unit}
    {change : PlannedRecord ι → ι → ι} {pairs done : Pairs ι} (h : Situated pairs g₀ g₁)
    (hDone : done ⊆ pairs)
    (hAttempt : ∀ q, q.1.existing.isSome = true → ∀ x, ((attempt q).start x).2 = change q.1 x)
    (hChanged : Graph.Changed Prod.snd attempt done g₁ g₂) :
    OnlyChanged change (done.map Prod.fst) g₀ (g₂.truncate g₀.size) where
  size := by
    rw [Graph.size_truncate, hChanged.size]
    exact Nat.min_eq_left h.size
  changed := by
    intro p hp ref x hExisting hGet
    obtain ⟨q, hq, rfl⟩ := List.mem_map.1 hp
    have hRef := h.former q (hDone hq) ref hExisting
    have hLt := Graph.lt_size_of_get? hGet
    have hBefore : g₁.get? q.2 = some x := by
      rw [← hRef, h.kept ref hLt, hGet]
    rw [Graph.get?_truncate hLt, hRef, hChanged.done q hq x hBefore,
      hAttempt q (by simp [hExisting])]
  others := by
    intro ref hOther
    by_cases hLt : ref.index < g₀.size
    · rw [Graph.get?_truncate hLt, hChanged.others, h.kept ref hLt]
      intro q hq hEq
      cases hExisting : q.1.existing with
      | some ref' =>
          have hSame := h.former q (hDone hq) ref' hExisting
          refine hOther q.1 (List.mem_map_of_mem hq) ?_
          rw [hExisting, hSame, hEq]
      | none =>
          have hNew := h.created q (hDone hq) hExisting
          rw [hEq] at hNew
          omega
    · have hOutside : (g₂.truncate g₀.size).size ≤ ref.index := by
        rw [Graph.size_truncate]
        omega
      rw [Graph.get?_eq_none hOutside, Graph.get?_eq_none (by omega)]

/-- After a pass over the instances, the former ones are in front as well. -/
theorem Situated.after {pairs : Pairs ι} (h : Situated pairs g₀ g₁) (hSize : g₂.size = g₁.size) :
    Situated pairs (g₂.truncate g₀.size) g₂ := by
  have hFormer : (g₂.truncate g₀.size).size = g₀.size := by
    rw [Graph.size_truncate, hSize]
    exact Nat.min_eq_left h.size
  refine ⟨?_, ?_, h.distinct, ?_, h.former, ?_⟩
  · rw [hFormer, hSize]
    exact h.size
  · intro ref hLt
    rw [hFormer] at hLt
    exact (Graph.get?_truncate hLt).symm
  · intro q hq
    rw [hSize]
    exact h.inside q hq
  · intro q hq hNone
    rw [hFormer]
    exact h.created q hq hNone

/-! ## The state after a failure -/

variable [Instance ι]

/-- What the third phase makes of an instance that was live before, also if it
fails there. -/
def refreshed (lookup : Lookup) (p : PlannedRecord ι) (x : ι) : ι :=
  ((p.handler.refresh lookup p.record).start x).2

/-- What the last phase makes of an instance, also if it fails there. -/
def completed (p : PlannedRecord ι) (x : ι) : ι := (p.handler.complete.start x).2

/-- How far a load has come that fails with `e` after all records have been
placed. The records with their instances are `pairs`, and the graph in which
they were placed is `placed`. -/
inductive Interrupted (lookup : Lookup) (pairs : Pairs ι) (placed : Graph ι) (e : Error)
    (before after : Graph ι) : Prop where
  /-- The references of `q` cannot be set. Those of the records in front of it
  have been set. -/
  | settling (front : Pairs ι) (q : PlannedRecord ι × Ref) (rest : Pairs ι) :
      pairs = front ++ q :: rest →
      Graph.Stops Prod.snd (Loading.settling lookup) front q e placed →
      OnlyChanged (refreshed lookup) ((front ++ [q]).map Prod.fst) before after →
        Interrupted lookup pairs placed e before after
  /-- All references have been set, which has given the graph `settled`. The
  instance of `q` cannot be completed, and those in front of it have been. -/
  | completing (front : Pairs ι) (q : PlannedRecord ι × Ref) (rest : Pairs ι)
      (settled : Graph ι) :
      pairs = front ++ q :: rest →
      (settleAll lookup pairs).start placed = (.ok (), settled) →
      Graph.Stops Prod.snd Loading.completing front q e settled →
      OnlyChanged (refreshed lookup) (pairs.map Prod.fst) before
        (settled.truncate before.size) →
      OnlyChanged completed ((front ++ [q]).map Prod.fst) (settled.truncate before.size) after →
        Interrupted lookup pairs placed e before after

theorem Interrupted.size {lookup : Lookup} {pairs : Pairs ι} {placed before after : Graph ι}
    {e : Error} (h : Interrupted lookup pairs placed e before after) :
    after.size = before.size := by
  cases h with
  | settling front q rest _ _ hChanged => exact hChanged.size
  | completing front q rest settled _ _ _ hSettled hChanged =>
      exact hChanged.size.trans hSettled.size

namespace Situated

variable {lookup : Lookup} {pairs : Pairs ι} {before placed settled g : Graph ι} {e : Error}

theorem settling_eq (q : PlannedRecord ι × Ref) (hLive : q.1.existing.isSome = true) (x : ι) :
    ((settling lookup q).start x).2 = refreshed lookup q.1 x := by
  simp only [settling, hLive, if_true, refreshed]

/-- The third phase has changed the former instances up to the record at which
it fails. -/
theorem settleAll_error (h : Situated pairs before placed)
    (hSettle : (settleAll lookup pairs).start placed = (.error e, g)) :
    Interrupted lookup pairs placed e before (g.truncate before.size) := by
  obtain ⟨front, q, rest, rfl, hStops, hChanged⟩ :=
    Graph.changeAll_error h.distinct h.inside hSettle
  refine Interrupted.settling front q rest rfl hStops (h.onlyChanged ?_ settling_eq hChanged)
  rw [List.append_cons front q rest]
  exact List.subset_append_left _ _

/-- The last phase comes on top of the third one, which has changed all of the
former instances that have a record. -/
theorem completeAll_error (h : Situated pairs before placed)
    (hSettle : (settleAll lookup pairs).start placed = (.ok (), settled))
    (hComplete : (completeAll pairs).start settled = (.error e, g)) :
    Interrupted lookup pairs placed e before (g.truncate before.size) := by
  have hSettled := (Graph.changeAll_ok h.distinct hSettle).1
  have hMiddle := h.onlyChanged (List.Subset.refl _) settling_eq hSettled
  have hAfter := h.after hSettled.size
  obtain ⟨front, q, rest, hSplit, hStops, hChanged⟩ :=
    Graph.changeAll_error hAfter.distinct hAfter.inside hComplete
  have hDone : front ++ [q] ⊆ pairs := by
    rw [hSplit, List.append_cons front q rest]
    exact List.subset_append_left _ _
  have hLast : OnlyChanged completed ((front ++ [q]).map Prod.fst) _
      (g.truncate (settled.truncate before.size).size) :=
    hAfter.onlyChanged hDone (fun _ _ _ => rfl) hChanged
  rw [hMiddle.size] at hLast
  exact Interrupted.completing front q rest settled hSplit hSettle hStops hMiddle hLast

end Situated

end Loading

open Loading

variable [Instance ι] {registry : Registry ι} {matcher : Option Matcher} {bytes : Bytes}
  {live live' : Live ι} {e : Error}

/-- A load that fails gives back all instances and identifiers. It changes
the instances that were live before only in the phases in which references
are set and hooks are run, and then only those of the records up to the one
that it fails at: the first whose references cannot be set or, if all can,
the first whose instance cannot be completed. -/
theorem loadObjects_error (hLive : live.WellFormed)
    (h : (loadObjects registry matcher bytes).start live = (.error e, live')) :
    live'.ids = live.ids ∧ live'.graph.size = live.graph.size ∧
      ((∀ planned dropped refs s,
          prepare registry matcher live.ids bytes = .ok (planned, dropped) →
          (planned.mapM place).start ⟨live, []⟩ ≠ (.ok refs, s)) → live' = live) ∧
      ∀ planned dropped refs s, prepare registry matcher live.ids bytes = .ok (planned, dropped) →
        (planned.mapM place).start ⟨live, []⟩ = (.ok refs, s) →
        (∀ p ∈ planned, p.existing = live.ids.ref? p.record.object) ∧
          List.Forall₂ (Placed live s) planned refs ∧
          Interrupted (resolver s.live.ids dropped) (planned.zip refs) s.live.graph e live.graph
            live'.graph := by
  rcases loadObjects_cases h with
    ⟨e', hPrepare, -, rfl⟩ | ⟨planned, dropped, s', hPrepare, ⟨-, ⟨refs, hOk⟩, -⟩ | ⟨hApply, -, rfl⟩⟩
  · refine ⟨rfl, rfl, fun _ => rfl, ?_⟩
    intro planned dropped refs s hOk
    rw [hPrepare] at hOk
    cases hOk
  · cases hOk
  · obtain ⟨chunk, -, -, hPlan, -⟩ := prepare_eq_ok hPrepare
    obtain ⟨-, -, hNodup, hChecked⟩ := plan_eq_ok hPlan
    have hAdvances := advances_placeAll (s := ⟨live, []⟩) hLive planned
    -- Whatever has been placed is given back; only after that instances change.
    have hRestored := rollBack_of_advances hLive hAdvances
    rcases apply_error hApply with hPlace | ⟨refs, s, hPlace, g, rfl, hPhases⟩
    · rw [hPlace] at hRestored
      refine ⟨congrArg Live.ids hRestored, congrArg (·.graph.size) hRestored,
        fun _ => hRestored, ?_⟩
      intro planned' dropped' refs s hOk hPlaced
      rw [hPrepare] at hOk
      cases hOk
      rw [hPlace] at hPlaced
      cases hPlaced
    · rw [hPlace] at hAdvances hRestored
      obtain ⟨added, hBound, hExtends⟩ := hAdvances
      have hAdded : s.bound = added := by simpa using hBound
      rw [← hAdded] at hExtends
      have hPlaced := placed_placeAll (s := ⟨live, []⟩) hLive
        (fun p hp ref hRef => (hChecked p hp).existing ▸ hRef) hPlace
      have hSituated := situated_of_placed hExtends hNodup hPlaced
      have hInterrupted : Interrupted (resolver s.live.ids dropped) (planned.zip refs)
          s.live.graph e live.graph (g.truncate live.graph.size) := by
        rcases hPhases with hSettle | ⟨settled, hSettle, hComplete⟩
        · exact hSituated.settleAll_error hSettle
        · exact hSituated.completeAll_error hSettle hComplete
      have hIds : s.live.ids.release s.bound live.ids.next = live.ids :=
        congrArg Live.ids hRestored
      refine ⟨hIds, hInterrupted.size, ?_, ?_⟩
      · intro hNever
        exact absurd hPlace (hNever planned dropped refs s hPrepare)
      · intro planned' dropped' refs' s' hOk hPlaced'
        rw [hPrepare] at hOk
        cases hOk
        rw [hPlace] at hPlaced'
        cases hPlaced'
        exact ⟨fun p hp => (hChecked p hp).existing, hPlaced, hInterrupted⟩

/-! ## A reload that fails -/

namespace Slots

/-- One person, who is the first object. -/
def alone : Live Slots where
  graph := ⟨#[blank ⟨"Person"⟩]⟩
  ids := ((ObjectIds.bind ObjectId.first ⟨0⟩).start ObjectIds.empty).2

theorem wellFormed_alone : alone.WellFormed := by
  have hEmpty : (⟨Graph.empty, ObjectIds.empty⟩ : Live Slots).WellFormed :=
    Live.wellFormed_empty _
  have hBind : (ObjectIds.bind ObjectId.first ⟨0⟩).start ObjectIds.empty =
      (.ok (), alone.ids) := rfl
  exact (hEmpty.extends_bind (blank ⟨"Person"⟩) hBind).wellFormed

/-- The first object is five years old and has the second for a friend, whose
own friend has no record. -/
def strangers : List (PlannedRecord Slots) :=
  [⟨⟨⟨1000⟩, ⟨1⟩, [5, 0, 0, 0, 2, 0, 0, 0, 0, 0, 0, 0]⟩, .object person, some ⟨0⟩⟩,
    ⟨⟨⟨1000⟩, ⟨2⟩, [7, 0, 0, 0, 99, 0, 0, 0, 0, 0, 0, 0]⟩, .object person, none⟩]

theorem prepare_strangers :
    prepare people none alone.ids (Chunk.join (strangers.map (·.record))) =
      .ok (strangers, []) := by
  have hEach : ∀ p ∈ strangers, p.record.content.length = 12 ∧ Checked people alone.ids p := by
    intro p hp
    simp only [strangers, List.mem_cons, List.not_mem_nil, or_false] at hp
    rcases hp with rfl | rfl
    · exact ⟨rfl, rfl, ⟨_, rfl⟩, by decide, rfl⟩
    · exact ⟨rfl, rfl, ⟨_, rfl⟩, by decide, rfl⟩
  apply prepare_join
  · intro p hp
    rw [Chunk.Acceptable, (hEach p hp).1]
    decide
  · decide
  · exact fun p hp => (hEach p hp).2

/-- What becomes of the first object when both records are loaded. -/
def reload : Except Error (List Ref) × Live Slots :=
  (loadObjects people none (Chunk.join (strangers.map (·.record)))).start alone

theorem reload_eq : reload.1 = .error (.unresolvedReference ⟨99⟩) := by
  simp only [reload, loadObjects, Attempt.start_of, prepare_strangers]
  rfl

/-- A load that fails may leave an instance with what its record says, and
with a friend that is not there. -/
theorem loadObjects_error_changes :
    alone.WellFormed ∧ reload.1 = .error (.unresolvedReference ⟨99⟩) ∧ reload.2.graph.size = 1 ∧
      ∃ x y, alone.graph.get? ⟨0⟩ = some x ∧ reload.2.graph.get? ⟨0⟩ = some y ∧
        x.primitive .u32 "age" = (0 : UInt32) ∧ y.primitive .u32 "age" = (5 : UInt32) ∧
        x.value .reference "friend" = .reference none ∧
        y.value .reference "friend" = .reference (some ⟨1⟩) := by
  refine ⟨wellFormed_alone, reload_eq, ?_⟩
  simp only [reload, loadObjects, Attempt.start_of, prepare_strangers]
  exact ⟨rfl, _, _, rfl, rfl, rfl, rfl, rfl, rfl⟩

/-- Both records have got an instance when the load fails. -/
def placedStrangers : State Slots := ((strangers.mapM place).start ⟨alone, []⟩).2

/-- The references of the first person are set, and those of the second
cannot be. -/
theorem loadObjects_error_reload :
    alone.WellFormed ∧
      (loadObjects people none (Chunk.join (strangers.map (·.record)))).start alone =
        (.error (.unresolvedReference ⟨99⟩), reload.2) ∧
      reload.2.ids = alone.ids ∧ reload.2.graph.size = alone.graph.size ∧
      Interrupted (resolver placedStrangers.live.ids []) (strangers.zip [⟨0⟩, ⟨1⟩])
        placedStrangers.live.graph (.unresolvedReference ⟨99⟩) alone.graph reload.2.graph := by
  have hRun : (loadObjects people none (Chunk.join (strangers.map (·.record)))).start alone =
      (.error (.unresolvedReference ⟨99⟩), reload.2) := Prod.ext reload_eq rfl
  have hPlace : (strangers.mapM place).start ⟨alone, []⟩ = (.ok [⟨0⟩, ⟨1⟩], placedStrangers) := rfl
  obtain ⟨hIds, hSize, -, hFails⟩ := loadObjects_error wellFormed_alone hRun
  obtain ⟨-, -, hInterrupted⟩ := hFails _ _ _ _ prepare_strangers hPlace
  exact ⟨wellFormed_alone, hRun, hIds, hSize, hInterrupted⟩

end Slots

end ObjectStore
