import ObjectStore.Proofs.Identity.Calls
import ObjectStore.Proofs.Loading.Failure
import ObjectStore.Proofs.Storing.Chunk

/-!
# Failed operations give back their identifiers

A store or a load that fails leaves the identifier table as it was, in both
maps and in the counter. This does not need a table that is a bijection. What
it needs is that the counter is above all bound identifiers, which is true of
every table that a program can have, and, for a load, that no instance is
bound that the graph does not have: the instances that the load creates have
no identifiers then.

`Use` lists what a program can do with a table. It may pass the table to
operations on any registry and any graph, also on one that the table was not
made for.

## Main results

* `ObjectIds.ordered_useAll`: the counter of every table is above what is
  bound.
* `useAll_undone`: failed operations give back what they have added.
-/

namespace ObjectStore

open Loading

variable {ι : Type}

namespace Loading

/-! ## What the steps of a load add -/

/-- The state has added to the table exactly the identifiers that it lists. -/
def Accounts (live : Live ι) (s : State ι) : Prop := live.ids.Adds s.bound s.live.ids

theorem accounts_place (live : Live ι) (p : PlannedRecord ι) :
    Attempt.Keeps (Accounts live) (place p) :=
  keeps_place_of_steps (fun _ _ h => h) fun _ _ h hNull hFree =>
    ObjectIds.Adds.extend h hFree (h.ordered.extend_above _ hNull)

/-- The instances of the added identifiers had none before, and all bound
instances are in the graph. -/
structure AccountsNew (live : Live ι) (s : State ι) : Prop where
  ids : live.ids.AddsNew s.bound s.live.ids
  inside : ∀ ref id, s.live.ids.objectId? ref = some id → ref.index < s.live.graph.size
  size : live.graph.size ≤ s.live.graph.size

variable {live : Live ι}

theorem AccountsNew.refl (hIds : live.ids.Ordered)
    (hInside : ∀ ref id, live.ids.objectId? ref = some id → ref.index < live.graph.size) :
    AccountsNew live ⟨live, []⟩ :=
  ⟨ObjectIds.AddsNew.refl hIds, hInside, Nat.le_refl _⟩

theorem AccountsNew.push {s : State ι} (h : AccountsNew live s) (x : ι) :
    AccountsNew live ⟨⟨s.live.graph.push x, s.live.ids⟩, s.bound⟩ where
  ids := h.ids
  inside := by
    intro ref id hId
    show ref.index < (s.live.graph.push x).size
    rw [Graph.size_push]
    exact Nat.lt_succ_of_lt (h.inside ref id hId)
  size := by
    show live.graph.size ≤ (s.live.graph.push x).size
    rw [Graph.size_push]
    exact Nat.le_succ_of_le h.size

theorem AccountsNew.bind {s : State ι} (h : AccountsNew live s) (x : ι) {id : ObjectId}
    (hNull : id ≠ ObjectId.null) (hFree : s.live.ids.ref? id = none) :
    AccountsNew live ⟨⟨s.live.graph.push x,
      s.live.ids.extend id ⟨s.live.graph.size⟩ (s.live.ids.above id)⟩, s.bound ++ [id]⟩ where
  ids := by
    have hNew : s.live.ids.objectId? ⟨s.live.graph.size⟩ = none := by
      cases hId : s.live.ids.objectId? ⟨s.live.graph.size⟩ with
      | none => rfl
      | some other => exact absurd (h.inside _ other hId) (Nat.lt_irrefl _)
    exact h.ids.extend hFree hNew (h.ids.ordered.extend_above _ hNull)
  inside := by
    intro ref other hOther
    rw [ObjectIds.objectId?_extend] at hOther
    split at hOther
    · rename_i hEq
      show ref.index < (s.live.graph.push x).size
      rw [← hEq, Graph.size_push]
      exact Nat.lt_succ_self _
    · exact (h.push x).inside ref other hOther
  size := (h.push x).size

theorem accountsNew_place (live : Live ι) (p : PlannedRecord ι) :
    Attempt.Keeps (AccountsNew live) (place p) :=
  keeps_place_of_steps (fun _ x h => h.push x) fun _ x h hNull hFree => h.bind x hNull hFree

theorem accountsNew_change (live : Live ι) (ref : Ref) (attempt : Attempt ι Unit) :
    Attempt.Keeps (AccountsNew live) (onGraph (Graph.change ref attempt)) := by
  refine keeps_change_of_size (fun s g hSize h => ⟨h.ids, ?_, ?_⟩) ref attempt
  · intro other id hId
    show other.index < g.size
    rw [hSize]
    exact h.inside other id hId
  · show live.graph.size ≤ g.size
    rw [hSize]
    exact h.size

end Loading

/-! ## Whole operations -/

section

variable [Instance ι]

/-- A load keeps the counter above what is bound, whatever graph it is on. -/
theorem ordered_loadObjects (registry : Registry ι) (matcher : Option Matcher) (bytes : Bytes) :
    Attempt.Keeps (fun live : Live ι => live.ids.Ordered) (loadObjects registry matcher bytes) := by
  intro live h
  cases hLoad : (loadObjects registry matcher bytes).start live with
  | mk result live' =>
      rcases loadObjects_cases hLoad with ⟨-, -, -, rfl⟩ | ⟨planned, dropped, s, -, hPhases⟩
      · exact h
      · have hAccounts := keeps_apply planned dropped (fun p _ => accounts_place live p)
          (keeps_change_of_size fun _ _ _ h => h) ⟨live, []⟩ (ObjectIds.Adds.refl h)
        rcases hPhases with ⟨hApply, -, rfl⟩ | ⟨hApply, -, rfl⟩
        · rw [hApply] at hAccounts
          exact hAccounts.ordered
        · rw [hApply] at hAccounts
          exact hAccounts.ordered_release h

/-- A load that fails gives back its instances and their identifiers. -/
theorem loadObjects_undone {registry : Registry ι} {matcher : Option Matcher} {bytes : Bytes}
    {live live' : Live ι} {e : Error} (hIds : live.ids.Ordered)
    (hInside : ∀ ref id, live.ids.objectId? ref = some id → ref.index < live.graph.size)
    (h : (loadObjects registry matcher bytes).start live = (.error e, live')) :
    live'.ids = live.ids ∧ live'.graph.size = live.graph.size := by
  rcases loadObjects_cases h with
    ⟨-, -, -, rfl⟩ | ⟨planned, dropped, s, -, ⟨-, ⟨refs, hOk⟩, -⟩ | ⟨hApply, -, rfl⟩⟩
  · exact ⟨rfl, rfl⟩
  · cases hOk
  · have hAccounts := keeps_apply planned dropped (fun p _ => accountsNew_place live p)
      (accountsNew_change live) ⟨live, []⟩ (AccountsNew.refl hIds hInside)
    rw [hApply] at hAccounts
    refine ⟨hAccounts.ids.release hIds, ?_⟩
    have hSize : live.graph.size ≤ s.live.graph.size := hAccounts.size
    show (s.live.graph.truncate live.graph.size).size = live.graph.size
    rw [Graph.size_truncate]
    exact Nat.min_eq_left hSize

end

/-! ## Programs -/

/-- What a program may do with an identifier table. -/
inductive Use (ι : Type) where
  /-- It assigns an identifier or binds an instance. -/
  | call (call : ObjectIds.Call)
  /-- It stores instances of a graph. -/
  | store (registry : Registry ι) (graph : Graph ι) (roots : List Ref)
  /-- It loads a chunk into a graph. -/
  | load (registry : Registry ι) (matcher : Option Matcher) (graph : Graph ι) (bytes : Bytes)

variable [Instance ι]

/-- The table after a use, which may have failed. -/
def ObjectIds.use (ids : ObjectIds) : Use ι → ObjectIds
  | .call call => ids.perform call
  | .store registry graph roots => ((storeObjects registry graph roots).start ids).2
  | .load registry matcher graph bytes =>
      ((loadObjects registry matcher bytes).start ⟨graph, ids⟩).2.ids

/-- The table after the uses of a program. -/
def ObjectIds.useAll (ids : ObjectIds) (uses : List (Use ι)) : ObjectIds :=
  uses.foldl ObjectIds.use ids

theorem ObjectIds.Ordered.use {ids : ObjectIds} (h : ids.Ordered) (use : Use ι) :
    (ids.use use).Ordered := by
  cases use with
  | call call =>
      show (ids.perform call).Ordered
      rcases perform_cases h call with ⟨hSame, -⟩ | ⟨id, ref, next, hAfter, -, hExtended, -⟩
      · rw [hSame]
        exact h
      · rw [hAfter]
        exact hExtended
  | store registry graph roots =>
      have hStore : (storeObjects registry graph roots).start ids =
          (_, ids.use (.store registry graph roots)) := rfl
      obtain ⟨⟨added, hAdds⟩, -⟩ := storeObjects_addsNew h hStore
      exact hAdds.ordered
  | load registry matcher graph bytes =>
      exact ordered_loadObjects registry matcher bytes ⟨graph, ids⟩ h

theorem ObjectIds.ordered_useAll (start : UInt64) (uses : List (Use ι)) :
    ((startingAt start).useAll uses).Ordered := by
  have hAll : ∀ ids : ObjectIds, ids.Ordered → (ids.useAll uses).Ordered := by
    induction uses with
    | nil => exact fun ids h => h
    | cons use rest ih => exact fun ids h => ih (ids.use use) (h.use use)
  exact hAll _ (ordered_startingAt start)

/-- Whatever a program has done with its table before, a store or a load that
fails leaves the table as it was, and a load leaves the graph with as many
instances as it had. -/
theorem useAll_undone (start : UInt64) (uses : List (Use ι)) (graph : Graph ι)
    (hInside : ∀ ref id, ((ObjectIds.startingAt start).useAll uses).objectId? ref = some id →
      ref.index < graph.size) :
    let ids := (ObjectIds.startingAt start).useAll uses
    (∀ registry roots e ids',
      (storeObjects registry graph roots).start ids = (.error e, ids') → ids' = ids) ∧
    ∀ registry matcher bytes e live',
      (loadObjects registry matcher bytes).start ⟨graph, ids⟩ = (.error e, live') →
        live'.ids = ids ∧ live'.graph.size = graph.size := by
  intro ids
  have hIds : ids.Ordered := ObjectIds.ordered_useAll start uses
  constructor
  · intro registry roots e ids' hStore
    exact (storeObjects_addsNew hIds hStore).2 e rfl
  · intro registry matcher bytes e live' hLoad
    exact loadObjects_undone hIds hInside hLoad

namespace Slots

/-- Two people, of whom the first one is the first object. A store that is
refused at its second root has assigned an identifier to the first one. -/
theorem useAll_undone_person :
    let uses : List (Use Slots) := [.call (.bind ⟨1⟩ ⟨0⟩)]
    let ids := (ObjectIds.startingAt 1).useAll uses
    let graph : Graph Slots := ⟨#[blank ⟨"Person"⟩, blank ⟨"Person"⟩]⟩
    (∀ ref id, ids.objectId? ref = some id → ref.index < graph.size) ∧
      (∃ ids', (storeObjects people graph [⟨1⟩, ⟨5⟩]).start ids =
        (.error (.unknownInstance ⟨5⟩), ids') ∧ ids' = ids) ∧
      ∃ live', (loadObjects people none (Chunk.join (strangers.map (·.record)))).start
          ⟨graph, ids⟩ = (.error (.unresolvedReference ⟨99⟩), live') ∧
        live'.ids = ids ∧ live'.graph.size = graph.size := by
  intro uses ids graph
  have hInside : ∀ ref id, ids.objectId? ref = some id → ref.index < graph.size := by
    intro ref id hId
    have hIds : ids = (ObjectIds.startingAt 1).extend ⟨1⟩ ⟨0⟩ 2 := rfl
    rw [hIds, ObjectIds.objectId?_extend, ObjectIds.objectId?_startingAt] at hId
    split at hId
    · rename_i hEq
      rw [← hEq]
      decide
    · cases hId
  obtain ⟨hStores, hLoads⟩ := useAll_undone 1 uses graph hInside
  have hStore : (storeObjects people graph [⟨1⟩, ⟨5⟩]).start ids =
      (.error (.unknownInstance ⟨5⟩), _) := rfl
  have hPrepare : prepare people none ids (Chunk.join (strangers.map (·.record))) =
      .ok (strangers, []) := prepare_strangers
  have hLoad : ∃ live', (loadObjects people none (Chunk.join (strangers.map (·.record)))).start
      ⟨graph, ids⟩ = (.error (.unresolvedReference ⟨99⟩), live') := by
    simp only [loadObjects, Attempt.start_of, hPrepare]
    exact ⟨_, rfl⟩
  obtain ⟨live', hLoad⟩ := hLoad
  exact ⟨hInside, ⟨_, hStore, hStores _ _ _ _ hStore⟩, live', hLoad, hLoads _ _ _ _ _ hLoad⟩

end Slots

end ObjectStore
