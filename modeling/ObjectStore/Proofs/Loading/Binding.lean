import ObjectStore.Proofs.Loading.Failure
import ObjectStore.Proofs.Migration.Evolution

/-!
# What a load binds

A load binds the objects of its records that are not live yet, each to an
instance that it has created for it. So an instance that was there before
never gets an identifier from a load, and no identifier comes up that is not
in the chunk.

## Main results

* `loadObjects_binds`: where the bindings come from after a load.
* `next_loadObjects`: when a load leaves the counter alone.
-/

namespace ObjectStore

open Loading

variable {ι : Type} {live live' : Live ι}

namespace Loading

variable {objects : List ObjectId}

/-- What is bound beyond the bindings of `live` are objects of the list, and
their instances are new. -/
structure Binds (live : Live ι) (objects : List ObjectId) (s : State ι) : Prop where
  size : live.graph.size ≤ s.live.graph.size
  origin : ∀ id ref, s.live.ids.ref? id = some ref →
    live.ids.ref? id = some ref ∨ live.graph.size ≤ ref.index ∧ id ∈ objects

theorem Binds.refl (live : Live ι) (objects : List ObjectId) : Binds live objects ⟨live, []⟩ :=
  ⟨Nat.le_refl _, fun _ _ h => Or.inl h⟩

theorem binds_place {p : PlannedRecord ι} (hp : p.record.object ∈ objects) :
    Attempt.Keeps (Binds live objects) (place p) := by
  have hPushed : ∀ s x, Binds live objects s → live.graph.size ≤ (s.live.graph.push x).size := by
    intro s x h
    rw [Graph.size_push]
    exact Nat.le_succ_of_le h.size
  apply keeps_place_of_steps
  · exact fun s x h => ⟨hPushed s x h, h.origin⟩
  · intro s x h hNull hFree
    refine ⟨hPushed s x h, ?_⟩
    intro id ref hRef
    rw [ObjectIds.ref?_extend] at hRef
    split at hRef
    · rename_i hObject
      cases hRef
      exact Or.inr ⟨h.size, hObject ▸ hp⟩
    · exact h.origin id ref hRef

theorem binds_change (ref : Ref) (attempt : Attempt ι Unit) :
    Attempt.Keeps (Binds live objects) (onGraph (Graph.change ref attempt)) := by
  refine keeps_change_of_size (fun s g hSize h => ⟨?_, h.origin⟩) ref attempt
  show live.graph.size ≤ g.size
  rw [hSize]
  exact h.size

/-- The objects of the records that a load has planned are those of records
of its chunk. -/
theorem object_of_prepare {registry : Registry ι} {matcher : Option Matcher} {ids : ObjectIds}
    {bytes : Bytes} {planned : List (PlannedRecord ι)} {dropped : List ObjectId}
    (h : prepare registry matcher ids bytes = .ok (planned, dropped)) {p : PlannedRecord ι}
    (hp : p ∈ planned) : p.record.object ∈ (Chunk.split bytes).records.map Record.object := by
  obtain ⟨chunk, hMigrated, hUnchanged, hPlan, -⟩ := prepare_eq_ok h
  obtain ⟨-, hRecords, -, -⟩ := plan_eq_ok hPlan
  have hr : p.record ∈ (Chunk.split chunk.bytes).records := by
    rw [← hRecords]
    exact List.mem_map_of_mem hp
  cases matcher with
  | none =>
      rw [hUnchanged rfl] at hr
      exact List.mem_map_of_mem hr
  | some m =>
      obtain ⟨r, hIn, hObject⟩ := MigratedChunk.object_of_migrate (hMigrated m rfl) hr
      exact List.mem_map.2 ⟨r, hIn, hObject⟩

end Loading

/-- What is bound after a load was bound before, or is an object of a record
of the chunk and leads to a new instance. The counter never goes back. -/
theorem loadObjects_binds [Instance ι] {registry : Registry ι} {matcher : Option Matcher}
    {bytes : Bytes} {result : Except Error (List Ref)} (hLive : live.WellFormed)
    (h : (loadObjects registry matcher bytes).start live = (result, live')) :
    live.ids.next.toNat ≤ live'.ids.next.toNat ∧
      ∀ id ref, live'.ids.ref? id = some ref → live.ids.ref? id = some ref ∨
        live.graph.size ≤ ref.index ∧ id ∈ (Chunk.split bytes).records.map Record.object := by
  rcases loadObjects_cases h with
    ⟨-, -, -, rfl⟩ | ⟨planned, dropped, s, hPrepare, ⟨hApply, -, rfl⟩ | ⟨-, ⟨e, rfl⟩, -⟩⟩
  · exact ⟨Nat.le_refl _, fun _ _ hRef => Or.inl hRef⟩
  · have hExpands := keeps_apply planned dropped (fun p _ => keeps_place live p)
      (keeps_change live) ⟨live, []⟩ (Expands.refl hLive)
    have hBinds := keeps_apply planned dropped
      (fun p hp => binds_place (object_of_prepare hPrepare hp)) binds_change ⟨live, []⟩
      (Binds.refl live _)
    rw [hApply] at hExpands hBinds
    exact ⟨hExpands.ids.next, hBinds.origin⟩
  · obtain ⟨hIds, -, -, -⟩ := loadObjects_error hLive h
    rw [hIds]
    exact ⟨Nat.le_refl _, fun _ _ hRef => Or.inl hRef⟩

/-- A load of objects that the counter has passed leaves the counter alone. -/
theorem next_loadObjects [Instance ι] {registry : Registry ι} {matcher : Option Matcher}
    {bytes : Bytes} {result : Except Error (List Ref)} (hLive : live.WellFormed)
    (hPassed : ∀ r ∈ (Chunk.split bytes).records,
      r.object.value.toNat < live.ids.next.toNat)
    (h : (loadObjects registry matcher bytes).start live = (result, live')) :
    live'.ids.next = live.ids.next := by
  rcases loadObjects_cases h with
    ⟨-, -, -, rfl⟩ | ⟨planned, dropped, s, hPrepare, ⟨hApply, -, rfl⟩ | ⟨-, ⟨e, rfl⟩, -⟩⟩
  · rfl
  · have hPlace : ∀ p ∈ planned,
        Attempt.Keeps (fun s : State ι => s.live.ids.next = live.ids.next) (place p) := by
      intro p hp
      refine keeps_place_of_steps (fun _ _ h => h) fun s x hSame _ _ => ?_
      obtain ⟨r, hr, hObject⟩ := List.mem_map.1 (object_of_prepare hPrepare hp)
      have hLt := hPassed r hr
      rw [hObject, ← hSame] at hLt
      exact (ObjectIds.above_of_lt hLt).trans hSame
    have hNext := keeps_apply planned dropped hPlace
      (keeps_change_of_size fun _ _ _ h => h) ⟨live, []⟩ rfl
    rwa [hApply] at hNext
  · obtain ⟨hIds, -, -, -⟩ := loadObjects_error hLive h
    rw [hIds]

end ObjectStore
