import ObjectStore.Proofs.Dictionary.RoundTrip
import ObjectStore.Proofs.EntityStore.Writes
import ObjectStore.Proofs.Storing.Chunk
import ObjectStore.Session.Basic

/-!
# Storing into a session's store

A session that stores its roots either fails and is as it was, or replaces
the records of everything that the roots lead to. All other records stay.
The only reason for which it may fail is that something cannot be written:
every registry has a snapshot, and every written chunk can be split.

The root list is written last, when the instances have their identifiers. If
it is too long, nothing is stored, but the instances keep them.

## Main results

* `Session.storeRoots_cases`: what a session is after storing its roots.
-/

namespace ObjectStore

open Std Storing

/-! ## Sessions -/

namespace Session

variable {ι : Type} [Instance ι] {registry : Registry ι} {session : Session ι} {roots : List Ref}

/-- The session once its instances have these identifiers. -/
def named (session : Session ι) (ids : ObjectIds) : Session ι :=
  { session with live := ⟨session.live.graph, ids⟩ }

/-- The session after it has stored its roots, with these identifiers and
these records. -/
def stored (session : Session ι) (ids : ObjectIds) (records : List Record) (roots : List ObjectId)
    (d : Dictionary) : Session ι :=
  { session.named ids with store := session.store.committed records roots ids.next (some d) }

section

variable {chunk : StoredChunk} {ids : ObjectIds} {records : List Record} {d : Dictionary}

theorem start_onLive_ok
    (hStore : (storeObjects registry session.live.graph roots).start session.live.ids =
      (.ok chunk, ids)) :
    (onLive (Attempt.of fun live =>
      let (result, ids) := (storeObjects registry live.graph roots).start live.ids
      (result, { live with ids }))).start session = (.ok chunk, session.named ids) := by
  refine Attempt.start_within_eq.2 ⟨⟨session.live.graph, ids⟩, ?_, rfl⟩
  rw [Attempt.start_of, hStore]

/-- What was written is committed with the registered definitions. -/
theorem start_storeRoots_ok
    (hStore : (storeObjects registry session.live.graph roots).start session.live.ids =
      (.ok chunk, ids))
    (hSnapshot : registry.snapshot = .ok d) (hSplit : Chunk.split chunk.bytes = ⟨records, none⟩)
    (hFits : RootList.Fits chunk.roots) :
    (storeRoots registry roots).start session =
      (.ok chunk, session.stored ids records chunk.roots d) := by
  have hCommit : (EntityStore.commit chunk ids.next (some d)).start session.store =
      (.ok (), session.store.committed records chunk.roots ids.next (some d)) :=
    EntityStore.start_commit hSplit hFits
  unfold storeRoots
  refine Attempt.start_bind_ok.2 ⟨chunk, _, start_onLive_ok hStore, ?_⟩
  rw [Attempt.start_lift_bind, hSnapshot]
  refine Attempt.start_bind_ok.2 ⟨_, _, rfl, ?_⟩
  refine Attempt.start_bind_ok.2 ⟨(), _, Attempt.start_within_eq.2 ⟨_, hCommit, rfl⟩, ?_⟩
  rfl

/-- If the root list cannot be written, the identifiers are all that has
changed. -/
theorem start_storeRoots_of_not_fits
    (hStore : (storeObjects registry session.live.graph roots).start session.live.ids =
      (.ok chunk, ids))
    (hSnapshot : registry.snapshot = .ok d) (hSplit : Chunk.split chunk.bytes = ⟨records, none⟩)
    (hLong : ¬RootList.Fits chunk.roots) :
    ∃ e, (storeRoots registry roots).start session = (.error e, session.named ids) := by
  obtain ⟨e, hCommit⟩ : ∃ e, (EntityStore.commit chunk ids.next (some d)).start session.store =
      (.error e, session.store) := EntityStore.start_commit_of_not_fits hSplit hLong
  refine ⟨e, ?_⟩
  unfold storeRoots
  refine Attempt.start_bind_error.2 (Or.inr ⟨chunk, _, start_onLive_ok hStore, ?_⟩)
  rw [Attempt.start_lift_bind, hSnapshot]
  refine Attempt.start_bind_error.2 (Or.inr ⟨_, _, rfl, ?_⟩)
  exact Attempt.start_bind_error.2 (Or.inl (Attempt.start_within_eq.2 ⟨_, hCommit, rfl⟩))

theorem start_storeRoots_error {e : Error} (hIds : session.live.ids.WellFormed)
    (hStore : (storeObjects registry session.live.graph roots).start session.live.ids =
      (.error e, ids)) :
    (storeRoots registry roots).start session = (.error e, session) := by
  have hSame : ids = session.live.ids := storeObjects_error hIds hStore
  subst hSame
  refine Attempt.start_bind_error.2 (Or.inl (Attempt.start_within_eq.2 ⟨session.live, ?_, rfl⟩))
  rw [Attempt.start_of, hStore]

end

/-- Storing the roots of a session fails and changes nothing, or writes what
they lead to. What was written is committed, or the root list is too long. -/
theorem storeRoots_cases (hRegistry : registry.WellFormed) (hIds : session.live.ids.WellFormed)
    (roots : List Ref) :
    (∃ e, (storeRoots registry roots).start session = (.error e, session)) ∨
      ∃ chunk ids visited records d,
        (storeObjects registry session.live.graph roots).start session.live.ids =
          (.ok chunk, ids) ∧
        Outcome registry session.live.graph roots session.live.ids chunk ids visited records ∧
        registry.snapshot = .ok d ∧ d.byId = registry.definitions ∧
        (RootList.Fits chunk.roots ∧ (storeRoots registry roots).start session =
            (.ok chunk, session.stored ids records chunk.roots d) ∨
          ∃ e, (storeRoots registry roots).start session = (.error e, session.named ids)) := by
  cases hStore : (storeObjects registry session.live.graph roots).start session.live.ids with
  | mk result ids =>
      cases result with
      | error e => exact Or.inl ⟨e, start_storeRoots_error hIds hStore⟩
      | ok chunk =>
          right
          obtain ⟨visited, records, hOutcome⟩ := storeObjects_ok hIds hStore
          obtain ⟨d, hSnapshot, hById⟩ := Registry.snapshot_ok hRegistry
          refine ⟨chunk, ids, visited, records, d, rfl, hOutcome, hSnapshot, hById, ?_⟩
          by_cases hFits : RootList.Fits chunk.roots
          · exact Or.inl ⟨hFits, start_storeRoots_ok hStore hSnapshot hOutcome.split hFits⟩
          · exact Or.inr (start_storeRoots_of_not_fits hStore hSnapshot hOutcome.split hFits)

end Session

end ObjectStore
