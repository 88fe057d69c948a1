import Mathlib.Data.List.Perm.Basic
import ObjectStore.Proofs.Migration.Evolution

/-!
# What is left of a chunk

Migrating looks at one record at a time. Each of them stays as it is, is
converted or is dropped, no matter which other records there are and where
they stand. So the records that are left are in the order of those that they
come from, and if these come in another order, so do those that are left.

## Main results

* `MigratedChunk.migrate_join_eq_ok`: a chunk is migrated record by record.
* `MigratedChunk.prepared_perm`: records in another order are migrated alike.
* `MigratedChunk.objects_prepared`: two records that are not dropped are still
  there, in the same order.
-/

namespace ObjectStore

namespace MigratedChunk

variable {ι : Type} {registry : Registry ι} {matcher : Matcher} {bytes : Bytes}
  {chunk : MigratedChunk} {r r' : Record} {records rs rs' : List Record}
  {outcomes : List (Record × Option Bytes)}

/-! ## Faults -/

/-- A chunk that is not changed may have a fault behind its records, but not
one that was migrated. -/
theorem fault_of_migrate (h : migrate registry matcher bytes = .ok chunk) :
    chunk = unchanged bytes ∨ (Chunk.split bytes).fault = none := by
  unfold migrate at h
  cases hAny : (Chunk.split bytes).records.any fun r => registry.isLegacy r.type with
  | false =>
      simp only [hAny] at h
      cases h
      exact Or.inl rfl
  | true =>
      simp only [hAny] at h
      obtain ⟨outcomes, -, h⟩ := bind_eq_ok.1 h
      obtain ⟨records, hRecords, -⟩ := bind_eq_ok.1 h
      exact Or.inr (Chunk.fault_of_toExcept hRecords)

/-! ## Records in another order -/

theorem collect_encoded (rs : List Record) :
    collect (rs.map fun r => (r, some r.encode)) = unchanged (Chunk.join rs) := by
  induction rs with
  | nil => rfl
  | cons r rest ih =>
      rw [List.map_cons, collect, ih]
      rfl

theorem collect_of_survives (h : List.Forall₂ Survives (outcomes.filter (·.2.isSome)) records) :
    (collect outcomes).bytes = Chunk.join records := by
  induction outcomes generalizing records with
  | nil =>
      cases h
      rfl
  | cons first rest ih =>
      obtain ⟨r, outcome⟩ := first
      cases outcome with
      | none => exact ih h
      | some bytes =>
          obtain _ | @⟨_, r', _, records, hFirst, hRest⟩ := h
          show bytes ++ (collect rest).bytes = r'.encode ++ Chunk.join records
          rw [ih hRest, Option.some.inj hFirst.bytes]

/-- A record with what becomes of it. -/
def outcome (registry : Registry ι) (matcher : Matcher) (r : Record) :
    Except Error (Record × Option Bytes) := do
  return (r, ← migrateRecord registry matcher r)

theorem outcome_eq_ok {o : Record × Option Bytes} :
    outcome registry matcher r = .ok o ↔
      o.1 = r ∧ migrateRecord registry matcher r = .ok o.2 := by
  rw [outcome, bind_eq_ok]
  constructor
  · rintro ⟨left, hLeft, hDone⟩
    cases hDone
    exact ⟨rfl, hLeft⟩
  · rintro ⟨rfl, hLeft⟩
    exact ⟨o.2, hLeft, rfl⟩

theorem migrate_join (hAcceptable : ∀ r ∈ rs, Chunk.Acceptable r) :
    migrate registry matcher (Chunk.join rs) =
      (rs.mapM (outcome registry matcher)).map collect := by
  unfold migrate
  rw [Chunk.split_join hAcceptable]
  cases hAny : rs.any fun r => registry.isLegacy r.type with
  | false =>
      have hOutcomes : rs.mapM (outcome registry matcher) =
          .ok (rs.map fun r => (r, some r.encode)) := by
        rw [mapM_eq_ok, List.forall₂_map_right_iff, List.forall₂_same]
        intro r hr
        have hNot := List.any_eq_false.1 hAny r hr
        simp only [outcome, migrateRecord, hNot]
        rfl
      simp only [hAny, hOutcomes, Except.map, collect_encoded]
      rfl
  | true =>
      simp only [hAny]
      show (rs.mapM (outcome registry matcher) >>= _) = _
      cases rs.mapM (outcome registry matcher) <;> rfl

/-- The records of a chunk are migrated one by one. -/
theorem migrate_join_eq_ok (hAcceptable : ∀ r ∈ rs, Chunk.Acceptable r) :
    migrate registry matcher (Chunk.join rs) = .ok chunk ↔
      ∃ outcomes, List.Forall₂ (fun r o => o.1 = r ∧ migrateRecord registry matcher r = .ok o.2)
        rs outcomes ∧ collect outcomes = chunk := by
  simp only [migrate_join hAcceptable, map_eq_ok, mapM_eq_ok, outcome_eq_ok]

theorem migrate_perm (hAcceptable : ∀ r ∈ rs, Chunk.Acceptable r) (hPerm : rs.Perm rs')
    (h : migrate registry matcher (Chunk.join rs) = .ok chunk) :
    ∃ chunk' records records', migrate registry matcher (Chunk.join rs') = .ok chunk' ∧
      chunk.bytes = Chunk.join records ∧ chunk'.bytes = Chunk.join records' ∧
      records.Perm records' ∧ (∀ r ∈ records, Chunk.Acceptable r) ∧
      ∀ id, id ∈ chunk.dropped ↔ id ∈ chunk'.dropped := by
  obtain ⟨outcomes, hOutcomes, rfl⟩ := (migrate_join_eq_ok hAcceptable).1 h
  obtain ⟨records, hBytes, hSurvive⟩ := @collect_bytes outcomes (by
    rintro ⟨r, left⟩ ho hKept
    obtain ⟨r', hr, rfl, hRecord⟩ := forall₂_exists_left hOutcomes ho
    exact survives_of_migrateRecord (hAcceptable _ hr) hRecord hKept)
  obtain ⟨outcomes', hOutcomes', hSame⟩ := List.perm_comp_forall₂ hPerm.symm hOutcomes
  obtain ⟨records', hSurvive', hLeft⟩ := List.perm_comp_forall₂ (hSame.filter _) hSurvive
  have hMigrate := (migrate_join_eq_ok fun r hr => hAcceptable r (hPerm.mem_iff.2 hr)).2
    ⟨outcomes', hOutcomes', rfl⟩
  refine ⟨collect outcomes', records, records', hMigrate, hBytes, collect_of_survives hSurvive',
    hLeft.symm, ?_, ?_⟩
  · intro r hr
    obtain ⟨o, -, hSurvives⟩ := forall₂_exists_left hSurvive hr
    exact hSurvives.acceptable
  · intro id
    simp only [mem_dropped_collect, hSame.mem_iff]

/-! ## Records that are left -/

/-- The record is of a type that was removed. -/
def Deleted (registry : Registry ι) (matcher : Matcher) (r : Record) : Prop :=
  registry.isLegacy r.type = true ∧ ∃ legacy, registry.definition? r.type = some legacy ∧
    matcher.refactoring.typeFate legacy = .deleted

theorem isSome_of_kept (hWellFormed : registry.WellFormed) {left : Option Bytes}
    (h : migrateRecord registry matcher r = .ok left) (hKept : ¬Deleted registry matcher r) :
    left.isSome = true := by
  rcases migrateRecord_ok h with ⟨-, rfl⟩ | ⟨hLegacy, legacy, hKnown, -⟩
  · rfl
  · have hFate := (migrateRecord_legacy hWellFormed h hLegacy hKnown).1
    rw [Option.isSome_iff_ne_none]
    exact fun hNone => hKept ⟨hLegacy, legacy, hKnown, hFate.1 hNone⟩

theorem objects_migrate (hWellFormed : registry.WellFormed)
    (h : migrate registry matcher bytes = .ok chunk)
    (hTwo : List.Sublist [r, r'] (Chunk.split bytes).records)
    (hKept : ¬Deleted registry matcher r) (hKept' : ¬Deleted registry matcher r') :
    List.Sublist [r.object, r'.object] ((Chunk.split chunk.bytes).records.map Record.object) := by
  rcases migrate_cases h with ⟨rfl, -⟩ | ⟨outcomes, records, hCollected⟩
  · exact hTwo.map Record.object
  · have hSources : outcomes.map Prod.fst = (Chunk.split bytes).records := by
      rw [← List.map_id (Chunk.split bytes).records]
      exact map_eq_of_forall₂ (hCollected.migrated.flip.imp fun _ _ h => h.1)
    rw [← hSources] at hTwo
    obtain ⟨pair, hPair, hObjects⟩ := List.sublist_map_iff.1 hTwo
    have hLeft : ∀ o ∈ pair, o.2.isSome = true := by
      intro o ho
      have hIn : o.1 ∈ [r, r'] := hObjects ▸ List.mem_map_of_mem ho
      obtain ⟨source, -, rfl, hRecord⟩ :=
        forall₂_exists_left hCollected.migrated (hPair.subset ho)
      refine isSome_of_kept hWellFormed hRecord ?_
      rcases List.mem_pair.1 hIn with hEq | hEq
      · rwa [hEq]
      · rwa [hEq]
    have hSurvivors := hPair.filter (·.2.isSome)
    rw [List.filter_eq_self.2 hLeft] at hSurvivors
    have hMap : (outcomes.filter (·.2.isSome)).map (·.1.object) = records.map Record.object :=
      map_eq_of_forall₂ (hCollected.survive.imp fun _ _ h => h.object.symm)
    have hIds : [r.object, r'.object] = pair.map (·.1.object) := by
      have hMapped := congrArg (List.map Record.object) hObjects
      rwa [List.map_map] at hMapped
    rw [hCollected.split, ← hMap, hIds]
    exact hSurvivors.map _

/-! ## With or without a matcher -/

open Loading

variable {matcher : Option Matcher}

/-- If the records come in another order, those that are left come in another
order as well, and the same objects are dropped. -/
theorem prepared_perm (hAcceptable : ∀ r ∈ rs, Chunk.Acceptable r) (hPerm : rs.Perm rs')
    (h : prepared registry matcher (Chunk.join rs) = .ok chunk) :
    ∃ chunk' records records', prepared registry matcher (Chunk.join rs') = .ok chunk' ∧
      chunk.bytes = Chunk.join records ∧ chunk'.bytes = Chunk.join records' ∧
      records.Perm records' ∧ (∀ r ∈ records, Chunk.Acceptable r) ∧
      ∀ id, id ∈ chunk.dropped ↔ id ∈ chunk'.dropped := by
  cases matcher with
  | none =>
      cases h
      exact ⟨_, rs, rs', rfl, rfl, rfl, hPerm, hAcceptable, fun id => Iff.rfl⟩
  | some m => exact migrate_perm hAcceptable hPerm h

/-- A load drops the record. -/
def Drops (registry : Registry ι) (matcher : Option Matcher) (r : Record) : Prop :=
  ∃ m, matcher = some m ∧ Deleted registry m r

/-- Two records of a chunk that are not dropped are left, in the same
order. -/
theorem objects_prepared (hWellFormed : registry.WellFormed)
    (h : prepared registry matcher bytes = .ok chunk)
    (hTwo : List.Sublist [r, r'] (Chunk.split bytes).records)
    (hKept : ¬Drops registry matcher r) (hKept' : ¬Drops registry matcher r') :
    List.Sublist [r.object, r'.object] ((Chunk.split chunk.bytes).records.map Record.object) := by
  cases matcher with
  | none =>
      cases h
      exact hTwo.map Record.object
  | some m =>
      exact objects_migrate hWellFormed h hTwo (fun hDeleted => hKept ⟨m, rfl, hDeleted⟩)
        fun hDeleted => hKept' ⟨m, rfl, hDeleted⟩

end MigratedChunk

end ObjectStore
