import Mathlib.Data.List.Induction
import ObjectStore.Proofs.Migration.Survivors
import ObjectStore.Refactoring.NameSimilarity

/-!
# Objects with two records

No object may have two records in a chunk: which of them it should be loaded
from could not be told. A load refuses such a chunk when it comes to the
second record, unless something else is wrong before that. It looks for such
records after it has migrated the chunk, so a record that is dropped because
its type was removed does not count. Such a record may be of the same object
as another one, and then the references to the object are lost, although it
is live.

## Main results

* `Loading.planRecords_duplicate`: how records are checked up to the second
  one of an object.
* `loadObjects_duplicate`: a chunk with two records of one object is refused,
  if none of them is dropped.
* `Slots.loadObjects_dropped_duplicate`: it need not be if one of them is.
-/

namespace ObjectStore

open MigratedChunk

namespace Loading

variable {ι : Type} {registry : Registry ι} {matcher : Option Matcher} {bytes : Bytes}
  {ids : ObjectIds} {seen : Std.HashSet ObjectId} {r : Record} {records : List Record} {e : Error}

/-! ## Checking -/

/-- Records are checked up to the second one of an object. -/
theorem planRecords_duplicate {front back : List Record} (hNodup : (front.map Record.object).Nodup)
    (hNew : ∀ r ∈ front, r.object ∉ seen)
    (hAgain : r.object ∈ seen ∨ r.object ∈ front.map Record.object) :
    planRecords registry ids seen (front ++ r :: back) =
      (front ++ [r]).mapM (checkRecord registry) >>= fun _ =>
        .error (.duplicateObjectId r.object) := by
  induction front generalizing seen with
  | nil =>
      have hSeen : r.object ∈ seen := hAgain.resolve_right (by simp)
      rw [List.nil_append, planRecords_cons, List.nil_append, List.mapM_cons, List.mapM_nil]
      cases checkRecord registry r with
      | error e => rfl
      | ok handler => exact if_pos hSeen
  | cons first front ih =>
      obtain ⟨hFirst, hFront⟩ := List.nodup_cons.1 hNodup
      have hRest := @ih (seen.insert first.object) hFront
        (by
          intro r' hr' hIn
          rcases Std.HashSet.mem_insert.1 hIn with hEq | hSeen
          · exact hFirst (List.mem_map.2 ⟨r', hr', (beq_iff_eq.1 hEq).symm⟩)
          · exact hNew r' (List.mem_cons_of_mem _ hr') hSeen)
        (by
          rcases hAgain with hSeen | hIn
          · exact Or.inl (Std.HashSet.mem_insert.2 (Or.inr hSeen))
          · rcases List.mem_cons.1 hIn with hEq | hIn
            · exact Or.inl (Std.HashSet.mem_insert.2 (Or.inl (beq_iff_eq.2 hEq.symm)))
            · exact Or.inr hIn)
      rw [List.cons_append, planRecords_cons, List.cons_append, List.mapM_cons, hRest]
      cases checkRecord registry first with
      | error e => rfl
      | ok handler =>
          show (if first.object ∈ seen then _ else _) = _
          rw [if_neg (hNew first List.mem_cons_self)]
          cases (front ++ [r]).mapM (checkRecord registry) with
          | error e => rfl
          | ok handlers => rfl

/-! ## The second record of an object -/

/-- The first record whose object has had one before. -/
theorem exists_duplicate (h : ¬(records.map Record.object).Nodup) :
    ∃ front r back, records = front ++ r :: back ∧ (front.map Record.object).Nodup ∧
      r.object ∈ front.map Record.object := by
  induction records using List.reverseRecOn with
  | nil => exact absurd List.nodup_nil h
  | append_singleton front r ih =>
      by_cases hFront : (front.map Record.object).Nodup
      · refine ⟨front, r, [], rfl, hFront, ?_⟩
        rw [List.map_append, List.map_singleton, ← List.concat_eq_append,
          List.nodup_concat] at h
        exact Classical.not_not.1 fun hNew => h ⟨hNew, hFront⟩
      · obtain ⟨front', r', back, rfl, hNodup, hIn⟩ := ih hFront
        exact ⟨front', r', back ++ [r], by simp, hNodup, hIn⟩

/-- The error of a load that finds two records of one object: that of
migrating the chunk, that of the first record up to the second one of an
object that is wrong by itself or, if there is none, that the object has two
records. -/
def RefusesDuplicate (registry : Registry ι) (matcher : Option Matcher) (bytes : Bytes)
    (e : Error) : Prop :=
  prepared registry matcher bytes = .error e ∨
    ∃ chunk front r back, prepared registry matcher bytes = .ok chunk ∧
      (Chunk.split chunk.bytes).records = front ++ r :: back ∧
      (front.map Record.object).Nodup ∧ r.object ∈ front.map Record.object ∧
      ((front ++ [r]).mapM (checkRecord registry) = .error e ∨
        (∃ handlers, (front ++ [r]).mapM (checkRecord registry) = .ok handlers) ∧
          e = .duplicateObjectId r.object)

theorem plan_of_error (h : planRecords registry ids ∅ (Chunk.split bytes).records = .error e) :
    plan registry ids bytes = .error e := by
  simp only [plan, h]
  rfl

/-- A chunk is refused if two of the records that are left of it are of one
object. -/
theorem prepare_duplicate (ids : ObjectIds)
    (h : ∀ chunk, prepared registry matcher bytes = .ok chunk →
      ¬((Chunk.split chunk.bytes).records.map Record.object).Nodup) :
    ∃ e, prepare registry matcher ids bytes = .error e ∧
      RefusesDuplicate registry matcher bytes e := by
  rw [prepare_eq_bind]
  cases hPrepared : prepared registry matcher bytes with
  | error e => exact ⟨e, rfl, Or.inl hPrepared⟩
  | ok chunk =>
      obtain ⟨front, r, back, hRecords, hNodup, hAgain⟩ := exists_duplicate (h chunk hPrepared)
      have hPlan := @planRecords_duplicate _ registry ids ∅ r front back hNodup (by simp)
        (Or.inr hAgain)
      rw [← hRecords] at hPlan
      have hError : ∃ e, planRecords registry ids ∅ (Chunk.split chunk.bytes).records = .error e ∧
          ((front ++ [r]).mapM (checkRecord registry) = .error e ∨
            (∃ handlers, (front ++ [r]).mapM (checkRecord registry) = .ok handlers) ∧
              e = .duplicateObjectId r.object) := by
        cases hCheck : (front ++ [r]).mapM (checkRecord registry) with
        | error e => exact ⟨e, by rw [hPlan, hCheck]; rfl, Or.inl rfl⟩
        | ok handlers => exact ⟨_, by rw [hPlan, hCheck]; rfl, Or.inr ⟨⟨handlers, rfl⟩, rfl⟩⟩
      obtain ⟨e, hPlanned, hCause⟩ := hError
      refine ⟨e, ?_, Or.inr ⟨chunk, front, r, back, hPrepared, hRecords, hNodup, hAgain, hCause⟩⟩
      show (plan registry ids chunk.bytes >>= _) = _
      rw [plan_of_error hPlanned]
      rfl

end Loading

open Loading

variable {ι : Type} [Instance ι]

/-- A chunk in which two records that are not dropped are of one object is
refused, and nothing is changed. -/
theorem loadObjects_duplicate (registrations : List (Registration ι)) (matcher : Option Matcher)
    (bytes : Bytes) (live : Live ι) (r r' : Record)
    (hTwo : List.Sublist [r, r'] (Chunk.split bytes).records) (hSame : r.object = r'.object)
    (hKept : ¬Drops (Registry.build registrations) matcher r)
    (hKept' : ¬Drops (Registry.build registrations) matcher r') :
    ∃ e, (loadObjects (Registry.build registrations) matcher bytes).start live =
        (.error e, live) ∧
      RefusesDuplicate (Registry.build registrations) matcher bytes e := by
  obtain ⟨e, hPrepare, hRefuses⟩ := @prepare_duplicate _ (Registry.build registrations) matcher
    bytes live.ids (by
      intro chunk hPrepared hNodup
      have hObjects := objects_prepared (Registry.wellFormed_build registrations) hPrepared hTwo
        hKept hKept'
      have hPair := hNodup.sublist hObjects
      simp [hSame] at hPair)
  exact ⟨e, loadObjects_of_plan_error hPrepare, hRefuses⟩

/-! ## A person with two records -/

namespace Slots

/-- A record of the person of the former layout, in the current layout. -/
def currentRecord : Record := ⟨⟨1000⟩, ⟨1⟩, [7, 0, 0, 0, 0, 0, 0, 0, 0, 0, 0, 0]⟩

theorem acceptable_currentRecord : Chunk.Acceptable currentRecord := by
  show 12 ≤ maxContentLength.toNat
  decide

theorem split_twice : Chunk.split (Chunk.join [formerRecord, currentRecord]) =
    ⟨[formerRecord, currentRecord], none⟩ :=
  Chunk.split_join (List.forall_mem_cons.2
    ⟨acceptable_formerRecord, List.forall_mem_singleton.2 acceptable_currentRecord⟩)

theorem prepare_twice :
    prepare (Registry.build history) (some plainMatcher) ObjectIds.empty
      (Chunk.join [formerRecord, currentRecord]) = .error (.duplicateObjectId ⟨1⟩) := by
  have hMigrate : migrate (Registry.build history) plainMatcher
      (Chunk.join [formerRecord, currentRecord]) =
        .ok ⟨Chunk.join [currentPlan.record, currentRecord], []⟩ := by
    simp only [migrate, split_twice]
    rfl
  have hSplit : Chunk.split (Chunk.join [currentPlan.record, currentRecord]) =
      ⟨[currentPlan.record, currentRecord], none⟩ :=
    Chunk.split_join (List.forall_mem_cons.2
      ⟨acceptable_currentPlan, List.forall_mem_singleton.2 acceptable_currentRecord⟩)
  have hPlan : plan (Registry.build history) ObjectIds.empty
      (Chunk.join [currentPlan.record, currentRecord]) = .error (.duplicateObjectId ⟨1⟩) := by
    apply plan_of_error
    rw [hSplit]
    exact @planRecords_duplicate _ _ _ ∅ currentRecord [currentPlan.record] []
      (List.nodup_singleton _) (by simp) (Or.inr (List.mem_singleton.2 rfl))
  rw [prepare_eq_bind]
  show (migrate _ _ _ >>= _) = _
  rw [hMigrate]
  show (plan _ _ _ >>= _) = _
  rw [hPlan]
  rfl

/-- Both records are of current types once the former one is converted. -/
theorem loadObjects_duplicate_person :
    List.Sublist [formerRecord, currentRecord]
        (Chunk.split (Chunk.join [formerRecord, currentRecord])).records ∧
      formerRecord.object = currentRecord.object ∧
      ¬Drops (Registry.build history) (some plainMatcher) formerRecord ∧
      ¬Drops (Registry.build history) (some plainMatcher) currentRecord ∧
      (loadObjects (Registry.build history) (some plainMatcher)
        (Chunk.join [formerRecord, currentRecord])).start ⟨Graph.empty, ObjectIds.empty⟩ =
          (.error (.duplicateObjectId ⟨1⟩), ⟨Graph.empty, ObjectIds.empty⟩) ∧
      RefusesDuplicate (Registry.build history) (some plainMatcher)
        (Chunk.join [formerRecord, currentRecord]) (.duplicateObjectId ⟨1⟩) := by
  have hTwo : List.Sublist [formerRecord, currentRecord]
      (Chunk.split (Chunk.join [formerRecord, currentRecord])).records := by
    rw [split_twice]
  have hKept : ¬Drops (Registry.build history) (some plainMatcher) formerRecord := by
    rintro ⟨m, hMatcher, -, legacy, hKnown, hDeleted⟩
    cases hMatcher
    cases hKnown
    exact absurd hDeleted (by decide)
  have hKept' : ¬Drops (Registry.build history) (some plainMatcher) currentRecord := by
    rintro ⟨m, -, hLegacy, -⟩
    cases hLegacy
  obtain ⟨e, hLoad, hRefuses⟩ := loadObjects_duplicate history (some plainMatcher) _
    ⟨Graph.empty, ObjectIds.empty⟩ formerRecord currentRecord hTwo rfl hKept hKept'
  cases hLoad.symm.trans (loadObjects_of_plan_error prepare_twice)
  exact ⟨hTwo, rfl, hKept, hKept', hLoad, hRefuses⟩

/-- People of the former layout are not wanted any more. -/
def withoutFormer : Matcher :=
  Matcher.of (Refactoring.ofTable (RenameTable.empty.insert "Person" none)) TypeSimilarity.empty

/-- A friend of the person with two records. -/
def friendRecord : Record := ⟨⟨1000⟩, ⟨2⟩, [3, 0, 0, 0, 1, 0, 0, 0, 0, 0, 0, 0]⟩

/-- The plan to load both people from their current records. -/
def remaining : List (PlannedRecord Slots) :=
  [⟨currentRecord, .object person, none⟩, ⟨friendRecord, .object person, none⟩]

theorem acceptable_remaining : ∀ p ∈ remaining, Chunk.Acceptable p.record := by
  have hFriend : 12 ≤ maxContentLength.toNat := by decide
  exact List.forall_mem_cons.2 ⟨acceptable_currentRecord, List.forall_mem_singleton.2 hFriend⟩

theorem split_remaining :
    Chunk.split (Chunk.join (formerRecord :: remaining.map (·.record))) =
      ⟨formerRecord :: remaining.map (·.record), none⟩ :=
  Chunk.split_join (List.forall_mem_cons.2
    ⟨acceptable_formerRecord, List.forall_mem_map.2 acceptable_remaining⟩)

theorem prepare_remaining :
    prepare (Registry.build history) (some withoutFormer) ObjectIds.empty
      (Chunk.join (formerRecord :: remaining.map (·.record))) = .ok (remaining, [⟨1⟩]) := by
  have hMigrate : migrate (Registry.build history) withoutFormer
      (Chunk.join (formerRecord :: remaining.map (·.record))) =
        .ok ⟨Chunk.join (remaining.map (·.record)), [⟨1⟩]⟩ := by
    simp only [migrate, split_remaining]
    rfl
  have hPlan : plan (Registry.build history) ObjectIds.empty
      (Chunk.join (remaining.map (·.record))) = .ok remaining := by
    apply plan_join acceptable_remaining (by decide)
    exact List.forall_mem_cons.2 ⟨⟨rfl, ⟨_, rfl⟩, by decide, rfl⟩,
      List.forall_mem_singleton.2 ⟨rfl, ⟨_, rfl⟩, by decide, rfl⟩⟩
  exact bind_eq_ok.2 ⟨_, hMigrate, bind_eq_ok.2 ⟨_, hPlan, rfl⟩⟩

/-- A person whose former record is dropped is loaded from the current one,
but nobody's friend any more. -/
theorem loadObjects_dropped_duplicate :
    ∃ live' x, (loadObjects (Registry.build history) (some withoutFormer)
        (Chunk.join (formerRecord :: remaining.map (·.record)))).start
          ⟨Graph.empty, ObjectIds.empty⟩ = (.ok [⟨0⟩, ⟨1⟩], live') ∧
      live'.ids.ref? ⟨1⟩ = some ⟨0⟩ ∧ live'.graph.get? ⟨1⟩ = some x ∧
      x.value .reference "friend" = .reference none := by
  refine ⟨_, _, loadObjects_eq_ok.2 ⟨remaining, [⟨1⟩], _, prepare_remaining, rfl, rfl⟩,
    rfl, rfl, rfl⟩

/-- A chunk with two records of one object is not always refused. -/
theorem not_refused_of_dropped :
    ¬∀ (registrations : List (Registration Slots)) (matcher : Option Matcher) (bytes : Bytes)
      (live : Live Slots) (r r' : Record),
      List.Sublist [r, r'] (Chunk.split bytes).records → r.object = r'.object →
      ∃ e, ((loadObjects (Registry.build registrations) matcher bytes).start live).1 =
        .error e := by
  intro hAll
  obtain ⟨live', x, hLoad, -⟩ := loadObjects_dropped_duplicate
  have hTwo : List.Sublist [formerRecord, currentRecord] (Chunk.split
      (Chunk.join (formerRecord :: remaining.map (·.record)))).records := by
    rw [split_remaining]
    exact List.sublist_append_left [formerRecord, currentRecord] [friendRecord]
  obtain ⟨e, hError⟩ := hAll history (some withoutFormer) _ ⟨Graph.empty, ObjectIds.empty⟩
    formerRecord currentRecord hTwo rfl
  rw [hLoad] at hError
  cases hError

end Slots

end ObjectStore
