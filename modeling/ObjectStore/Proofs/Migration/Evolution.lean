import ObjectStore.Proofs.Handler.Slots
import ObjectStore.Proofs.Loading.Success
import ObjectStore.Proofs.Migration.Translation
import ObjectStore.Proofs.Record.Chunk
import ObjectStore.Proofs.Registry.Registration

/-!
# Loading what older versions have stored

A chunk with records of legacy types is migrated and then loaded. An object
whose record is converted becomes an instance of the current type. Each
field of it holds what the first legacy member that is matched with it says
in the old record, and a field without such a member is blank. References
lead to the instances of the objects they named, except that those to
dropped objects are gone.

## Main results

* `MigratedChunk.migrate_ok`: what becomes of the records of a chunk.
* `loadObjects_migrates`: what the instances of legacy records hold.
-/

namespace ObjectStore

/-! ## Types that were removed -/

namespace Refactoring

variable {refactoring : Refactoring} {d : Definition} {α : Type} {lookup : String → Option α}

/-- A type whose name is known leads nowhere only if it was removed. -/
theorem currentType_ok {result : Option α} (hKnown : lookup d.name ≠ none)
    (h : refactoring.currentType d lookup = .ok result) :
    result = none ↔ refactoring.typeFate d = .deleted := by
  unfold currentType at h
  unfold typeFate
  split at h
  · cases h
    simp [hKnown]
  · cases h
    simp
  · rename_i source target hEntry
    split at h
    · cases h
      by_cases hSame : target = d.name <;> simp [hSame]
    · cases h

/-- A current type is found by a name. -/
theorem currentType_some {current : α} (h : refactoring.currentType d lookup = .ok (some current)) :
    ∃ name, lookup name = some current := by
  unfold currentType at h
  split at h
  · exact ⟨d.name, Except.ok.inj h⟩
  · cases h
  · rename_i source target _
    split at h
    · rename_i hFound
      cases h
      exact ⟨target, hFound⟩
    · cases h

end Refactoring

/-! ## Migrated chunks -/

namespace MigratedChunk

variable {ι : Type} {registry : Registry ι} {matcher : Matcher} {bytes : Bytes}
  {chunk : MigratedChunk} {r : Record}

/-- How the records of a legacy type are converted. -/
structure Converts (registry : Registry ι) (matcher : Matcher) (id : TypeId)
    (legacy current : Definition) (c : Conversion) : Prop where
  known : registry.definition? id = some legacy
  leads : matcher.refactoring.currentType legacy registry.current? = .ok (some current)
  handled : registry.handler? current.id ≠ none
  make : Conversion.make matcher legacy current = .ok c

theorem conversion?_ok {id : TypeId} {result : Option Conversion}
    (h : conversion? registry matcher id = .ok result) :
    ∃ legacy, registry.definition? id = some legacy ∧
      ((result = none ∧ matcher.refactoring.currentType legacy registry.current? = .ok none) ∨
        ∃ current c, result = some c ∧ Converts registry matcher id legacy current c) := by
  unfold conversion? at h
  cases hLegacy : registry.definition? id with
  | none =>
      rw [hLegacy] at h
      cases h
  | some legacy =>
      simp only [hLegacy] at h
      refine ⟨legacy, rfl, ?_⟩
      obtain ⟨current?, hCurrent, h⟩ := bind_eq_ok.1 h
      cases current? with
      | none =>
          cases h
          exact Or.inl ⟨rfl, hCurrent⟩
      | some current =>
          refine Or.inr ?_
          by_cases hRefused : (current.id = id || (registry.handler? current.id).isNone) = true
          · simp only [hRefused, if_true] at h
            cases h
          · simp only [hRefused] at h
            obtain ⟨c, hMake, h⟩ := bind_eq_ok.1 h
            cases h
            refine ⟨current, c, rfl, hLegacy, hCurrent, ?_, hMake⟩
            intro hNone
            simp [hNone] at hRefused

/-- What becomes of one record: it stays as it is, it is dropped, or it is
converted. -/
theorem migrateRecord_ok {result : Option Bytes}
    (h : migrateRecord registry matcher r = .ok result) :
    (registry.isLegacy r.type = false ∧ result = some r.encode) ∨
      registry.isLegacy r.type = true ∧
        ∃ legacy, registry.definition? r.type = some legacy ∧
          ((result = none ∧ matcher.refactoring.currentType legacy registry.current? = .ok none) ∨
            ∃ current c bytes, result = some bytes ∧ c.convert r = .ok bytes ∧
              Converts registry matcher r.type legacy current c) := by
  unfold migrateRecord at h
  cases hLegacy : registry.isLegacy r.type with
  | false =>
      simp only [hLegacy] at h
      cases h
      exact Or.inl ⟨rfl, rfl⟩
  | true =>
      simp only [hLegacy] at h
      obtain ⟨_, -, h⟩ := bind_eq_ok.1 h
      obtain ⟨conversion, hConversion, h⟩ := bind_eq_ok.1 h
      refine Or.inr ⟨rfl, ?_⟩
      obtain ⟨legacy, hDefinition, ⟨rfl, hNone⟩ | ⟨current, c, rfl, hConverts⟩⟩ :=
        conversion?_ok hConversion
      · cases h
        exact ⟨legacy, hDefinition, Or.inl ⟨rfl, hNone⟩⟩
      · obtain ⟨bytes, hConvert, h⟩ := bind_eq_ok.1 h
        cases h
        exact ⟨legacy, hDefinition, Or.inr ⟨current, c, bytes, rfl, hConvert, hConverts⟩⟩

theorem definition?_of_isLegacy {id : TypeId} (h : registry.isLegacy id = true) :
    ∃ legacy, registry.definition? id = some legacy := by
  simp only [Registry.isLegacy, Bool.and_eq_true] at h
  exact Option.isSome_iff_exists.1 h.2

/-- A legacy record is dropped if its type was removed, and is converted
otherwise. -/
theorem migrateRecord_legacy (hWellFormed : registry.WellFormed) {result : Option Bytes}
    {legacy : Definition} (h : migrateRecord registry matcher r = .ok result)
    (hLegacy : registry.isLegacy r.type = true)
    (hKnown : registry.definition? r.type = some legacy) :
    (result = none ↔ matcher.refactoring.typeFate legacy = .deleted) ∧
      ∀ bytes, result = some bytes → ∃ current c,
        Converts registry matcher r.type legacy current c ∧ c.convert r = .ok bytes := by
  have hName := Registry.current?_ne_none hWellFormed hKnown
  rcases migrateRecord_ok h with
    ⟨hCurrent, -⟩ |
      ⟨-, legacy', hKnown', ⟨rfl, hNone⟩ | ⟨current, c, bytes, rfl, hConvert, hConverts⟩⟩
  · rw [hLegacy] at hCurrent
    cases hCurrent
  · rw [hKnown] at hKnown'
    cases hKnown'
    have hFate := Refactoring.currentType_ok hName hNone
    exact ⟨by simpa using hFate, by simp⟩
  · rw [hKnown] at hKnown'
    cases hKnown'
    have hFate := Refactoring.currentType_ok hName hConverts.leads
    refine ⟨by simpa using hFate, ?_⟩
    intro bytes' hBytes
    cases hBytes
    exact ⟨current, c, hConverts, hConvert⟩

/-- What is left of a record that was not dropped. -/
structure Survives (o : Record × Option Bytes) (r' : Record) : Prop where
  acceptable : Chunk.Acceptable r'
  bytes : o.2 = some r'.encode
  object : r'.object = o.1.object

/-- What is left of a record is a record of the same object. -/
theorem survives_of_migrateRecord {outcome : Option Bytes} (hAcceptable : Chunk.Acceptable r)
    (h : migrateRecord registry matcher r = .ok outcome) (hKept : outcome ≠ none) :
    ∃ r', Survives (r, outcome) r' := by
  rcases migrateRecord_ok h with
    ⟨-, rfl⟩ | ⟨-, _, -, ⟨hNone, -⟩ | ⟨_, c, converted, rfl, hConvert, -⟩⟩
  · exact ⟨r, hAcceptable, rfl, rfl⟩
  · exact absurd hNone hKept
  · obtain ⟨-, parts, -, hSmall, hEncode⟩ := Conversion.convert_ok hConvert
    exact ⟨_, hSmall, congrArg some hEncode, rfl⟩

/-- What is left of a chunk. -/
theorem collect_bytes {outcomes : List (Record × Option Bytes)}
    (hEach : ∀ o ∈ outcomes, o.2 ≠ none → ∃ r', Survives o r') :
    ∃ records, (collect outcomes).bytes = Chunk.join records ∧
      List.Forall₂ Survives (outcomes.filter (·.2.isSome)) records := by
  induction outcomes with
  | nil => exact ⟨[], rfl, List.Forall₂.nil⟩
  | cons first rest ih =>
      obtain ⟨records, hBytes, hSurvive⟩ := ih fun o ho => hEach o (List.mem_cons_of_mem _ ho)
      obtain ⟨r, outcome⟩ := first
      cases outcome with
      | none => exact ⟨records, hBytes, hSurvive⟩
      | some bytes =>
          obtain ⟨r', hFirst⟩ := hEach _ List.mem_cons_self (Option.some_ne_none bytes)
          refine ⟨r' :: records, ?_, List.Forall₂.cons hFirst hSurvive⟩
          simp only [collect, hBytes, Option.some.inj hFirst.bytes, Chunk.join, List.flatMap_cons]

theorem mem_dropped_collect {outcomes : List (Record × Option Bytes)} {id : ObjectId} :
    id ∈ (collect outcomes).dropped ↔ ∃ o ∈ outcomes, o.2 = none ∧ o.1.object = id := by
  induction outcomes with
  | nil => simp [collect]
  | cons first rest ih =>
      obtain ⟨r, outcome⟩ := first
      cases outcome with
      | none =>
          simp only [collect, List.mem_cons, ih, exists_eq_or_imp]
          simp [eq_comm]
      | some bytes =>
          simp only [collect, List.mem_cons, ih, exists_eq_or_imp]
          simp

/-- An object of the chunk whose type was removed. -/
def Removed (registry : Registry ι) (matcher : Matcher) (bytes : Bytes) (id : ObjectId) : Prop :=
  ∃ r ∈ (Chunk.split bytes).records, r.object = id ∧ registry.isLegacy r.type = true ∧
    ∃ legacy, registry.definition? r.type = some legacy ∧
      matcher.refactoring.typeFate legacy = .deleted

/-- The outcomes are what migrating the records gives. -/
def Migrated (registry : Registry ι) (matcher : Matcher) (bytes : Bytes)
    (outcomes : List (Record × Option Bytes)) : Prop :=
  List.Forall₂ (fun r o => o.1 = r ∧ migrateRecord registry matcher r = .ok o.2)
    (Chunk.split bytes).records outcomes

theorem dropped_iff_removed (hWellFormed : registry.WellFormed)
    {outcomes : List (Record × Option Bytes)}
    (hMigrated : Migrated registry matcher bytes outcomes) (id : ObjectId) :
    (∃ o ∈ outcomes, o.2 = none ∧ o.1.object = id) ↔ Removed registry matcher bytes id := by
  constructor
  · rintro ⟨o, ho, hNone, rfl⟩
    obtain ⟨r, hr, hFst, hRecord⟩ := forall₂_exists_left hMigrated ho
    have hLegacy : registry.isLegacy r.type = true := by
      rcases migrateRecord_ok hRecord with ⟨-, hSame⟩ | ⟨hLegacy, -⟩
      · rw [hNone] at hSame
        cases hSame
      · exact hLegacy
    obtain ⟨legacy, hKnown⟩ := definition?_of_isLegacy hLegacy
    have hFate := (migrateRecord_legacy hWellFormed hRecord hLegacy hKnown).1
    exact ⟨r, hr, by rw [hFst], hLegacy, legacy, hKnown, hFate.1 hNone⟩
  · rintro ⟨r, hr, rfl, hLegacy, legacy, hKnown, hDeleted⟩
    obtain ⟨o, ho, hFst, hRecord⟩ := forall₂_exists_right hMigrated hr
    have hFate := (migrateRecord_legacy hWellFormed hRecord hLegacy hKnown).1
    exact ⟨o, ho, hFate.2 hDeleted, by rw [hFst]⟩

/-- A migrated chunk consists of what is left of the records. -/
structure Collected (registry : Registry ι) (matcher : Matcher) (bytes : Bytes)
    (outcomes : List (Record × Option Bytes)) (chunk : MigratedChunk) (records : List Record) :
    Prop where
  migrated : Migrated registry matcher bytes outcomes
  split : Chunk.split chunk.bytes = ⟨records, none⟩
  survive : List.Forall₂ Survives (outcomes.filter (·.2.isSome)) records
  left : ∀ o ∈ outcomes, o.2 ≠ none → ∃ r' ∈ records, Survives o r'
  sources : ∀ r' ∈ records, ∃ o ∈ outcomes, Survives o r'
  dropped : ∀ id, id ∈ chunk.dropped ↔ ∃ o ∈ outcomes, o.2 = none ∧ o.1.object = id

theorem collected_of_migrated {outcomes : List (Record × Option Bytes)}
    (hMigrated : Migrated registry matcher bytes outcomes) :
    ∃ records, Collected registry matcher bytes outcomes (collect outcomes) records := by
  obtain ⟨records, hBytes, hSurvive⟩ := @collect_bytes outcomes (by
    rintro ⟨r, outcome⟩ ho hKept
    obtain ⟨r', hr, hFst, hRecord⟩ := forall₂_exists_left hMigrated ho
    cases hFst
    exact survives_of_migrateRecord (Chunk.acceptable_of_mem_splitFrom 0 bytes r hr) hRecord hKept)
  refine ⟨records, hMigrated, ?_, hSurvive, ?_, ?_, fun id => mem_dropped_collect⟩
  · rw [hBytes]
    apply Chunk.split_join
    intro r' hr'
    obtain ⟨o, -, hSurvives⟩ := forall₂_exists_left hSurvive hr'
    exact hSurvives.acceptable
  · intro o ho hKept
    exact forall₂_exists_right hSurvive
      (List.mem_filter.2 ⟨ho, Option.isSome_iff_ne_none.2 hKept⟩)
  · intro r' hr'
    obtain ⟨o, ho, hSurvives⟩ := forall₂_exists_left hSurvive hr'
    exact ⟨o, List.mem_of_mem_filter ho, hSurvives⟩

/-- A migrated chunk is the chunk itself, or what became of its records. -/
theorem migrate_cases (h : migrate registry matcher bytes = .ok chunk) :
    (chunk = unchanged bytes ∧
        ∀ r ∈ (Chunk.split bytes).records, ¬registry.isLegacy r.type = true) ∨
      ∃ outcomes records, Collected registry matcher bytes outcomes chunk records := by
  unfold migrate at h
  cases hAny : (Chunk.split bytes).records.any fun r => registry.isLegacy r.type with
  | false =>
      simp only [hAny] at h
      cases h
      exact Or.inl ⟨rfl, List.any_eq_false.1 hAny⟩
  | true =>
      simp only [hAny] at h
      obtain ⟨outcomes, hOutcomes, h⟩ := bind_eq_ok.1 h
      obtain ⟨_, -, h⟩ := bind_eq_ok.1 h
      cases h
      have hMigrated : Migrated registry matcher bytes outcomes := by
        refine (mapM_eq_ok.1 hOutcomes).imp ?_
        intro r o ho
        obtain ⟨result, hResult, ho⟩ := bind_eq_ok.1 ho
        cases ho
        exact ⟨rfl, hResult⟩
      exact Or.inr ⟨outcomes, collected_of_migrated hMigrated⟩

/-- What becomes of the legacy records of a chunk: those of removed types are
dropped, and the others are converted. -/
theorem migrate_ok (hWellFormed : registry.WellFormed)
    (h : migrate registry matcher bytes = .ok chunk) :
    (∀ id, id ∈ chunk.dropped ↔ Removed registry matcher bytes id) ∧
      ∀ r ∈ (Chunk.split bytes).records, registry.isLegacy r.type = true →
        ∀ legacy, registry.definition? r.type = some legacy →
          matcher.refactoring.typeFate legacy ≠ .deleted →
          ∃ current c, ∃ r' ∈ (Chunk.split chunk.bytes).records, Chunk.Acceptable r' ∧
            Converts registry matcher r.type legacy current c ∧ c.convert r = .ok r'.encode := by
  rcases migrate_cases h with ⟨rfl, hNone⟩ | ⟨outcomes, records, hCollected⟩
  · refine ⟨?_, fun r hr hLegacy => absurd hLegacy (hNone r hr)⟩
    intro id
    constructor
    · intro hIn
      cases hIn
    · rintro ⟨r, hr, -, hLegacy, -⟩
      exact absurd hLegacy (hNone r hr)
  · refine ⟨?_, ?_⟩
    · intro id
      rw [hCollected.dropped id]
      exact dropped_iff_removed hWellFormed hCollected.migrated id
    · intro r hr hLegacy legacy hKnown hKept
      obtain ⟨o, ho, -, hRecord⟩ := forall₂_exists_right hCollected.migrated hr
      obtain ⟨hFate, hConverted⟩ := migrateRecord_legacy hWellFormed hRecord hLegacy hKnown
      obtain ⟨r', hr', hSurvives⟩ := hCollected.left o ho (mt hFate.1 hKept)
      obtain ⟨current, c, hConverts, hConvert⟩ := hConverted r'.encode hSurvives.bytes
      exact ⟨current, c, r', by rw [hCollected.split]; exact hr', hSurvives.acceptable, hConverts,
        hConvert⟩

/-- Migrating brings up no new objects. -/
theorem object_of_migrate (h : migrate registry matcher bytes = .ok chunk) {r' : Record}
    (hr' : r' ∈ (Chunk.split chunk.bytes).records) :
    ∃ r ∈ (Chunk.split bytes).records, r.object = r'.object := by
  rcases migrate_cases h with ⟨rfl, -⟩ | ⟨outcomes, records, hCollected⟩
  · exact ⟨r', hr', rfl⟩
  · rw [hCollected.split] at hr'
    obtain ⟨o, ho, hSurvives⟩ := hCollected.sources r' hr'
    obtain ⟨r, hr, hFst, -⟩ := forall₂_exists_left hCollected.migrated ho
    exact ⟨r, hr, by rw [hSurvives.object, hFst]⟩

/-- If no object has two records, then those that were not removed are still
there. -/
theorem object_migrate_iff (hWellFormed : registry.WellFormed)
    (hNodup : ((Chunk.split bytes).records.map Record.object).Nodup)
    (h : migrate registry matcher bytes = .ok chunk) (id : ObjectId) :
    (∃ r' ∈ (Chunk.split chunk.bytes).records, r'.object = id) ↔
      (∃ r ∈ (Chunk.split bytes).records, r.object = id) ∧
        ¬Removed registry matcher bytes id := by
  rcases migrate_cases h with ⟨rfl, hNone⟩ | ⟨outcomes, records, hCollected⟩
  · refine ⟨fun hIn => ⟨hIn, ?_⟩, And.left⟩
    rintro ⟨r, hr, -, hLegacy, -⟩
    exact hNone r hr hLegacy
  · have hRemoved := dropped_iff_removed hWellFormed hCollected.migrated id
    have hObjects : outcomes.map (·.1.object) =
        (Chunk.split bytes).records.map Record.object := by
      refine (map_eq_of_forall₂ (hCollected.migrated.imp ?_)).symm
      intro r o ho
      rw [ho.1]
    rw [← hObjects] at hNodup
    constructor
    · rintro ⟨r', hr', rfl⟩
      refine ⟨object_of_migrate h hr', fun hGone => ?_⟩
      rw [hCollected.split] at hr'
      obtain ⟨o, ho, hSurvives⟩ := hCollected.sources r' hr'
      obtain ⟨o', ho', hDropped, hObject⟩ := hRemoved.2 hGone
      have hSame := List.inj_on_of_nodup_map hNodup ho' ho (hObject.trans hSurvives.object)
      rw [hSame, hSurvives.bytes] at hDropped
      cases hDropped
    · rintro ⟨⟨r, hr, rfl⟩, hKept⟩
      obtain ⟨o, ho, hFst, -⟩ := forall₂_exists_right hCollected.migrated hr
      have hLeft : o.2 ≠ none := fun hDropped => hKept (hRemoved.1 ⟨o, ho, hDropped, by rw [hFst]⟩)
      obtain ⟨r', hr', hSurvives⟩ := hCollected.left o ho hLeft
      exact ⟨r', by rw [hCollected.split]; exact hr', hSurvives.object.trans (by rw [hFst])⟩

end MigratedChunk

/-! ## Migrated instances -/

namespace Access

open Loading

variable {ι : Type} {access : Access ι} {ids : ObjectIds} {dropped : List ObjectId} {r : Record}
  {offset : Nat} {x : ι}

/-- The member of an instance is what a record says at an offset, where the
objects of the record have these instances, except for the dropped ones. -/
def Carries (ids : ObjectIds) (dropped : List ObjectId) (r : Record) (offset : Nat)
    (access : Access ι) (x : ι) : Prop :=
  match access with
  | value kind get _ =>
      ∃ bytes, r.slice offset kind.width = .ok bytes ∧ kind.decode bytes = .ok (get x)
  | reference get _ =>
      ∃ id, r.readObjectId offset = .ok id ∧
        (get x = none ↔ id = ObjectId.null ∨ id ∈ dropped) ∧
        ∀ target, get x = some target → ids.ref? id = some target
  | bytes get _ => r.readVariable offset = .ok (get x)
  | text get _ => ∃ payload, r.readVariable offset = .ok payload ∧ Text.decode payload = .ok (get x)
  | references get _ =>
      ∃ list, r.readObjectIds offset = .ok list ∧
        (list.filter fun id => !dropped.contains id).map ids.ref? = (get x).map some

theorem resolver_ok {id : ObjectId} {target : Option Ref}
    (h : resolver ids dropped id = .ok target) :
    (target = none ↔ id = ObjectId.null ∨ id ∈ dropped) ∧
      ∀ ref, target = some ref → ids.ref? id = some ref := by
  unfold resolver at h
  split at h
  · rename_i hAbsent
    cases h
    simpa using hAbsent
  · rename_i hPresent
    split at h
    · rename_i ref hRef
      cases h
      exact ⟨by simpa using hPresent, fun _ hSome => Option.some.inj hSome ▸ hRef⟩
    · cases h

theorem resolveAll_ok {list : List ObjectId} {targets : List Ref}
    (h : resolveAll (resolver ids dropped) list = .ok targets) :
    (list.filter fun id => !dropped.contains id).map ids.ref? = targets.map some := by
  unfold resolveAll at h
  split at h
  · cases h
  · rename_i hNulls
    obtain ⟨found, hFound, hDone⟩ := bind_eq_ok.1 h
    cases hDone
    have hAll := mapM_eq_ok.1 hFound
    clear hFound h
    induction hAll with
    | nil => rfl
    | @cons id target rest found hHead _ ih =>
        rw [List.any_cons, Bool.or_eq_true, not_or] at hNulls
        obtain ⟨hAbsent, hBound⟩ := resolver_ok hHead
        have hNotNull : id ≠ ObjectId.null := by simpa using hNulls.1
        cases target with
        | none =>
            have hDropped : id ∈ dropped := (hAbsent.1 rfl).resolve_left hNotNull
            rw [List.filter_cons_of_neg (by simpa using hDropped), ih hNulls.2]
            rfl
        | some ref =>
            have hKept : id ∉ dropped := by
              intro hIn
              cases hAbsent.2 (Or.inr hIn)
            rw [List.filter_cons_of_pos (by simpa using hKept), List.map_cons, ih hNulls.2,
              hBound ref rfl]
            rfl

theorem carries_of_holds (h : access.Holds (resolver ids dropped) r offset x) :
    access.Carries ids dropped r offset x := by
  cases access with
  | value kind get set => exact h
  | bytes get set => exact h
  | text get set => exact h
  | reference get set =>
      obtain ⟨id, hRead, hLookup⟩ := h
      exact ⟨id, hRead, resolver_ok hLookup⟩
  | references get set =>
      obtain ⟨list, hRead, hResolve⟩ := h
      exact ⟨list, hRead, resolveAll_ok hResolve⟩

end Access

open Loading MigratedChunk

variable {ι : Type} [Instance ι] {registrations : List (Registration ι)} {matcher : Matcher}
  {bytes : Bytes} {live live' : Live ι} {refs : List Ref}

/-- A load that succeeds has made an instance of the current type of every
legacy object whose type was not removed. Each of its fields is what the
first legacy member that is matched with it says, or blank if there is
none. -/
theorem loadObjects_migrates (hLive : live.WellFormed)
    (hLawful : Lawful (Registry.build registrations))
    (h : (loadObjects (Registry.build registrations) (some matcher) bytes).start live =
      (.ok refs, live')) :
    ∃ dropped : List ObjectId,
      (∀ id, id ∈ dropped ↔ Removed (Registry.build registrations) matcher bytes id) ∧
      ∀ r ∈ (Chunk.split bytes).records,
        (Registry.build registrations).isLegacy r.type = true →
        ∀ legacy, (Registry.build registrations).definition? r.type = some legacy →
        matcher.refactoring.typeFate legacy ≠ .deleted →
        ∃ current hd d matching ref x,
          matcher.refactoring.currentType legacy (Registry.build registrations).current? =
            .ok (some current) ∧
          (Registry.build registrations).handler? current.id = some (.object hd) ∧
          hd.derived = .ok d ∧ matcher.run legacy current = .ok matching ∧
          live'.ids.ref? r.object = some ref ∧ live'.graph.get? ref = some x ∧
          Instance.runtimeType x = hd.runtime ∧
          ∀ f ∈ d.fields, ((∀ s, ¬matching.Feeds s f.member) ∧ f.payload.IsBlank x) ∨
            ∃ s place, matching.FirstSource legacy s f.member ∧ s.kind = f.payload.kind ∧
              s.offset = some place ∧
              f.payload.Carries live'.ids dropped r place.toNat x := by
  have hRegistry := Registry.wellFormed_build registrations
  obtain ⟨planned, dropped, hPrepare, -, -, -, hReflects⟩ := loadObjects_ok hLive hLawful h
  obtain ⟨chunk, hMigrate, -, hPlan, rfl⟩ := prepare_eq_ok hPrepare
  obtain ⟨-, hRecords, -, hChecked⟩ := plan_eq_ok hPlan
  obtain ⟨hDropped, hConverted⟩ := migrate_ok hRegistry (hMigrate matcher rfl)
  refine ⟨chunk.dropped, hDropped, ?_⟩
  intro r hr hLegacy legacy hKnown hKept
  obtain ⟨current, c, r', hr', hAcceptable, hConverts, hConvert⟩ :=
    hConverted r hr hLegacy legacy hKnown hKept
  rw [← hRecords] at hr'
  obtain ⟨p, hp, rfl⟩ := List.mem_map.1 hr'
  obtain ⟨ref, -, hBound, hd, d, x, hReflect⟩ := forall₂_exists_right hReflects hp
  obtain ⟨-, hTarget, matching, hRun, hDraws⟩ := Conversion.make_ok hConverts.make
  obtain ⟨-, parts, hParts, hSmall, hEncode⟩ := Conversion.convert_ok hConvert
  have hRecord := Chunk.encode_inj hAcceptable hSmall hEncode
  have hOrders := ObjectHandler.derived_eq_ok hReflect.derived
  have hHandler : (Registry.build registrations).handler? current.id = some (.object hd) := by
    have hType : p.record.type = current.id := by rw [hRecord, hTarget]
    rw [← hType, (hChecked p hp).handler, hReflect.handler]
  have hMembers : current.members = d.fields.map Declaration.member := by
    obtain ⟨name, hName⟩ := Refactoring.currentType_some hConverts.leads
    exact hRegistry.members hHandler hReflect.derived (Registry.current?_ok hRegistry hName).1
  have hFits : p.record.Fits := Chunk.fits_of_acceptable hAcceptable
  rw [hRecord] at hFits
  have hStands := Conversion.stands_of_draws hDraws hParts hFits
  rw [← hRecord] at hFits hStands
  have hObject : p.record.object = r.object := by rw [hRecord]
  refine ⟨current, hd, d, matching, ref, x, hConverts.leads, hHandler, hReflect.derived, hRun,
    hObject ▸ hBound, hReflect.get, hReflect.typed, ?_⟩
  intro f hf
  obtain ⟨part, -, hPart, source, hSource, hBytes⟩ :=
    forall₂_exists_right hStands (hMembers ▸ List.mem_map_of_mem hf)
  obtain ⟨position, hPosition, hHolds⟩ := hReflect.holds f hf
  have hNull : resolver live'.ids chunk.dropped ObjectId.null = .ok none := rfl
  rcases Access.holds_of_converted (hOrders.kind f hf) hPart hFits hPosition hNull hSource hBytes
    hHolds with hBlank | ⟨s, place, hFirst, hKind, hPlace, hOld⟩
  · exact Or.inl hBlank
  · exact Or.inr ⟨s, place, hFirst, hKind, hPlace, Access.carries_of_holds hOld⟩

/-! ## People of a former version -/

namespace Slots

/-- People as they were stored once, with the friend in front of the age. -/
def formerPerson : Definition where
  id := ⟨900⟩
  name := "Person"
  runtime := none
  members :=
    [⟨MemberId.unqualified "friend", .reference, "ref", some 0⟩,
      ⟨MemberId.unqualified "age", .primitive .u32, "u32", some 8⟩]
  laidOut := ⟨[Member.ofKind (MemberId.unqualified "friend") .reference,
    Member.ofKind (MemberId.unqualified "age") (.primitive .u32)], _, rfl⟩

/-- The registrations of a version that knows both layouts. -/
def history : List (Registration Slots) := [.type formerPerson, .handler ⟨0, .object person⟩]

/-- The matcher that goes by identifiers alone. -/
def plainMatcher : Matcher :=
  ⟨⟨RenameTable.empty, [], [], []⟩, TypeSimilarity.empty, 1, fun _ _ => 0⟩

theorem lawful_history : Lawful (Registry.build history) := by
  intro id h hHandler
  have hAll : (Registry.build history).allHandlers = [.object person] := rfl
  cases Registry.eq_of_handler? hAll hHandler
  exact lawful_person

/-- A person of the former layout who is five years old. -/
def formerRecord : Record := ⟨⟨900⟩, ⟨1⟩, [0, 0, 0, 0, 0, 0, 0, 0, 5, 0, 0, 0]⟩

/-- The plan to load the same person in the current layout. -/
def currentPlan : PlannedRecord Slots :=
  ⟨⟨⟨1000⟩, ⟨1⟩, [5, 0, 0, 0, 0, 0, 0, 0, 0, 0, 0, 0]⟩, .object person, none⟩

theorem acceptable_formerRecord : Chunk.Acceptable formerRecord := by
  show 12 ≤ maxContentLength.toNat
  decide

theorem acceptable_currentPlan : Chunk.Acceptable currentPlan.record := by
  show 12 ≤ maxContentLength.toNat
  decide

theorem split_formerRecord : Chunk.split (Chunk.join [formerRecord]) = ⟨[formerRecord], none⟩ :=
  Chunk.split_join (List.forall_mem_singleton.2 acceptable_formerRecord)

theorem prepare_formerRecord :
    prepare (Registry.build history) (some plainMatcher) ObjectIds.empty
      (Chunk.join [formerRecord]) = .ok ([currentPlan], []) := by
  have hMigrate : migrate (Registry.build history) plainMatcher (Chunk.join [formerRecord]) =
      .ok ⟨Chunk.join [currentPlan.record], []⟩ := by
    simp only [migrate, split_formerRecord]
    rfl
  have hNotNull : currentPlan.record.object ≠ ObjectId.null := by decide
  have hPlan : plan (Registry.build history) ObjectIds.empty (Chunk.join [currentPlan.record]) =
      .ok [currentPlan] :=
    @plan_join _ _ _ [currentPlan] (List.forall_mem_singleton.2 acceptable_currentPlan)
      (List.nodup_singleton _) (List.forall_mem_singleton.2 ⟨rfl, ⟨_, rfl⟩, hNotNull, rfl⟩)
  exact bind_eq_ok.2 ⟨_, hMigrate, bind_eq_ok.2 ⟨_, hPlan, rfl⟩⟩

/-- What is live once the person of the former layout is loaded. -/
def revived : Live Slots :=
  ((loadObjects (Registry.build history) (some plainMatcher) (Chunk.join [formerRecord])).start
    ⟨Graph.empty, ObjectIds.empty⟩).2

theorem loadObjects_migrates_person :
    (⟨Graph.empty, ObjectIds.empty⟩ : Live Slots).WellFormed ∧ Lawful (Registry.build history) ∧
      (loadObjects (Registry.build history) (some plainMatcher) (Chunk.join [formerRecord])).start
        ⟨Graph.empty, ObjectIds.empty⟩ = (.ok [⟨0⟩], revived) ∧
      ∃ ref x, revived.ids.ref? ⟨1⟩ = some ref ∧ revived.graph.get? ref = some x ∧
        Instance.runtimeType x = ⟨"Person"⟩ := by
  have hEmpty : (⟨Graph.empty, ObjectIds.empty⟩ : Live Slots).WellFormed :=
    Live.wellFormed_empty _
  have hLoad : (loadObjects (Registry.build history) (some plainMatcher)
      (Chunk.join [formerRecord])).start ⟨Graph.empty, ObjectIds.empty⟩ = (.ok [⟨0⟩], revived) := by
    simp only [revived, loadObjects, Attempt.start_of, prepare_formerRecord]
    rfl
  have hIn : formerRecord ∈ (Chunk.split (Chunk.join [formerRecord])).records := by
    rw [split_formerRecord]
    exact List.mem_singleton.2 rfl
  obtain ⟨dropped, -, hInstances⟩ := loadObjects_migrates hEmpty lawful_history hLoad
  obtain ⟨current, hd, d, matching, ref, x, hCurrent, hHandler, -, -, hRef, hGet, hTyped, -⟩ :=
    hInstances formerRecord hIn rfl formerPerson rfl (by decide)
  cases hCurrent
  cases hHandler
  exact ⟨hEmpty, lawful_history, hLoad, ref, x, hRef, hGet, hTyped⟩

end Slots

end ObjectStore
