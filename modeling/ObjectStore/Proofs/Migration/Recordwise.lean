import ObjectStore.Proofs.Migration.Survivors
import ObjectStore.Proofs.Record.Lengths
import ObjectStore.Proofs.Refactoring.Resolution

/-!
# Record by record

Whether a record is kept, converted or dropped is a question of its type
alone. A type with a handler is kept, and so is one that nothing is known of.
For any other type the table is asked: the first of its written names that
has an entry decides. A record is dropped if this entry says that the type
was removed, and in no other case. Without an entry the name of the type
still applies, and a name that was once registered always leads to a type,
so that a record cannot get lost for want of one.

## Main results

* `Refactoring.typeEntry?_iff`: which entry decides about a type.
* `MigratedChunk.converted_of_converts`: what a converted record is like.
* `MigratedChunk.migrate_recordwise`: what becomes of the records of a chunk.
-/

namespace ObjectStore

/-! ## The entry that decides -/

namespace Refactoring

variable {refactoring : Refactoring} {d : Definition} {source name : String}
  {entry : Option String} {α : Type} {lookup : String → Option α}

/-- The first way to write the type that has an entry has this one. -/
def FirstEntry (refactoring : Refactoring) (d : Definition) (source : String)
    (entry : Option String) : Prop :=
  ∃ before key after, refactoring.typeKeys = before ++ key :: after ∧ key d = some source ∧
    refactoring.table.get? source = some entry ∧
      ∀ other ∈ before, ∀ written, other d = some written →
        refactoring.table.get? written = none

/-- No way to write the type has an entry. -/
def Unlisted (refactoring : Refactoring) (d : Definition) : Prop :=
  ∀ key ∈ refactoring.typeKeys, ∀ written, key d = some written →
    refactoring.table.get? written = none

/-- The table says that the type was removed. -/
def Deletes (refactoring : Refactoring) (d : Definition) : Prop :=
  ∃ source, refactoring.FirstEntry d source none

/-- The type is to be found by the name: by that of its entry or, without an
entry, by its own. -/
def Names (refactoring : Refactoring) (d : Definition) (name : String) : Prop :=
  (∃ source, refactoring.FirstEntry d source (some name)) ∨
    refactoring.Unlisted d ∧ name = d.name

theorem typeEntry?_iff :
    refactoring.typeEntry? d = some (source, entry) ↔ refactoring.FirstEntry d source entry :=
  RenameTable.decides_iff

theorem typeEntry?_eq_none : refactoring.typeEntry? d = none ↔ refactoring.Unlisted d :=
  RenameTable.silent_iff

theorem typeFate_eq_deleted : refactoring.typeFate d = .deleted ↔ refactoring.Deletes d := by
  simp only [Deletes, ← typeEntry?_iff]
  unfold typeFate
  split
  · rename_i hNone
    simp [hNone]
  · rename_i source hEntry
    simp [hEntry]
  · rename_i source target hEntry
    by_cases hSame : target = d.name <;> simp [hSame, hEntry]

/-- A current type is found by the name that the table leads to. -/
theorem names_of_currentType {current : α}
    (h : refactoring.currentType d lookup = .ok (some current)) :
    ∃ name, refactoring.Names d name ∧ lookup name = some current := by
  unfold currentType at h
  split at h
  · rename_i hNone
    exact ⟨d.name, Or.inr ⟨typeEntry?_eq_none.1 hNone, rfl⟩, Except.ok.inj h⟩
  · cases h
  · rename_i source target hEntry
    split at h
    · rename_i hFound
      cases h
      exact ⟨target, Or.inl ⟨source, typeEntry?_iff.1 hEntry⟩, hFound⟩
    · cases h

end Refactoring

/-! ## The types on both sides -/

namespace Registry

variable {ι : Type} {r : Registry ι}

/-- The type has a definition, and no handler. -/
def LegacyType (r : Registry ι) (id : TypeId) (legacy : Definition) : Prop :=
  r.handler? id = none ∧ r.definition? id = some legacy

/-- Of all registered types with the name, this is the one with the highest
identifier. -/
structure CurrentType (r : Registry ι) (name : String) (current : Definition) : Prop where
  known : r.definition? current.id = some current
  named : current.name = name
  highest : ∀ id other, r.definition? id = some other → other.name = name →
    id.value ≤ current.id.value

theorem isLegacy_iff {id : TypeId} :
    r.isLegacy id = true ↔ ∃ legacy, r.LegacyType id legacy := by
  simp [isLegacy, LegacyType, Option.isSome_iff_exists]

theorem WellFormed.currentType (h : r.WellFormed) {name : String} {current : Definition}
    (hCurrent : r.current? name = some current) : r.CurrentType name current := by
  obtain ⟨hKnown, hNamed⟩ := current?_ok h hCurrent
  exact ⟨hKnown, hNamed, fun _ _ hOther hName => current?_highest h hCurrent hOther hName⟩

end Registry

/-! ## Converted records -/

namespace Conversion

variable {legacy current : Definition} {matching : Matching} {target : Member}
  {source : MemberSource} {r : Record} {part : Bytes}

/-- The part of a current member has a length that its kind allows. -/
theorem measures_of_draws (hDraws : Draws legacy matching target source)
    (hBytes : memberBytes r source = .ok part) : Record.Measures target part := by
  refine ⟨fills_of_draws hDraws hBytes, fun hVariable => ?_⟩
  rcases hDraws with ⟨-, rfl⟩ | ⟨s, offset, -, -, -, rfl⟩
  · simp only [memberBytes, hVariable, if_true] at hBytes
    cases hBytes
    rw [Access.length_writeVariable]
    exact Nat.le_add_right _ _
  · simp only [memberBytes, hVariable, if_true] at hBytes
    obtain ⟨payload, -, rfl⟩ := map_eq_ok.1 hBytes
    rw [Access.length_writeVariable]
    exact Nat.le_add_right _ _

/-- The current definition accepts what its members are drawn from. -/
theorem acceptsLength_of_draws {members : List MemberSource} {parts : List Bytes} {type : TypeId}
    {object : ObjectId} (hDraws : List.Forall₂ (Draws legacy matching) current.members members)
    (hParts : List.Forall₂ (fun source part => memberBytes r source = .ok part) members parts)
    (hAcceptable : Chunk.Acceptable ⟨type, object, parts.flatten⟩) :
    current.acceptsLength (Record.length ⟨type, object, parts.flatten⟩) = true := by
  have hMeasures : List.Forall₂ Record.Measures current.members parts := by
    refine (forall₂_comp hDraws hParts).imp ?_
    rintro m part ⟨source, hSource, hBytes⟩
    exact measures_of_draws hSource hBytes
  exact Definition.acceptsLength_of_parts hMeasures rfl hAcceptable

/-- The current definition accepts the length of a converted record. -/
theorem acceptsLength_of_convert {matcher : Matcher} {c : Conversion} {bytes : Bytes}
    (hMake : make matcher legacy current = .ok c) (hConvert : c.convert r = .ok bytes) :
    ∃ r' : Record, bytes = r'.encode ∧ Chunk.Acceptable r' ∧ r'.object = r.object ∧
      r'.type = current.id ∧ current.acceptsLength r'.length = true := by
  obtain ⟨-, hTarget, matching, -, hDraws⟩ := make_ok hMake
  obtain ⟨-, parts, hParts, hAcceptable, hEncode⟩ := convert_ok hConvert
  exact ⟨_, hEncode, hAcceptable, rfl, hTarget, acceptsLength_of_draws hDraws hParts hAcceptable⟩

end Conversion

namespace MigratedChunk

variable {ι : Type} {registry : Registry ι} {matcher : Matcher} {bytes : Bytes}
  {chunk : MigratedChunk} {r r' : Record} {legacy : Definition}
  {outcomes : List (Record × Option Bytes)}

/-- The record is one of the same object and of the type that the name of its
legacy type leads to. -/
structure Converted (registry : Registry ι) (matcher : Matcher) (legacy : Definition)
    (r r' : Record) : Prop where
  object : r'.object = r.object
  acceptable : Chunk.Acceptable r'
  current : ∃ name current handler, matcher.refactoring.Names legacy name ∧
    registry.CurrentType name current ∧ registry.handler? current.id = some handler ∧
      r'.type = current.id ∧ current.acceptsLength r'.length = true

/-- What becomes of one record. -/
structure Becomes (registry : Registry ι) (matcher : Matcher) (r : Record) (output : Bytes) :
    Prop where
  kept : (∀ legacy, ¬registry.LegacyType r.type legacy) → output = r.encode
  dropped : ∀ legacy, registry.LegacyType r.type legacy → matcher.refactoring.Deletes legacy →
    output = []
  converted : ∀ legacy, registry.LegacyType r.type legacy →
    ¬matcher.refactoring.Deletes legacy →
      ∃ r', output = r'.encode ∧ Converted registry matcher legacy r r'

theorem converted_of_converts (hWellFormed : registry.WellFormed) {current : Definition}
    {c : Conversion} {converted : Bytes}
    (hConverts : Converts registry matcher r.type legacy current c)
    (hConvert : c.convert r = .ok converted) :
    ∃ r', converted = r'.encode ∧ Converted registry matcher legacy r r' := by
  obtain ⟨r', hEncode, hAcceptable, hObject, hType, hLength⟩ :=
    Conversion.acceptsLength_of_convert hConverts.make hConvert
  obtain ⟨name, hNames, hCurrent⟩ := Refactoring.names_of_currentType hConverts.leads
  obtain ⟨handler, hHandler⟩ := Option.ne_none_iff_exists'.1 hConverts.handled
  exact ⟨r', hEncode, hObject, hAcceptable, name, current, handler, hNames,
    hWellFormed.currentType hCurrent, hHandler, hType, hLength⟩

/-- A record is dropped if its type was removed, and in no other case. -/
theorem migrateRecord_eq_none (hWellFormed : registry.WellFormed) {left : Option Bytes}
    (h : migrateRecord registry matcher r = .ok left) :
    left = none ↔
      ∃ legacy, registry.LegacyType r.type legacy ∧ matcher.refactoring.Deletes legacy := by
  cases hLegacy : registry.isLegacy r.type with
  | false =>
      rcases migrateRecord_ok h with ⟨-, rfl⟩ | ⟨hTrue, -⟩
      · refine ⟨fun hNone => (Option.some_ne_none _ hNone).elim, ?_⟩
        rintro ⟨legacy, hType, -⟩
        rw [Registry.isLegacy_iff.2 ⟨legacy, hType⟩] at hLegacy
        cases hLegacy
      · rw [hLegacy] at hTrue
        cases hTrue
  | true =>
      obtain ⟨legacy, hType⟩ := Registry.isLegacy_iff.1 hLegacy
      rw [(migrateRecord_legacy hWellFormed h hLegacy hType.2).1, Refactoring.typeFate_eq_deleted]
      constructor
      · exact fun hDeletes => ⟨legacy, hType, hDeletes⟩
      · rintro ⟨other, hOther, hDeletes⟩
        have hSame : other = legacy := Option.some.inj (hOther.2.symm.trans hType.2)
        rwa [hSame] at hDeletes

theorem becomes_of_migrateRecord (hWellFormed : registry.WellFormed) {left : Option Bytes}
    (h : migrateRecord registry matcher r = .ok left) :
    Becomes registry matcher r (left.getD []) where
  kept := by
    intro hNot
    rcases migrateRecord_ok h with ⟨-, rfl⟩ | ⟨hLegacy, -⟩
    · rfl
    · obtain ⟨legacy, hType⟩ := Registry.isLegacy_iff.1 hLegacy
      exact absurd hType (hNot legacy)
  dropped := by
    intro legacy hType hDeletes
    rw [(migrateRecord_eq_none hWellFormed h).2 ⟨legacy, hType, hDeletes⟩]
    rfl
  converted := by
    intro legacy hType hKept
    have hLegacy := Registry.isLegacy_iff.2 ⟨legacy, hType⟩
    obtain ⟨hFate, hConverted⟩ := migrateRecord_legacy hWellFormed h hLegacy hType.2
    rw [Refactoring.typeFate_eq_deleted] at hFate
    obtain ⟨converted, rfl⟩ := Option.ne_none_iff_exists'.1 (mt hFate.1 hKept)
    obtain ⟨current, c, hConverts, hConvert⟩ := hConverted converted rfl
    exact converted_of_converts hWellFormed hConverts hConvert

/-- A chunk is what is left of its records, in their order. -/
theorem collect_flatten (outcomes : List (Record × Option Bytes)) :
    (collect outcomes).bytes = (outcomes.map fun o => o.2.getD []).flatten := by
  induction outcomes with
  | nil => rfl
  | cons first rest ih =>
      obtain ⟨r, left⟩ := first
      cases left with
      | none => exact ih
      | some bytes =>
          rw [collect, List.map_cons, List.flatten_cons, ← ih]
          rfl

/-- A chunk is migrated record by record, and a record is lost only if its
type was removed on purpose. -/
theorem migrate_recordwise (registrations : List (Registration ι)) (matcher : Matcher)
    (bytes : Bytes) (records : List Record) (chunk : MigratedChunk)
    (hSplit : Chunk.split bytes = ⟨records, none⟩)
    (h : migrate (Registry.build registrations) matcher bytes = .ok chunk) :
    Chunk.join records = bytes ∧
      (∃ outputs, List.Forall₂ (Becomes (Registry.build registrations) matcher) records outputs ∧
        chunk.bytes = outputs.flatten) ∧
      ∀ id, id ∈ chunk.dropped ↔ ∃ r ∈ records, r.object = id ∧ ∃ legacy,
        (Registry.build registrations).LegacyType r.type legacy ∧
          matcher.refactoring.Deletes legacy := by
  have hWellFormed := Registry.wellFormed_build registrations
  have hJoin : Chunk.join records = bytes := by
    have hWhole := @Chunk.join_of_split bytes (by rw [hSplit])
    rwa [hSplit] at hWhole
  have hAcceptable : ∀ r ∈ records, Chunk.Acceptable r := by
    have hAll := Chunk.acceptable_of_mem_splitFrom 0 bytes
    rw [← Chunk.split, hSplit] at hAll
    exact hAll
  rw [← hJoin] at h
  obtain ⟨outcomes, hOutcomes, rfl⟩ := (migrate_join_eq_ok hAcceptable).1 h
  refine ⟨hJoin, ⟨outcomes.map fun o => o.2.getD [], ?_, collect_flatten outcomes⟩, fun id => ?_⟩
  · rw [List.forall₂_map_right_iff]
    refine hOutcomes.imp ?_
    rintro r o ⟨-, hRecord⟩
    exact becomes_of_migrateRecord hWellFormed hRecord
  · rw [mem_dropped_collect]
    constructor
    · rintro ⟨o, ho, hNone, rfl⟩
      obtain ⟨r, hr, hFst, hRecord⟩ := forall₂_exists_left hOutcomes ho
      exact ⟨r, hr, by rw [hFst], (migrateRecord_eq_none hWellFormed hRecord).1 hNone⟩
    · rintro ⟨r, hr, rfl, hRemoved⟩
      obtain ⟨o, ho, hFst, hRecord⟩ := forall₂_exists_right hOutcomes hr
      exact ⟨o, ho, (migrateRecord_eq_none hWellFormed hRecord).2 hRemoved, by rw [hFst]⟩

end MigratedChunk

/-! ## A chunk with records of all sorts -/

namespace Slots

open MigratedChunk

/-- Bicycles, which only a former version has stored. -/
def formerBicycle : Definition where
  id := ⟨901⟩
  name := "Bicycle"
  runtime := none
  members := [⟨MemberId.unqualified "owner", .reference, "ref", some 0⟩]
  laidOut := ⟨[Member.ofKind (MemberId.unqualified "owner") .reference], _, rfl⟩

/-- The registrations of a version that knows people in both layouts, and
bicycles by their definition. -/
def garage : List (Registration Slots) := .type formerBicycle :: history

/-- Bicycles are not wanted any more. -/
def withoutBicycles : Matcher :=
  { plainMatcher with
    refactoring := Refactoring.ofTable (RenameTable.empty.insert "Bicycle" none) }

/-- A bicycle of the person of the former layout. -/
def bicycleRecord : Record := ⟨⟨901⟩, ⟨2⟩, [1, 0, 0, 0, 0, 0, 0, 0]⟩

/-- The friend of that person, in the current layout. -/
def neighbourRecord : Record := ⟨⟨1000⟩, ⟨3⟩, [6, 0, 0, 0, 1, 0, 0, 0, 0, 0, 0, 0]⟩

theorem split_garage : Chunk.split (Chunk.join [bicycleRecord, formerRecord, neighbourRecord]) =
    ⟨[bicycleRecord, formerRecord, neighbourRecord], none⟩ := by
  have hBicycle : 8 ≤ maxContentLength.toNat := by decide
  have hNeighbour : 12 ≤ maxContentLength.toNat := by decide
  exact Chunk.split_join (List.forall_mem_cons.2 ⟨hBicycle, List.forall_mem_cons.2
    ⟨acceptable_formerRecord, List.forall_mem_singleton.2 hNeighbour⟩⟩)

/-- The bicycle is dropped, the person is converted, and the friend is
kept. -/
theorem migrate_recordwise_garage :
    Chunk.split (Chunk.join [bicycleRecord, formerRecord, neighbourRecord]) =
        ⟨[bicycleRecord, formerRecord, neighbourRecord], none⟩ ∧
      migrate (Registry.build garage) withoutBicycles
          (Chunk.join [bicycleRecord, formerRecord, neighbourRecord]) =
        .ok ⟨Chunk.join [currentPlan.record, neighbourRecord], [⟨2⟩]⟩ ∧
      ∃ r', Converted (Registry.build garage) withoutBicycles formerPerson formerRecord r' ∧
        Chunk.join [currentPlan.record, neighbourRecord] = r'.encode ++ neighbourRecord.encode := by
  have hMigrate : migrate (Registry.build garage) withoutBicycles
      (Chunk.join [bicycleRecord, formerRecord, neighbourRecord]) =
        .ok ⟨Chunk.join [currentPlan.record, neighbourRecord], [⟨2⟩]⟩ := by
    simp only [migrate, split_garage]
    rfl
  refine ⟨split_garage, hMigrate, ?_⟩
  obtain ⟨-, ⟨outputs, hBecomes, hBytes⟩, -⟩ :=
    migrate_recordwise garage withoutBicycles _ _ _ split_garage hMigrate
  obtain _ | ⟨hBicycle, _ | ⟨hPerson, _ | ⟨hNeighbour, ⟨⟩⟩⟩⟩ := hBecomes
  have hBicycleDeleted : withoutBicycles.refactoring.Deletes formerBicycle :=
    Refactoring.typeFate_eq_deleted.1 rfl
  have hPersonKept : ¬withoutBicycles.refactoring.Deletes formerPerson :=
    mt Refactoring.typeFate_eq_deleted.2 (by decide)
  have hNotLegacy : ∀ legacy,
      ¬(Registry.build garage).LegacyType neighbourRecord.type legacy := by
    rintro legacy ⟨hNone, -⟩
    cases hNone
  obtain ⟨r', rfl, hConverted⟩ := hPerson.converted formerPerson ⟨rfl, rfl⟩ hPersonKept
  refine ⟨r', hConverted, ?_⟩
  rw [hBicycle.dropped formerBicycle ⟨rfl, rfl⟩ hBicycleDeleted, hNeighbour.kept hNotLegacy]
    at hBytes
  simpa using hBytes

end Slots

end ObjectStore
