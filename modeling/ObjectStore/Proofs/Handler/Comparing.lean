import ObjectStore.Proofs.Handler.Canonical
import ObjectStore.Proofs.Handler.Repeating

/-!
# Instances that are compared with their records

An instance none of whose fields can be set is not brought up to date. It is
compared with the record, field by field and by the kind of each field: bytes
with bytes, and what a stored identifier leads to with the instance that is
referred to. Where the identifiers are the names of the instances, this is the
same as to write the instance once more and to compare the bytes, also if the
record is one that nobody has written.

The first field in layout order that differs is named in the failure.

## Main results

* `Access.matchesStored_iff`: one field is found to match exactly if what would
  be written of it stands at its offset.
* `ObjectHandler.checkStored_differs`: why a comparison fails.
* `ObjectHandler.refresh_compares`: what a comparison finds.
-/

namespace ObjectStore

variable {ι σ : Type}

/-! ## Members -/

namespace Access

/-- At an offset of the record stands what a member of the kind can be compared
with, and the objects that it names are known. -/
def Comparable (lookup : Lookup) (r : Record) (offset : Nat) : FieldKind → Prop
  | .primitive kind => ∃ bytes, r.slice offset kind.width = .ok bytes
  | .reference => ∃ id target, r.readObjectId offset = .ok id ∧ lookup id = .ok target
  | .bytes | .text => ∃ payload, r.readVariable offset = .ok payload
  | .referenceList => ∃ ids, r.readObjectIds offset = .ok ids ∧
      ∀ id ∈ ids, ∃ target, lookup id = .ok target

variable {access : Access ι} {lookup : Lookup} {names : Ref → Option ObjectId} {r : Record}
  {m : Member} {offset : UInt64} {x : ι}

/-- A member that is found to match is written as what stands there. -/
theorem stands_of_matchesStored (hInverse : IsInverse lookup names) (hKind : m.kind = access.kind)
    (hOffset : m.offset = some offset)
    (h : access.matchesStored lookup offset.toNat r x = .ok true) :
    r.Stands m (access.bytesOf (nameIn names) x) := by
  cases access with
  | value kind get set =>
      obtain ⟨bytes, hRead, h⟩ := bind_eq_ok.1 h
      have hSame := of_decide_eq_true (Except.ok.inj h)
      rw [bytesOf, ← hSame]
      exact Record.stands_of_slice (by rw [hKind]; rfl) hOffset (orCorrupt_eq_ok.1 hRead)
  | reference get set =>
      obtain ⟨id, hRead, h⟩ := bind_eq_ok.1 h
      obtain ⟨target, hLookup, h⟩ := bind_eq_ok.1 h
      have hSame : target = get x := of_decide_eq_true (Except.ok.inj h)
      have hName := (name_of_lookup hInverse hLookup).1
      rw [hSame] at hName
      rw [bytesOf, hName]
      exact Record.stands_of_readObjectId (by rw [hKind]; rfl) hOffset (orCorrupt_eq_ok.1 hRead)
  | bytes get set =>
      obtain ⟨payload, hRead, h⟩ := bind_eq_ok.1 h
      have hSame := of_decide_eq_true (Except.ok.inj h)
      rw [bytesOf, ← hSame]
      exact Record.stands_of_readVariable hOffset (orCorrupt_eq_ok.1 hRead)
  | text get set =>
      obtain ⟨payload, hRead, h⟩ := bind_eq_ok.1 h
      have hSame := of_decide_eq_true (Except.ok.inj h)
      rw [bytesOf, ← hSame]
      exact Record.stands_of_readVariable hOffset (orCorrupt_eq_ok.1 hRead)
  | references get set =>
      obtain ⟨ids, hRead, h⟩ := bind_eq_ok.1 h
      by_cases hLength : ids.length = (get x).length
      · rw [if_pos hLength] at h
        obtain ⟨found, hFound, h⟩ := bind_eq_ok.1 h
        have hSame : found = (get x).map some := of_decide_eq_true (Except.ok.inj h)
        rw [hSame] at hFound
        have hEach := mapM_eq_ok.1 hFound
        have hNotNull : ∀ id ∈ ids, id ≠ ObjectId.null := by
          rintro id hId rfl
          obtain ⟨target, hTarget, hLookup⟩ := forall₂_exists_right hEach hId
          rw [hInverse.null] at hLookup
          cases hLookup
          simp at hTarget
        have hNames := (names_of_mapM hInverse hNotNull hEach).1
        have hAll : ((get x).map some).filterMap id = get x := by
          rw [List.filterMap_map]
          exact List.filterMap_some
        rw [hAll] at hNames
        rw [bytesOf, hNames]
        exact Record.stands_of_readObjectIds hOffset (orCorrupt_eq_ok.1 hRead)
      · rw [if_neg hLength] at h
        cases h

/-- A member is found to match exactly if what would be written of it stands at
its offset. -/
theorem matchesStored_iff (hFits : r.Fits) (hInverse : IsInverse lookup names)
    (hKind : m.kind = access.kind) (hOffset : m.offset = some offset)
    (hNamed : ∀ ref ∈ access.held x, ∃ id, names ref = some id) :
    access.matchesStored lookup offset.toNat r x = .ok true ↔
      r.Stands m (access.bytesOf (nameIn names) x) := by
  constructor
  · exact stands_of_matchesStored hInverse hKind hOffset
  · intro hStands
    have hWritten := written_of_stands hFits hKind hStands hOffset
    exact hWritten.matchesStored hInverse.null (hInverse.leads hNamed)

/-- Where there is something to compare with, a comparison finds an answer. -/
theorem matchesStored_isOk {place : Nat} (h : Comparable lookup r place access.kind) (x : ι) :
    ∃ found, access.matchesStored lookup place r x = .ok found := by
  cases access with
  | value kind get set =>
      obtain ⟨bytes, hRead⟩ := h
      exact ⟨_, bind_eq_ok.2 ⟨bytes, orCorrupt_eq_ok.2 hRead, rfl⟩⟩
  | reference get set =>
      obtain ⟨id, target, hRead, hLookup⟩ := h
      exact ⟨_, bind_eq_ok.2 ⟨id, orCorrupt_eq_ok.2 hRead, bind_eq_ok.2 ⟨target, hLookup, rfl⟩⟩⟩
  | bytes get set =>
      obtain ⟨payload, hRead⟩ := h
      exact ⟨_, bind_eq_ok.2 ⟨payload, orCorrupt_eq_ok.2 hRead, rfl⟩⟩
  | text get set =>
      obtain ⟨payload, hRead⟩ := h
      exact ⟨_, bind_eq_ok.2 ⟨payload, orCorrupt_eq_ok.2 hRead, rfl⟩⟩
  | references get set =>
      obtain ⟨ids, hRead, hKnown⟩ := h
      by_cases hLength : ids.length = (get x).length
      · obtain ⟨found, hFound⟩ := forall₂_of_exists hKnown
        refine ⟨found = (get x).map some, bind_eq_ok.2 ⟨ids, orCorrupt_eq_ok.2 hRead, ?_⟩⟩
        rw [if_pos hLength]
        exact bind_eq_ok.2 ⟨found, mapM_eq_ok.2 hFound, rfl⟩
      · refine ⟨false, bind_eq_ok.2 ⟨ids, orCorrupt_eq_ok.2 hRead, ?_⟩⟩
        rw [if_neg hLength]
        rfl

end Access

/-! ## Fields -/

namespace ObjectHandler

variable {h : ObjectHandler ι} {d : Derived ι} {lookup : Lookup} {r : Record} {x : ι}

/-- A derived field can be compared with the record. -/
def ComparableAt (lookup : Lookup) (r : Record) (f : Declaration (Access ι)) : Prop :=
  ∃ offset, f.member.offset = some offset ∧
    Access.Comparable lookup r offset.toNat f.payload.kind

/-- If all fields can be compared, a comparison fails at the first one that
does not match. -/
theorem checkStored_differs {typeName : String} {fields : List (Declaration (Access ι))}
    (hComparable : ∀ f ∈ fields, ComparableAt lookup r f)
    (hNot : ¬∀ f ∈ fields, MatchesAt lookup r x f) :
    ∃ front f back, fields = front ++ f :: back ∧ (∀ g ∈ front, MatchesAt lookup r x g) ∧
      ¬MatchesAt lookup r x f ∧ checkStored typeName lookup r x fields =
        .error (.stateMismatch typeName f.member.id.render r.object) := by
  induction fields with
  | nil => exact absurd (by simp) hNot
  | cons f rest ih =>
      obtain ⟨⟨offset, hOffset, hHead⟩, hRest⟩ := List.forall_mem_cons.1 hComparable
      have hPlace : f.member.place = .ok offset := by rw [Member.place, hOffset]
      obtain ⟨found, hFound⟩ := Access.matchesStored_isOk hHead x
      by_cases hSame : found = true
      · subst hSame
        have hFirst : MatchesAt lookup r x f := ⟨offset, hOffset, hFound⟩
        obtain ⟨front, g, back, rfl, hFront, hDiffers, hCheck⟩ :=
          ih hRest fun hAll => hNot (List.forall_mem_cons.2 ⟨hFirst, hAll⟩)
        refine ⟨f :: front, g, back, rfl, List.forall_mem_cons.2 ⟨hFirst, hFront⟩, hDiffers, ?_⟩
        simp only [checkStored, hPlace, hFound, bind, Except.bind, if_true]
        exact hCheck
      · rw [Bool.not_eq_true] at hSame
        subst hSame
        refine ⟨[], f, rest, rfl, by simp, ?_, ?_⟩
        · rintro ⟨offset', hOffset', hMatches⟩
          cases hOffset.symm.trans hOffset'
          cases hFound.symm.trans hMatches
        · simp only [checkStored, hPlace, hFound, bind, Except.bind]
          rfl

/-! ## Instances -/

variable [Instance ι]

/-- How an instance is brought up to date if none of its fields can be set. -/
theorem start_refresh_of_frozen (hFrozen : h.Frozen) (hDerived : h.derived = .ok d)
    (lookup : Lookup) (r : Record) (x : ι) :
    (h.refresh lookup r).start x =
      (h.expect x >>= fun x => checkStored h.name lookup r x d.fields, x) := by
  have hOrders := derived_eq_ok hDerived
  have hReadOnly : d.layout.hasSettable = false := by
    apply hOrders.frozen_iff.2
    intro f hf
    obtain ⟨field, hField, hAccess⟩ := declared hOrders hf
    rw [hOrders.settable f hf, ← hAccess]
    exact hFrozen field hField
  have hNot : ¬d.layout.hasSettable = true := by simp [hReadOnly]
  rw [refresh, Attempt.start_bind, Attempt.start_lift, hDerived]
  simp only [if_neg hNot]
  rw [Attempt.start_bind, guard, Attempt.start_modify]
  cases hExpect : h.expect x with
  | error e => rfl
  | ok y =>
      obtain ⟨-, rfl⟩ := expect_eq_ok.1 hExpect
      simp only [Attempt.start_modify, bind, Except.bind]
      cases checkStored h.name lookup r y d.fields <;> rfl

section

variable {names : Ref → Option ObjectId}

omit [Instance ι] in
/-- A derived field matches exactly if what would be written of it stands at its
offset. -/
theorem matchesAt_iff (hDerived : h.derived = .ok d) (hFits : r.Fits)
    (hInverse : IsInverse lookup names) {f : Declaration (Access ι)} (hf : f ∈ d.fields)
    (hNamed : ∀ ref ∈ f.payload.held x, ∃ id, names ref = some id) :
    MatchesAt lookup r x f ↔ r.Stands f.member (f.payload.bytesOf (nameIn names) x) := by
  have hKind := (derived_eq_ok hDerived).kind f hf
  constructor
  · rintro ⟨offset, hOffset, hMatches⟩
    exact (Access.matchesStored_iff hFits hInverse hKind hOffset hNamed).1 hMatches
  · intro hStands
    obtain ⟨offset, -, hOffset⟩ := hStands.place
    exact ⟨offset, hOffset,
      (Access.matchesStored_iff hFits hInverse hKind hOffset hNamed).2 hStands⟩

/-- A comparison succeeds exactly if the instance is of the type and what would
be written of each field stands at its offset. -/
theorem refresh_isOk_iff (hFrozen : h.Frozen) (hDerived : h.derived = .ok d) (hFits : r.Fits)
    (hInverse : IsInverse lookup names)
    (hNamed : ∀ f ∈ d.fields, ∀ ref ∈ f.payload.held x, ∃ id, names ref = some id) :
    (∃ y, (h.refresh lookup r).start x = (.ok (), y)) ↔
      Instance.runtimeType x = h.runtime ∧
        ∀ f ∈ d.fields, r.Stands f.member (f.payload.bytesOf (nameIn names) x) := by
  rw [start_refresh_of_frozen hFrozen hDerived]
  constructor
  · rintro ⟨y, hCompare⟩
    obtain ⟨z, hExpect, hCheck⟩ := bind_eq_ok.1 (Prod.mk.inj hCompare).1
    obtain ⟨hTyped, rfl⟩ := expect_eq_ok.1 hExpect
    refine ⟨hTyped, ?_⟩
    intro f hf
    exact (matchesAt_iff hDerived hFits hInverse hf (hNamed f hf)).1 (checkStored_ok.1 hCheck f hf)
  · rintro ⟨hTyped, hStands⟩
    have hCheck : checkStored h.name lookup r x d.fields = .ok () := by
      apply checkStored_ok.2
      intro f hf
      exact (matchesAt_iff hDerived hFits hInverse hf (hNamed f hf)).2 (hStands f hf)
    rw [expect_eq_ok.2 ⟨hTyped, rfl⟩]
    exact ⟨x, Prod.ext hCheck rfl⟩

/-- An instance is written as the record exactly if it is of the type and what
would be written of each field stands at its offset. -/
theorem store_eq_record_iff {identify : Ref → Attempt σ ObjectId} {Known : σ → Prop} {s : σ}
    (hDerived : h.derived = .ok d)
    (hIdentify : ∀ ref id, names ref = some id → ∀ s, Known s →
      ∃ s', (identify ref).start s = (.ok id, s') ∧ Known s')
    (hNamed : ∀ f ∈ d.fields, ∀ ref ∈ f.payload.held x, ∃ id, names ref = some id)
    (hType : r.type = h.id) (hLength : d.definition.acceptsLength r.length = true)
    (hAcceptable : Chunk.Acceptable r) (hKnown : Known s) :
    (∃ s', (h.store identify r.object x).start s = (.ok r.encode, s')) ↔
      Instance.runtimeType x = h.runtime ∧
        ∀ f ∈ d.fields, r.Stands f.member (f.payload.bytesOf (nameIn names) x) := by
  have hWrite : ∀ f ∈ d.fields, ∀ ref ∈ f.payload.held x, ∀ s, Known s →
      ∃ s', (identify ref).start s = (.ok (nameIn names ref), s') ∧ Known s' :=
    fun f hf => start_identify_of_named hIdentify (hNamed f hf)
  constructor
  · rintro ⟨s', hStore⟩
    obtain ⟨d', front, parts, hDerived', hTyped, hFront, -, -⟩ := start_store_ok.1 hStore
    cases hDerived.symm.trans hDerived'
    have hOrders := derived_eq_ok hDerived
    have hOwn := ((begin_contentLength hOrders (nameIn names) x).1 hFront).1
    obtain ⟨s'', hOwnStore, -⟩ := store_isOk hDerived hTyped hOwn hWrite hKnown
    have hSame := Except.ok.inj (Prod.mk.inj (hStore.symm.trans hOwnStore)).1
    rw [Chunk.encode_inj hAcceptable hOwn hSame]
    exact ⟨hTyped, stands_content hOrders (Chunk.fits_of_acceptable hOwn)⟩
  · rintro ⟨hTyped, hStands⟩
    have hRecord := recordOf_of_stands hDerived hType hLength hAcceptable hStands
    have hOwn : Chunk.Acceptable (h.recordOf d (nameIn names) r.object x) := hRecord ▸ hAcceptable
    obtain ⟨s', hStore, -⟩ := store_isOk hDerived hTyped hOwn hWrite hKnown
    rw [hRecord] at hStore
    exact ⟨s', hStore⟩

/--
Whoever brings an instance up to date none of whose fields can be set, succeeds
exactly if the instance would be written as the record. Otherwise the first
field in stored order is named for which other bytes stand in the record, if
all fields can be compared. The instance stays as it is.
-/
theorem refresh_compares {identify : Ref → Attempt σ ObjectId} {Known : σ → Prop} {s : σ}
    (hFrozen : h.Frozen) (hDerived : h.derived = .ok d) (hInverse : IsInverse lookup names)
    (hIdentify : ∀ ref id, names ref = some id → ∀ s, Known s →
      ∃ s', (identify ref).start s = (.ok id, s') ∧ Known s')
    (hNamed : ∀ f ∈ d.fields, ∀ ref ∈ f.payload.held x, ∃ id, names ref = some id)
    (hType : r.type = h.id) (hLength : d.definition.acceptsLength r.length = true)
    (hAcceptable : Chunk.Acceptable r) (hKnown : Known s) :
    ((∃ y, (h.refresh lookup r).start x = (.ok (), y)) ↔
      ∃ s', (h.store identify r.object x).start s = (.ok r.encode, s')) ∧
      (Instance.runtimeType x = h.runtime → (∀ f ∈ d.fields, ComparableAt lookup r f) →
        (¬∃ y, (h.refresh lookup r).start x = (.ok (), y)) →
        ∃ front f back, d.fields = front ++ f :: back ∧
          (∀ g ∈ front, r.Stands g.member (g.payload.bytesOf (nameIn names) x)) ∧
          ¬r.Stands f.member (f.payload.bytesOf (nameIn names) x) ∧
          (h.refresh lookup r).start x =
            (.error (.stateMismatch h.name f.member.id.render r.object), x)) ∧
      ((h.refresh lookup r).start x).2 = x := by
  have hFits := Chunk.fits_of_acceptable hAcceptable
  have hCompared := refresh_isOk_iff hFrozen hDerived hFits hInverse hNamed
  have hStart := start_refresh_of_frozen hFrozen hDerived lookup r x
  refine ⟨?_, ?_, ?_⟩
  · rw [hCompared]
    exact (store_eq_record_iff hDerived hIdentify hNamed hType hLength hAcceptable hKnown).symm
  · intro hTyped hComparable hNot
    have hField : ∀ f ∈ d.fields, (MatchesAt lookup r x f ↔
        r.Stands f.member (f.payload.bytesOf (nameIn names) x)) :=
      fun f hf => matchesAt_iff hDerived hFits hInverse hf (hNamed f hf)
    have hDiffers : ¬∀ f ∈ d.fields, MatchesAt lookup r x f :=
      fun hAll => hNot (hCompared.2 ⟨hTyped, fun f hf => (hField f hf).1 (hAll f hf)⟩)
    obtain ⟨front, f, back, hSplit, hFront, hFirst, hCheck⟩ :=
      @checkStored_differs _ lookup r x h.name d.fields hComparable hDiffers
    have hIn : ∀ g ∈ front ++ [f], g ∈ d.fields := by
      intro g hg
      rw [hSplit, List.append_cons]
      exact List.mem_append_left _ hg
    refine ⟨front, f, back, hSplit, ?_, ?_, ?_⟩
    · intro g hg
      exact (hField g (hIn g (List.mem_append_left _ hg))).1 (hFront g hg)
    · exact fun hStands => hFirst ((hField f (hIn f (by simp))).2 hStands)
    · rw [hStart, expect_eq_ok.2 ⟨hTyped, rfl⟩]
      exact Prod.ext hCheck rfl
  · rw [hStart]

end

end ObjectHandler

namespace Slots

/-- Workers none of whose slots can be set. -/
def retiree : ObjectHandler Slots :=
  { worker with
    fields := [("friends", .referenceList), ("age", .primitive .u32), ("boss", .reference)].map
      fun m => ⟨MemberId.unqualified m.1, none, access m.1 false m.2⟩ }

theorem frozen_retiree : retiree.Frozen := by
  intro f hf
  obtain ⟨m, -, rfl⟩ := List.mem_map.1 hf
  cases m.2 <;> rfl

/-- The card of a worker with another boss and with one friend only. -/
def formerCard : Record :=
  ⟨⟨1002⟩, ⟨9⟩, [44, 0, 0, 0] ++ Word.ofWord 7 ++ writeObjectIds [⟨3⟩]⟩

/-- The clerk is written as the card, and is not written as the other one: the
boss differs, and stands in front of the friends although it is declared behind
them. -/
theorem refresh_compares_clerk :
    (∃ s', (retiree.store identifyCrew card.object clerk).start () = (.ok card.encode, s')) ∧
      (¬∃ s', (retiree.store identifyCrew formerCard.object clerk).start () =
        (.ok formerCard.encode, s')) ∧
      (retiree.refresh lookupCrew formerCard).start clerk =
        (.error (.stateMismatch "Worker" "boss" ⟨9⟩), clerk) := by
  obtain ⟨d, hDerived, hCard, hFormer, hHeld⟩ : ∃ d, retiree.derived = .ok d ∧
      d.definition.acceptsLength card.length = true ∧
      d.definition.acceptsLength formerCard.length = true ∧
      (d.fields.flatMap fun f => f.payload.held clerk) = [⟨1⟩, ⟨1⟩, ⟨0⟩, ⟨1⟩] :=
    ⟨_, rfl, rfl, rfl, rfl⟩
  have hNamed : ∀ f ∈ d.fields, ∀ ref ∈ f.payload.held clerk, ∃ id, badge ref = some id := by
    intro f hf ref hRef
    have hIn : ref ∈ d.fields.flatMap fun f => f.payload.held clerk :=
      List.mem_flatMap.2 ⟨f, hf, hRef⟩
    rw [hHeld] at hIn
    have hAll : ∀ ref ∈ [(⟨1⟩ : Ref), ⟨1⟩, ⟨0⟩, ⟨1⟩], (badge ref).isSome = true := by decide
    exact Option.isSome_iff_exists.1 (hAll ref hIn)
  have hAcceptable : Chunk.Acceptable card ∧ Chunk.Acceptable formerCard := by
    unfold Chunk.Acceptable
    decide
  have hMismatch : (retiree.refresh lookupCrew formerCard).start clerk =
      (.error (.stateMismatch "Worker" "boss" ⟨9⟩), clerk) := rfl
  refine ⟨?_, ?_, hMismatch⟩
  · exact (ObjectHandler.refresh_compares frozen_retiree hDerived isInverse_crew identifies_crew
      hNamed rfl hCard hAcceptable.1 trivial).1.1 ⟨clerk, rfl⟩
  · intro hStore
    obtain ⟨y, hRefresh⟩ := (ObjectHandler.refresh_compares frozen_retiree hDerived isInverse_crew
      identifies_crew hNamed rfl hFormer hAcceptable.2 trivial).1.2 hStore
    cases hMismatch.symm.trans hRefresh

end Slots

end ObjectStore
