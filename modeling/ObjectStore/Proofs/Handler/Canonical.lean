import ObjectStore.Proofs.Handler.RoundTrip
import ObjectStore.Proofs.Record.Canonical

/-!
# From a record to its instance and back

There is no more in a record than what its instance is made of. When all
fields of a type can be set, an instance that was made of a record holds what
stands at the offset of every member, and writing it puts the same bytes
there. A record whose length the definition accepts has no other bytes.

So a record that can be loaded is written again byte for byte, by whoever
gives the instances in it the identifiers under which they were looked up.

## Main results

* `Access.stands_of_holds`: what a member was read from is its written form.
* `ObjectHandler.store_of_create_connect`: what is created is stored again.
-/

namespace ObjectStore

variable {ι σ : Type}

/-- The lookup leads back from the names of instances, and knows nothing
else. -/
structure IsInverse (lookup : Lookup) (names : Ref → Option ObjectId) : Prop
    extends Inverts lookup names where
  only : ∀ {id target}, lookup id = .ok target → id ≠ ObjectId.null →
    ∃ ref, target = some ref ∧ names ref = some id

/-! ## Members -/

namespace Access

variable {access : Access ι} {lookup : Lookup} {names : Ref → Option ObjectId} {r : Record}
  {m : Member} {offset : UInt64} {z : ι}

/-- What an object was found by is its name. -/
theorem name_of_lookup (hInverse : IsInverse lookup names) {id : ObjectId} {target : Option Ref}
    (h : lookup id = .ok target) :
    (target.map (nameIn names)).getD ObjectId.null = id ∧
      ∀ ref ∈ target.toList, ∃ id, names ref = some id := by
  by_cases hNull : id = ObjectId.null
  · rw [hNull, hInverse.null] at h
    cases h
    exact ⟨hNull.symm, by simp⟩
  · obtain ⟨ref, rfl, hName⟩ := hInverse.only h hNull
    refine ⟨?_, ?_⟩
    · rw [Option.map_some, Option.getD_some, nameIn, hName]
      rfl
    · intro other hOther
      rw [List.mem_singleton.1 hOther]
      exact ⟨id, hName⟩

theorem names_of_mapM (hInverse : IsInverse lookup names) {ids : List ObjectId}
    {found : List (Option Ref)} (hNotNull : ∀ id ∈ ids, id ≠ ObjectId.null)
    (h : List.Forall₂ (fun id target => lookup id = .ok target) ids found) :
    (found.filterMap id).map (nameIn names) = ids ∧
      ∀ ref ∈ found.filterMap id, ∃ id, names ref = some id := by
  induction h with
  | nil => simp
  | @cons first target ids found hLookup _ ih =>
      obtain ⟨hFirst, hRest⟩ := List.forall_mem_cons.1 hNotNull
      obtain ⟨hNames, hNamed⟩ := ih hRest
      obtain ⟨ref, rfl, hName⟩ := hInverse.only hLookup hFirst
      have hSame : nameIn names ref = first := by
        rw [nameIn, hName]
        rfl
      rw [List.filterMap_cons_some (f := id) rfl]
      exact ⟨by rw [List.map_cons, hSame, hNames], List.forall_mem_cons.2 ⟨⟨first, hName⟩, hNamed⟩⟩

/-- A reference list is the names of what it leads to. -/
theorem names_of_resolveAll (hInverse : IsInverse lookup names) {ids : List ObjectId}
    {targets : List Ref} (h : resolveAll lookup ids = .ok targets) :
    targets.map (nameIn names) = ids ∧ ∀ ref ∈ targets, ∃ id, names ref = some id := by
  obtain ⟨hNone, found, hFound, rfl⟩ := resolveAll_eq_ok.1 h
  refine names_of_mapM hInverse ?_ (mapM_eq_ok.1 hFound)
  intro id hId hNull
  exact hNone (List.any_eq_true.2 ⟨id, hId, ObjectId.isNull_iff.2 hNull⟩)

/-- The written form of a member stands where the member was read, and the
instances in it have names. -/
theorem stands_of_holds (hInverse : IsInverse lookup names) (hKind : m.kind = access.kind)
    (hOffset : m.offset = some offset) (h : access.Holds lookup r offset.toNat z) :
    r.Stands m (access.bytesOf (nameIn names) z) ∧
      ∀ ref ∈ access.held z, ∃ id, names ref = some id := by
  cases access with
  | value kind get set =>
      obtain ⟨bytes, hSlice, hDecode⟩ := h
      refine ⟨?_, by simp [held]⟩
      rw [bytesOf, PrimitiveKind.encode_of_decode hDecode]
      exact Record.stands_of_slice (by rw [hKind]; rfl) hOffset hSlice
  | reference get set =>
      obtain ⟨id, hRead, hLookup⟩ := h
      obtain ⟨hName, hNamed⟩ := name_of_lookup hInverse hLookup
      refine ⟨?_, hNamed⟩
      rw [bytesOf, hName]
      exact Record.stands_of_readObjectId (by rw [hKind]; rfl) hOffset hRead
  | bytes get set =>
      refine ⟨?_, by simp [held]⟩
      exact Record.stands_of_readVariable hOffset h
  | text get set =>
      obtain ⟨payload, hRead, hDecode⟩ := h
      refine ⟨?_, by simp [held]⟩
      rw [bytesOf, Text.encode_of_decode hDecode]
      exact Record.stands_of_readVariable hOffset hRead
  | references get set =>
      obtain ⟨ids, hRead, hResolve⟩ := h
      obtain ⟨hNames, hNamed⟩ := names_of_resolveAll hInverse hResolve
      refine ⟨?_, hNamed⟩
      rw [bytesOf, hNames]
      exact Record.stands_of_readObjectIds hOffset hRead

end Access

/-! ## Handlers -/

namespace ObjectHandler

variable [Instance ι] {h : ObjectHandler ι} {d : Derived ι} {lookup : Lookup}
  {names : Ref → Option ObjectId} {r : Record} {y z : ι}

omit [Instance ι] in
/-- A record of the type is that of an instance if what is written of each
field stands at its offset. -/
theorem recordOf_of_stands {name : Ref → ObjectId} (hDerived : h.derived = .ok d)
    (hType : r.type = h.id) (hLength : d.definition.acceptsLength r.length = true)
    (hAcceptable : Chunk.Acceptable r)
    (hStands : ∀ f ∈ d.fields, r.Stands f.member (f.payload.bytesOf name z)) :
    h.recordOf d name r.object z = r := by
  have hOrders := derived_eq_ok hDerived
  have hAll : List.Forall₂ r.Stands d.definition.members (parts d name z) := by
    rw [hOrders.members, List.forall₂_map_left_iff, parts, List.forall₂_map_right_iff]
    exact List.forall₂_same.2 hStands
  have hContent : r.content = content d name z :=
    Definition.content_of_stands (Chunk.fits_of_acceptable hAcceptable) hLength
      (hOrders.members ▸ fills_parts hOrders) hAll
  rw [recordOf, ← hContent, ← hType]

omit [Instance ι] in
/-- An instance that holds what a record of its type says is written as this
record, and the instances in it have names. -/
theorem recordOf_of_holdsAll (hInverse : IsInverse lookup names) (hDerived : h.derived = .ok d)
    (hType : r.type = h.id) (hLength : d.definition.acceptsLength r.length = true)
    (hAcceptable : Chunk.Acceptable r) (hHolds : HoldsAll lookup r d z) :
    h.recordOf d (nameIn names) r.object z = r ∧
      ∀ f ∈ d.fields, ∀ ref ∈ f.payload.held z, ∃ id, names ref = some id := by
  have hOrders := derived_eq_ok hDerived
  have hEach : ∀ f ∈ d.fields, r.Stands f.member (f.payload.bytesOf (nameIn names) z) ∧
      ∀ ref ∈ f.payload.held z, ∃ id, names ref = some id := by
    intro f hf
    obtain ⟨offset, hOffset, hHeld⟩ := hHolds f hf
    exact Access.stands_of_holds hInverse (hOrders.kind f hf) hOffset hHeld
  exact ⟨recordOf_of_stands hDerived hType hLength hAcceptable fun f hf => (hEach f hf).1,
    fun f hf => (hEach f hf).2⟩

/-- A record that an instance was made of is written again byte for byte, if
its length is accepted and the instances in it get the identifiers under which
they were looked up. -/
theorem store_of_create_connect {identify : Ref → Attempt σ ObjectId} {Known : σ → Prop} {s : σ}
    {bytes : Bytes} {definition : Definition} (hLawful : h.withoutHook.Lawful)
    (hInverse : IsInverse lookup names)
    (hIdentify : ∀ ref id, names ref = some id → ∀ s, Known s →
      ∃ s', (identify ref).start s = (.ok id, s') ∧ Known s')
    (hParse : Record.parse bytes = .ok r) (hType : r.type = h.id)
    (hDefinition : h.definition = .ok definition)
    (hLength : definition.acceptsLength r.length = true) (hAcceptable : Chunk.Acceptable r)
    (hCreate : h.create r = .ok y) (hConnect : (h.connect lookup r).start y = (.ok (), z))
    (hKnown : Known s) :
    ∃ s', (h.store identify r.object z).start s = (.ok bytes, s') := by
  obtain ⟨d, hDerived, rfl⟩ := map_eq_ok.1 hDefinition
  obtain ⟨d', hDerived', -, hValues⟩ :=
    create_regular (h := h.withoutHook) hLawful.toRegular hCreate
  cases hDerived.symm.trans hDerived'
  obtain ⟨hTyped, hSettable⟩ :=
    connect_regular (h := h.withoutHook) hLawful.toRegular hDerived hValues hConnect
  have hHolds : HoldsAll lookup r d z := hLawful.holdsAll hDerived hSettable
  obtain ⟨hRecord, hNamed⟩ :=
    recordOf_of_holdsAll hInverse hDerived hType hLength hAcceptable hHolds
  have hSame : Chunk.Acceptable (h.recordOf d (nameIn names) r.object z) := hRecord ▸ hAcceptable
  obtain ⟨s', hStore, -⟩ := store_isOk hDerived hTyped hSame
    (fun f hf => start_identify_of_named hIdentify (hNamed f hf)) hKnown
  rw [hRecord, Record.encode_of_parse hParse] at hStore
  exact ⟨s', hStore⟩

end ObjectHandler

/-! ## The record of a worker -/

namespace Slots

theorem isInverse_crew : IsInverse lookupCrew badge where
  toInverts := inverts_crew
  only := by
    intro id target h hNotNull
    have hNull : ¬id.isNull = true := fun hNull => hNotNull (ObjectId.isNull_iff.1 hNull)
    rw [lookupCrew, if_neg hNull] at h
    split at h
    · rename_i entry hFound
      cases h
      have hId : entry.2 = id := by simpa using List.find?_some hFound
      have hIn : entry ∈ crew := List.mem_of_find?_eq_some hFound
      have hNames : ∀ entry ∈ crew, badge entry.1 = some entry.2 := by decide
      exact ⟨entry.1, rfl, hId ▸ hNames entry hIn⟩
    · cases h

/-- A worker of 44 whose boss is one of three friends, two of them the same. -/
def card : Record :=
  ⟨⟨1002⟩, ⟨9⟩, [44, 0, 0, 0] ++ Word.ofWord 3 ++ writeObjectIds [⟨3⟩, ⟨7⟩, ⟨3⟩]⟩

theorem accepts_card : ∃ definition, worker.definition = .ok definition ∧
    definition.acceptsLength card.length = true :=
  ⟨_, rfl, rfl⟩

theorem create_connect_card : ∃ y z, worker.create card = .ok y ∧
    (worker.connect lookupCrew card).start y = (.ok (), z) :=
  ⟨_, _, rfl, rfl⟩

/-- The worker that is made of the record is written as the record. -/
theorem store_of_create_connect_card : ∃ y z, worker.create card = .ok y ∧
    (worker.connect lookupCrew card).start y = (.ok (), z) ∧
    (worker.store identifyCrew card.object z).start () = (.ok card.encode, ()) := by
  obtain ⟨definition, hDefinition, hLength⟩ := accepts_card
  obtain ⟨y, z, hCreate, hConnect⟩ := create_connect_card
  have hAcceptable : Chunk.Acceptable card := by
    unfold Chunk.Acceptable
    decide
  obtain ⟨s', hStore⟩ := ObjectHandler.store_of_create_connect lawful_worker isInverse_crew
    identifies_crew (Record.parse_encode (Chunk.fits_of_acceptable hAcceptable)) rfl hDefinition hLength
    hAcceptable hCreate hConnect trivial
  exact ⟨y, z, hCreate, hConnect, hStore⟩

end Slots

end ObjectStore
