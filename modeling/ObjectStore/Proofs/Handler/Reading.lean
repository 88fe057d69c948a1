import ObjectStore.Proofs.Handler.Lawful

/-!
# What can be read from a record

Whether a pass over the fields succeeds does not depend on the instance. It
depends on the record, which must have something readable at the offset of
every field, and on the lookup, which must know the objects that are named
there. What an instance holds of a record could be read, so the same record
can be read again, also with another lookup that knows as many objects.

## Main results

* `Access.Readable.mono`: a lookup that knows more can read as much.
* `ObjectHandler.setValues_isOk`, `ObjectHandler.setReferences_isOk`: a pass
  over the fields succeeds if each of them can be read.
-/

namespace ObjectStore

variable {ι : Type}

/-! ## Members -/

namespace Access

/-- At an offset of the record stands a value of the kind, and the objects
that it names are known. -/
def Readable (lookup : Lookup) (r : Record) (offset : Nat) : FieldKind → Prop
  | .primitive kind => ∃ bytes v, r.slice offset kind.width = .ok bytes ∧ kind.decode bytes = .ok v
  | .reference => ∃ id target, r.readObjectId offset = .ok id ∧ lookup id = .ok target
  | .bytes => ∃ payload, r.readVariable offset = .ok payload
  | .text => ∃ payload content, r.readVariable offset = .ok payload ∧
      Text.decode payload = .ok content
  | .referenceList => ∃ ids targets, r.readObjectIds offset = .ok ids ∧
      resolveAll lookup ids = .ok targets

variable {access : Access ι} {lookup lookup' : Lookup} {r : Record} {offset : Nat} {x y : ι}

theorem resolveAll_eq_ok {ids : List ObjectId} {targets : List Ref} :
    resolveAll lookup ids = .ok targets ↔
      ¬ids.any (·.isNull) = true ∧
        ∃ found, ids.mapM lookup = .ok found ∧ found.filterMap id = targets := by
  unfold resolveAll
  split
  · rename_i hNull
    simp [hNull]
  · rename_i hNotNull
    rw [bind_eq_ok]
    constructor
    · rintro ⟨found, hFound, hDone⟩
      exact ⟨hNotNull, found, hFound, Except.ok.inj hDone⟩
    · rintro ⟨-, found, hFound, rfl⟩
      exact ⟨found, hFound, rfl⟩

/-- A lookup that knows more objects can read as much. -/
theorem Readable.mono {kind : FieldKind} (h : Readable lookup r offset kind)
    (hKnown : ∀ id target, lookup id = .ok target → ∃ target', lookup' id = .ok target') :
    Readable lookup' r offset kind := by
  cases kind with
  | primitive kind => exact h
  | bytes => exact h
  | text => exact h
  | reference =>
      obtain ⟨id, target, hRead, hLookup⟩ := h
      obtain ⟨target', hLookup'⟩ := hKnown id target hLookup
      exact ⟨id, target', hRead, hLookup'⟩
  | referenceList =>
      obtain ⟨ids, targets, hRead, hResolve⟩ := h
      obtain ⟨hNull, found, hFound, -⟩ := resolveAll_eq_ok.1 hResolve
      have hEach : ∀ id ∈ ids, ∃ target', lookup' id = .ok target' := by
        intro id hId
        obtain ⟨target, -, hLookup⟩ := forall₂_exists_right (mapM_eq_ok.1 hFound) hId
        exact hKnown id target hLookup
      obtain ⟨found', hFound'⟩ := forall₂_of_exists hEach
      exact ⟨ids, _, hRead, resolveAll_eq_ok.2 ⟨hNull, found', mapM_eq_ok.2 hFound', rfl⟩⟩

theorem Holds.readable (h : access.Holds lookup r offset x) :
    Readable lookup r offset access.kind := by
  cases access with
  | value kind get set =>
      obtain ⟨bytes, hSlice, hDecode⟩ := h
      exact ⟨bytes, get x, hSlice, hDecode⟩
  | reference get set =>
      obtain ⟨id, hRead, hLookup⟩ := h
      exact ⟨id, get x, hRead, hLookup⟩
  | bytes get set => exact ⟨get x, h⟩
  | text get set =>
      obtain ⟨payload, hRead, hDecode⟩ := h
      exact ⟨payload, get x, hRead, hDecode⟩
  | references get set =>
      obtain ⟨ids, hRead, hResolve⟩ := h
      exact ⟨ids, get x, hRead, hResolve⟩

theorem setValue_isOk (h : Readable lookup r offset access.kind) (x : ι) :
    ∃ y, access.setValue offset r x = .ok y := by
  cases access with
  | value kind get set =>
      cases set with
      | none => exact ⟨x, rfl⟩
      | some set =>
          obtain ⟨bytes, v, hSlice, hDecode⟩ := h
          refine ⟨set v x, bind_eq_ok.2 ⟨bytes, orCorrupt_eq_ok.2 hSlice, ?_⟩⟩
          exact bind_eq_ok.2 ⟨v, orCorrupt_eq_ok.2 hDecode, rfl⟩
  | bytes get set =>
      cases set with
      | none => exact ⟨x, rfl⟩
      | some set =>
          obtain ⟨payload, hRead⟩ := h
          exact ⟨set payload x, bind_eq_ok.2 ⟨payload, orCorrupt_eq_ok.2 hRead, rfl⟩⟩
  | text get set =>
      cases set with
      | none => exact ⟨x, rfl⟩
      | some set =>
          obtain ⟨payload, content, hRead, hDecode⟩ := h
          have hText : decodeText payload = .ok content := by rw [decodeText, hDecode]
          refine ⟨set content x, bind_eq_ok.2 ⟨payload, orCorrupt_eq_ok.2 hRead, ?_⟩⟩
          exact bind_eq_ok.2 ⟨content, orCorrupt_eq_ok.2 hText, rfl⟩
  | reference get set => exact ⟨x, rfl⟩
  | references get set => exact ⟨x, rfl⟩

theorem setReferences_isOk (h : Readable lookup r offset access.kind) (x : ι) :
    ∃ y, access.setReferences lookup offset r x = .ok y := by
  cases access with
  | reference get set =>
      cases set with
      | none => exact ⟨x, rfl⟩
      | some set =>
          obtain ⟨id, target, hRead, hLookup⟩ := h
          refine ⟨set target x, bind_eq_ok.2 ⟨id, orCorrupt_eq_ok.2 hRead, ?_⟩⟩
          exact bind_eq_ok.2 ⟨target, hLookup, rfl⟩
  | references get set =>
      cases set with
      | none => exact ⟨x, rfl⟩
      | some set =>
          obtain ⟨ids, targets, hRead, hResolve⟩ := h
          refine ⟨set targets x, bind_eq_ok.2 ⟨ids, orCorrupt_eq_ok.2 hRead, ?_⟩⟩
          exact bind_eq_ok.2 ⟨targets, hResolve, rfl⟩
  | value kind get set => exact ⟨x, rfl⟩
  | bytes get set => exact ⟨x, rfl⟩
  | text get set => exact ⟨x, rfl⟩

end Access

/-! ## Passes -/

namespace ObjectHandler

variable {d : Derived ι} {lookup : Lookup} {r : Record} {f : Declaration (Access ι)}

/-- A derived field can be read from the record. -/
def ReadableAt (lookup : Lookup) (r : Record) (f : Declaration (Access ι)) : Prop :=
  ∃ offset, f.member.offset = some offset ∧
    Access.Readable lookup r offset.toNat f.payload.kind

theorem HoldsAt.readable {x : ι} (h : HoldsAt lookup r f x) : ReadableAt lookup r f := by
  obtain ⟨offset, hOffset, hHolds⟩ := h
  exact ⟨offset, hOffset, hHolds.readable⟩

theorem ReadableAt.mono {lookup' : Lookup} (h : ReadableAt lookup r f)
    (hKnown : ∀ id target, lookup id = .ok target → ∃ target', lookup' id = .ok target') :
    ReadableAt lookup' r f := by
  obtain ⟨offset, hOffset, hReadable⟩ := h
  exact ⟨offset, hOffset, hReadable.mono hKnown⟩

theorem setValues_isOk (lookup : Lookup) (h : ∀ f ∈ d.fields, f.settable = true →
      f.member.kind.hasReferences = false → ReadableAt lookup r f) (x : ι) :
    ∃ y, (setValues d r).start x = (.ok (), y) := by
  apply pass_isOk
  intro f hf
  obtain ⟨hIn, hChosen⟩ := List.mem_filter.1 hf
  obtain ⟨hSettable, hKind⟩ := Bool.and_eq_true_iff.1 hChosen
  obtain ⟨offset, hOffset, hReadable⟩ := h f hIn hSettable (by simpa using hKind)
  exact ⟨offset, hOffset, Access.setValue_isOk hReadable⟩

theorem setReferences_isOk (h : ∀ f ∈ d.fields, f.settable = true → ReadableAt lookup r f)
    (x : ι) : ∃ y, (setReferences d lookup r).start x = (.ok (), y) := by
  apply pass_isOk
  intro f hf
  obtain ⟨hIn, hChosen⟩ := List.mem_filter.1 hf
  obtain ⟨offset, hOffset, hReadable⟩ := h f hIn (Bool.and_eq_true_iff.1 hChosen).1
  exact ⟨offset, hOffset, Access.setReferences_isOk hReadable⟩

end ObjectHandler

end ObjectStore
