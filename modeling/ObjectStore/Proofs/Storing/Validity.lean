import ObjectStore.Proofs.Record.Chunk
import ObjectStore.Proofs.Record.Lengths
import ObjectStore.Proofs.Registry.Registration
import ObjectStore.Proofs.Storing.Chunk

/-!
# Written records are valid

A record that a store operation has written is one that the definition of
its type accepts: its length lies within the bounds of the definition, and
its references can be listed. They are the identifiers of the instances that
the written one refers to.

## Main results

* `Storing.Saved.accepts`: the length of a written record.
* `Storing.Saved.references_record`: the references of a written record.
-/

namespace ObjectStore

/-! ## Bounds of a content -/

namespace ObjectHandler

variable {ι : Type} {h : ObjectHandler ι} {d : Derived ι} {name : Ref → ObjectId} {x : ι}

/-- Each part of a content has a length that its kind allows. -/
theorem measures_bytesOf {access : Access ι} {m : Member} (hKind : m.kind = access.kind) :
    Record.Measures m (access.bytesOf name x) := by
  refine ⟨fun hFixed => ?_, fun hVariable => ?_⟩
  · rw [hKind] at hFixed ⊢
    exact Access.length_bytesOf_fixed hFixed
  · rw [hKind] at hVariable
    cases access with
    | value | reference => cases hVariable
    | bytes get set =>
        rw [Access.bytesOf, Access.length_writeVariable]
        exact Nat.le_add_right _ _
    | text get set =>
        rw [Access.bytesOf, Access.length_writeVariable]
        exact Nat.le_add_right _ _
    | references get set =>
        rw [Access.bytesOf, Access.length_writeObjectIds]
        exact Nat.le_add_right _ _

/-- The record of an instance has a length that any definition with the
members of the type accepts. -/
theorem acceptsLength_recordOf (hOrders : d.Orders h) {definition : Definition} {object : ObjectId}
    (hMembers : definition.members = d.fields.map Declaration.member)
    (hAcceptable : Chunk.Acceptable (recordOf h d name object x)) :
    definition.acceptsLength (recordOf h d name object x).length = true := by
  have hParts : List.Forall₂ Record.Measures definition.members (parts d name x) := by
    rw [hMembers, parts, List.forall₂_map_left_iff, List.forall₂_map_right_iff, List.forall₂_same]
    exact fun f hf => measures_bytesOf (hOrders.kind f hf)
  exact Definition.acceptsLength_of_parts hParts rfl hAcceptable

end ObjectHandler

/-! ## References of a content -/

namespace Record

variable {ι : Type} {r : Record} {m : Member} {access : Access ι} {name : Ref → ObjectId} {x : ι}

/-- The member of a written record holds the identifiers that were answered
for the references of the member, and no absent one. -/
theorem memberReferences_of_answers {ids : List ObjectId} (hFits : r.Fits)
    (hKind : m.kind = access.kind) (hLength : ids.length = (access.held x).length)
    (hStands : r.Stands m (access.bytesWith ids x)) :
    r.memberReferences m = Enumeration.ok (ids.filter fun id => !id.isNull) := by
  obtain ⟨offset, hPlace, hOffset⟩ := hStands.place
  unfold memberReferences
  rw [hKind]
  cases access with
  | value | bytes | text =>
      rw [List.eq_nil_of_length_eq_zero hLength]
      rfl
  | reference get set =>
      have hRead : r.readObjectId offset.toNat = .ok (ids.headD ObjectId.null) :=
        Stands.readObjectId hStands hFits hOffset
      simp only [Access.kind, FieldKind.hasReferences, FieldKind.isReference, hPlace, hRead,
        Bool.not_true, Bool.false_eq_true, if_false, if_true]
      simp only [Access.held] at hLength
      cases hGet : get x with
      | none =>
          rw [hGet] at hLength
          rw [List.eq_nil_of_length_eq_zero hLength]
          rfl
      | some target =>
          rw [hGet] at hLength
          obtain ⟨id, rfl⟩ := List.length_eq_one_iff.1 hLength
          rfl
  | references get set =>
      have hVariable : m.kind.isVariable = true := by
        rw [hKind]
        rfl
      have hRead : r.readObjectIds offset.toNat = .ok ids :=
        Stands.readObjectIds hStands hFits hVariable hOffset
      simp only [Access.kind, FieldKind.hasReferences, FieldKind.isReference, hPlace, hRead,
        Bool.not_true, Bool.false_eq_true, if_false]

/-- The member of a written record holds the identifiers of what the member
of the instance leads to. -/
theorem memberReferences_of_stands (hFits : r.Fits) (hKind : m.kind = access.kind)
    (hStands : r.Stands m (access.bytesOf name x)) :
    r.memberReferences m =
      Enumeration.ok (((access.held x).map name).filter fun id => !id.isNull) := by
  rw [← Access.bytesWith_map] at hStands
  exact memberReferences_of_answers hFits hKind (List.length_map _) hStands

theorem references_of_answers {fields : List (Declaration (Access ι))}
    {answers : List (List ObjectId)}
    (h : List.Forall₂ (fun f ids => r.memberReferences f.member = Enumeration.ok ids)
      fields answers) :
    r.references (fields.map Declaration.member) = Enumeration.ok answers.flatten := by
  induction h with
  | nil => rfl
  | cons hHead _ ih =>
      rw [List.map_cons, references, hHead, ih, Enumeration.andThen_of_ok rfl, List.flatten_cons]
      rfl

theorem references_of_members {fields : List (Declaration (Access ι))}
    {ids : Declaration (Access ι) → List ObjectId}
    (h : ∀ f ∈ fields, r.memberReferences f.member = Enumeration.ok (ids f)) :
    r.references (fields.map Declaration.member) = Enumeration.ok (fields.flatMap ids) := by
  rw [List.flatMap_def]
  apply references_of_answers
  rw [List.forall₂_map_right_iff]
  exact List.forall₂_same.2 h

end Record

namespace Storing

variable {ι : Type} [Instance ι] {registry : Registry ι} {g : Graph ι} {ids : ObjectIds} {ref : Ref}
  {h : ObjectHandler ι} {d : ObjectHandler.Derived ι} {x : ι} {r : Record} {definition : Definition}

theorem Saved.fits (hSaved : Saved registry g ids ref h d x r) : r.Fits :=
  Chunk.fits_of_acceptable hSaved.acceptable

/-- The parts of a written record stand at the offsets of their members. -/
theorem Saved.stands (hSaved : Saved registry g ids ref h d x r) :
    ∀ f ∈ d.fields, r.Stands f.member (f.payload.bytesOf ids.nameOf x) := by
  have hFits := hSaved.fits
  rw [hSaved.record] at hFits ⊢
  exact ObjectHandler.stands_content (ObjectHandler.derived_eq_ok hSaved.derived) hFits

/-- A written record has a length that the definition of its type accepts. -/
theorem Saved.accepts (hSaved : Saved registry g ids ref h d x r)
    (hMembers : definition.members = d.fields.map Declaration.member) :
    definition.acceptsLength r.length = true := by
  have hAcceptable := hSaved.acceptable
  rw [hSaved.record] at hAcceptable ⊢
  exact ObjectHandler.acceptsLength_recordOf (ObjectHandler.derived_eq_ok hSaved.derived) hMembers
    hAcceptable

/-- A written record is of a type with the handler that has written it. -/
theorem Saved.handler_of_type (hSaved : Saved registry g ids ref h d x r)
    (hRegistry : registry.WellFormed) : registry.handler? r.type = some (.object h) := by
  rw [hSaved.record]
  exact hRegistry.handler_of_runtime hSaved.handler

/-- A written record is valid. -/
theorem Saved.valid (hSaved : Saved registry g ids ref h d x r) (hRegistry : registry.WellFormed) :
    ∃ definition, registry.validateEntity r.length r.type r.object = .ok definition ∧
      definition.members = d.fields.map Declaration.member := by
  obtain ⟨definition, hDefinition, hMembers⟩ :=
    hRegistry.registered hSaved.handler hSaved.derived
  have hType : r.type = h.id := by
    rw [hSaved.record]
    rfl
  rw [← hType] at hDefinition
  exact ⟨definition, Registry.validateEntity_eq_ok.2 ⟨hDefinition, hSaved.accepts hMembers⟩,
    hMembers⟩

/-- The references of a written record are the identifiers of what the
instance refers to, in the same order. -/
theorem Saved.references_record (hSaved : Saved registry g ids ref h d x r)
    (hIds : ids.WellFormed) (hMembers : definition.members = d.fields.map Declaration.member) :
    definition.references r = Enumeration.ok ((leads registry g ref).map ids.nameOf) := by
  have hOrders := ObjectHandler.derived_eq_ok hSaved.derived
  have hEach : ∀ f ∈ d.fields, r.memberReferences f.member =
      Enumeration.ok ((f.payload.held x).map ids.nameOf) := by
    intro f hf
    rw [Record.memberReferences_of_stands hSaved.fits (hOrders.kind f hf) (hSaved.stands f hf),
      List.filter_eq_self.2]
    intro id hId
    obtain ⟨target, hTarget, rfl⟩ := List.mem_map.1 hId
    obtain ⟨object, hObject⟩ := Option.isSome_iff_exists.1 (hSaved.named f hf target hTarget)
    have hNotNull := hIds.notNull object target ((hIds.inverse object target).2 hObject)
    rw [ne_eq, ← ObjectId.isNull_iff] at hNotNull
    rw [ObjectIds.nameOf_of_object hObject, Bool.not_eq_true']
    exact Bool.eq_false_iff.2 hNotNull
  have hLeads : leads registry g ref = d.fields.flatMap fun f => f.payload.held x := by
    rw [leads, hSaved.references]
  rw [Definition.references, hMembers, Record.references_of_members hEach, hLeads,
    List.map_flatMap]

end Storing

end ObjectStore
