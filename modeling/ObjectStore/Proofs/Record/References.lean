import ObjectStore.Handler.Basic

/-!
# What a record refers to

A record holds references in the members that the definition of its type
describes as references: a single one, or a list of them. The absent
reference is none. This is said here without a word on the order in which
the members are searched; a search that comes to its end has seen exactly
these references.

## Main results

* `Definition.mem_references`: what a search for references sees.
-/

namespace ObjectStore

namespace Record

variable {r : Record} {m : Member} {id : ObjectId}

/-- The member of the record holds a reference to the object. -/
inductive RefersAt (r : Record) (m : Member) (id : ObjectId) : Prop where
  | single {offset : UInt64} : m.kind = .reference → m.place = .ok offset →
      r.readObjectId offset.toNat = .ok id → id ≠ ObjectId.null → RefersAt r m id
  | listed {offset : UInt64} {ids : List ObjectId} : m.kind = .referenceList →
      m.place = .ok offset → r.readObjectIds offset.toNat = .ok ids → id ∈ ids →
      id ≠ ObjectId.null → RefersAt r m id

/-- The record, read by a definition, refers to the object. -/
def RefersTo (r : Record) (d : Definition) (id : ObjectId) : Prop :=
  ∃ m ∈ d.members, r.RefersAt m id

theorem mem_filter_isNull {ids : List ObjectId} :
    id ∈ ids.filter (fun id => !id.isNull) ↔ id ∈ ids ∧ id ≠ ObjectId.null := by
  rw [List.mem_filter, Bool.not_eq_true', ← Bool.not_eq_true, ObjectId.isNull_iff]

theorem refersAt_of_reference {offset : UInt64} (hKind : m.kind = .reference)
    (hPlace : m.place = .ok offset) :
    r.RefersAt m id ↔ r.readObjectId offset.toNat = .ok id ∧ id ≠ ObjectId.null := by
  constructor
  · rintro (⟨-, hPlace', hRead, hNotNull⟩ | ⟨hKind', -, -, -, -⟩)
    · cases hPlace.symm.trans hPlace'
      exact ⟨hRead, hNotNull⟩
    · cases hKind.symm.trans hKind'
  · rintro ⟨hRead, hNotNull⟩
    exact RefersAt.single hKind hPlace hRead hNotNull

theorem refersAt_of_referenceList {offset : UInt64} (hKind : m.kind = .referenceList)
    (hPlace : m.place = .ok offset) : r.RefersAt m id ↔
      ∃ ids, r.readObjectIds offset.toNat = .ok ids ∧ id ∈ ids ∧ id ≠ ObjectId.null := by
  constructor
  · rintro (⟨hKind', -, -, -⟩ | ⟨-, hPlace', hRead, hIn, hNotNull⟩)
    · cases hKind.symm.trans hKind'
    · cases hPlace.symm.trans hPlace'
      exact ⟨_, hRead, hIn, hNotNull⟩
  · rintro ⟨ids, hRead, hIn, hNotNull⟩
    exact RefersAt.listed hKind hPlace hRead hIn hNotNull

/-- Nothing is referred to by a member that is not a reference, or that has
no place. -/
theorem not_refersAt (h : m.kind.hasReferences = false ∨ ∃ e, m.place = .error e) :
    ¬r.RefersAt m id := by
  rintro (⟨hKind, hPlace, -, -⟩ | ⟨hKind, hPlace, -, -, -⟩)
  · rcases h with hNone | ⟨e, hError⟩
    · rw [hKind] at hNone
      cases hNone
    · cases hPlace.symm.trans hError
  · rcases h with hNone | ⟨e, hError⟩
    · rw [hKind] at hNone
      cases hNone
    · cases hPlace.symm.trans hError

/-- What is seen in a member is what it refers to. -/
theorem mem_memberReferences : id ∈ (r.memberReferences m).seen ↔ r.RefersAt m id := by
  unfold memberReferences
  cases hSome : m.kind.hasReferences with
  | false => simpa [Enumeration.ok] using not_refersAt (Or.inl hSome)
  | true =>
      cases hPlace : m.place with
      | error e => simpa [Enumeration.error] using not_refersAt (Or.inr ⟨e, hPlace⟩)
      | ok offset =>
          cases hKind : m.kind with
          | primitive | bytes | text =>
              rw [hKind] at hSome
              cases hSome
          | reference =>
              rw [refersAt_of_reference hKind hPlace]
              cases hRead : r.readObjectId offset.toNat with
              | error cause => simp [FieldKind.isReference, hRead, Enumeration.error]
              | ok target =>
                  simp only [FieldKind.isReference, hRead, Bool.not_true, Bool.false_eq_true,
                    if_false, if_true, Enumeration.ok, mem_filter_isNull, List.mem_singleton,
                    Except.ok.injEq, eq_comm]
          | referenceList =>
              rw [refersAt_of_referenceList hKind hPlace]
              cases hRead : r.readObjectIds offset.toNat with
              | error cause => simp [FieldKind.isReference, hRead, Enumeration.error]
              | ok ids =>
                  simp only [FieldKind.isReference, hRead, Bool.not_true, Bool.false_eq_true,
                    if_false, Enumeration.ok, mem_filter_isNull, Except.ok.injEq,
                    exists_eq_left']

theorem mem_references {members : List Member} {targets : List ObjectId}
    (h : (r.references members).toExcept = .ok targets) :
    id ∈ targets ↔ ∃ m ∈ members, r.RefersAt m id := by
  induction members generalizing targets with
  | nil =>
      cases h
      simp [references, Enumeration.ok]
  | cons m rest ih =>
      obtain ⟨front, back, hFront, hBack, rfl⟩ := Enumeration.andThen_eq_ok.1 h
      rw [List.mem_append, ih hBack, ← (Enumeration.toExcept_eq_ok.1 hFront).2,
        mem_memberReferences]
      simp only [List.mem_cons, or_and_right, exists_or, exists_eq_left]

end Record

/-- A search for references that comes to its end has seen what the record
refers to. -/
theorem Definition.mem_references {d : Definition} {r : Record} {id : ObjectId}
    {targets : List ObjectId} (h : (d.references r).toExcept = .ok targets) :
    id ∈ targets ↔ r.RefersTo d id :=
  Record.mem_references h

end ObjectStore
