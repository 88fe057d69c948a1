import ObjectStore.Proofs.Storing.Appending

/-!
# References of an instance and of its record

What an instance refers to is found in three ways: from its fields in memory,
from its record by the handler that has written it, and from its record by a
definition alone. The first way gives live instances and the other two give
identifiers. They agree, reference by reference, whatever the kinds of the
fields are and wherever these stand: the second and the third list what was
answered for the first.

An answer that is the absent reference is left out of a list. So the ways
agree as long as nobody gives that identifier to an instance.

## Main results

* `ObjectHandler.references_recordWith`: the references of a record that was
  written with given answers.
* `ObjectHandler.references_of_store`: the three ways agree.
-/

namespace ObjectStore

variable {ι σ : Type} {identify : Ref → Attempt σ ObjectId} {s s' : σ}

namespace ObjectHandler

variable {h : ObjectHandler ι} {d : Derived ι} {object : ObjectId} {x : ι} {bytes : Bytes}
  {answers : List (List ObjectId)}

/-- The references of a record are the answers that it was written with, but
for absent ones. -/
theorem references_recordWith (hDerived : h.derived = .ok d)
    (hSmall : size d x ≤ maxContentLength.toNat) (hAnswered : Answered d.fields x answers) :
    (h.recordWith d answers object x).references d.definition.members =
      Enumeration.ok (answers.flatten.filter fun id => !id.isNull) := by
  have hOrders := derived_eq_ok hDerived
  have hFits := Chunk.fits_of_acceptable
    (@acceptable_recordWith _ h d object x answers hSmall hAnswered)
  have hStands := @stands_recordWith _ h d object x answers hOrders hSmall hAnswered
  have hEach := (List.forall₂_and_left _ _).2 ⟨hOrders.kind, hStands⟩
  rw [hOrders.members, List.filter_flatten]
  apply Record.references_of_answers
  rw [List.forall₂_map_right_iff]
  refine hEach.imp ?_
  rintro f ids ⟨hKind, hLength, hPart⟩
  exact Record.memberReferences_of_answers hFits hKind hLength hPart

variable [Instance ι]

/-- The identifiers that are found in the record of an instance, by its handler
or by any definition with the same layout, are those that were answered for the
references of the instance, one for one. If the answers depend on nothing but
the references, they are their images. -/
theorem references_of_store
    (hNotNull : ∀ ref s id s', (identify ref).start s = (.ok id, s') → id ≠ ObjectId.null)
    (hStore : (h.store identify object x).start s = (.ok bytes, s')) :
    ∃ own r refs ids, h.definition = .ok own ∧ Record.parse bytes = .ok r ∧
      h.instanceReferences x = .ok refs ∧
      (refs.mapM identify).start s = (.ok ids, s') ∧
      h.recordReferences r = Enumeration.ok ids ∧
      (∀ definition, own.isLayoutEqual definition = true →
        definition.references r = Enumeration.ok ids) ∧
      ∀ image, (∀ ref s id s', (identify ref).start s = (.ok id, s') → id = image ref) →
        ids = refs.map image := by
  obtain ⟨d, answers, hDerived, hTyped, hSmall, hAsked, rfl⟩ := store_eq_ok.1 hStore
  have hAnswered := answered_of_start hAsked
  have hRefs := Attempt.start_mapM_flatMap hAsked
  have hFound := @references_recordWith _ h d object x answers hDerived hSmall hAnswered
  have hNone : ∀ id ∈ answers.flatten, (!id.isNull) = true := by
    intro id hId
    obtain ⟨ref, -, hGiven⟩ := forall₂_exists_left (Attempt.forall₂_of_start_mapM
      (R := fun _ id => id ≠ ObjectId.null) hNotNull hRefs) hId
    rw [Bool.not_eq_true', ← Bool.not_eq_true, ObjectId.isNull_iff]
    exact hGiven
  rw [List.filter_eq_self.2 hNone] at hFound
  refine ⟨d.definition, _, _, answers.flatten, by rw [definition, hDerived]; rfl,
    (renders_recordWith hDerived hSmall hAnswered).parsed,
    instanceReferences_of_typed hDerived hTyped, hRefs, ?_, ?_, ?_⟩
  · rw [recordReferences, hDerived]
    exact hFound
  · intro definition hSame
    rw [Definition.references, ← (Definition.isLayoutEqual_iff.1 hSame).2.2]
    exact hFound
  · intro image hImage
    have hImages := Attempt.forall₂_of_start_mapM
      (R := fun ref id => image ref = id) (fun ref s id s' h => (hImage ref s id s' h).symm) hRefs
    have hMapped := List.forall₂_map_left_iff.2 hImages
    rw [List.forall₂_eq_eq_eq] at hMapped
    exact hMapped.symm

end ObjectHandler

namespace Slots

/-- The boss of the clerk is found in front of his friends, and is found again
among them, in memory and in the record. -/
theorem references_of_store_clerk : ∃ bytes r,
    (worker.store identifyCrew ⟨9⟩ clerk).start () = (.ok bytes, ()) ∧
      Record.parse bytes = .ok r ∧
      worker.instanceReferences clerk = .ok [⟨1⟩, ⟨1⟩, ⟨0⟩, ⟨1⟩] ∧
      worker.recordReferences r = Enumeration.ok [⟨3⟩, ⟨3⟩, ⟨7⟩, ⟨3⟩] := by
  have hBadge : ∀ ref s id s', (identifyCrew ref).start s = (.ok id, s') → badge ref = some id :=
    fun ref s id s' h => remembers_crew.given h
  have hNotNull : ∀ ref s id s', (identifyCrew ref).start s = (.ok id, s') →
      id ≠ ObjectId.null := by
    rintro ref s id s' h rfl
    have hBack := inverts_crew.back (hBadge ref s _ s' h)
    rw [inverts_crew.null] at hBack
    cases hBack
  obtain ⟨bytes, hStore⟩ := store_clerk
  obtain ⟨own, r, refs, ids, -, hParse, hRefs, -, hRecord, -, hImages⟩ :=
    ObjectHandler.references_of_store hNotNull hStore
  have hClerk : worker.instanceReferences clerk = .ok [⟨1⟩, ⟨1⟩, ⟨0⟩, ⟨1⟩] := rfl
  cases hRefs.symm.trans hClerk
  have hIds := hImages (nameIn badge) fun ref s id s' h => by
    rw [nameIn, hBadge ref s id s' h]
    rfl
  rw [hIds] at hRecord
  exact ⟨bytes, r, hStore, hParse, hClerk, hRecord⟩

end Slots

end ObjectStore
