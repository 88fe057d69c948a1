import ObjectStore.Proofs.Storing.Closure

/-!
# Storing again

A store operation assigns identifiers on demand, in the middle of what it
writes. When it has succeeded, all instances that it has met have
identifiers; a second store operation from the same roots finds them, so it
assigns none and writes the same bytes.

The argument goes along the steps of the operation. A step that has
succeeded can be repeated wherever what it knew in the end is known
(`Storing.Repeats`), and that is kept by sequences and passes. The walk has
made its visits in breadth-first order, and the second walk makes the same
visits.

## Main results

* `Storing.repeats_storeInstance`: a written instance can be written again.
* `storeObjects_again`: a store operation that succeeded can be repeated.
-/

namespace ObjectStore

/-- Every instance that `ids` knows has the same identifier in `ids'`. -/
def ObjectIds.KnownIn (ids ids' : ObjectIds) : Prop :=
  ∀ ref id, ids.objectId? ref = some id → ids'.objectId? ref = some id

namespace ObjectIds.KnownIn

variable {ids ids' ids'' : ObjectIds}

theorem refl (ids : ObjectIds) : ids.KnownIn ids := fun _ _ h => h

theorem trans (h : ids.KnownIn ids') (h' : ids'.KnownIn ids'') : ids.KnownIn ids'' :=
  fun ref id hId => h' ref id (h ref id hId)

/-- An assigned identifier takes nothing away. -/
theorem extend {ref : Ref} (hFree : ids.objectId? ref = none) (id : ObjectId) (next : UInt64) :
    ids.KnownIn (ids.extend id ref next) := by
  intro other id' hKnown
  have hOther : ref ≠ other := by
    rintro rfl
    rw [hFree] at hKnown
    cases hKnown
  rw [objectId?_extend, if_neg hOther]
  exact hKnown

end ObjectIds.KnownIn

namespace Storing

variable {α β : Type}

/-- What has succeeded succeeds again in every state that knows what was
known in the end: it gives the same result, writes the same, and assigns
nothing. -/
def Repeats (attempt : Attempt State α) : Prop :=
  ∀ s a s', attempt.start s = (.ok a, s') → s.ids.KnownIn s'.ids ∧
    ∃ written, s'.records = s.records ++ written ∧
      ∀ t : State, s'.ids.KnownIn t.ids →
        attempt.start t = (.ok a, { t with records := t.records ++ written })

/-! ## Sequences -/

/-- What writes nothing and assigns nothing can be repeated. -/
theorem repeats_lift (result : Except Error α) : Repeats (Attempt.lift result) := by
  intro s a s' h
  obtain ⟨rfl, rfl⟩ := Prod.mk.inj h
  exact ⟨ObjectIds.KnownIn.refl _, #[], by simp, fun t _ => by simp⟩

theorem repeats_pure (a : α) : Repeats (pure a) := repeats_lift (.ok a)

theorem Repeats.bind {first : Attempt State α} {second : α → Attempt State β}
    (hFirst : Repeats first) (hSecond : ∀ a, Repeats (second a)) :
    Repeats (first >>= second) := by
  intro s b s' h
  obtain ⟨a, s₁, hStart, hRest⟩ := Attempt.start_bind_ok.1 h
  obtain ⟨hKnown, front, hFront, hAgain⟩ := hFirst s a s₁ hStart
  obtain ⟨hKnown', back, hBack, hAgain'⟩ := hSecond a s₁ b s' hRest
  refine ⟨hKnown.trans hKnown', front ++ back, by rw [hBack, hFront, Array.append_assoc], ?_⟩
  intro t hT
  refine Attempt.start_bind_ok.2 ⟨a, _, hAgain t (hKnown'.trans hT), ?_⟩
  rw [hAgain' { t with records := t.records ++ front } hT]
  simp only [Array.append_assoc]

theorem repeats_mapM {f : α → Attempt State β} {as : List α} (h : ∀ a ∈ as, Repeats (f a)) :
    Repeats (as.mapM f) := by
  induction as with
  | nil => exact repeats_pure _
  | cons a rest ih =>
      have hRest := ih fun a' ha' => h a' (List.mem_cons_of_mem _ ha')
      rw [List.mapM_cons]
      exact (h a List.mem_cons_self).bind fun _ => hRest.bind fun _ => repeats_pure _

/-! ## The steps of a store operation -/

/-- An instance that has an identifier keeps it. -/
theorem identify_known {t : State} {ref : Ref} {id : ObjectId}
    (h : t.ids.objectId? ref = some id) : (identify ref).start t = (.ok id, t) := by
  simp only [identify, Attempt.start_of, ObjectIds.ensure_known h]
  rfl

theorem repeats_identify (ref : Ref) : Repeats (identify ref) := by
  intro s id s' h
  have hAgain : ∀ t : State, t.ids.objectId? ref = some id →
      (identify ref).start t = (.ok id, { t with records := t.records ++ #[] }) := by
    intro t hT
    rw [identify_known hT, Array.append_empty]
  rw [identify, Attempt.start_of] at h
  split at h
  · rename_i named fresh ids hEnsure
    obtain ⟨hId, rfl⟩ := Prod.mk.inj h
    cases hId
    rcases ObjectIds.ensure_cases hEnsure with ⟨hNamed, -, rfl⟩ | ⟨hFree, -, -, -, rfl⟩
    · exact ⟨ObjectIds.KnownIn.refl _, #[], by simp, fun t hT => hAgain t (hT ref _ hNamed)⟩
    · refine ⟨ObjectIds.KnownIn.extend hFree _ _, #[], by simp, fun t hT => hAgain t ?_⟩
      apply hT
      rw [ObjectIds.objectId?_extend, if_pos rfl]
  · cases h

/-- What has been written is written again. -/
theorem repeats_push (record : Bytes) :
    Repeats (Attempt.modify fun s => .ok { s with records := s.records.push record }) := by
  intro s u s' h
  cases Attempt.start_modify_eq_ok.1 h
  exact ⟨ObjectIds.KnownIn.refl _, #[record], Array.push_eq_append, fun t _ => by
    rw [Attempt.start_modify, Array.push_eq_append]⟩

variable {ι : Type}

theorem repeats_write (access : Access ι) (x : ι) : Repeats (access.write identify x) := by
  cases access with
  | value kind get set => exact repeats_pure _
  | bytes get set => exact repeats_pure _
  | text get set => exact repeats_pure _
  | reference get set =>
      simp only [Access.write]
      split
      · exact (repeats_identify _).bind fun _ => repeats_pure _
      · exact repeats_pure _
  | references get set =>
      simp only [Access.write]
      exact (repeats_mapM fun ref _ => repeats_identify ref).bind fun _ => repeats_pure _

variable [Instance ι] {registry : Registry ι} {g : Graph ι} {refs : List Ref} {s s' : State}

theorem repeats_store (handler : Handler ι) (object : ObjectId) (x : ι) :
    Repeats (handler.store identify object x) := by
  cases handler with
  | placeholder d => exact repeats_lift (.error _)
  | object h =>
      refine (repeats_lift _).bind fun d => ?_
      refine (repeats_lift _).bind fun x => ?_
      refine (repeats_lift _).bind fun front => ?_
      refine (repeats_mapM fun f _ => repeats_write _ _).bind fun parts => ?_
      exact repeats_pure _

/-- An instance that was written can be written again. -/
theorem repeats_storeInstance (registry : Registry ι) (g : Graph ι) (ref : Ref) :
    Repeats (storeInstance registry g ref) := by
  refine (repeats_lift _).bind fun handler => ?_
  refine (repeats_identify ref).bind fun object => ?_
  refine (repeats_lift _).bind fun x => ?_
  exact (repeats_store handler object x).bind fun record => repeats_push record

theorem repeats_identifyRoot (g : Graph ι) (root : Ref) : Repeats (identifyRoot g root) :=
  (repeats_lift _).bind fun _ => repeats_identify root

/-! ## The walk -/

theorem visitor_of_start {ref : Ref} {treatment : Visit}
    (h : (storeInstance registry g ref).start s = (.ok (), s')) :
    visitor registry g ref treatment s = (.proceed, s') := by
  simp only [visitor, h]

/-- Visits that were made can be made again. The induction goes along the
visits; what the last one knew, all later states know. -/
theorem visits_again {rules : Rules Ref} (h : Visits rules (visitor registry g) s refs s') :
    s.ids.KnownIn s'.ids ∧ ∃ written, s'.records = s.records ++ written ∧
      ∀ t : State, s'.ids.KnownIn t.ids →
        Visits rules (visitor registry g) t refs { t with records := t.records ++ written } := by
  induction h with
  | nil s =>
      refine ⟨ObjectIds.KnownIn.refl _, #[], by simp, fun t _ => ?_⟩
      rw [Array.append_empty]
      exact Visits.nil t
  | @cons ref refs s s₁ s' hVisit _ ih =>
      obtain ⟨hKnown, front, hFront, hAgain⟩ :=
        repeats_storeInstance registry g ref s () s₁ (visitor_proceeds hVisit)
      obtain ⟨hKnown', back, hBack, hVisits⟩ := ih
      refine ⟨hKnown.trans hKnown', front ++ back, by rw [hBack, hFront, Array.append_assoc], ?_⟩
      intro t hT
      have hRest := hVisits { t with records := t.records ++ front } hT
      rw [Array.append_assoc] at hRest
      exact Visits.cons (visitor_of_start (hAgain t (hKnown'.trans hT))) hRest

end Storing

open Storing

variable {ι : Type} [Instance ι]

/-- A store operation that has succeeded can be repeated: from the same roots
it gives the same chunk, and leaves the identifiers as they are. -/
theorem storeObjects_again (registry : Registry ι) (graph : Graph ι) (roots : List Ref)
    (ids ids' : ObjectIds) (chunk : StoredChunk)
    (h : (storeObjects registry graph roots).start ids = (.ok chunk, ids')) :
    (storeObjects registry graph roots).start ids' = (.ok chunk, ids') := by
  obtain ⟨s, s', visited, hRoots, hOrder, hVisits, hNext, hChunk, rfl⟩ := storeObjects_visits h
  obtain ⟨-, front, hFront, hRootsAgain⟩ :=
    repeats_mapM (fun root _ => repeats_identifyRoot graph root) _ _ _ hRoots
  obtain ⟨hKnown, back, hBack, hVisitsAgain⟩ := visits_again hVisits
  have hSecond := storeObjects_of_visits (hRootsAgain ⟨s'.ids, [], #[]⟩ hKnown) hOrder
    (hVisitsAgain ⟨s'.ids, [], #[] ++ front⟩ (ObjectIds.KnownIn.refl _)) hNext
  rw [hSecond, hChunk, hBack, hFront]

end ObjectStore
