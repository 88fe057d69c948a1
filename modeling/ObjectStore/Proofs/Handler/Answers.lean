import ObjectStore.Proofs.Handler.Content

/-!
# Identifiers that are answered one by one

Whoever identifies the instances in a record is asked for each reference in
turn, and is free to answer as it likes: with a new identifier each time, or
with the same one for two instances. What is written of an instance is
therefore a function of the answers, in the order of the questions, and not of
the references. How long it is does not depend on the answers at all.

If each instance has one name, the answers are the names.

## Main results

* `Access.write_eq_ok`: what is asked, and what is written, for one member.
* `ObjectHandler.write_fields_eq_ok`: the same for all fields.
* `Access.bytesWith_map`: what is written under fixed names.
* `ObjectHandler.keeps_store`: what identifying keeps, storing an instance
  keeps.
-/

namespace ObjectStore

variable {ι σ : Type} {identify : Ref → Attempt σ ObjectId} {s s' : σ}

/-! ## Members -/

namespace Access

/-- The bytes of the member of an instance, if the references in it are
identified by these, one after the other. -/
def bytesWith (access : Access ι) (ids : List ObjectId) (x : ι) : Bytes :=
  match access with
  | value kind get _ => kind.encode (get x)
  | reference _ _ => Word.ofWord (ids.headD ObjectId.null).value
  | bytes get _ => writeVariable (get x)
  | text get _ => writeVariable (Text.encode (get x))
  | references _ _ => writeObjectIds ids

variable {access : Access ι} {x : ι} {bytes : Bytes} {ids : List ObjectId}

/-- What is written under fixed names. -/
theorem bytesWith_map (access : Access ι) (name : Ref → ObjectId) (x : ι) :
    access.bytesWith ((access.held x).map name) x = access.bytesOf name x := by
  cases access with
  | value kind get set => rfl
  | bytes get set => rfl
  | text get set => rfl
  | references get set => rfl
  | reference get set =>
      simp only [bytesWith, bytesOf, held]
      cases get x <;> rfl

/-- The member of an instance is written by asking for the identifiers of what
it holds. -/
theorem write_eq_ok :
    (access.write identify x).start s = (.ok bytes, s') ↔
      ∃ ids, ((access.held x).mapM identify).start s = (.ok ids, s') ∧
        bytes = access.bytesWith ids x := by
  cases access with
  | value | bytes | text =>
      constructor
      · intro h
        cases h
        exact ⟨[], rfl, rfl⟩
      · rintro ⟨ids, h, rfl⟩
        cases h
        rfl
  | reference get set =>
      simp only [write, held, bytesWith]
      cases get x with
      | none =>
          constructor
          · intro h
            cases h
            exact ⟨[], rfl, rfl⟩
          · rintro ⟨ids, h, rfl⟩
            cases h
            rfl
      | some ref =>
          constructor
          · intro h
            obtain ⟨id, s₁, hIdentify, h⟩ := Attempt.start_bind_ok.1 h
            cases h
            exact ⟨[id], Attempt.start_mapM_cons_ok.2 ⟨id, [], _, hIdentify, rfl, rfl⟩, rfl⟩
          · rintro ⟨ids, h, rfl⟩
            obtain ⟨id, rest, s₁, hIdentify, hRest, rfl⟩ := Attempt.start_mapM_cons_ok.1 h
            cases hRest
            exact Attempt.start_bind_ok.2 ⟨id, _, hIdentify, rfl⟩
  | references get set =>
      constructor
      · intro h
        obtain ⟨ids, s₁, hIdentify, h⟩ := Attempt.start_bind_ok.1 h
        cases h
        exact ⟨ids, hIdentify, rfl⟩
      · rintro ⟨ids, hIdentify, rfl⟩
        exact Attempt.start_bind_ok.2 ⟨ids, _, hIdentify, rfl⟩

/-- How long a member is does not depend on the answers. -/
theorem length_bytesWith (name : Ref → ObjectId) (h : ids.length = (access.held x).length) :
    (access.bytesWith ids x).length = (access.bytesOf name x).length := by
  cases access with
  | value | bytes | text => rfl
  | reference get set => rw [bytesWith, bytesOf, Word.length_ofWord, Word.length_ofWord]
  | references get set =>
      rw [bytesWith, bytesOf, length_writeObjectIds, length_writeObjectIds, h, List.length_map]
      rfl

/-- What identifying keeps, writing a member keeps. -/
theorem keeps_write {P : σ → Prop} (hIdentify : ∀ ref, Attempt.Keeps P (identify ref))
    (access : Access ι) (x : ι) : Attempt.Keeps P (access.write identify x) := by
  cases access with
  | value | bytes | text => exact Attempt.keeps_pure _
  | reference get set =>
      simp only [write]
      split
      · exact (hIdentify _).bind fun _ => Attempt.keeps_pure _
      · exact Attempt.keeps_pure _
  | references get set =>
      exact (Attempt.keeps_mapM fun ref _ => hIdentify ref).bind fun _ => Attempt.keeps_pure _

end Access

/-! ## Fields -/

namespace ObjectHandler

variable {d : Derived ι} {x : ι}

/-- The parts of the content of an instance, if the references in each field
are identified by the list in its position. -/
def partsWith (fields : List (Declaration (Access ι))) (answers : List (List ObjectId)) (x : ι) :
    List Bytes :=
  List.zipWith (fun f ids => f.payload.bytesWith ids x) fields answers

/-- The fields of an instance are written by asking for the identifiers of
what they hold, field by field. -/
theorem write_fields_eq_ok {fields : List (Declaration (Access ι))} {parts : List Bytes} :
    Attempt.start (fields.mapM fun f => f.payload.write identify x) s = (.ok parts, s') ↔
      ∃ answers, Attempt.start (fields.mapM fun f => (f.payload.held x).mapM identify) s =
          (.ok answers, s') ∧ parts = partsWith fields answers x := by
  induction fields generalizing s parts with
  | nil =>
      constructor
      · intro h
        cases h
        exact ⟨[], rfl, rfl⟩
      · rintro ⟨answers, h, rfl⟩
        cases h
        rfl
  | cons f rest ih =>
      rw [Attempt.start_mapM_cons_ok]
      constructor
      · rintro ⟨part, others, s₁, hHead, hRest, rfl⟩
        obtain ⟨ids, hIds, rfl⟩ := Access.write_eq_ok.1 hHead
        obtain ⟨answers, hAnswers, rfl⟩ := ih.1 hRest
        exact ⟨ids :: answers,
          Attempt.start_mapM_cons_ok.2 ⟨ids, answers, s₁, hIds, hAnswers, rfl⟩, rfl⟩
      · rintro ⟨answers, h, rfl⟩
        obtain ⟨ids, others, s₁, hIds, hRest, rfl⟩ := Attempt.start_mapM_cons_ok.1 h
        exact ⟨_, _, s₁, Access.write_eq_ok.2 ⟨ids, hIds, rfl⟩, ih.2 ⟨others, hRest, rfl⟩, rfl⟩

/-- What identifying keeps, storing an instance keeps, also if it fails. -/
theorem keeps_store [Instance ι] {P : σ → Prop} (hIdentify : ∀ ref, Attempt.Keeps P (identify ref))
    (h : ObjectHandler ι) (object : ObjectId) (x : ι) :
    Attempt.Keeps P (h.store identify object x) := by
  refine (Attempt.keeps_lift _).bind fun d => ?_
  refine (Attempt.keeps_lift _).bind fun x => ?_
  refine (Attempt.keeps_lift _).bind fun front => ?_
  refine (Attempt.keeps_mapM fun f _ => Access.keeps_write hIdentify _ _).bind fun parts => ?_
  exact Attempt.keeps_pure _

end ObjectHandler

end ObjectStore
