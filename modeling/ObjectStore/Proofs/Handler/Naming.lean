import ObjectStore.Proofs.Handler.Answers
import ObjectStore.Proofs.Record.Chunk

/-!
# Names that an instance is stored with

Storing an instance asks for the identifiers of the instances it refers to,
one after the other. Whoever answers may keep a state, and may give an
instance its identifier only when asked for it. A `Naming` says what is
needed for the written bytes to be right in the end: a name that was given
stays. What is written then is the record with the names of the last state.

## Main results

* `Naming.write_ok`: what writing a member names, and the bytes it gives.
* `Naming.store_ok`: the same for a whole record.
* `ObjectHandler.store_isOk`: a record that readers accept can be written.
-/

namespace ObjectStore

variable {ι σ : Type} {identify : Ref → Attempt σ ObjectId}

/-- How the states of an identification follow each other. -/
structure Naming (identify : Ref → Attempt σ ObjectId) where
  /-- The states that occur. -/
  Valid : σ → Prop
  /-- The identifier of an instance in a state. -/
  name : σ → Ref → ObjectId
  /-- The second state came of the first by naming these instances. -/
  Names : σ → List Ref → σ → Prop
  refl : ∀ {s}, Valid s → Names s [] s
  trans : ∀ {s s' s'' refs more}, Names s refs s' → Names s' more s'' → Names s (refs ++ more) s''
  valid : ∀ {s refs s'}, Names s refs s' → Valid s'
  named : ∀ {s ref id s'}, Valid s → (identify ref).start s = (.ok id, s') →
    Names s [ref] s' ∧ name s' ref = id
  /-- A name that was given stays. -/
  stays : ∀ {s s' s'' refs more}, Names s refs s' → Names s' more s'' →
    ∀ ref ∈ refs, name s'' ref = name s' ref

namespace Naming

variable (naming : Naming identify) {s s' : σ}

/-! ## Members -/

theorem mapM_ok {refs : List Ref} {ids : List ObjectId} (hValid : naming.Valid s)
    (h : (refs.mapM identify).start s = (.ok ids, s')) :
    naming.Names s refs s' ∧ ids = refs.map (naming.name s') := by
  induction refs generalizing s ids with
  | nil =>
      cases h
      exact ⟨naming.refl hValid, rfl⟩
  | cons ref rest ih =>
      obtain ⟨id, restIds, s₁, hHead, hRest, rfl⟩ := Attempt.start_mapM_cons_ok.1 h
      obtain ⟨hNames, hId⟩ := naming.named hValid hHead
      obtain ⟨hNamesRest, hRestIds⟩ := ih (naming.valid hNames) hRest
      have hFirst : naming.name s' ref = id := by
        rw [naming.stays hNames hNamesRest ref (List.mem_singleton.2 rfl), hId]
      exact ⟨naming.trans hNames hNamesRest, by rw [List.map_cons, hFirst, hRestIds]⟩

theorem write_ok {access : Access ι} {x : ι} {bytes : Bytes} (hValid : naming.Valid s)
    (h : (access.write identify x).start s = (.ok bytes, s')) :
    naming.Names s (access.held x) s' ∧ bytes = access.bytesOf (naming.name s') x := by
  obtain ⟨ids, hIdentify, rfl⟩ := Access.write_eq_ok.1 h
  obtain ⟨hNames, rfl⟩ := naming.mapM_ok hValid hIdentify
  exact ⟨hNames, access.bytesWith_map (naming.name s') x⟩

theorem parts_ok {fields : List (Declaration (Access ι))} {x : ι} {parts : List Bytes}
    (hValid : naming.Valid s)
    (h : Attempt.start (fields.mapM fun f => f.payload.write identify x) s = (.ok parts, s')) :
    naming.Names s (fields.flatMap fun f => f.payload.held x) s' ∧
      parts = fields.map fun f => f.payload.bytesOf (naming.name s') x := by
  induction fields generalizing s parts with
  | nil =>
      cases h
      exact ⟨naming.refl hValid, rfl⟩
  | cons f rest ih =>
      obtain ⟨part, restParts, s₁, hHead, hRest, rfl⟩ := Attempt.start_mapM_cons_ok.1 h
      obtain ⟨hNames, hPart⟩ := naming.write_ok hValid hHead
      obtain ⟨hNamesRest, hRestParts⟩ := ih (naming.valid hNames) hRest
      refine ⟨naming.trans hNames hNamesRest, ?_⟩
      -- The first part was written with an earlier state.
      have hSame : f.payload.bytesOf (naming.name s₁) x = f.payload.bytesOf (naming.name s') x := by
        apply Access.bytesOf_congr
        intro ref hRef
        exact (naming.stays hNames hNamesRest ref hRef).symm
      rw [List.map_cons, hPart, hSame, hRestParts]

end Naming

/-! ## Whole records -/

variable [Instance ι] {h : ObjectHandler ι} {d : ObjectHandler.Derived ι} {object : ObjectId}
  {x : ι} {s s' : σ}

namespace ObjectHandler

omit [Instance ι] in
/-- The header of a content that readers accept can be written, and no other
one. -/
theorem begin_contentLength (hOrders : d.Orders h) (name : Ref → ObjectId) (x : ι) {front : Bytes} :
    Header.begin ⟨contentLength d x, h.id, object⟩ = .ok front ↔
      Chunk.Acceptable (h.recordOf d name object x) ∧
        front = (h.recordOf d name object x).header.write :=
  @Chunk.begin_eq_ok (h.recordOf d name object x) _ _ (toNat_contentLength hOrders name x)

theorem expect_eq_ok {y : ι} : h.expect x = .ok y ↔ Instance.runtimeType x = h.runtime ∧ y = x := by
  unfold expect
  split
  · rename_i hTyped
    simp [hTyped, eq_comm]
  · rename_i hTyped
    simp [hTyped]

/-- How an instance is stored: it is of the runtime type, its content is not
too large, and its members are written one after the other. -/
theorem start_store_ok {bytes : Bytes} :
    (h.store identify object x).start s = (.ok bytes, s') ↔
      ∃ d front parts, h.derived = .ok d ∧ Instance.runtimeType x = h.runtime ∧
        Header.begin ⟨contentLength d x, h.id, object⟩ = .ok front ∧
        Attempt.start (d.fields.mapM fun f => f.payload.write identify x) s = (.ok parts, s') ∧
        bytes = front ++ parts.flatten := by
  constructor
  · intro hStore
    obtain ⟨d, s₁, hDerived, hStore⟩ := Attempt.start_bind_ok.1 hStore
    obtain ⟨hd, rfl⟩ := Prod.mk.inj hDerived
    obtain ⟨y, s₂, hExpect, hStore⟩ := Attempt.start_bind_ok.1 hStore
    obtain ⟨hy, rfl⟩ := Prod.mk.inj hExpect
    obtain ⟨front, s₃, hBegin, hStore⟩ := Attempt.start_bind_ok.1 hStore
    obtain ⟨hFront, rfl⟩ := Prod.mk.inj hBegin
    obtain ⟨parts, s₄, hParts, hStore⟩ := Attempt.start_bind_ok.1 hStore
    cases hStore
    obtain ⟨hTyped, rfl⟩ := expect_eq_ok.1 hy
    exact ⟨d, front, parts, hd, hTyped, hFront, hParts, rfl⟩
  · rintro ⟨d, front, parts, hd, hTyped, hFront, hParts, rfl⟩
    refine Attempt.start_bind_ok.2 ⟨d, s, by rw [Attempt.start_lift, hd], ?_⟩
    have hExpect : h.expect x = .ok x := expect_eq_ok.2 ⟨hTyped, rfl⟩
    refine Attempt.start_bind_ok.2 ⟨x, s, by rw [Attempt.start_lift, hExpect], ?_⟩
    refine Attempt.start_bind_ok.2 ⟨front, s, by rw [Attempt.start_lift, hFront], ?_⟩
    exact Attempt.start_bind_ok.2 ⟨parts, s', hParts, rfl⟩

end ObjectHandler

/-! ## What can be written -/

section

variable {P : σ → Prop} {name : Ref → ObjectId}

omit [Instance ι] in
/-- A member is written if the instances in it have identifiers. -/
theorem Access.write_isOk {access : Access ι}
    (hNamed : ∀ ref ∈ access.held x, ∀ s, P s →
      ∃ s', (identify ref).start s = (.ok (name ref), s') ∧ P s') (hs : P s) :
    ∃ s', (access.write identify x).start s = (.ok (access.bytesOf name x), s') ∧ P s' := by
  obtain ⟨s', hIdentify, hs'⟩ := Attempt.start_mapM_isOk hNamed hs
  exact ⟨s', write_eq_ok.2 ⟨_, hIdentify, (access.bytesWith_map name x).symm⟩, hs'⟩

/-- The record of an instance is written if readers accept it, and if the
instances in it have identifiers. -/
theorem ObjectHandler.store_isOk (hDerived : h.derived = .ok d)
    (hTyped : Instance.runtimeType x = h.runtime)
    (hAcceptable : Chunk.Acceptable (h.recordOf d name object x))
    (hNamed : ∀ f ∈ d.fields, ∀ ref ∈ f.payload.held x, ∀ s, P s →
      ∃ s', (identify ref).start s = (.ok (name ref), s') ∧ P s') (hs : P s) :
    ∃ s', (h.store identify object x).start s =
      (.ok (h.recordOf d name object x).encode, s') ∧ P s' := by
  obtain ⟨s', hParts, hs'⟩ := Attempt.start_mapM_isOk
    (fun f hf _ hs₁ => Access.write_isOk (hNamed f hf) hs₁) hs
  have hFront := (begin_contentLength (derived_eq_ok hDerived) name x).2 ⟨hAcceptable, rfl⟩
  exact ⟨s', start_store_ok.2 ⟨d, _, _, hDerived, hTyped, hFront, hParts, rfl⟩, hs'⟩

end

/-! ## What is named -/

/-- What storing an instance writes and names. -/
theorem Naming.store_ok (naming : Naming identify) {bytes : Bytes} (hValid : naming.Valid s)
    (hStore : (h.store identify object x).start s = (.ok bytes, s')) :
    ∃ d, h.derived = .ok d ∧ Instance.runtimeType x = h.runtime ∧
      naming.Names s (d.fields.flatMap fun f => f.payload.held x) s' ∧
      bytes = (h.recordOf d (naming.name s') object x).encode ∧
      Chunk.Acceptable (h.recordOf d (naming.name s') object x) := by
  obtain ⟨d, front, parts, hd, hTyped, hFront, hParts, rfl⟩ := ObjectHandler.start_store_ok.1 hStore
  obtain ⟨hNames, rfl⟩ := naming.parts_ok hValid hParts
  obtain ⟨hAcceptable, rfl⟩ :=
    (ObjectHandler.begin_contentLength (ObjectHandler.derived_eq_ok hd) (naming.name s') x).1 hFront
  exact ⟨d, hd, hTyped, hNames, rfl, hAcceptable⟩

end ObjectStore
