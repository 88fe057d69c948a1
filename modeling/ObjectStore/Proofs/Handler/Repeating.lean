import ObjectStore.Proofs.Handler.Restoring

/-!
# Instances that are up to date

A record may meet an instance that is what it says already: one that was
loaded from the same record, or one that the record was written of. To bring
such an instance up to date again succeeds and changes no field, although the
code that does it is not the code that has made the instance: members that
can be set are set once more, and an instance none of whose members can be
set is compared with the record, byte by byte and reference by reference.

If setting a member to what it is already does nothing at all, the instance
stays as it is.

## Main results

* `ObjectHandler.upToDate_of_connect`, `ObjectHandler.upToDate_of_refresh`: an
  instance is up to date with a record that was loaded into it.
* `ObjectHandler.upToDate_recordOf`: an instance is up to date with the record
  that is written of it.
* `ObjectHandler.UpToDate.refresh_isOk`: what becomes of it.
-/

namespace ObjectStore

variable {ι : Type}

/-! ## Members -/

namespace Access

variable {access : Access ι} {lookup : Lookup} {r : Record} {offset : Nat} {x : ι}

/-- The member is found to be what the record says, unless a reference of a
list is left out. -/
theorem matchesStored_of_holds (h : access.Holds lookup r offset x)
    (hFound : access.kind = .referenceList →
      ∀ ids, r.readObjectIds offset = .ok ids → ∀ id ∈ ids, lookup id ≠ .ok none) :
    access.matchesStored lookup offset r x = .ok true := by
  cases access with
  | value kind get set =>
      obtain ⟨bytes, hSlice, hDecode⟩ := h
      refine bind_eq_ok.2 ⟨bytes, orCorrupt_eq_ok.2 hSlice, ?_⟩
      rw [PrimitiveKind.encode_of_decode hDecode, decide_eq_true rfl]
      rfl
  | reference get set =>
      obtain ⟨id, hRead, hLookup⟩ := h
      refine bind_eq_ok.2 ⟨id, orCorrupt_eq_ok.2 hRead, bind_eq_ok.2 ⟨get x, hLookup, ?_⟩⟩
      rw [decide_eq_true rfl]
      rfl
  | bytes get set =>
      refine bind_eq_ok.2 ⟨get x, orCorrupt_eq_ok.2 h, ?_⟩
      rw [decide_eq_true rfl]
      rfl
  | text get set =>
      obtain ⟨payload, hRead, hDecode⟩ := h
      refine bind_eq_ok.2 ⟨payload, orCorrupt_eq_ok.2 hRead, ?_⟩
      rw [Text.encode_of_decode hDecode, decide_eq_true rfl]
      rfl
  | references get set =>
      obtain ⟨ids, hRead, hResolve⟩ := h
      obtain ⟨-, found, hMap, hTargets⟩ := resolveAll_eq_ok.1 hResolve
      have hAll : found = (get x).map some := by
        rw [← hTargets]
        have hSome : ∀ target ∈ found, target ≠ none := by
          rintro target hTarget rfl
          obtain ⟨id, hId, hLookup⟩ := forall₂_exists_left (mapM_eq_ok.1 hMap) hTarget
          exact hFound rfl ids hRead id hId hLookup
        clear hMap hTargets
        induction found with
        | nil => rfl
        | cons target rest ih =>
            obtain ⟨ref, rfl⟩ := Option.ne_none_iff_exists'.1 (hSome target List.mem_cons_self)
            rw [List.filterMap_cons_some (f := id) rfl, List.map_cons,
              ← ih fun t ht => hSome t (List.mem_cons_of_mem _ ht)]
      have hLength : ids.length = (get x).length := by
        rw [(mapM_eq_ok.1 hMap).length_eq, hAll, List.length_map]
      refine bind_eq_ok.2 ⟨ids, orCorrupt_eq_ok.2 hRead, ?_⟩
      rw [if_pos hLength]
      refine bind_eq_ok.2 ⟨found, hMap, ?_⟩
      rw [decide_eq_true hAll]
      rfl

/-- What was written of a member is what it is, if its references lead to the
instances that they lead to now. -/
theorem Written.holds {name : Ref → ObjectId} (h : access.Written name r offset x)
    (hNull : lookup ObjectId.null = .ok none)
    (hLeads : Leads lookup name some (access.held x)) : access.Holds lookup r offset x := by
  cases access with
  | value kind get set => exact ⟨_, h, kind.decode_encode (get x)⟩
  | bytes get set => exact h
  | text get set => exact ⟨_, h, Text.decode_encode (get x)⟩
  | reference get set =>
      obtain ⟨target, hLookup, hTarget⟩ := lookup_name hNull hLeads
      have hSame : target = get x := Option.map_injective (fun _ _ => Option.some.inj) hTarget
      exact ⟨_, h, hSame ▸ hLookup⟩
  | references get set =>
      have hResolve : resolveAll lookup ((get x).map name) = .ok _ := resolveAll_names hLeads
      have hTargets : ((get x).map some).filterMap id = get x := by
        rw [List.filterMap_map]
        exact List.filterMap_some
      rw [hTargets] at hResolve
      exact ⟨_, h, hResolve⟩

theorem Written.matchesStored {name : Ref → ObjectId} (h : access.Written name r offset x)
    (hNull : lookup ObjectId.null = .ok none)
    (hLeads : Leads lookup name some (access.held x)) :
    access.matchesStored lookup offset r x = .ok true := by
  refine matchesStored_of_holds (h.holds hNull hLeads) ?_
  intro hKind ids hRead id hId hNone
  cases access with
  | references get set =>
      cases hRead.symm.trans h
      obtain ⟨target, hTarget, rfl⟩ := List.mem_map.1 hId
      obtain ⟨ref, -, hLookup⟩ := hLeads.known target hTarget
      cases hLookup.symm.trans hNone
  | value kind get set => cases hKind
  | reference get set => cases hKind
  | bytes get set => cases hKind
  | text get set => cases hKind

end Access

/-! ## Handlers -/

namespace ObjectHandler

variable {h : ObjectHandler ι} {d : Derived ι} {lookup : Lookup} {r : Record} {x y : ι}

/-- A derived field of an instance is found to be what the record says. -/
def MatchesAt (lookup : Lookup) (r : Record) (x : ι) (f : Declaration (Access ι)) : Prop :=
  ∃ offset, f.member.offset = some offset ∧
    f.payload.matchesStored lookup offset.toNat r x = .ok true

theorem checkStored_ok {typeName : String} {fields : List (Declaration (Access ι))} :
    checkStored typeName lookup r x fields = .ok () ↔ ∀ f ∈ fields, MatchesAt lookup r x f := by
  induction fields with
  | nil => simp [checkStored]
  | cons f rest ih =>
      rw [checkStored, List.forall_mem_cons, ← ih, bind_eq_ok]
      constructor
      · rintro ⟨offset, hPlace, hRest⟩
        obtain ⟨found, hMatches, hRest⟩ := bind_eq_ok.1 hRest
        cases found with
        | false => cases hRest
        | true =>
            refine ⟨⟨offset, ?_, hMatches⟩, hRest⟩
            unfold Member.place at hPlace
            split at hPlace
            · cases hPlace
              assumption
            · cases hPlace
      · rintro ⟨⟨offset, hOffset, hMatches⟩, hRest⟩
        exact ⟨offset, by rw [Member.place, hOffset], bind_eq_ok.2 ⟨true, hMatches, hRest⟩⟩

/-! ### Types without settable fields -/

/-- No field of the type can be set. -/
def Frozen (h : ObjectHandler ι) : Prop := ∀ f ∈ h.fields, f.access.isSettable = false

/-- The type has no references, and its instances come into being with the
values of their records. -/
structure Reproduces (h : ObjectHandler ι) : Prop where
  unreferring : ∀ f ∈ h.fields, f.access.kind.hasReferences = false
  constructed : ∀ d r x, h.derived = .ok d →
    h.construction.Yields ⟨h.name, d.definition.members, r⟩ x → ∀ lookup, HoldsAll lookup r d x

theorem Derived.Orders.frozen (hOrders : d.Orders h)
    (hNone : ∀ f ∈ d.fields, f.settable = false) : h.Frozen := by
  intro field hField
  obtain ⟨f, hf, hAccess⟩ := derived_of_declared hOrders hField
  rw [← hAccess, ← hOrders.settable f hf]
  exact hNone f hf

/-! ### Being up to date -/

variable [Instance ι]

/-- A pass over no fields does nothing. -/
theorem Settled.eq_of_none {runtime : RuntimeType} {chosen : Declaration (Access ι) → Bool}
    (hSettled : Settled runtime lookup r (d.fields.filter chosen) x y)
    (hNone : ∀ f ∈ d.fields, chosen f = false) : y = x := by
  have hNot : ∀ f, f ∉ d.fields.filter chosen := by
    intro f hf
    obtain ⟨hIn, hChosen⟩ := List.mem_filter.1 hf
    rw [hNone f hIn] at hChosen
    cases hChosen
  exact hSettled.unmoved (fun f hf => absurd hf (hNot f)) fun f hf => absurd hf (hNot f)

/-- The instance is what the record says, as far as bringing it up to date
looks at it: in the fields that can be set or, if there are none, in all of
them. -/
structure UpToDate (lookup : Lookup) (r : Record) (h : ObjectHandler ι) (d : Derived ι) (x : ι) :
    Prop where
  derived : h.derived = .ok d
  typed : Instance.runtimeType x = h.runtime
  holds : HoldsSettable lookup r d x
  compared : (∀ f ∈ d.fields, f.settable = false) → ∀ f ∈ d.fields, MatchesAt lookup r x f

/-- An instance that was brought up to date is up to date. -/
theorem upToDate_of_refresh (hRegular : h.Regular)
    (hRefresh : (h.refresh lookup r).start x = (.ok (), y)) : ∃ d, UpToDate lookup r h d y := by
  obtain ⟨d, hDerived, hTyped, hHolds, -⟩ := refresh_regular hRegular hRefresh
  refine ⟨d, hDerived, hTyped, hHolds, ?_⟩
  intro hNone
  obtain ⟨d', hDerived', -, hSettle⟩ := refresh_ok.1 hRefresh
  rw [hDerived] at hDerived'
  cases hDerived'
  have hReadOnly := (derived_eq_ok hDerived).frozen_iff.2 hNone
  rcases hSettle with ⟨hSettable, -⟩ | ⟨-, hCheck, rfl⟩
  · rw [hReadOnly] at hSettable
    cases hSettable
  · exact checkStored_ok.1 hCheck

/-- A new instance is up to date with its record. -/
theorem upToDate_of_connect (hRegular : h.Regular) (hReproduces : h.Frozen → h.Reproduces)
    (hCreate : h.create r = .ok x) (hConnect : (h.connect lookup r).start x = (.ok (), y)) :
    ∃ d, UpToDate lookup r h d y := by
  obtain ⟨d, hDerived, -, hValues⟩ := create_regular hRegular hCreate
  obtain ⟨hTyped, hHolds⟩ := connect_regular hRegular hDerived hValues hConnect
  refine ⟨d, hDerived, hTyped, hHolds, ?_⟩
  intro hNone
  have hOrders := derived_eq_ok hDerived
  have hFields := hRegular.derived hOrders
  obtain ⟨d₁, x₀, hDerived₁, hYields, hSetValues⟩ := create_ok hCreate
  obtain ⟨d₂, hDerived₂, -, hSetReferences⟩ := connect_ok.1 hConnect
  rw [hDerived] at hDerived₁ hDerived₂
  cases hDerived₁
  cases hDerived₂
  -- As there is nothing to set, the instance is the one that was constructed.
  have hBuilt := hRegular.built.typed hYields
  have hCreated : x = x₀ := (settled_setValues lookup hOrders hFields hBuilt hSetValues).eq_of_none
    fun f hf => by rw [hNone f hf, Bool.false_and]
  subst hCreated
  have hConnected : y = x :=
    (settled_setReferences hOrders hFields hBuilt hSetReferences).eq_of_none
      fun f hf => by rw [hNone f hf, Bool.false_and]
  subst hConnected
  have hSame := hReproduces (hOrders.frozen hNone)
  intro f hf
  obtain ⟨offset, hOffset, hHeld⟩ := hSame.constructed d r _ hDerived hYields lookup f hf
  refine ⟨offset, hOffset, Access.matchesStored_of_holds hHeld ?_⟩
  intro hKind
  obtain ⟨field, hField, hAccess⟩ := declared hOrders hf
  have hNoReferences := hSame.unreferring field hField
  rw [hAccess, hKind] at hNoReferences
  cases hNoReferences

/-- An instance is up to date with what is written of it, as long as its
references lead to the instances that they lead to now. -/
theorem upToDate_recordOf {name : Ref → ObjectId} {object : ObjectId} (hDerived : h.derived = .ok d)
    (hTyped : Instance.runtimeType x = h.runtime)
    (hAcceptable : Chunk.Acceptable (h.recordOf d name object x))
    (hNull : lookup ObjectId.null = .ok none)
    (hLeads : ∀ f ∈ d.fields, Access.Leads lookup name some (f.payload.held x)) :
    UpToDate lookup (h.recordOf d name object x) h d x := by
  refine ⟨hDerived, hTyped, ?_, ?_⟩
  · intro f hf _
    obtain ⟨offset, hOffset, hWritten⟩ := written_recordOf hDerived hAcceptable hf
    exact ⟨offset, hOffset, hWritten.holds hNull (hLeads f hf)⟩
  · intro _ f hf
    obtain ⟨offset, hOffset, hWritten⟩ := written_recordOf hDerived hAcceptable hf
    exact ⟨offset, hOffset, hWritten.matchesStored hNull (hLeads f hf)⟩

/-- An instance that is up to date can be brought up to date again, and keeps
its runtime type and all of its fields. If the setters are quiet, it stays as
it is. -/
theorem UpToDate.refresh_isOk (hUp : UpToDate lookup r h d x) (hRegular : h.Regular) :
    ∃ y, (h.refresh lookup r).start x = (.ok (), y) ∧
      Instance.runtimeType y = Instance.runtimeType x ∧
      (∀ field ∈ h.fields, field.access.Agrees y x) ∧
      ((∀ field ∈ h.fields, field.access.Quiet h.runtime) → y = x) := by
  have hOrders := derived_eq_ok hUp.derived
  have hFields := hRegular.derived hOrders
  cases hSettable : d.layout.hasSettable with
  | false =>
      have hCheck : checkStored h.name lookup r x d.fields = .ok () :=
        checkStored_ok.2 (hUp.compared (hOrders.frozen_iff.1 hSettable))
      have hRefresh := refresh_ok.2
        ⟨d, hUp.derived, hUp.typed, Or.inr ⟨hSettable, hCheck, rfl⟩⟩
      exact ⟨x, hRefresh, rfl, fun field _ => Access.Agrees.refl field.access x, fun _ => rfl⟩
  | true =>
      have hReadable : ∀ f ∈ d.fields, f.settable = true → ReadableAt lookup r f :=
        fun f hf hf' => (hUp.holds f hf hf').readable
      obtain ⟨x₁, hSetValues⟩ := setValues_isOk lookup (fun f hf hf' _ => hReadable f hf hf') x
      obtain ⟨y, hSetReferences⟩ := setReferences_isOk hReadable x₁
      have hRefresh := refresh_ok.2
        ⟨d, hUp.derived, hUp.typed, Or.inl ⟨hSettable, x₁, hSetValues, hSetReferences⟩⟩
      obtain ⟨d', hDerived, hTyped, hHolds, hKept⟩ := refresh_regular hRegular hRefresh
      rw [hUp.derived] at hDerived
      cases hDerived
      refine ⟨y, hRefresh, hTyped.trans hUp.typed.symm, ?_, ?_⟩
      · intro field hField
        obtain ⟨f, hf, hAccess⟩ := derived_of_declared hOrders hField
        rw [← hAccess]
        cases hf' : f.settable with
        | true => exact (hUp.holds f hf hf').agrees (hHolds f hf hf')
        | false => exact hKept f hf hf'
      · intro hQuiet
        have hQuietAt : ∀ f ∈ d.fields, f.payload.Quiet h.runtime := by
          intro f hf
          obtain ⟨field, hField, hAccess⟩ := declared hOrders hf
          exact hAccess ▸ hQuiet field hField
        have hBefore : ∀ chosen : Declaration (Access ι) → Bool,
            ∀ f ∈ d.fields.filter (fun f => f.settable && chosen f), HoldsAt lookup r f x := by
          intro chosen f hf
          obtain ⟨hIn, hChosen⟩ := List.mem_filter.1 hf
          exact hUp.holds f hIn (Bool.and_eq_true_iff.1 hChosen).1
        have hFirst : x₁ = x :=
          (settled_setValues lookup hOrders hFields hUp.typed hSetValues).unmoved
            (fun f hf => hQuietAt f (List.mem_of_mem_filter hf)) (hBefore _)
        subst hFirst
        exact (settled_setReferences hOrders hFields hUp.typed hSetReferences).unmoved
          (fun f hf => hQuietAt f (List.mem_of_mem_filter hf)) (hBefore _)

end ObjectHandler

end ObjectStore
