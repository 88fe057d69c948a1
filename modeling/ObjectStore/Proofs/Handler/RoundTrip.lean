import ObjectStore.Proofs.Handler.Naming
import ObjectStore.Proofs.Handler.Restoring
import ObjectStore.Proofs.Handler.Slots

/-!
# From an instance to its record and back

An instance is stored with identifiers in place of its references, and a
lookup that leads from these identifiers back makes the same instance of the
record. Whether there is a hook does not matter, as it is run by neither.

The one thing that may go wrong is the construction of the instance: a type
that is constructed from the members of a record in one step may refuse them.

## Main results

* `ObjectHandler.create_connect_of_store`: what is stored is created again.
-/

namespace ObjectStore

variable {ι σ : Type}

/-! ## Identifiers and lookups -/

/-- Whoever identifies instances remembers the names that were given. -/
structure Remembers (identify : Ref → Attempt σ ObjectId) (names : σ → Ref → Option ObjectId) :
    Prop where
  given : ∀ {s ref id s'}, (identify ref).start s = (.ok id, s') → names s' ref = some id
  kept : ∀ {s ref id s' other known}, (identify ref).start s = (.ok id, s') →
    names s other = some known → names s' other = some known

/-- The lookup leads from the names of instances back to these, and from the
absent reference nowhere. -/
structure Inverts (lookup : Lookup) (names : Ref → Option ObjectId) : Prop where
  null : lookup ObjectId.null = .ok none
  back : ∀ {ref id}, names ref = some id → lookup id = .ok (some ref)

/-- The identifier of an instance, or the absent reference if it has none. -/
def nameIn (names : Ref → Option ObjectId) (ref : Ref) : ObjectId :=
  (names ref).getD ObjectId.null

/-- Names that are remembered stay. -/
def Remembers.naming {identify : Ref → Attempt σ ObjectId} {names : σ → Ref → Option ObjectId}
    (h : Remembers identify names) : Naming identify where
  Valid _ := True
  name s := nameIn (names s)
  Names s refs s' := (∀ ref ∈ refs, ∃ id, names s' ref = some id) ∧
    ∀ other id, names s other = some id → names s' other = some id
  refl _ := ⟨by simp, fun _ _ hKnown => hKnown⟩
  trans := by
    intro s s' s'' refs more ⟨hNamed, hKept⟩ ⟨hNamed', hKept'⟩
    refine ⟨?_, fun other id hKnown => hKept' other id (hKept other id hKnown)⟩
    intro ref hRef
    rcases List.mem_append.1 hRef with hIn | hIn
    · obtain ⟨id, hId⟩ := hNamed ref hIn
      exact ⟨id, hKept' ref id hId⟩
    · exact hNamed' ref hIn
  valid _ := trivial
  named := by
    intro s ref id s' _ hIdentify
    have hGiven := h.given hIdentify
    refine ⟨⟨?_, fun other known hKnown => h.kept hIdentify hKnown⟩, ?_⟩
    · intro other hOther
      rw [List.mem_singleton.1 hOther]
      exact ⟨id, hGiven⟩
    · rw [nameIn, hGiven]
      rfl
  stays := by
    intro s s' s'' refs more ⟨hNamed, _⟩ ⟨_, hKept⟩ ref hRef
    obtain ⟨id, hId⟩ := hNamed ref hRef
    rw [nameIn, nameIn, hId, hKept ref id hId]

/-- Instances that have names are identified by them. -/
theorem start_identify_of_named {identify : Ref → Attempt σ ObjectId}
    {names : Ref → Option ObjectId} {Known : σ → Prop} {refs : List Ref}
    (hIdentify : ∀ ref id, names ref = some id → ∀ s, Known s →
      ∃ s', (identify ref).start s = (.ok id, s') ∧ Known s')
    (hNamed : ∀ ref ∈ refs, ∃ id, names ref = some id) :
    ∀ ref ∈ refs, ∀ s, Known s →
      ∃ s', (identify ref).start s = (.ok (nameIn names ref), s') ∧ Known s' := by
  intro ref hRef s hs
  obtain ⟨id, hName⟩ := hNamed ref hRef
  rw [nameIn, hName]
  exact hIdentify ref id hName s hs

/-- A lookup that inverts names leads from each named instance to itself. -/
theorem Inverts.leads {lookup : Lookup} {names : Ref → Option ObjectId} {refs : List Ref}
    (h : Inverts lookup names) (hNamed : ∀ ref ∈ refs, ∃ id, names ref = some id) :
    Access.Leads lookup (nameIn names) some refs := by
  have hBack : ∀ ref ∈ refs, lookup (nameIn names ref) = .ok (some ref) := by
    intro ref hRef
    obtain ⟨id, hId⟩ := hNamed ref hRef
    rw [nameIn, hId]
    exact h.back hId
  refine ⟨?_, fun ref hRef => ⟨ref, rfl, hBack ref hRef⟩⟩
  intro ref hRef hNull
  have hLookup := hBack ref hRef
  rw [hNull, h.null] at hLookup
  cases hLookup

/-- A member that mirrors another one, with every instance its own
counterpart, is the same. -/
theorem Access.agrees_of_mirrors {access : Access ι} {x y : ι}
    (h : access.Mirrors some x y) : access.Agrees y x := by
  cases access with
  | value kind get set => exact h
  | bytes get set => exact h
  | text get set => exact h
  | reference get set =>
      have hSame : (get y).map some = (get x).map some := h
      exact Option.map_injective (fun _ _ => Option.some.inj) hSame
  | references get set =>
      have hSame : (get y).map some = (get x).map some := h
      exact List.map_injective_iff.2 (fun _ _ => Option.some.inj) hSame

/-! ## Handlers -/

namespace ObjectHandler

variable {h : ObjectHandler ι} {d : Derived ι} {lookup : Lookup} {name : Ref → ObjectId}
  {object : ObjectId} {x y z : ι} {r : Record}

/-- The handler without its hook. -/
def withoutHook (h : ObjectHandler ι) : ObjectHandler ι := { h with onComplete := none }

theorem create_of_refusal {construct : RecordValues → Except Error ι} {e : Error}
    (hDerived : h.derived = .ok d) (hConstruction : h.construction = .fromValues construct)
    (hRefusal : construct ⟨h.name, d.definition.members, r⟩ = .error e) :
    h.create r = .error e := by
  simp only [create, hDerived, hConstruction, bind, Except.bind, hRefusal]

variable [Instance ι]

/-- What a lawful handler makes of a record that it has written, whichever way
the instance came into being. -/
theorem connect_of_create (hLawful : h.Lawful) (hDerived : h.derived = .ok d)
    (hAcceptable : Chunk.Acceptable (h.recordOf d name object x))
    (hNull : lookup ObjectId.null = .ok none)
    (hLeads : ∀ f ∈ d.fields, Access.Leads lookup name some (f.payload.held x))
    (hCreate : h.create (h.recordOf d name object x) = .ok y) :
    ∃ z, (h.connect lookup (h.recordOf d name object x)).start y = (.ok (), z) ∧
      Instance.runtimeType z = h.runtime ∧ ∀ field ∈ h.fields, field.access.Agrees z x := by
  obtain ⟨d', hDerived', hTyped, hValues⟩ := create_regular hLawful.toRegular hCreate
  cases hDerived.symm.trans hDerived'
  obtain ⟨z, hConnect⟩ := connect_isOk hDerived hTyped hAcceptable hNull hLeads
  obtain ⟨hRuntime, hSettable⟩ := connect_regular hLawful.toRegular hDerived hValues hConnect
  have hMirrors := mirrors_of_holdsAll hDerived hAcceptable hNull hLeads
    (hLawful.holdsAll hDerived hSettable)
  exact ⟨z, hConnect, hRuntime, fun field hField => Access.agrees_of_mirrors (hMirrors field hField)⟩

variable {σ : Type} {identify : Ref → Attempt σ ObjectId} {names : σ → Ref → Option ObjectId}
  {s s' : σ} {bytes : Bytes}

/-- An instance that is stored can be created again from its record, and is
the same in every field, unless its type is constructed from the members of
the record and refuses them. -/
theorem create_connect_of_store (hLawful : h.withoutHook.Lawful)
    (hRemembers : Remembers identify names) (hInverts : Inverts lookup (names s'))
    (hStore : (h.store identify object x).start s = (.ok bytes, s')) :
    ∃ d r, h.derived = .ok d ∧ Record.parse bytes = .ok r ∧ r.type = h.id ∧ r.object = object ∧
      ((∃ y z, h.create r = .ok y ∧ (h.connect lookup r).start y = (.ok (), z) ∧
          Instance.runtimeType z = h.runtime ∧ ∀ field ∈ h.fields, field.access.Agrees z x) ∨
        ∃ construct e, h.construction = .fromValues construct ∧
          construct ⟨h.name, d.definition.members, r⟩ = .error e ∧ h.create r = .error e) := by
  obtain ⟨d, hDerived, hTyped, ⟨hNamed, -⟩, rfl, hAcceptable⟩ :=
    hRemembers.naming.store_ok trivial hStore
  have hLeads : ∀ f ∈ d.fields,
      Access.Leads lookup (nameIn (names s')) some (f.payload.held x) := by
    intro f hf
    exact hInverts.leads fun ref hRef => hNamed ref (List.mem_flatMap.2 ⟨f, hf, hRef⟩)
  have hParse := Record.parse_encode (Chunk.fits_of_acceptable hAcceptable)
  refine ⟨d, _, hDerived, hParse, rfl, rfl, ?_⟩
  rcases h.construction.yields_or_refuses
    ⟨h.name, d.definition.members, h.recordOf d (nameIn (names s')) object x⟩ with
    ⟨w, hYields⟩ | ⟨construct, e, hConstruction, hRefusal⟩
  · left
    obtain ⟨y, hCreate⟩ := create_of_yields hDerived hAcceptable hYields
    obtain ⟨z, hConnect, hLoaded⟩ := connect_of_create (h := h.withoutHook) hLawful
      hDerived hAcceptable hInverts.null hLeads hCreate
    exact ⟨y, z, hCreate, hConnect, hLoaded⟩
  · right
    exact ⟨construct, e, hConstruction, hRefusal,
      create_of_refusal hDerived hConstruction hRefusal⟩

end ObjectHandler

/-! ## A worker and those that are not measured -/

namespace Slots

/-- Workers with friends, an age and a boss, who may be absent. They have a
hook. The list is declared first, and comes last in a record. -/
def worker : ObjectHandler Slots :=
  { handler ⟨1002⟩ "Worker" ⟨"Worker"⟩
      [("friends", .referenceList), ("age", .primitive .u32), ("boss", .reference)] with
    onComplete := some (·.set "age" (.code 0)) }

theorem lawful_worker : worker.withoutHook.Lawful := lawful_handler (by decide)

/-- A worker whose boss is a friend. -/
def clerk : Slots :=
  ⟨⟨"Worker"⟩, [("friends", .references [⟨1⟩, ⟨0⟩, ⟨1⟩]), ("age", .code 44),
    ("boss", .reference (some ⟨1⟩))]⟩

/-- The identifiers of two instances. -/
def crew : List (Ref × ObjectId) := [(⟨0⟩, ⟨7⟩), (⟨1⟩, ⟨3⟩)]

/-- The identifier of one of the two. -/
def badge (ref : Ref) : Option ObjectId := crew.lookup ref

/-- Identifies the two. -/
def identifyCrew (ref : Ref) : Attempt Unit ObjectId :=
  Attempt.lift <|
    match badge ref with
    | some id => .ok id
    | none => .error (.unknownInstance ref)

/-- Leads back to the two. -/
def lookupCrew (id : ObjectId) : Except Error (Option Ref) :=
  if id.isNull then .ok none
  else
    match crew.find? (·.2 = id) with
    | some entry => .ok (some entry.1)
    | none => .error (.unresolvedReference id)

theorem remembers_crew : Remembers identifyCrew fun _ => badge where
  given := by
    intro s ref id s' h
    have hResult := congrArg Prod.fst h
    simp only [identifyCrew, Attempt.start_lift] at hResult
    split at hResult
    · rename_i id' hFound
      cases hResult
      exact hFound
    · cases hResult
  kept := fun _ hKnown => hKnown

/-- Each of the two is identified by its name, again and again. -/
theorem identifies_crew : ∀ ref id, badge ref = some id → ∀ s, True →
    ∃ s', (identifyCrew ref).start s = (.ok id, s') ∧ True := by
  intro ref id hBadge s _
  refine ⟨s, ?_, trivial⟩
  rw [identifyCrew, hBadge]
  rfl

theorem inverts_crew : Inverts lookupCrew badge where
  null := rfl
  back := by
    intro ref id h
    simp only [badge, crew, List.lookup_cons, List.lookup_nil] at h
    split at h
    · rename_i hRef
      cases h
      rw [eq_of_beq hRef]
      rfl
    · split at h
      · rename_i hRef
        cases h
        rw [eq_of_beq hRef]
        rfl
      · cases h

theorem store_clerk : ∃ bytes,
    (worker.store identifyCrew ⟨9⟩ clerk).start () = (.ok bytes, ()) :=
  ⟨_, rfl⟩

/-- The worker is created again from the record. -/
theorem create_connect_of_store_clerk : ∃ bytes r y z,
    (worker.store identifyCrew ⟨9⟩ clerk).start () = (.ok bytes, ()) ∧
      Record.parse bytes = .ok r ∧ worker.create r = .ok y ∧
      (worker.connect lookupCrew r).start y = (.ok (), z) ∧
      ∀ field ∈ worker.fields, field.access.Agrees z clerk := by
  obtain ⟨bytes, hStore⟩ := store_clerk
  obtain ⟨d, r, -, hParse, -, -, hLoaded⟩ :=
    ObjectHandler.create_connect_of_store lawful_worker remembers_crew inverts_crew hStore
  rcases hLoaded with ⟨y, z, hCreate, hConnect, -, hAgrees⟩ | ⟨construct, e, hConstruction, -⟩
  · exact ⟨bytes, r, y, z, hStore, hParse, hCreate, hConnect, hAgrees⟩
  · cases hConstruction

/-- People who are constructed by their height, which they do not have. -/
def unmeasured : ObjectHandler Slots :=
  { handler ⟨1000⟩ "Person" ⟨"Person"⟩ [("age", .primitive .u32)] with
    construction := .fromValues fun values =>
      (values.value .u32 "height").map fun _ => blank ⟨"Person"⟩ }

theorem lawful_unmeasured : unmeasured.Lawful :=
  { @lawful_handler ⟨1000⟩ "Person" ⟨"Person"⟩ [("age", .primitive .u32)] (by decide) with
    built := by
      intro values x hx
      obtain ⟨v, -, rfl⟩ := map_eq_ok.1 hx
      rfl }

/-- Their constructor refuses the record that was written of one of them. -/
theorem not_create_of_store : unmeasured.Lawful ∧ ∃ bytes r,
    (unmeasured.store identifyCrew ⟨1⟩ (blank ⟨"Person"⟩)).start () = (.ok bytes, ()) ∧
      Record.parse bytes = .ok r ∧
      unmeasured.create r = .error (.unknownField "Person" "height") :=
  ⟨lawful_unmeasured, _, ⟨⟨1000⟩, ⟨1⟩, [0, 0, 0, 0]⟩, rfl, rfl, rfl⟩

end Slots

end ObjectStore
