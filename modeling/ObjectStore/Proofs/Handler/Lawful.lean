import Mathlib.Data.List.Pairwise
import ObjectStore.Proofs.Handler.Content

/-!
# Lawful handlers

The library knows an instance through the accessors of its fields only. A
handler is regular if these behave like independent variables of the
instances of its runtime type: a getter returns what its setter wrote, no
setter shows in the getter of another field, and none of them changes the
runtime type. What they do to instances of other types is of no concern,
since the handler refuses these. After its passes over the fields, every field that can be set holds what stands at its offset, whatever
the instance held before, and every other field is as it was.

A regular handler is lawful if all of its fields can be set. Such a handler
loads what a record says.

## Main results

* `ObjectHandler.create_regular`, `ObjectHandler.connect_regular`,
  `ObjectHandler.refresh_regular`: what the fields that can be set hold after
  each operation, and what becomes of the others.
* `ObjectHandler.Lawful.holdsAll`: for a lawful handler, these are all fields.
-/

namespace ObjectStore

variable {ι : Type}

/-! ## Accessors -/

namespace Access

/-- The member is the same in two instances. -/
def Agrees (access : Access ι) (x y : ι) : Prop :=
  match access with
  | value _ get _ => get x = get y
  | reference get _ => get x = get y
  | bytes get _ => get x = get y
  | text get _ => get x = get y
  | references get _ => get x = get y

/-- The instance `y` is what the setter of the member makes of `x`. -/
inductive Puts : Access ι → ι → ι → Prop where
  | value (kind : PrimitiveKind) (get : ι → kind.Value) (set : kind.Value → ι → ι)
      (v : kind.Value) (x : ι) : Puts (.value kind get (some set)) x (set v x)
  | reference (get : ι → Option Ref) (set : Option Ref → ι → ι) (v : Option Ref) (x : ι) :
      Puts (.reference get (some set)) x (set v x)
  | bytes (get : ι → Bytes) (set : Bytes → ι → ι) (v : Bytes) (x : ι) :
      Puts (.bytes get (some set)) x (set v x)
  | text (get : ι → String) (set : String → ι → ι) (v : String) (x : ι) :
      Puts (.text get (some set)) x (set v x)
  | references (get : ι → List Ref) (set : List Ref → ι → ι) (v : List Ref) (x : ι) :
      Puts (.references get (some set)) x (set v x)

section

variable [Instance ι] (runtime : RuntimeType)

/-- In instances of the runtime type, the getter returns what the setter
wrote. -/
def GetsBack : Access ι → Prop
  | value _ get set =>
      ∀ s, set = some s → ∀ v x, Instance.runtimeType x = runtime → get (s v x) = v
  | reference get set =>
      ∀ s, set = some s → ∀ v x, Instance.runtimeType x = runtime → get (s v x) = v
  | bytes get set =>
      ∀ s, set = some s → ∀ v x, Instance.runtimeType x = runtime → get (s v x) = v
  | text get set =>
      ∀ s, set = some s → ∀ v x, Instance.runtimeType x = runtime → get (s v x) = v
  | references get set =>
      ∀ s, set = some s → ∀ v x, Instance.runtimeType x = runtime → get (s v x) = v

/-- In instances of the runtime type, setting the member to what it is already
does nothing. -/
def Quiet (access : Access ι) : Prop :=
  ∀ x y, Instance.runtimeType x = runtime → access.Puts x y → access.Agrees y x → y = x

/-- In instances of the runtime type, what the setter of the member changes
does not show in the other one. -/
def Hides (access other : Access ι) : Prop :=
  ∀ x y, Instance.runtimeType x = runtime → access.Puts x y → other.Agrees y x

end

/-- The member of an instance is what the record says at an offset. -/
def Holds (lookup : Lookup) (r : Record) (offset : Nat) (access : Access ι) (x : ι) : Prop :=
  match access with
  | value kind get _ =>
      ∃ bytes, r.slice offset kind.width = .ok bytes ∧ kind.decode bytes = .ok (get x)
  | reference get _ => ∃ id, r.readObjectId offset = .ok id ∧ lookup id = .ok (get x)
  | bytes get _ => r.readVariable offset = .ok (get x)
  | text get _ => ∃ payload, r.readVariable offset = .ok payload ∧ Text.decode payload = .ok (get x)
  | references get _ =>
      ∃ ids, r.readObjectIds offset = .ok ids ∧ resolveAll lookup ids = .ok (get x)

variable {access : Access ι} {x y z : ι} {lookup : Lookup} {r : Record} {offset : Nat}

theorem Agrees.refl (access : Access ι) (x : ι) : access.Agrees x x := by
  cases access <;> rfl

theorem Agrees.trans (h : access.Agrees x y) (h' : access.Agrees y z) : access.Agrees x z := by
  cases access <;> exact Eq.trans h h'

theorem Holds.congr (h : access.Holds lookup r offset x) (hAgrees : access.Agrees y x) :
    access.Holds lookup r offset y := by
  cases access with
  | value kind get set =>
      obtain ⟨bytes, hSlice, hDecode⟩ := h
      have hSame : get y = get x := hAgrees
      exact ⟨bytes, hSlice, by rw [hSame, hDecode]⟩
  | reference get set =>
      obtain ⟨id, hRead, hLookup⟩ := h
      have hSame : get y = get x := hAgrees
      exact ⟨id, hRead, by rw [hSame, hLookup]⟩
  | bytes get set =>
      have hSame : get y = get x := hAgrees
      show r.readVariable offset = .ok (get y)
      rw [hSame]
      exact h
  | text get set =>
      obtain ⟨payload, hRead, hDecode⟩ := h
      have hSame : get y = get x := hAgrees
      exact ⟨payload, hRead, by rw [hSame, hDecode]⟩
  | references get set =>
      obtain ⟨ids, hRead, hLookup⟩ := h
      have hSame : get y = get x := hAgrees
      exact ⟨ids, hRead, by rw [hSame, hLookup]⟩

/-- A record says what the member is. -/
theorem Holds.agrees (hx : access.Holds lookup r offset x) (hy : access.Holds lookup r offset y) :
    access.Agrees y x := by
  cases access with
  | value kind get set =>
      obtain ⟨bytes, hSlice, hDecode⟩ := hx
      obtain ⟨bytes', hSlice', hDecode'⟩ := hy
      cases hSlice.symm.trans hSlice'
      exact Except.ok.inj (hDecode'.symm.trans hDecode)
  | reference get set =>
      obtain ⟨id, hRead, hLookup⟩ := hx
      obtain ⟨id', hRead', hLookup'⟩ := hy
      cases hRead.symm.trans hRead'
      exact Except.ok.inj (hLookup'.symm.trans hLookup)
  | bytes get set => exact Except.ok.inj (Eq.trans (Eq.symm hy) hx)
  | text get set =>
      obtain ⟨payload, hRead, hDecode⟩ := hx
      obtain ⟨payload', hRead', hDecode'⟩ := hy
      cases hRead.symm.trans hRead'
      exact Except.ok.inj (hDecode'.symm.trans hDecode)
  | references get set =>
      obtain ⟨ids, hRead, hResolve⟩ := hx
      obtain ⟨ids', hRead', hResolve'⟩ := hy
      cases hRead.symm.trans hRead'
      exact Except.ok.inj (hResolve'.symm.trans hResolve)

/-! ### Setting -/

theorem orCorrupt_eq_ok {α : Type} {result : Except Corruption α} {a : α} :
    orCorrupt result = .ok a ↔ result = .ok a := by
  cases result <;> simp [orCorrupt]

section

variable [Instance ι] {runtime : RuntimeType}

theorem setValue_ok (hSettable : access.isSettable = true) (hGetsBack : access.GetsBack runtime)
    (hKind : access.kind.hasReferences = false) (hTyped : Instance.runtimeType x = runtime)
    (h : access.setValue offset r x = .ok y) :
    access.Puts x y ∧ access.Holds lookup r offset y := by
  cases access with
  | value kind get set =>
      obtain ⟨set, rfl⟩ := Option.isSome_iff_exists.1 hSettable
      obtain ⟨bytes, hSlice, h⟩ := bind_eq_ok.1 h
      obtain ⟨v, hDecode, h⟩ := bind_eq_ok.1 h
      cases h
      refine ⟨Puts.value kind get set v x, bytes, orCorrupt_eq_ok.1 hSlice, ?_⟩
      rw [hGetsBack set rfl v x hTyped]
      exact orCorrupt_eq_ok.1 hDecode
  | bytes get set =>
      obtain ⟨set, rfl⟩ := Option.isSome_iff_exists.1 hSettable
      obtain ⟨payload, hRead, h⟩ := bind_eq_ok.1 h
      cases h
      refine ⟨Puts.bytes get set payload x, ?_⟩
      show r.readVariable offset = .ok (get (set payload x))
      rw [hGetsBack set rfl payload x hTyped]
      exact orCorrupt_eq_ok.1 hRead
  | text get set =>
      obtain ⟨set, rfl⟩ := Option.isSome_iff_exists.1 hSettable
      obtain ⟨payload, hRead, h⟩ := bind_eq_ok.1 h
      obtain ⟨text, hDecode, h⟩ := bind_eq_ok.1 h
      cases h
      refine ⟨Puts.text get set text x, payload, orCorrupt_eq_ok.1 hRead, ?_⟩
      rw [hGetsBack set rfl text x hTyped]
      have hDecoded := orCorrupt_eq_ok.1 hDecode
      unfold decodeText at hDecoded
      split at hDecoded
      · rename_i decoded hText
        cases hDecoded
        exact hText
      · cases hDecoded
  | reference get set => cases hKind
  | references get set => cases hKind

theorem setReferences_ok (hSettable : access.isSettable = true)
    (hGetsBack : access.GetsBack runtime) (hKind : access.kind.hasReferences = true)
    (hTyped : Instance.runtimeType x = runtime)
    (h : access.setReferences lookup offset r x = .ok y) :
    access.Puts x y ∧ access.Holds lookup r offset y := by
  cases access with
  | reference get set =>
      obtain ⟨set, rfl⟩ := Option.isSome_iff_exists.1 hSettable
      obtain ⟨id, hRead, h⟩ := bind_eq_ok.1 h
      obtain ⟨target, hLookup, h⟩ := bind_eq_ok.1 h
      cases h
      refine ⟨Puts.reference get set target x, id, orCorrupt_eq_ok.1 hRead, ?_⟩
      rw [hGetsBack set rfl target x hTyped, hLookup]
  | references get set =>
      obtain ⟨set, rfl⟩ := Option.isSome_iff_exists.1 hSettable
      obtain ⟨ids, hRead, h⟩ := bind_eq_ok.1 h
      obtain ⟨targets, hLookup, h⟩ := bind_eq_ok.1 h
      cases h
      refine ⟨Puts.references get set targets x, ids, orCorrupt_eq_ok.1 hRead, ?_⟩
      rw [hGetsBack set rfl targets x hTyped, hLookup]
  | value kind get set => cases hKind
  | bytes get set => cases hKind
  | text get set => cases hKind

end

end Access

/-! ## Handlers -/

/-- Every instance that is built is of the runtime type. -/
def Construction.Builds [Instance ι] (runtime : RuntimeType) : Construction ι → Prop
  | .blank x => Instance.runtimeType x = runtime
  | .fromValues construct => ∀ values x, construct values = .ok x → Instance.runtimeType x = runtime

/-- The instance that comes into being from a record, before its members are
set. -/
def Construction.Yields : Construction ι → RecordValues → ι → Prop
  | .blank prototype, _, x => x = prototype
  | .fromValues construct, values, x => construct values = .ok x

/-- An instance comes into being, or a function that constructs it refuses. -/
theorem Construction.yields_or_refuses (c : Construction ι) (values : RecordValues) :
    (∃ x, c.Yields values x) ∨
      ∃ construct e, c = .fromValues construct ∧ construct values = .error e := by
  cases c with
  | blank prototype => exact Or.inl ⟨prototype, rfl⟩
  | fromValues construct =>
      cases hConstruct : construct values with
      | ok x => exact Or.inl ⟨x, hConstruct⟩
      | error e => exact Or.inr ⟨construct, e, rfl, hConstruct⟩

theorem Construction.Builds.typed [Instance ι] {runtime : RuntimeType} {c : Construction ι}
    {values : RecordValues} {x : ι} (h : c.Builds runtime) (hYields : c.Yields values x) :
    Instance.runtimeType x = runtime := by
  cases c with
  | blank prototype =>
      cases hYields
      exact h
  | fromValues construct => exact h values x hYields

namespace ObjectHandler

/-- The fields of the type are independent variables of its instances, though
some of them may be read-only. -/
structure Regular [Instance ι] (h : ObjectHandler ι) : Prop where
  getsBack : ∀ f ∈ h.fields, f.access.GetsBack h.runtime
  apart : h.fields.Pairwise fun f g =>
    f.access.Hides h.runtime g.access ∧ g.access.Hides h.runtime f.access
  typed : ∀ f ∈ h.fields, ∀ x y, Instance.runtimeType x = h.runtime → f.access.Puts x y →
    Instance.runtimeType y = h.runtime
  built : h.construction.Builds h.runtime
  /-- There is no hook. -/
  unhooked : h.onComplete = none

/-- The handler is regular, and all of its fields can be set. -/
structure Lawful [Instance ι] (h : ObjectHandler ι) : Prop extends h.Regular where
  settable : ∀ f ∈ h.fields, f.access.isSettable = true

/-! ## Passes over the fields -/

/-- A derived field of an instance is what the record says. -/
def HoldsAt (lookup : Lookup) (r : Record) (f : Declaration (Access ι)) (x : ι) : Prop :=
  ∃ offset, f.member.offset = some offset ∧ f.payload.Holds lookup r offset.toNat x

theorem HoldsAt.congr {lookup : Lookup} {r : Record} {f : Declaration (Access ι)} {x y : ι}
    (h : HoldsAt lookup r f x) (hAgrees : f.payload.Agrees y x) : HoldsAt lookup r f y := by
  obtain ⟨offset, hOffset, hHolds⟩ := h
  exact ⟨offset, hOffset, hHolds.congr hAgrees⟩

theorem HoldsAt.agrees {lookup : Lookup} {r : Record} {f : Declaration (Access ι)} {x y : ι}
    (hx : HoldsAt lookup r f x) (hy : HoldsAt lookup r f y) : f.payload.Agrees y x := by
  obtain ⟨offset, hOffset, hHolds⟩ := hx
  obtain ⟨offset', hOffset', hHolds'⟩ := hy
  cases hOffset.symm.trans hOffset'
  exact hHolds.agrees hHolds'

/-- Neither of two fields shows in the other, in instances of the runtime
type. -/
abbrev Independent [Instance ι] (runtime : RuntimeType) (f g : Declaration (Access ι)) : Prop :=
  f.payload.Hides runtime g.payload ∧ g.payload.Hides runtime f.payload

instance [Instance ι] {runtime : RuntimeType} : Std.Symm (@Independent ι _ runtime) :=
  ⟨fun _ _ h => ⟨h.2, h.1⟩⟩

variable {lookup : Lookup} {r : Record} {fields : List (Declaration (Access ι))} {x y : ι}
  {set : Access ι → Nat → ι → Except Error ι}

theorem start_change_ok {f : Declaration (Access ι)} :
    (change f set).start x = (.ok (), y) ↔
      ∃ offset, f.member.offset = some offset ∧ set f.payload offset.toNat x = .ok y := by
  rw [change, Attempt.start_modify_eq_ok, bind_eq_ok]
  constructor
  · rintro ⟨offset, hPlace, hSet⟩
    unfold Member.place at hPlace
    split at hPlace
    · rename_i offset' hOffset
      cases hPlace
      exact ⟨offset, hOffset, hSet⟩
    · cases hPlace
  · rintro ⟨offset, hOffset, hSet⟩
    exact ⟨offset, by simp only [Member.place, hOffset], hSet⟩

/-- What a pass over the fields of an instance of the runtime type leaves
behind: the fields hold what the record says, independent ones are as they
were, and so is the runtime type. If the fields held that before, and their
setters are quiet, the pass has done nothing. -/
structure Settled [Instance ι] (runtime : RuntimeType) (lookup : Lookup) (r : Record)
    (fields : List (Declaration (Access ι))) (x y : ι) : Prop where
  holds : ∀ f ∈ fields, HoldsAt lookup r f y
  others : ∀ g : Access ι, (∀ f ∈ fields, f.payload.Hides runtime g) → g.Agrees y x
  typed : Instance.runtimeType y = runtime
  unmoved : (∀ f ∈ fields, f.payload.Quiet runtime) → (∀ f ∈ fields, HoldsAt lookup r f x) → y = x

theorem settled_pass [Instance ι] {runtime : RuntimeType}
    (hStep : ∀ f ∈ fields, ∀ offset x y, Instance.runtimeType x = runtime →
      set f.payload offset x = .ok y → f.payload.Puts x y ∧ f.payload.Holds lookup r offset y)
    (hKeeps : ∀ f ∈ fields, ∀ x y, Instance.runtimeType x = runtime → f.payload.Puts x y →
      Instance.runtimeType y = runtime)
    (hApart : fields.Pairwise (Independent runtime)) (hTyped : Instance.runtimeType x = runtime)
    (h : (fields.forM fun f => change f set).start x = (.ok (), y)) :
    Settled runtime lookup r fields x y := by
  induction fields generalizing x with
  | nil =>
      cases h
      exact ⟨by simp, fun g _ => Access.Agrees.refl g _, hTyped, fun _ _ => rfl⟩
  | cons f rest ih =>
      obtain ⟨hHead, hRest⟩ := List.pairwise_cons.1 hApart
      obtain ⟨x₁, hChange, hPass⟩ := Attempt.start_forM_cons_ok.1 h
      obtain ⟨offset, hOffset, hSet⟩ := start_change_ok.1 hChange
      obtain ⟨hPuts, hHolds⟩ := hStep f List.mem_cons_self offset.toNat x x₁ hTyped hSet
      have hTyped₁ := hKeeps f List.mem_cons_self x x₁ hTyped hPuts
      have hSettled := ih (fun g hg => hStep g (List.mem_cons_of_mem _ hg))
        (fun g hg => hKeeps g (List.mem_cons_of_mem _ hg)) hRest hTyped₁ hPass
      refine ⟨?_, ?_, ?_, ?_⟩
      · intro g hg
        rcases List.mem_cons.1 hg with rfl | hIn
        · have hAgrees := hSettled.others g.payload fun f' hf' => (hHead f' hf').2
          exact ⟨offset, hOffset, hHolds.congr hAgrees⟩
        · exact hSettled.holds g hIn
      · intro g hg
        have hLater := hSettled.others g fun f' hf' => hg f' (List.mem_cons_of_mem _ hf')
        exact hLater.trans (hg f List.mem_cons_self x x₁ hTyped hPuts)
      · exact hSettled.typed
      · intro hQuiet hBefore
        have hAgrees := (hBefore f List.mem_cons_self).agrees ⟨offset, hOffset, hHolds⟩
        have hSame : x₁ = x := hQuiet f List.mem_cons_self x x₁ hTyped hPuts hAgrees
        subst hSame
        exact hSettled.unmoved (fun g hg => hQuiet g (List.mem_cons_of_mem _ hg))
          fun g hg => hBefore g (List.mem_cons_of_mem _ hg)

theorem pass_isOk
    (hStep : ∀ f ∈ fields, ∃ offset, f.member.offset = some offset ∧
      ∀ z, ∃ y, set f.payload offset.toNat z = .ok y) :
    ∃ y, (fields.forM fun f => change f set).start x = (.ok (), y) := by
  induction fields generalizing x with
  | nil => exact ⟨x, rfl⟩
  | cons f rest ih =>
      obtain ⟨offset, hOffset, hSet⟩ := hStep f List.mem_cons_self
      obtain ⟨x₁, hx₁⟩ := hSet x
      obtain ⟨y, hRest⟩ := ih (x := x₁) fun g hg => hStep g (List.mem_cons_of_mem _ hg)
      exact ⟨y, Attempt.start_forM_cons_ok.2
        ⟨x₁, start_change_ok.2 ⟨offset, hOffset, hx₁⟩, hRest⟩⟩

/-! ## What is loaded -/

section

variable [Instance ι] {h : ObjectHandler ι} {d : Derived ι} {runtime : RuntimeType}

/-- The derived fields of a regular handler of the runtime type. -/
structure Derived.Regular (d : Derived ι) (runtime : RuntimeType) : Prop where
  getsBack : ∀ f ∈ d.fields, f.payload.GetsBack runtime
  apart : d.fields.Pairwise (Independent runtime)
  typed : ∀ f ∈ d.fields, ∀ x y, Instance.runtimeType x = runtime → f.payload.Puts x y →
    Instance.runtimeType y = runtime

theorem Regular.derived (hRegular : h.Regular) (hOrders : d.Orders h) :
    d.Regular h.runtime := by
  refine ⟨?_, ?_, ?_⟩
  · intro f hf
    obtain ⟨field, hField, hAccess⟩ := declared hOrders hf
    rw [← hAccess]
    exact hRegular.getsBack field hField
  · have hAccesses : (h.fields.map Field.access).Pairwise fun a b =>
        a.Hides h.runtime b ∧ b.Hides h.runtime a := List.pairwise_map.2 hRegular.apart
    have hPayloads := (hOrders.payloads.pairwise_iff fun {a b} hab => ⟨hab.2, hab.1⟩).2 hAccesses
    rw [List.pairwise_map] at hPayloads
    exact hPayloads
  · intro f hf
    obtain ⟨field, hField, hAccess⟩ := declared hOrders hf
    rw [← hAccess]
    exact hRegular.typed field hField

/-- A lawful handler has no read-only fields. -/
theorem Lawful.settable_derived (hLawful : h.Lawful) (hOrders : d.Orders h) :
    ∀ f ∈ d.fields, f.settable = true := by
  intro f hf
  obtain ⟨field, hField, hAccess⟩ := declared hOrders hf
  rw [hOrders.settable f hf, ← hAccess]
  exact hLawful.settable field hField

theorem settled_setValues (lookup : Lookup) (hOrders : d.Orders h) (hRegular : d.Regular runtime)
    (hTyped : Instance.runtimeType x = runtime)
    (hSet : (setValues d r).start x = (.ok (), y)) :
    Settled runtime lookup r
      (d.fields.filter fun f => f.settable && !f.member.kind.hasReferences) x y := by
  have hSub : ∀ f ∈ d.fields.filter (fun f => f.settable && !f.member.kind.hasReferences),
      f ∈ d.fields ∧ f.payload.isSettable = true ∧ f.payload.kind.hasReferences = false := by
    intro f hf
    obtain ⟨hIn, hField⟩ := List.mem_filter.1 hf
    rw [hOrders.kind f hIn, hOrders.settable f hIn, Bool.and_eq_true, Bool.not_eq_true'] at hField
    exact ⟨hIn, hField⟩
  refine settled_pass ?_ (fun f hf => hRegular.typed f (hSub f hf).1) (hRegular.apart.filter _)
    hTyped hSet
  intro f hf offset x₁ y₁ hTyped₁ hStep
  obtain ⟨hIn, hSettable, hKind⟩ := hSub f hf
  exact Access.setValue_ok hSettable (hRegular.getsBack f hIn) hKind hTyped₁ hStep

theorem settled_setReferences (hOrders : d.Orders h) (hRegular : d.Regular runtime)
    (hTyped : Instance.runtimeType x = runtime)
    (hSet : (setReferences d lookup r).start x = (.ok (), y)) :
    Settled runtime lookup r
      (d.fields.filter fun f => f.settable && f.member.kind.hasReferences) x y := by
  have hSub : ∀ f ∈ d.fields.filter (fun f => f.settable && f.member.kind.hasReferences),
      f ∈ d.fields ∧ f.payload.isSettable = true ∧ f.payload.kind.hasReferences = true := by
    intro f hf
    obtain ⟨hIn, hField⟩ := List.mem_filter.1 hf
    rw [hOrders.kind f hIn, hOrders.settable f hIn, Bool.and_eq_true] at hField
    exact ⟨hIn, hField⟩
  refine settled_pass ?_ (fun f hf => hRegular.typed f (hSub f hf).1) (hRegular.apart.filter _)
    hTyped hSet
  intro f hf offset x₁ y₁ hTyped₁ hStep
  obtain ⟨hIn, hSettable, hKind⟩ := hSub f hf
  exact Access.setReferences_ok hSettable (hRegular.getsBack f hIn) hKind hTyped₁ hStep

/-- A pass over some of the fields that can be set leaves every other field
alone. -/
theorem Settled.agrees {chosen : Declaration (Access ι) → Bool} (hRegular : d.Regular runtime)
    (hSettled : Settled runtime lookup r (d.fields.filter chosen) x y) {f : Declaration (Access ι)}
    (hf : f ∈ d.fields) (hOther : chosen f = false) : f.payload.Agrees y x := by
  refine hSettled.others f.payload ?_
  intro g hg
  obtain ⟨hIn, hChosen⟩ := List.mem_filter.1 hg
  have hNe : f ≠ g := by
    rintro rfl
    rw [hOther] at hChosen
    cases hChosen
  exact (hRegular.apart.forall hf hIn hNe).2

/-! ### Fields that can be set -/

/-- The value fields of an instance that can be set hold what the record
says. -/
def HoldsSettableValues (r : Record) (d : Derived ι) (x : ι) : Prop :=
  ∀ lookup, ∀ f ∈ d.fields, f.settable = true → f.member.kind.hasReferences = false →
    HoldsAt lookup r f x

/-- The fields of an instance that can be set hold what the record says. -/
def HoldsSettable (lookup : Lookup) (r : Record) (d : Derived ι) (x : ι) : Prop :=
  ∀ f ∈ d.fields, f.settable = true → HoldsAt lookup r f x

/-- The read-only fields are the same in two instances. -/
def KeepsReadOnly (d : Derived ι) (x y : ι) : Prop :=
  ∀ f ∈ d.fields, f.settable = false → f.payload.Agrees y x

theorem holdsSettableValues_of_setValues (hOrders : d.Orders h) (hRegular : d.Regular runtime)
    (hTyped : Instance.runtimeType x = runtime)
    (hSet : (setValues d r).start x = (.ok (), y)) : HoldsSettableValues r d y := by
  intro lookup f hf hSettable hKind
  refine (settled_setValues lookup hOrders hRegular hTyped hSet).holds f (List.mem_filter.2 ⟨hf, ?_⟩)
  rw [hSettable, hKind]
  rfl

/-- Both passes over the fields make them hold what the record says. -/
theorem holdsSettable_of_setReferences (hOrders : d.Orders h) (hRegular : d.Regular runtime)
    (hTyped : Instance.runtimeType x = runtime) (hValues : HoldsSettableValues r d x)
    (hSet : (setReferences d lookup r).start x = (.ok (), y)) :
    HoldsSettable lookup r d y := by
  have hSettled := settled_setReferences hOrders hRegular hTyped hSet
  intro f hf hSettable
  cases hKind : f.member.kind.hasReferences with
  | true =>
      refine hSettled.holds f (List.mem_filter.2 ⟨hf, ?_⟩)
      rw [hSettable, hKind]
      rfl
  | false =>
      refine (hValues lookup f hf hSettable hKind).congr (hSettled.agrees hRegular hf ?_)
      rw [hKind, Bool.and_false]

theorem guard_ok : h.guard.start x = (.ok (), y) ↔ Instance.runtimeType x = h.runtime ∧ y = x := by
  rw [guard, Attempt.start_modify_eq_ok, expect]
  split
  · rename_i hTyped
    simp [hTyped, eq_comm]
  · rename_i hTyped
    simp [hTyped]

omit [Instance ι] in
/-- How a new instance comes about. -/
theorem create_ok (hCreate : h.create r = .ok y) :
    ∃ d x, h.derived = .ok d ∧ h.construction.Yields ⟨h.name, d.definition.members, r⟩ x ∧
      (setValues d r).start x = (.ok (), y) := by
  obtain ⟨d, hDerived, hCreate⟩ := bind_eq_ok.1 hCreate
  cases hConstruction : h.construction with
  | blank prototype =>
      simp only [hConstruction] at hCreate
      obtain ⟨x, hx, hCreate⟩ := bind_eq_ok.1 hCreate
      cases hx
      obtain ⟨_, hResult, hCreate⟩ := bind_eq_ok.1 hCreate
      cases hCreate
      exact ⟨d, prototype, hDerived, rfl, Prod.ext hResult rfl⟩
  | fromValues construct =>
      simp only [hConstruction] at hCreate
      obtain ⟨x, hConstruct, hCreate⟩ := bind_eq_ok.1 hCreate
      obtain ⟨_, hResult, hCreate⟩ := bind_eq_ok.1 hCreate
      cases hCreate
      exact ⟨d, x, hDerived, hConstruct, Prod.ext hResult rfl⟩

/-- A new instance is of the runtime type, and its settable values are those
of the record. -/
theorem create_regular (hRegular : h.Regular) (hCreate : h.create r = .ok y) :
    ∃ d, h.derived = .ok d ∧ Instance.runtimeType y = h.runtime ∧ HoldsSettableValues r d y := by
  obtain ⟨d, x, hDerived, hYields, hSet⟩ := create_ok hCreate
  have hOrders := derived_eq_ok hDerived
  have hFields := hRegular.derived hOrders
  have hTyped := hRegular.built.typed hYields
  exact ⟨d, hDerived, (settled_setValues (fun _ => .ok none) hOrders hFields hTyped hSet).typed,
    holdsSettableValues_of_setValues hOrders hFields hTyped hSet⟩

/-- How the references of a new instance are set. -/
theorem connect_ok : (h.connect lookup r).start x = (.ok (), y) ↔
    ∃ d, h.derived = .ok d ∧ Instance.runtimeType x = h.runtime ∧
      (setReferences d lookup r).start x = (.ok (), y) := by
  constructor
  · intro hConnect
    obtain ⟨d, x₁, hLift, hRest⟩ := Attempt.start_bind_ok.1 hConnect
    obtain ⟨hDerived, rfl⟩ := Prod.mk.inj hLift
    obtain ⟨_, x₂, hGuard, hSet⟩ := Attempt.start_bind_ok.1 hRest
    obtain ⟨hTyped, rfl⟩ := guard_ok.1 hGuard
    exact ⟨d, hDerived, hTyped, hSet⟩
  · rintro ⟨d, hDerived, hTyped, hSet⟩
    refine Attempt.start_bind_ok.2 ⟨d, x, by rw [Attempt.start_lift, hDerived], ?_⟩
    exact Attempt.start_bind_ok.2 ⟨(), x, guard_ok.2 ⟨hTyped, rfl⟩, hSet⟩

/-- How an instance is brought up to date: its fields are set, or, if none of
them can be set, compared. -/
theorem refresh_ok : (h.refresh lookup r).start x = (.ok (), y) ↔
    ∃ d, h.derived = .ok d ∧ Instance.runtimeType x = h.runtime ∧
      ((d.layout.hasSettable = true ∧ ∃ x₁, (setValues d r).start x = (.ok (), x₁) ∧
          (setReferences d lookup r).start x₁ = (.ok (), y)) ∨
        d.layout.hasSettable = false ∧ checkStored h.name lookup r x d.fields = .ok () ∧
          y = x) := by
  constructor
  · intro hRefresh
    obtain ⟨d, x₁, hLift, hRest⟩ := Attempt.start_bind_ok.1 hRefresh
    obtain ⟨hDerived, rfl⟩ := Prod.mk.inj hLift
    obtain ⟨_, x₂, hGuard, hSettle⟩ := Attempt.start_bind_ok.1 hRest
    obtain ⟨hTyped, rfl⟩ := guard_ok.1 hGuard
    refine ⟨d, hDerived, hTyped, ?_⟩
    split at hSettle
    · rename_i hSettable
      obtain ⟨_, x₃, hSet⟩ := Attempt.start_bind_ok.1 hSettle
      exact Or.inl ⟨hSettable, x₃, hSet⟩
    · rename_i hReadOnly
      obtain ⟨_, hCheck, hDone⟩ := bind_eq_ok.1 (Attempt.start_modify_eq_ok.1 hSettle)
      cases hDone
      exact Or.inr ⟨by simpa using hReadOnly, hCheck, rfl⟩
  · rintro ⟨d, hDerived, hTyped, hSettle⟩
    refine Attempt.start_bind_ok.2 ⟨d, x, by rw [Attempt.start_lift, hDerived], ?_⟩
    refine Attempt.start_bind_ok.2 ⟨(), x, guard_ok.2 ⟨hTyped, rfl⟩, ?_⟩
    rcases hSettle with ⟨hSettable, x₁, hSetValues, hSetReferences⟩ | ⟨hReadOnly, hCheck, rfl⟩
    · rw [if_pos hSettable]
      exact Attempt.start_bind_ok.2 ⟨(), x₁, hSetValues, hSetReferences⟩
    · rw [if_neg (by simp [hReadOnly])]
      exact Attempt.start_modify_eq_ok.2 (bind_eq_ok.2 ⟨(), hCheck, rfl⟩)

omit [Instance ι] in
/-- A layout says whether there is a field that can be set. -/
theorem Derived.Orders.frozen_iff (hOrders : d.Orders h) :
    d.layout.hasSettable = false ↔ ∀ f ∈ d.fields, f.settable = false := by
  rw [hOrders.describes.settable, List.any_eq_false]
  simp only [Bool.not_eq_true]

theorem connect_regular (hRegular : h.Regular) (hDerived : h.derived = .ok d)
    (hValues : HoldsSettableValues r d x)
    (hConnect : (h.connect lookup r).start x = (.ok (), y)) :
    Instance.runtimeType y = h.runtime ∧ HoldsSettable lookup r d y := by
  have hOrders := derived_eq_ok hDerived
  have hFields := hRegular.derived hOrders
  obtain ⟨d', hDerived', hTyped, hSet⟩ := connect_ok.1 hConnect
  rw [hDerived] at hDerived'
  cases hDerived'
  exact ⟨(settled_setReferences hOrders hFields hTyped hSet).typed,
    holdsSettable_of_setReferences hOrders hFields hTyped hValues hSet⟩

/-- An instance that is brought up to date holds what the record says in the
fields that can be set, and what it held before in the others. -/
theorem refresh_regular (hRegular : h.Regular)
    (hRefresh : (h.refresh lookup r).start x = (.ok (), y)) :
    ∃ d, h.derived = .ok d ∧ Instance.runtimeType y = h.runtime ∧ HoldsSettable lookup r d y ∧
      KeepsReadOnly d x y := by
  obtain ⟨d, hDerived, hTyped, hSettle⟩ := refresh_ok.1 hRefresh
  have hOrders := derived_eq_ok hDerived
  have hFields := hRegular.derived hOrders
  refine ⟨d, hDerived, ?_⟩
  rcases hSettle with ⟨-, x₁, hSetValues, hSetReferences⟩ | ⟨hReadOnly, -, rfl⟩
  · have hFirst := settled_setValues lookup hOrders hFields hTyped hSetValues
    have hSecond := settled_setReferences hOrders hFields hFirst.typed hSetReferences
    have hValues := holdsSettableValues_of_setValues hOrders hFields hTyped hSetValues
    refine ⟨hSecond.typed,
      holdsSettable_of_setReferences hOrders hFields hFirst.typed hValues hSetReferences, ?_⟩
    intro f hf hReadOnly
    have hLater := hSecond.agrees hFields hf (by rw [hReadOnly, Bool.false_and])
    exact hLater.trans (hFirst.agrees hFields hf (by rw [hReadOnly, Bool.false_and]))
  · -- Without a field that can be set, the instance is only compared.
    have hNone := hOrders.frozen_iff.1 hReadOnly
    refine ⟨hTyped, ?_, fun f _ _ => Access.Agrees.refl f.payload _⟩
    intro f hf hSettable
    rw [hNone f hf] at hSettable
    cases hSettable

theorem complete_of_unhooked (hUnhooked : h.onComplete = none) (x : ι) :
    h.complete.start x = (.ok (), x) := by
  simp only [complete, hUnhooked]
  rfl

/-- All fields of an instance hold what the record says. -/
def HoldsAll (lookup : Lookup) (r : Record) (d : Derived ι) (x : ι) : Prop :=
  ∀ f ∈ d.fields, HoldsAt lookup r f x

/-- If the handler is lawful, that is all fields. -/
theorem Lawful.holdsAll (hLawful : h.Lawful) (hDerived : h.derived = .ok d)
    (hHolds : HoldsSettable lookup r d x) : HoldsAll lookup r d x :=
  fun f hf => hHolds f hf (hLawful.settable_derived (derived_eq_ok hDerived) f hf)

end

end ObjectHandler

end ObjectStore
