import ObjectStore.Proofs.Handler.Reading
import ObjectStore.Proofs.Record.Chunk

/-!
# What is stored can be loaded

A lawful handler can read every record that it has written, provided that
the objects in it are known when its references are set. The instance that
is loaded mirrors the one that was stored: its values are the same, and its
references lead to the counterparts of the instances they led to.

A type may be constructed from the members of its records in one step, by a
function that may refuse. `ObjectHandler.Reconstructs` says that it accepts
what the handler writes.

## Main results

* `ObjectHandler.create_isOk`, `ObjectHandler.connect_isOk`: a written record
  can be loaded.
* `ObjectHandler.mirrors_of_holdsAll`: what is loaded mirrors what was
  stored.
-/

namespace ObjectStore

variable {ι : Type}

/-! ## Members -/

namespace Access

/-- The member of `y` is that of `x`, and every reference in it leads to the
counterpart of the instance that it led to. -/
def Mirrors (counterpart : Ref → Option Ref) (access : Access ι) (x y : ι) : Prop :=
  match access with
  | value _ get _ => get y = get x
  | reference get _ => (get y).map some = (get x).map counterpart
  | bytes get _ => get y = get x
  | text get _ => get y = get x
  | references get _ => (get y).map some = (get x).map counterpart

/-- The lookup knows the counterparts of instances by their names. -/
structure Leads (lookup : Lookup) (name : Ref → ObjectId) (counterpart : Ref → Option Ref)
    (targets : List Ref) : Prop where
  notNull : ∀ target ∈ targets, name target ≠ ObjectId.null
  known : ∀ target ∈ targets, ∃ ref, counterpart target = some ref ∧
    lookup (name target) = .ok (some ref)

variable {access : Access ι} {lookup : Lookup} {name : Ref → ObjectId}
  {counterpart : Ref → Option Ref} {targets : List Ref} {r : Record} {m : Member} {offset : UInt64}
  {x y : ι}

theorem mapM_names (h : Leads lookup name counterpart targets) :
    (targets.map name).mapM lookup = .ok (targets.map counterpart) := by
  apply mapM_eq_ok.2
  rw [List.forall₂_map_left_iff, List.forall₂_map_right_iff]
  apply List.forall₂_same.2
  intro target hTarget
  obtain ⟨ref, hRef, hLookup⟩ := h.known target hTarget
  rw [hRef]
  exact hLookup

theorem resolveAll_names (h : Leads lookup name counterpart targets) :
    resolveAll lookup (targets.map name) = .ok ((targets.map counterpart).filterMap id) := by
  have hNone : ¬(targets.map name).any (·.isNull) = true := by
    intro hAny
    obtain ⟨id, hId, hNull⟩ := List.any_eq_true.1 hAny
    obtain ⟨target, hTarget, rfl⟩ := List.mem_map.1 hId
    exact h.notNull target hTarget (ObjectId.isNull_iff.1 hNull)
  rw [resolveAll, if_neg hNone, mapM_names h]
  rfl

theorem map_some_counterparts (h : Leads lookup name counterpart targets) :
    ((targets.map counterpart).filterMap id).map some = targets.map counterpart := by
  induction targets with
  | nil => rfl
  | cons target rest ih =>
      obtain ⟨ref, hRef, -⟩ := h.known target List.mem_cons_self
      have hRest := ih ⟨fun t ht => h.notNull t (List.mem_cons_of_mem _ ht),
        fun t ht => h.known t (List.mem_cons_of_mem _ ht)⟩
      simp only [List.map_cons, hRef, List.filterMap_cons_some (f := id) rfl, hRest]

/-- What can be read at the offset of a member is what was written of the
instance. -/
def Written (name : Ref → ObjectId) (r : Record) (offset : Nat) (access : Access ι) (x : ι) :
    Prop :=
  match access with
  | value kind get _ => r.slice offset kind.width = .ok (kind.encode (get x))
  | reference get _ => r.readObjectId offset = .ok (((get x).map name).getD ObjectId.null)
  | bytes get _ => r.readVariable offset = .ok (get x)
  | text get _ => r.readVariable offset = .ok (Text.encode (get x))
  | references get _ => r.readObjectIds offset = .ok ((get x).map name)

theorem written_of_stands (hFits : r.Fits) (hKind : m.kind = access.kind)
    (hStands : r.Stands m (access.bytesOf name x)) (hOffset : m.offset = some offset) :
    access.Written name r offset.toNat x := by
  have hVariable : access.kind.isVariable = true → m.kind.isVariable = true := by
    rw [hKind]
    exact id
  cases access with
  | value kind get set =>
      have hSlice := hStands.slice hFits hOffset
      rw [bytesOf, PrimitiveKind.length_encode] at hSlice
      exact hSlice
  | reference get set => exact Record.Stands.readObjectId hStands hFits hOffset
  | bytes get set => exact Record.Stands.readVariable hStands hFits (hVariable rfl) hOffset
  | text get set => exact Record.Stands.readVariable hStands hFits (hVariable rfl) hOffset
  | references get set => exact Record.Stands.readObjectIds hStands hFits (hVariable rfl) hOffset

variable {place : Nat}

/-- A written value can be read. -/
theorem Written.readable_value (h : access.Written name r place x)
    (hKind : access.kind.hasReferences = false) : Readable lookup r place access.kind := by
  cases access with
  | value kind get set => exact ⟨_, get x, h, kind.decode_encode (get x)⟩
  | bytes get set => exact ⟨get x, h⟩
  | text get set => exact ⟨_, get x, h, Text.decode_encode (get x)⟩
  | reference get set => cases hKind
  | references get set => cases hKind

/-- A reference, which may be absent, is resolved to the counterpart of what
it leads to. -/
theorem lookup_name (hNull : lookup ObjectId.null = .ok none) {target : Option Ref}
    (hLeads : Leads lookup name counterpart target.toList) :
    ∃ other, lookup ((target.map name).getD ObjectId.null) = .ok other ∧
      other.map some = target.map counterpart := by
  cases target with
  | none => exact ⟨none, hNull, rfl⟩
  | some target =>
      obtain ⟨ref, hRef, hKnown⟩ := hLeads.known target (List.mem_singleton.2 rfl)
      refine ⟨some ref, hKnown, ?_⟩
      rw [Option.map_some, Option.map_some, hRef]

/-- Written references can be read if the objects they name are known. -/
theorem Written.readable (h : access.Written name r place x)
    (hNull : lookup ObjectId.null = .ok none)
    (hLeads : Leads lookup name counterpart (access.held x)) :
    Readable lookup r place access.kind := by
  cases access with
  | reference get set =>
      obtain ⟨target, hLookup, -⟩ := lookup_name hNull hLeads
      exact ⟨_, target, h, hLookup⟩
  | references get set =>
      have hResolve : resolveAll lookup ((get x).map name) = .ok _ := resolveAll_names hLeads
      exact ⟨_, _, h, hResolve⟩
  | value kind get set => exact h.readable_value rfl
  | bytes get set => exact h.readable_value rfl
  | text get set => exact h.readable_value rfl

/-- A member that holds what a written record says mirrors the one that was
written. -/
theorem mirrors_of_holds (hWritten : access.Written name r place x)
    (hNull : lookup ObjectId.null = .ok none)
    (hLeads : Leads lookup name counterpart (access.held x))
    (hHolds : access.Holds lookup r place y) : access.Mirrors counterpart x y := by
  cases access with
  | value kind get set =>
      obtain ⟨bytes, hSlice, hDecode⟩ := hHolds
      cases hSlice.symm.trans hWritten
      rw [PrimitiveKind.decode_encode] at hDecode
      exact (Except.ok.inj hDecode).symm
  | bytes get set => exact Except.ok.inj (hHolds.symm.trans hWritten)
  | text get set =>
      obtain ⟨payload, hHeld, hDecode⟩ := hHolds
      cases hHeld.symm.trans hWritten
      rw [Text.decode_encode] at hDecode
      exact (Except.ok.inj hDecode).symm
  | reference get set =>
      obtain ⟨id, hHeld, hLookup⟩ := hHolds
      cases hHeld.symm.trans hWritten
      obtain ⟨other, hKnown, hOther⟩ := lookup_name hNull hLeads
      cases hLookup.symm.trans hKnown
      exact hOther
  | references get set =>
      obtain ⟨ids, hHeld, hResolve⟩ := hHolds
      cases hHeld.symm.trans hWritten
      have hTargets := Except.ok.inj ((resolveAll_names hLeads).symm.trans hResolve)
      show (get y).map some = (get x).map counterpart
      rw [← hTargets]
      exact map_some_counterparts hLeads

end Access

/-! ## Handlers -/

namespace ObjectHandler

/-- A type that is constructed from the members of a record accepts the
records that are written of its instances. -/
def Reconstructs [Instance ι] (h : ObjectHandler ι) : Prop :=
  ∀ construct, h.construction = .fromValues construct → ∀ d name object x, h.derived = .ok d →
    Instance.runtimeType x = h.runtime → Chunk.Acceptable (h.recordOf d name object x) →
    ∃ y, construct ⟨h.name, d.definition.members, h.recordOf d name object x⟩ = .ok y

variable {h : ObjectHandler ι} {d : Derived ι} {lookup : Lookup} {name : Ref → ObjectId}
  {counterpart : Ref → Option Ref} {object : ObjectId} {x y z : ι}

/-- The fields of a written record can be read at their offsets. -/
theorem written_recordOf (hDerived : h.derived = .ok d)
    (hAcceptable : Chunk.Acceptable (h.recordOf d name object x)) {f : Declaration (Access ι)}
    (hf : f ∈ d.fields) : ∃ offset, f.member.offset = some offset ∧
      f.payload.Written name (h.recordOf d name object x) offset.toNat x := by
  have hOrders := derived_eq_ok hDerived
  have hFits := Chunk.fits_of_acceptable hAcceptable
  have hStands := stands_content hOrders hFits f hf
  obtain ⟨offset, -, hOffset⟩ := hStands.place
  exact ⟨offset, hOffset, Access.written_of_stands hFits (hOrders.kind f hf) hStands hOffset⟩

/-- A constructor is given the value of a member as it was written. -/
theorem value_recordOf (hDerived : h.derived = .ok d)
    (hAcceptable : Chunk.Acceptable (h.recordOf d name object x)) {f : Declaration (Access ι)}
    (hf : f ∈ d.fields) {kind : PrimitiveKind} {get : ι → kind.Value}
    {set : Option (kind.Value → ι → ι)} (hAccess : f.payload = .value kind get set)
    {member : String} (hFirst : d.definition.members.find? (·.id.name = member) = some f.member) :
    RecordValues.value ⟨h.name, d.definition.members, h.recordOf d name object x⟩ kind member =
      .ok (get x) := by
  obtain ⟨offset, hOffset, hWritten⟩ := written_recordOf hDerived hAcceptable hf
  rw [hAccess] at hWritten
  have hKind : f.member.kind = .primitive kind := by
    rw [(derived_eq_ok hDerived).kind f hf, hAccess]
    rfl
  have hMember : RecordValues.member ⟨h.name, d.definition.members, h.recordOf d name object x⟩
      member (.primitive kind) = .ok offset := by
    simp only [RecordValues.member, hFirst]
    refine bind_eq_ok.2 ⟨offset, ?_, ?_⟩
    · simp only [Member.place, hOffset]
    · simp only [hKind, if_true]
      rfl
  refine bind_eq_ok.2 ⟨offset, hMember, bind_eq_ok.2 ⟨_, Access.orCorrupt_eq_ok.2 hWritten, ?_⟩⟩
  rw [PrimitiveKind.decode_encode]
  rfl

/-- An instance that holds what a written record says mirrors the one that
was written. -/
theorem mirrors_of_holdsAll (hDerived : h.derived = .ok d)
    (hAcceptable : Chunk.Acceptable (h.recordOf d name object x))
    (hNull : lookup ObjectId.null = .ok none)
    (hLeads : ∀ f ∈ d.fields, Access.Leads lookup name counterpart (f.payload.held x))
    (hHolds : HoldsAll lookup (h.recordOf d name object x) d y) :
    ∀ field ∈ h.fields, field.access.Mirrors counterpart x y := by
  intro field hField
  obtain ⟨f, hf, hAccess⟩ := derived_of_declared (derived_eq_ok hDerived) hField
  rw [← hAccess]
  obtain ⟨offset, hOffset, hWritten⟩ := written_recordOf hDerived hAcceptable hf
  obtain ⟨offset', hOffset', hHeld⟩ := hHolds f hf
  rw [hOffset] at hOffset'
  cases hOffset'
  exact Access.mirrors_of_holds hWritten hNull (hLeads f hf) hHeld

variable [Instance ι]

omit [Instance ι] in
/-- However an instance comes into being, it takes the values of a written
record. -/
theorem create_of_yields (hDerived : h.derived = .ok d)
    (hAcceptable : Chunk.Acceptable (h.recordOf d name object x))
    (hYields : h.construction.Yields
      ⟨h.name, d.definition.members, h.recordOf d name object x⟩ z) :
    ∃ y, h.create (h.recordOf d name object x) = .ok y := by
  have hSet : ∃ y, (setValues d (h.recordOf d name object x)).start z = (.ok (), y) := by
    refine setValues_isOk (fun _ => .ok none) ?_ z
    intro f hf _ hKind
    obtain ⟨offset, hOffset, hWritten⟩ := written_recordOf hDerived hAcceptable hf
    rw [(derived_eq_ok hDerived).kind f hf] at hKind
    exact ⟨offset, hOffset, hWritten.readable_value hKind⟩
  obtain ⟨y, hy⟩ := hSet
  unfold create
  cases hConstruction : h.construction with
  | blank prototype =>
      rw [hConstruction] at hYields
      cases hYields
      refine ⟨y, bind_eq_ok.2 ⟨d, hDerived, bind_eq_ok.2 ⟨z, rfl, ?_⟩⟩⟩
      simp only [hy]
      rfl
  | fromValues construct =>
      rw [hConstruction] at hYields
      refine ⟨y, bind_eq_ok.2 ⟨d, hDerived, bind_eq_ok.2 ⟨z, hYields, ?_⟩⟩⟩
      simp only [hy]
      rfl

/-- An instance can be created from a written record. -/
theorem create_isOk (hReconstructs : h.Reconstructs) (hDerived : h.derived = .ok d)
    (hTyped : Instance.runtimeType x = h.runtime)
    (hAcceptable : Chunk.Acceptable (h.recordOf d name object x)) :
    ∃ y, h.create (h.recordOf d name object x) = .ok y := by
  rcases h.construction.yields_or_refuses
    ⟨h.name, d.definition.members, h.recordOf d name object x⟩ with
    ⟨z, hYields⟩ | ⟨construct, e, hConstruction, hRefusal⟩
  · exact create_of_yields hDerived hAcceptable hYields
  · obtain ⟨z, hz⟩ :=
      hReconstructs construct hConstruction d name object x hDerived hTyped hAcceptable
    cases hRefusal.symm.trans hz

/-- The references of a written record can be set once its objects are
known. -/
theorem connect_isOk (hDerived : h.derived = .ok d) (hTyped : Instance.runtimeType z = h.runtime)
    (hAcceptable : Chunk.Acceptable (h.recordOf d name object x))
    (hNull : lookup ObjectId.null = .ok none)
    (hLeads : ∀ f ∈ d.fields, Access.Leads lookup name counterpart (f.payload.held x)) :
    ∃ y, (h.connect lookup (h.recordOf d name object x)).start z = (.ok (), y) := by
  have hReadable : ∀ f ∈ d.fields, f.settable = true →
      ReadableAt lookup (h.recordOf d name object x) f := by
    intro f hf _
    obtain ⟨offset, hOffset, hWritten⟩ := written_recordOf hDerived hAcceptable hf
    exact ⟨offset, hOffset, hWritten.readable hNull (hLeads f hf)⟩
  obtain ⟨y, hSet⟩ := setReferences_isOk hReadable z
  exact ⟨y, connect_ok.2 ⟨d, hDerived, hTyped, hSet⟩⟩

end ObjectHandler

end ObjectStore
