import ObjectStore.Handler.Object
import ObjectStore.Proofs.Attempt.Sequences
import ObjectStore.Proofs.Layout.Derivation

/-!
# What a handler derives from its fields

The fields of a handler are laid out, and come back in stored order, each
with its accessors. The definition of the type has the members of these
fields, and the layout describes them.

## Main results

* `ObjectHandler.derived_eq_ok`: what is known of derived fields.
-/

namespace ObjectStore

namespace ObjectHandler

variable {ι : Type} {h : ObjectHandler ι} {d : Derived ι}

/-- The derived fields are the declared ones in stored order, each in its
place. -/
structure Derived.Orders (d : Derived ι) (h : ObjectHandler ι) : Prop where
  laidOut : LaidOut 0 (d.fields.map Declaration.member)
  describes : d.layout.Describes d.fields
  members : d.definition.members = d.fields.map Declaration.member
  id : d.definition.id = h.id
  name : d.definition.name = h.name
  kind : ∀ f ∈ d.fields, f.member.kind = f.payload.kind
  settable : ∀ f ∈ d.fields, f.settable = f.payload.isSettable
  payloads : (d.fields.map Declaration.payload).Perm (h.fields.map Field.access)

theorem placed_fields {ds placed : List (Declaration (Access ι))} {fields : List (Field ι)}
    (hPlaces : List.Forall₂ Layout.Places ds placed)
    (hPerm : ds.Perm (fields.map Field.declaration)) :
    (∀ f ∈ placed, f.member.kind = f.payload.kind) ∧
      (∀ f ∈ placed, f.settable = f.payload.isSettable) ∧
      (placed.map Declaration.payload).Perm (fields.map Field.access) := by
  have hDeclared : ∀ d ∈ ds, d.member.kind = d.payload.kind ∧
      d.settable = d.payload.isSettable := by
    intro d hd
    obtain ⟨field, -, rfl⟩ := List.mem_map.1 (hPerm.mem_iff.1 hd)
    exact ⟨rfl, rfl⟩
  have hPayloads : ds.map Declaration.payload = placed.map Declaration.payload := by
    clear hDeclared hPerm
    induction hPlaces with
    | nil => rfl
    | cons hHead _ ih => rw [List.map_cons, List.map_cons, ih, hHead]
  have hAll : ∀ f ∈ placed, f.member.kind = f.payload.kind ∧ f.settable = f.payload.isSettable := by
    clear hPayloads hPerm
    induction hPlaces with
    | nil => simp
    | @cons d placed _ _ hHead _ ih =>
        intro f hf
        rcases List.mem_cons.1 hf with rfl | hIn
        · have hFirst := hDeclared d List.mem_cons_self
          rw [hHead]
          exact hFirst
        · exact ih (fun d hd => hDeclared d (List.mem_cons_of_mem _ hd)) f hIn
  refine ⟨fun f hf => (hAll f hf).1, fun f hf => (hAll f hf).2, ?_⟩
  rw [← hPayloads]
  have hMapped := hPerm.map Declaration.payload
  rw [List.map_map] at hMapped
  exact hMapped

theorem derived_eq_ok (hDerived : h.derived = .ok d) : d.Orders h := by
  obtain ⟨hId, hName, -⟩ := derived_definition hDerived
  unfold derived at hDerived
  split at hDerived
  · cases hDerived
  · rename_i fields layout hLayout
    obtain ⟨definition, hMake, hDone⟩ := bind_eq_ok.1 hDerived
    cases hDone
    obtain ⟨hPlaces, hLaidOut, hDescribes, hNamed, hNodup⟩ := Layout.derive_ok hLayout
    have hPerm := Layout.perm_variableLast (h.fields.map Field.declaration)
    obtain ⟨hKind, hSettable, hPayloads⟩ := placed_fields hPlaces hPerm
    have hIds : (fields.map (·.member.id)).Perm
        ((h.fields.map Field.declaration).map (·.member.id)) := by
      have hSame : (Layout.variableLast (h.fields.map Field.declaration)).map (·.member.id) =
          fields.map (·.member.id) := Layout.ids_of_places hPlaces
      rw [← hSame]
      exact hPerm.map _
    have hPlacedNamed : ∀ m ∈ fields.map Declaration.member, m.id.name ≠ "" := by
      intro m hm
      obtain ⟨f, hf, rfl⟩ := List.mem_map.1 hm
      obtain ⟨d, hd, hEq⟩ := List.mem_map.1 (hIds.mem_iff.1 (List.mem_map_of_mem hf))
      rw [← hEq]
      exact hNamed d hd
    have hPlacedNodup : ((fields.map Declaration.member).map Member.id).Nodup := by
      rw [List.map_map]
      exact hIds.nodup_iff.2 hNodup
    obtain ⟨definition', hMake', -, -, -, hMembers⟩ :=
      Layout.members_of_make h.id h.name (some h.runtime.name) hLaidOut hPlacedNamed hPlacedNodup
    rw [hMake] at hMake'
    cases hMake'
    exact ⟨hLaidOut, hDescribes, hMembers, hId, hName, hKind, hSettable, hPayloads⟩

/-- Every derived field is one that is declared. -/
theorem declared (hOrders : d.Orders h) {f : Declaration (Access ι)} (hf : f ∈ d.fields) :
    ∃ field ∈ h.fields, field.access = f.payload :=
  List.mem_map.1 (hOrders.payloads.mem_iff.1 (List.mem_map_of_mem hf))

/-- Every declared field is derived. -/
theorem derived_of_declared (hOrders : d.Orders h) {field : Field ι} (hField : field ∈ h.fields) :
    ∃ f ∈ d.fields, f.payload = field.access :=
  List.mem_map.1 (hOrders.payloads.mem_iff.2 (List.mem_map_of_mem hField))

/-- The instances of a type without references hold none. -/
theorem held_of_no_references (hOrders : d.Orders h)
    (hNone : d.layout.references.isEmpty = true) (x : ι) :
    (d.fields.flatMap fun f => f.payload.held x) = [] := by
  apply List.flatMap_eq_nil_iff.2
  intro f hf
  have hAny := hOrders.describes.references
  rw [hNone] at hAny
  have hKind : f.payload.kind.hasReferences = false := by
    have hAll : d.fields.any (·.member.kind.hasReferences) = false := by simpa using hAny
    have hField := List.any_eq_false.1 hAll f hf
    rw [hOrders.kind f hf] at hField
    simpa using hField
  cases hPayload : f.payload with
  | value kind get set => rfl
  | bytes get set => rfl
  | text get set => rfl
  | reference get set =>
      rw [hPayload] at hKind
      cases hKind
  | references get set =>
      rw [hPayload] at hKind
      cases hKind

/-- The references of an instance of the type are what its fields hold. -/
theorem instanceReferences_of_typed [Instance ι] {x : ι} (hDerived : h.derived = .ok d)
    (hTyped : Instance.runtimeType x = h.runtime) :
    h.instanceReferences x = .ok (d.fields.flatMap fun f => f.payload.held x) := by
  have hExpect : h.expect x = .ok x := by rw [expect, if_pos hTyped]
  simp only [instanceReferences, hDerived, hExpect, bind, Except.bind]
  split
  · rename_i hNone
    rw [held_of_no_references (derived_eq_ok hDerived) hNone x]
    rfl
  · rfl

end ObjectHandler

end ObjectStore
