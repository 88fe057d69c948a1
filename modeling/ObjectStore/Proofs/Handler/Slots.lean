import ObjectStore.Handler.Slots
import ObjectStore.Proofs.Handler.Lawful
import ObjectStore.Registry

/-!
# Handlers of slots

The accessors of named slots are independent variables: a slot holds what it
was set to, and setting it changes no other one. So a handler whose members
are different slots is lawful.

## Main results

* `Slots.regular_of_slots`: a handler of different slots is regular.
* `Slots.lawful_handler`: it is lawful if all of them can be set.
-/

namespace ObjectStore

namespace Slots

variable {slot other : String} {kind : FieldKind} {settable : Bool} {x y : Slots}

/-! ## Accessors of slots -/

theorem puts_access (h : (access slot settable kind).Puts x y) : ∃ v, y = x.set slot v := by
  cases settable with
  | false => cases kind <;> cases h
  | true =>
      cases kind with
      | primitive k =>
          cases h
          exact ⟨_, rfl⟩
      | reference =>
          cases h
          exact ⟨_, rfl⟩
      | bytes =>
          cases h
          exact ⟨_, rfl⟩
      | text =>
          cases h
          exact ⟨_, rfl⟩
      | referenceList =>
          cases h
          exact ⟨_, rfl⟩

theorem agrees_access (h : x.value kind slot = y.value kind slot) :
    (access slot settable kind).Agrees x y := by
  cases kind with
  | primitive k =>
      show x.primitive k slot = y.primitive k slot
      simp only [primitive, code, h]
  | reference => simp only [access, Access.Agrees, h]
  | bytes => simp only [access, Access.Agrees, h]
  | text => simp only [access, Access.Agrees, h]
  | referenceList => simp only [access, Access.Agrees, h]

/-- A slot holds what it was set to. -/
theorem getsBack_access {runtime : RuntimeType} (slot : String) (settable : Bool)
    (kind : FieldKind) : (access slot settable kind).GetsBack runtime := by
  cases settable with
  | false => cases kind <;> exact fun s hs => nomatch hs
  | true =>
      cases kind with
      | primitive k =>
          intro s hs v x _
          cases hs
          show (x.set slot (.code (k.code v))).primitive k slot = v
          simp only [primitive, code, value_set, PrimitiveKind.ofCode_code]
          rfl
      | reference =>
          intro s hs v x _
          cases hs
          simp only [value_set]
      | bytes =>
          intro s hs v x _
          cases hs
          simp only [value_set]
      | text =>
          intro s hs v x _
          cases hs
          simp only [value_set]
      | referenceList =>
          intro s hs v x _
          cases hs
          simp only [value_set]

/-- Setting a slot does not show in another one. -/
theorem hides_access {runtime : RuntimeType} {kind' : FieldKind} {settable' : Bool}
    (h : other ≠ slot) :
    (access slot settable kind).Hides runtime (access other settable' kind') := by
  intro x y _ hPuts
  obtain ⟨v, rfl⟩ := puts_access hPuts
  exact agrees_access (value_set_of_ne x kind' v h)

/-! ## Handlers -/

/-- The handler of a type whose members are slots of the same names, all of
them settable. -/
def handler (id : TypeId) (name : String) (runtime : RuntimeType)
    (members : List (String × FieldKind)) : ObjectHandler Slots where
  id := id
  name := name
  runtime := runtime
  construction := .blank (blank runtime)
  fields := members.map fun m => ⟨MemberId.unqualified m.1, none, access m.1 true m.2⟩
  onComplete := none

variable {id : TypeId} {name : String} {runtime : RuntimeType} {members : List (String × FieldKind)}

/-- A handler whose fields are different slots is regular. -/
theorem regular_of_slots {h : ObjectHandler Slots} {slots : List (String × Bool × FieldKind)}
    (hFields : h.fields.map Field.access = slots.map fun s => access s.1 s.2.1 s.2.2)
    (hNodup : (slots.map Prod.fst).Nodup) (hBuilt : h.construction.Builds h.runtime)
    (hUnhooked : h.onComplete = none) : h.Regular := by
  have hAccess : ∀ f ∈ h.fields, ∃ slot settable kind, f.access = access slot settable kind := by
    intro f hf
    have hIn : f.access ∈ h.fields.map Field.access := List.mem_map_of_mem hf
    rw [hFields] at hIn
    obtain ⟨s, -, hEq⟩ := List.mem_map.1 hIn
    exact ⟨_, _, _, hEq.symm⟩
  refine ⟨?_, ?_, ?_, hBuilt, hUnhooked⟩
  · intro f hf
    obtain ⟨slot, settable, kind, hEq⟩ := hAccess f hf
    rw [hEq]
    exact getsBack_access slot settable kind
  · have hSlots := List.pairwise_map.1 hNodup
    have hAll : (h.fields.map Field.access).Pairwise fun a b =>
        a.Hides h.runtime b ∧ b.Hides h.runtime a := by
      rw [hFields]
      refine List.pairwise_map.2 (hSlots.imp ?_)
      intro a b hNe
      exact ⟨hides_access (Ne.symm hNe), hides_access hNe⟩
    exact List.pairwise_map.1 hAll
  · intro f hf x y hTyped hPuts
    obtain ⟨slot, settable, kind, hEq⟩ := hAccess f hf
    rw [hEq] at hPuts
    obtain ⟨v, rfl⟩ := puts_access hPuts
    exact hTyped

/-- A handler of different slots is lawful. -/
theorem lawful_handler (h : (members.map Prod.fst).Nodup) :
    (handler id name runtime members).Lawful := by
  have hRegular : (handler id name runtime members).Regular := by
    refine @regular_of_slots _ (members.map fun m => (m.1, true, m.2)) ?_ ?_ rfl rfl
    · rw [handler, List.map_map, List.map_map]
      rfl
    · rw [List.map_map]
      exact h
  refine ⟨hRegular, ?_⟩
  intro f hf
  obtain ⟨m, -, rfl⟩ := List.mem_map.1 hf
  cases m.2 <;> rfl

/-- People with an age and a friend, who may be absent. -/
def person : ObjectHandler Slots :=
  handler ⟨1000⟩ "Person" ⟨"Person"⟩ [("age", .primitive .u32), ("friend", .reference)]

theorem lawful_person : person.Lawful := lawful_handler (by decide)

/-- The registry that knows people only. -/
def people : Registry Slots := ((Registry.addHandler ⟨0, .object person⟩).start Registry.empty).2

end Slots

end ObjectStore
