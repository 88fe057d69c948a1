import ObjectStore.Handler.Object

/-!
# Instances made of slots

A program that has no type of its own for the objects it works on can keep
each of them as named slots. A slot that was never set is blank: it holds
zero, no reference, or nothing. The accessors of a slot make it a field of a
handler like any other.

## Main results

* `Slots.value_set`, `Slots.value_set_of_ne`: setting a slot changes that slot
  and no other.
-/

namespace ObjectStore

/-- What a slot holds. A primitive value is given by its code. -/
inductive SlotValue where
  | code (code : Nat)
  | reference (target : Option Ref)
  | bytes (payload : Bytes)
  | text (content : String)
  | references (targets : List Ref)
deriving DecidableEq, Inhabited

/-- What a slot holds that was never set. -/
def SlotValue.blank : FieldKind → SlotValue
  | .primitive _ => code 0
  | .reference => reference none
  | .bytes => bytes []
  | .text => text ""
  | .referenceList => references []

/-- An object of a runtime type, kept as named slots. -/
structure Slots where
  runtime : RuntimeType
  filled : List (String × SlotValue)

instance : Instance Slots := ⟨Slots.runtime⟩

namespace Slots

/-- The object of a runtime type in which all slots are blank. -/
def blank (runtime : RuntimeType) : Slots := ⟨runtime, []⟩

/-- What a slot of a kind holds. -/
def value (x : Slots) (kind : FieldKind) (slot : String) : SlotValue :=
  (x.filled.lookup slot).getD (.blank kind)

/-- Sets a slot. -/
def set (x : Slots) (slot : String) (value : SlotValue) : Slots :=
  { x with filled := (slot, value) :: x.filled.filter (·.1 ≠ slot) }

theorem value_set (x : Slots) (kind : FieldKind) (slot : String) (v : SlotValue) :
    (x.set slot v).value kind slot = v := by
  simp [set, value]

theorem lookup_filter_of_ne {filled : List (String × SlotValue)} {slot other : String}
    (h : other ≠ slot) :
    (filled.filter (·.1 ≠ slot)).lookup other = filled.lookup other := by
  induction filled with
  | nil => rfl
  | cons entry rest ih =>
      obtain ⟨name, v⟩ := entry
      by_cases hName : name = slot
      · have hOther : (other == name) = false := by simpa [hName] using h
        rw [List.filter_cons_of_neg (by simpa using hName), List.lookup_cons, hOther]
        exact ih
      · rw [List.filter_cons_of_pos (by simpa using hName), List.lookup_cons, List.lookup_cons, ih]

theorem value_set_of_ne (x : Slots) (kind : FieldKind) {slot other : String} (v : SlotValue)
    (h : other ≠ slot) : (x.set slot v).value kind other = x.value kind other := by
  have hOther : (other == slot) = false := by simpa using h
  simp only [set, value, List.lookup_cons, hOther, lookup_filter_of_ne h]

/-! ## Accessors -/

/-- The code that a slot holds. -/
def code (x : Slots) (kind : PrimitiveKind) (slot : String) : Nat :=
  match x.value (.primitive kind) slot with
  | .code n => n
  | _ => 0

/-- The primitive value that a slot holds. -/
def primitive (x : Slots) (kind : PrimitiveKind) (slot : String) : kind.Value :=
  (kind.ofCode (x.code kind slot)).toOption.getD default

/-- The accessors of a slot, which is read-only unless it is settable. -/
def access (slot : String) (settable : Bool) : FieldKind → Access Slots
  | .primitive k =>
      .value k (·.primitive k slot) (setter fun v => .code (k.code v))
  | .reference =>
      .reference (fun x => match x.value .reference slot with
        | .reference target => target
        | _ => none) (setter .reference)
  | .bytes =>
      .bytes (fun x => match x.value .bytes slot with
        | .bytes payload => payload
        | _ => []) (setter .bytes)
  | .text =>
      .text (fun x => match x.value .text slot with
        | .text content => content
        | _ => "") (setter .text)
  | .referenceList =>
      .references (fun x => match x.value .referenceList slot with
        | .references targets => targets
        | _ => []) (setter .references)
where
  setter {α : Type} (wrap : α → SlotValue) : Option (α → Slots → Slots) :=
    if settable then some fun v x => x.set slot (wrap v) else none

end Slots

/-- The member of a record as what a slot holds. References are blank: they
are set once all instances exist. -/
def RecordValues.slotValue (values : RecordValues) (kind : FieldKind) (member : String) :
    Except Error SlotValue :=
  match kind with
  | .primitive k => return .code (k.code (← values.value k member))
  | .bytes => return .bytes (← values.bytes member)
  | .text => return .text (← values.text member)
  | .reference | .referenceList => return .blank kind

end ObjectStore
