import ObjectStore.Layout

/-!
# Type definitions

A definition binds a type identifier and a dictionary name to members that
have been laid out. It is all the storage side knows of a type, and it is
what a dictionary keeps from one run to the next.

The name of the runtime type is a remark: two definitions with the same
identifier, name and members describe the same records, whatever runtime
type, if any, they were derived from.

## Main results

* `Definition.isLayoutEqual_iff`: layout equality is equality of identifier,
  name and members.
* `Definition.offset_isSome`: every member of a definition has an offset.
-/

namespace ObjectStore

/-- The layout of a persisted type. -/
structure Definition where
  id : TypeId
  name : String
  /-- The runtime type the definition was derived from, if any. -/
  runtime : Option String
  /-- The members in stored order. -/
  members : List Member
  /-- The members are the outcome of a layout derivation. -/
  laidOut : ∃ declared layout, Layout.deriveMembers name declared = (members, .ok layout)
deriving DecidableEq

namespace Definition

/-- Lays out the declared members of a type. Offsets that are already
assigned are checked. -/
def make (id : TypeId) (name : String) (runtime : Option String) (declared : List Member) :
    Except Error Definition :=
  match h : Layout.deriveMembers name declared with
  | (members, .ok layout) => .ok ⟨id, name, runtime, members, declared, layout, h⟩
  | (_, .error e) => .error e

/-! ## Members -/

/-- The member with an identifier. -/
def member? (d : Definition) (id : MemberId) : Option Member :=
  d.members.find? (·.id = id)

/-- The first member with a name, whatever its qualifier. -/
def memberNamed? (d : Definition) (name : String) : Option Member :=
  d.members.find? (·.id.name = name)

/-- Whether records of the type hold references. -/
def hasReferences (d : Definition) : Bool := d.members.any (·.kind.hasReferences)

/-- Whether the lengths of records of the type differ. -/
def hasVariable (d : Definition) : Bool := d.members.any (·.kind.isVariable)

/-- Whether the type wraps exactly one primitive value. -/
def isPrimitive (d : Definition) : Bool :=
  match d.members with
  | [⟨_, .primitive _, _, _⟩] => true
  | _ => false

/-! ## Lengths -/

/-- The least content length of a record of the type. -/
def minLength (d : Definition) : UInt64 :=
  d.members.foldl (fun total m => Word.addSat total m.kind.minLength) 0

/-- The largest content length of a record of the type. -/
def maxLength (d : Definition) : UInt64 :=
  d.members.foldl (fun total m => Word.addSat total m.kind.maxLength) 0

/-- Whether a record of the type may have the content length. -/
def acceptsLength (d : Definition) (length : UInt64) : Bool :=
  d.minLength ≤ length && length ≤ d.maxLength

/-- Checks the content length of a record of the type. -/
def validateLength (d : Definition) (length : UInt64) (object : ObjectId) : Except Error Unit :=
  if d.acceptsLength length then .ok ()
  else .error (.invalidEntityLength d.id object length d.minLength d.maxLength)

/-! ## Layout equality -/

/-- Whether two definitions describe the same records. -/
def isLayoutEqual (a b : Definition) : Bool :=
  a.id = b.id && a.name = b.name && a.members = b.members

theorem isLayoutEqual_iff {a b : Definition} :
    a.isLayoutEqual b = true ↔ a.id = b.id ∧ a.name = b.name ∧ a.members = b.members := by
  simp [isLayoutEqual, and_assoc]

@[simp] theorem isLayoutEqual_self (a : Definition) : a.isLayoutEqual a = true := by
  simp [isLayoutEqual]

theorem isLayoutEqual_comm (a b : Definition) : a.isLayoutEqual b = b.isLayoutEqual a := by
  simp [isLayoutEqual, eq_comm]

/-- Every member of a definition has an offset. -/
theorem offset_isSome (d : Definition) : ∀ m ∈ d.members, m.offset.isSome := by
  obtain ⟨declared, layout, h⟩ := d.laidOut
  simp only [Layout.deriveMembers] at h
  generalize hDerive : Layout.derive d.name (declared.map Declaration.plain) = outcome at h
  obtain ⟨placed, result⟩ := outcome
  simp only [Prod.mk.injEq] at h
  obtain ⟨hMembers, rfl⟩ := h
  intro m hm
  rw [← hMembers] at hm
  obtain ⟨declaration, hIn, rfl⟩ := List.mem_map.1 hm
  exact Layout.derive_placed hDerive declaration hIn

end Definition

end ObjectStore
