import ObjectStore.Member.Basic

/-!
# Layout derivation

The layout of a type says where each of its members stands in a record. It
follows from the declarations alone:

1. every member has a name, and no two have the same identifier;
2. at most one member is variable, and it moves to the end, so that every
   other member has a fixed offset;
3. each member's offset is the sum of the fixed lengths before it.

A declaration may carry a payload, such as the accessors of the member, that
goes with it when the members are reordered. Derivation reports the
declarations as it leaves them, also when it fails half-way, because offsets
that were already assigned stay assigned.

## Main results

* `Layout.derive_placed`: a derivation that succeeds has assigned every
  offset.
-/

namespace ObjectStore

universe u

/-- A declared member with what belongs to it. -/
structure Declaration (α : Type u) where
  member : Member
  /-- Whether loading may write the member into an instance. -/
  settable : Bool
  payload : α

namespace Declaration

/-- The declaration of a member that carries nothing and can be written. -/
def plain (member : Member) : Declaration Unit := ⟨member, true, ()⟩

end Declaration

/--
How the members of a type are partitioned. Members are given by their
position in the reordered declarations.
-/
structure Layout where
  /-- All members, in stored order. -/
  storing : List Nat
  /-- The members that hold references. -/
  references : List Nat
  /-- The settable members that hold values. -/
  settingValues : List Nat
  /-- The settable members that hold references. -/
  settingReferences : List Nat
  /-- The variable member, always the last. -/
  variableMember : Option Nat
  /-- The length of everything in front of the variable member. -/
  fixedLength : UInt64
deriving DecidableEq, Inhabited

namespace Layout

variable {α : Type u}

/-- The layout of no members. -/
def empty : Layout := ⟨[], [], [], [], none, 0⟩

/-- Whether loading may write any member. -/
def hasSettable (layout : Layout) : Bool :=
  !layout.settingValues.isEmpty || !layout.settingReferences.isEmpty

/-- The first fault in the names of the declarations, given the identifiers
in front of them. -/
def nameFault (typeName : String) (seen : List MemberId) :
    List (Declaration α) → Option Error
  | [] => none
  | d :: rest =>
      if d.member.id.name = "" then some (.unnamedField typeName)
      else if d.member.id ∈ seen then some (.duplicateField d.member.id.render)
      else nameFault typeName (d.member.id :: seen) rest

/-- The declarations with the variable ones behind the others. -/
def variableLast (ds : List (Declaration α)) : List (Declaration α) :=
  ds.filter (fun d => !d.member.kind.isVariable) ++
    ds.filter (fun d => d.member.kind.isVariable)

/-- The layout with one more member at the end. -/
def extend (layout : Layout) (index : Nat) (d : Declaration α) : Layout :=
  let refs := d.member.kind.hasReferences
  let add (condition : Bool) (indices : List Nat) :=
    if condition then indices ++ [index] else indices
  { storing := layout.storing ++ [index]
    references := add refs layout.references
    settingValues := add (d.settable && !refs) layout.settingValues
    settingReferences := add (d.settable && refs) layout.settingReferences
    variableMember := if d.member.kind.isVariable then some index else layout.variableMember
    fixedLength :=
      if d.member.kind.isVariable then layout.fixedLength
      else Word.addSat layout.fixedLength d.member.kind.minLength }

/-- Assigns offsets from position `index` on, behind the members that
`layout` covers. -/
def assign (layout : Layout) (index : Nat) :
    List (Declaration α) → List (Declaration α) × Except Error Layout
  | [] => ([], .ok layout)
  | d :: rest =>
      match d.member.placeAt layout.fixedLength with
      | .error e => (d :: rest, .error e)
      | .ok member =>
          let (placed, result) := assign (layout.extend index d) (index + 1) rest
          ({ d with member } :: placed, result)

/-- Derives the layout of the declarations, which come back reordered and
with their offsets. -/
def derive (typeName : String) (ds : List (Declaration α)) :
    List (Declaration α) × Except Error Layout :=
  match nameFault typeName [] ds with
  | some e => (ds, .error e)
  | none =>
      match ds.filter (fun d => d.member.kind.isVariable) with
      | first :: second :: _ =>
          (ds, .error (.multipleVariableFields first.member.id.render second.member.id.render))
      | _ => assign empty 0 (variableLast ds)

/-- Derives the layout of members that carry nothing. -/
def deriveMembers (typeName : String) (members : List Member) :
    List Member × Except Error Layout :=
  let (ds, result) := derive typeName (members.map Declaration.plain)
  (ds.map Declaration.member, result)

@[simp] theorem assign_nil (layout : Layout) (index : Nat) :
    assign layout index ([] : List (Declaration α)) = ([], .ok layout) := rfl

/-- A derivation that succeeds has assigned every offset. -/
theorem derive_placed {typeName : String} {ds placed : List (Declaration α)} {layout : Layout}
    (h : derive typeName ds = (placed, .ok layout)) :
    ∀ d ∈ placed, d.member.offset.isSome := by
  have key : ∀ (ds placed : List (Declaration α)) (before after : Layout) (index : Nat),
      assign before index ds = (placed, .ok after) → ∀ d ∈ placed, d.member.offset.isSome := by
    intro ds
    induction ds with
    | nil =>
        intro placed before after index h
        simp only [assign, Prod.mk.injEq] at h
        simp [← h.1]
    | cons d rest ih =>
        intro placed before after index h
        simp only [assign] at h
        split at h
        · cases h
        · rename_i member hPlace
          have hSome := (Member.placeAt_eq_ok_iff.1 hPlace).2
          generalize hRest : assign (before.extend index d) (index + 1) rest = outcome at h
          obtain ⟨restPlaced, result⟩ := outcome
          simp only [Prod.mk.injEq] at h
          obtain ⟨rfl, rfl⟩ := h
          intro d' hd'
          rcases List.mem_cons.1 hd' with rfl | hIn
          · simp [hSome]
          · exact ih restPlaced _ _ _ hRest d' hIn
  unfold derive at h
  split at h
  · cases h
  · split at h
    · cases h
    · exact key _ _ _ _ _ h

end Layout

end ObjectStore
