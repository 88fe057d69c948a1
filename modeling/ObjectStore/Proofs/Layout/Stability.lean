import ObjectStore.Dictionary.File
import ObjectStore.Proofs.Layout.Arrangement

/-!
# Laying out again

A store that is opened again meets its own layouts: the members come in the
order in which the first derivation has left them, with the offsets that it
has assigned. Deriving them once more changes nothing, whatever is declared
beside them. So a definition is described by its members alone, and it does
not show where the variable member was declared, because that one moves to the
end in any case.

## Main results

* `Layout.assign_again`: the walk over placed declarations leaves them in
  their places.
* `Layout.Moved.derive_iff`: the declared position of the variable member does
  not show in a layout.
* `Layout.derive_stable`: what stays the same when a layout is derived again.
-/

namespace ObjectStore

universe u

namespace Layout

variable {α : Type u} {typeName : String} {layout layout' : Layout}
  {ds ds' placed : List (Declaration α)}

/-! ## Placed declarations -/

/-- The walk over placed declarations leaves them in their places, and extends
the layout as the first one did. -/
theorem assign_again {index : Nat} (h : assign layout index ds = (placed, .ok layout')) :
    assign layout index placed = (placed, .ok layout') := by
  induction ds generalizing layout index placed with
  | nil =>
      cases h
      rfl
  | cons d rest ih =>
      obtain ⟨placedRest, -, rfl, hRest⟩ := assign_cons_ok h
      have hPlace : Member.placeAt { d.member with offset := some layout.fixedLength }
          layout.fixedLength = .ok { d.member with offset := some layout.fixedLength } :=
        Member.placeAt_eq_ok_iff.2 ⟨Or.inr rfl, rfl⟩
      -- An offset is not something that a layout is extended by.
      have hAgain : assign (layout.extend index { d with
          member := { d.member with offset := some layout.fixedLength } }) (index + 1) placedRest =
          (placedRest, .ok layout') := ih hRest
      simp only [assign, hPlace, hAgain]

theorem perm_ids_of_derive (h : derive typeName ds = (placed, .ok layout)) :
    (placed.map (·.member.id)).Perm (ds.map (·.member.id)) := by
  rw [← ids_of_places (derive_ok h).1]
  exact (perm_variableLast ds).map _

/-- Deriving a derived layout again changes nothing. -/
theorem derive_again (other : String) (h : derive typeName ds = (placed, .ok layout)) :
    derive other placed = (placed, .ok layout) := by
  obtain ⟨hNamed, hNodup, -, hAssign⟩ := derive_eq_ok.1 h
  have hIds := perm_ids_of_derive h
  obtain ⟨hLast, hFew⟩ := variableLast_of_laidOut (derive_ok h).2.1
  refine derive_eq_ok.2 ⟨?_, hIds.nodup_iff.2 hNodup, hFew, ?_⟩
  · intro d hd
    obtain ⟨d', hd', hSame⟩ := List.mem_map.1 (hIds.mem_iff.1 (List.mem_map_of_mem hd))
    rw [← hSame]
    exact hNamed d' hd'
  · rw [hLast]
    exact assign_again hAssign

/-! ## Where the variable member is declared -/

/-- The declarations differ in nothing but the position of a variable one. -/
def Moved (ds ds' : List (Declaration α)) : Prop :=
  ∃ before v after before' after', v.member.kind.isVariable = true ∧
    ds = before ++ v :: after ∧ ds' = before' ++ v :: after' ∧ before ++ after = before' ++ after'

theorem Moved.symm (h : Moved ds ds') : Moved ds' ds := by
  obtain ⟨before, v, after, before', after', hVariable, hDeclared, hDeclared', hOthers⟩ := h
  exact ⟨before', v, after', before, after, hVariable, hDeclared', hDeclared, hOthers.symm⟩

theorem Moved.perm (h : Moved ds ds') : ds.Perm ds' := by
  obtain ⟨before, v, after, before', after', -, rfl, rfl, hOthers⟩ := h
  have hFront : (before ++ v :: after).Perm (v :: (before ++ after)) := List.perm_middle
  rw [hOthers] at hFront
  exact hFront.trans List.perm_middle.symm

/-- The only variable declaration ends up behind the others, wherever it
was. -/
theorem variableLast_middle {before after : List (Declaration α)} {v : Declaration α}
    (hVariable : v.member.kind.isVariable = true)
    (hFew : ((before ++ v :: after).filter fun d => d.member.kind.isVariable).length ≤ 1) :
    variableLast (before ++ v :: after) = before ++ after ++ [v] := by
  have hKept : (v :: after).filter (fun d => d.member.kind.isVariable) =
      v :: after.filter fun d => d.member.kind.isVariable := List.filter_cons_of_pos hVariable
  have hLeft : (v :: after).filter (fun d => !d.member.kind.isVariable) =
      after.filter fun d => !d.member.kind.isVariable :=
    List.filter_cons_of_neg (by simp [hVariable])
  rw [List.filter_append, hKept, List.length_append, List.length_cons] at hFew
  have hBefore : (before.filter fun d => d.member.kind.isVariable) = [] :=
    List.eq_nil_of_length_eq_zero (by omega)
  have hAfter : (after.filter fun d => d.member.kind.isVariable) = [] :=
    List.eq_nil_of_length_eq_zero (by omega)
  have hFixed : ∀ front : List (Declaration α),
      (front.filter fun d => d.member.kind.isVariable) = [] →
        (front.filter fun d => !d.member.kind.isVariable) = front := by
    intro front hNone
    refine List.filter_eq_self.2 fun d hd => ?_
    simpa using List.filter_eq_nil_iff.1 hNone d hd
  rw [variableLast, List.filter_append, List.filter_append, hKept, hLeft, hBefore, hAfter,
    hFixed before hBefore, hFixed after hAfter, List.nil_append]

theorem Moved.derive_ok (h : Moved ds ds') (hDerive : derive typeName ds = (placed, .ok layout)) :
    derive typeName ds' = (placed, .ok layout) := by
  obtain ⟨hNamed, hNodup, hFew, hAssign⟩ := derive_eq_ok.1 hDerive
  have hPerm := h.perm
  have hFew' := Nat.le_trans (Nat.le_of_eq (hPerm.filter _).length_eq.symm) hFew
  refine derive_eq_ok.2 ⟨fun d hd => hNamed d (hPerm.mem_iff.2 hd),
    (hPerm.map _).nodup_iff.1 hNodup, hFew', ?_⟩
  obtain ⟨before, v, after, before', after', hVariable, rfl, rfl, hOthers⟩ := h
  rw [variableLast_middle hVariable hFew', ← hOthers, ← variableLast_middle hVariable hFew]
  exact hAssign

/-- The declared position of the variable member does not show in a layout. -/
theorem Moved.derive_iff (h : Moved ds ds') :
    derive typeName ds = (placed, .ok layout) ↔ derive typeName ds' = (placed, .ok layout) :=
  ⟨h.derive_ok, h.symm.derive_ok⟩

/-! ## Without offsets -/

/-- Nothing can contradict the walk if there are no offsets yet. -/
theorem assign_of_unplaced {index : Nat} (h : ∀ d ∈ ds, d.member.offset = none) :
    ∃ placed layout', assign layout index ds = (placed, .ok layout') := by
  induction ds generalizing layout index with
  | nil => exact ⟨[], layout, rfl⟩
  | cons d rest ih =>
      obtain ⟨hHead, hRest⟩ := List.forall_mem_cons.1 h
      refine assign_cons_isOk.2 ⟨?_, ih hRest⟩
      intro offset hOffset
      rw [hHead] at hOffset
      cases hOffset

/-- Declarations without offsets are laid out if their names are in order and
at most one of them is variable. -/
theorem derive_of_unplaced (h : ∀ d ∈ ds, d.member.offset = none) :
    (∃ placed layout, derive typeName ds = (placed, .ok layout)) ↔
      (∀ d ∈ ds, d.member.id.name ≠ "") ∧ (ds.map (·.member.id)).Nodup ∧
        (ds.filter fun d => d.member.kind.isVariable).length ≤ 1 := by
  constructor
  · rintro ⟨placed, layout, hDerive⟩
    obtain ⟨hNamed, hNodup, hFew, -⟩ := derive_eq_ok.1 hDerive
    exact ⟨hNamed, hNodup, hFew⟩
  · rintro ⟨hNamed, hNodup, hFew⟩
    have hUnplaced : ∀ d ∈ variableLast ds, d.member.offset = none :=
      fun d hd => h d ((perm_variableLast ds).mem_iff.1 hd)
    obtain ⟨placed, layout, hAssign⟩ := @assign_of_unplaced α empty _ 0 hUnplaced
    exact ⟨placed, layout, derive_eq_ok.2 ⟨hNamed, hNodup, hFew, hAssign⟩⟩

/-! ## Members alone -/

theorem deriveMembers_iff {declared members : List Member} :
    deriveMembers typeName declared = (members, .ok layout) ↔
      ∃ placed, derive typeName (declared.map Declaration.plain) = (placed, .ok layout) ∧
        members = placed.map Declaration.member := by
  unfold deriveMembers
  cases derive typeName (declared.map Declaration.plain) with
  | mk placed result => simp [Prod.mk.injEq, eq_comm, and_comm]

theorem Moved.plain (h : Moved ds ds') :
    Moved ((ds.map Declaration.member).map Declaration.plain)
      ((ds'.map Declaration.member).map Declaration.plain) := by
  obtain ⟨before, v, after, before', after', hVariable, rfl, rfl, hOthers⟩ := h
  refine ⟨(before.map Declaration.member).map Declaration.plain, Declaration.plain v.member,
    (after.map Declaration.member).map Declaration.plain,
    (before'.map Declaration.member).map Declaration.plain,
    (after'.map Declaration.member).map Declaration.plain, hVariable, ?_, ?_, ?_⟩
  · rw [List.map_append, List.map_append]
    rfl
  · rw [List.map_append, List.map_append]
    rfl
  · rw [← List.map_append, ← List.map_append, hOthers, List.map_append, List.map_append]

end Layout

/-! ## Definitions -/

namespace Definition

variable {id : TypeId} {name : String} {runtime : Option String} {declared : List Member}

/-- How a definition is made: its members are laid out. -/
theorem make_eq_ok {d : Definition} :
    make id name runtime declared = .ok d ↔
      (d.id = id ∧ d.name = name ∧ d.runtime = runtime) ∧
        ∃ layout, Layout.deriveMembers name declared = (d.members, .ok layout) := by
  constructor
  · intro h
    unfold make at h
    split at h
    · rename_i members layout hDerive
      cases h
      exact ⟨⟨rfl, rfl, rfl⟩, layout, hDerive⟩
    · cases h
  · rintro ⟨⟨hId, hName, hRuntime⟩, layout, hDerive⟩
    obtain ⟨d', hMake, hId', hName', hRuntime', hMembers'⟩ :=
      Layout.make_of_deriveMembers id runtime hDerive
    rw [hMake, ext_data (hId'.trans hId.symm) (hName'.trans hName.symm)
      (hRuntime'.trans hRuntime.symm) hMembers']

end Definition

namespace Layout

variable {α : Type u} {typeName : String} {ds ds' : List (Declaration α)} {id : TypeId}
  {runtime : Option String}

/-- Nor does it show in a definition. -/
theorem Moved.make_iff (h : Moved ds ds') {d : Definition} :
    Definition.make id typeName runtime (ds.map Declaration.member) = .ok d ↔
      Definition.make id typeName runtime (ds'.map Declaration.member) = .ok d := by
  simp only [Definition.make_eq_ok, deriveMembers_iff, h.plain.derive_iff]

/-- A type whose members have no offsets yet has a definition if their names
are in order and at most one of them is variable. -/
theorem make_of_unplaced (hUnplaced : ∀ d ∈ ds, d.member.offset = none) :
    (∃ d, Definition.make id typeName runtime (ds.map Declaration.member) = .ok d) ↔
      (∀ d ∈ ds, d.member.id.name ≠ "") ∧ (ds.map (·.member.id)).Nodup ∧
        (ds.filter fun d => d.member.kind.isVariable).length ≤ 1 := by
  constructor
  · rintro ⟨d, hMake⟩
    obtain ⟨-, layout, hMembers⟩ := Definition.make_eq_ok.1 hMake
    obtain ⟨placed, hDerive, -⟩ := deriveMembers_iff.1 hMembers
    obtain ⟨hNamed, hNodup, hFew, -⟩ := derive_eq_ok.1 hDerive
    rw [List.map_map] at hNamed hNodup hFew
    rw [List.map_map] at hNodup
    rw [List.filter_map, List.length_map] at hFew
    exact ⟨fun d hd => hNamed _ (List.mem_map_of_mem hd), hNodup, hFew⟩
  · intro h
    obtain ⟨placed, layout, hDerive⟩ := (@derive_of_unplaced α typeName ds hUnplaced).2 h
    obtain ⟨plain, hPlain⟩ := deriveMembers_of_derive hDerive
    obtain ⟨d, hMake, -⟩ := make_of_deriveMembers id runtime hPlain
    exact ⟨d, hMake⟩

/-! ## Main statement -/

/--
A derived layout is derived from the placed declarations again, which stay as
they are, and a definition from its description. Where the variable member was
declared shows in no definition. Without offsets, a definition fails for want
of names and for a second variable member, and for no other reason.
-/
theorem derive_stable (typeName : String) :
    (∀ (ds placed : List (Declaration α)) (layout : Layout),
        derive typeName ds = (placed, .ok layout) →
          ∀ other, derive other placed = (placed, .ok layout)) ∧
      (∀ d : Definition, (Description.ofDefinition d).toDefinition = .ok d) ∧
      ∀ ds ds' : List (Declaration α), Moved ds ds' → ∀ id runtime,
        (∀ d, Definition.make id typeName runtime (ds.map Declaration.member) = .ok d ↔
          Definition.make id typeName runtime (ds'.map Declaration.member) = .ok d) ∧
        ((∀ d ∈ ds, d.member.offset = none) →
          ((∃ d, Definition.make id typeName runtime (ds.map Declaration.member) = .ok d) ↔
            (∀ d ∈ ds, d.member.id.name ≠ "") ∧ (ds.map (·.member.id)).Nodup ∧
              (ds.filter fun d => d.member.kind.isVariable).length ≤ 1)) := by
  refine ⟨?_, Definition.make_members, ?_⟩
  · intro ds placed layout h other
    exact derive_again other h
  · intro ds ds' h id runtime
    exact ⟨fun d => h.make_iff, make_of_unplaced⟩

/-- A notice whose title is declared between its other members, none of which
has an offset. -/
def draft : List (Declaration Unit) :=
  [⟨.ofKind (.unqualified "pages") (.primitive .u32), false, ()⟩,
    ⟨.ofKind (.unqualified "title") .text, true, ()⟩,
    ⟨.ofKind (.unqualified "author") .reference, true, ()⟩]

/-- The draft with its title in front. -/
def titledDraft : List (Declaration Unit) :=
  [⟨.ofKind (.unqualified "title") .text, true, ()⟩,
    ⟨.ofKind (.unqualified "pages") (.primitive .u32), false, ()⟩,
    ⟨.ofKind (.unqualified "author") .reference, true, ()⟩]

theorem moved_draft : Moved draft titledDraft :=
  ⟨[_], _, [_], [], [_, _], rfl, rfl, rfl, rfl⟩

theorem derive_stable_draft :
    derive "Draft" noticePlaced = (noticePlaced, .ok ⟨[0, 1, 2], [1], [2], [1], some 2, 12⟩) ∧
      ∃ d, Definition.make ⟨7⟩ "Draft" none (draft.map Declaration.member) = .ok d ∧
        Definition.make ⟨7⟩ "Draft" none (titledDraft.map Declaration.member) = .ok d ∧
        d.members = noticePlaced.map Declaration.member ∧
        (Description.ofDefinition d).toDefinition = .ok d := by
  obtain ⟨hAgain, hDescribed, hMoved⟩ := derive_stable (α := Unit) "Draft"
  have hDerive : derive "Draft" draft =
      (noticePlaced, .ok ⟨[0, 1, 2], [1], [2], [1], some 2, 12⟩) := by rfl
  obtain ⟨hSame, hWhen⟩ := hMoved draft titledDraft moved_draft ⟨7⟩ none
  obtain ⟨d, hMake⟩ := (hWhen (by decide)).2 (by decide)
  have hMembers : d.members = noticePlaced.map Declaration.member := by
    obtain ⟨-, layout, hOk⟩ := Definition.make_eq_ok.1 hMake
    exact (Prod.mk.inj hOk).1.symm
  exact ⟨hAgain draft noticePlaced _ hDerive "Draft", d, hMake, (hSame d).1 hMake, hMembers,
    hDescribed d⟩

end Layout

end ObjectStore
