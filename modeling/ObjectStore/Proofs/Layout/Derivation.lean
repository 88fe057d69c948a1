import Mathlib.Algebra.GroupWithZero.Nat
import Mathlib.Data.List.Forall2
import ObjectStore.Definition

/-!
# Where derivation puts the members

Derivation walks over the declarations and gives each member the length of
everything in front of it. `LaidOut` describes the outcome by the recursion
of that walk: a list of members whose offsets begin at a given place, of
which only the last may be variable. A layout that is derived summarises the
declarations it covers, `Layout.Describes`.

Deriving members that are laid out already changes nothing, so the
definition of a type has the members that its own derivation has placed.

## Main results

* `Layout.derive_ok`: what a derivation that succeeds leaves behind.
* `Layout.members_of_make`: laid out members stay as they are.
-/

namespace ObjectStore

universe u

/-! ## Members in their places -/

/-- Members that stand one behind the other from an offset on, the last of
which may be variable. -/
inductive LaidOut : UInt64 → List Member → Prop where
  | nil (offset : UInt64) : LaidOut offset []
  | fixed {offset : UInt64} {m : Member} {rest : List Member} :
      m.offset = some offset → m.kind.isVariable = false →
        LaidOut (Word.addSat offset m.kind.minLength) rest → LaidOut offset (m :: rest)
  | last {offset : UInt64} {m : Member} :
      m.offset = some offset → m.kind.isVariable = true → LaidOut offset [m]

namespace Layout

variable {α : Type u}

/-- The declaration `placed` is `d` with an offset. -/
def Places (d placed : Declaration α) : Prop :=
  placed = { d with member := { d.member with offset := placed.member.offset } }

/-- Only the last of the declarations is variable. -/
def VariableLast : List (Declaration α) → Prop
  | [] => True
  | [_] => True
  | d :: next :: rest => d.member.kind.isVariable = false ∧ VariableLast (next :: rest)

theorem variableLast_cons {d : Declaration α} {rest : List (Declaration α)}
    (h : VariableLast (d :: rest)) :
    VariableLast rest ∧ (d.member.kind.isVariable = true → rest = []) := by
  cases rest with
  | nil => exact ⟨trivial, fun _ => rfl⟩
  | cons next rest =>
      refine ⟨h.2, ?_⟩
      intro hVariable
      rw [h.1] at hVariable
      cases hVariable

theorem variableLast_append {front : List (Declaration α)} {last : List (Declaration α)}
    (hFront : ∀ d ∈ front, d.member.kind.isVariable = false) (hLast : last.length ≤ 1) :
    VariableLast (front ++ last) := by
  induction front with
  | nil =>
      cases last with
      | nil => trivial
      | cons d rest =>
          have hNone : rest = [] :=
            List.eq_nil_of_length_eq_zero (Nat.le_zero.1 (Nat.le_of_succ_le_succ hLast))
          subst hNone
          trivial
  | cons d rest ih =>
      have hRest := ih fun d' hd' => hFront d' (List.mem_cons_of_mem _ hd')
      show VariableLast (d :: (rest ++ last))
      cases hAll : rest ++ last with
      | nil => trivial
      | cons next others =>
          rw [hAll] at hRest
          exact ⟨hFront d List.mem_cons_self, hRest⟩

theorem ids_of_places {ds placed : List (Declaration α)} (h : List.Forall₂ Places ds placed) :
    ds.map (·.member.id) = placed.map (·.member.id) := by
  induction h with
  | nil => rfl
  | cons hHead _ ih => rw [List.map_cons, List.map_cons, ih, hHead]

/-! ## The walk -/

theorem assign_cons_ok {layout layout' : Layout} {index : Nat} {d : Declaration α}
    {rest placed : List (Declaration α)}
    (h : assign layout index (d :: rest) = (placed, .ok layout')) :
    ∃ placedRest, (d.member.offset = none ∨ d.member.offset = some layout.fixedLength) ∧
      placed = { d with member := { d.member with offset := some layout.fixedLength } } ::
        placedRest ∧
      assign (layout.extend index d) (index + 1) rest = (placedRest, .ok layout') := by
  simp only [assign] at h
  split at h
  · cases h
  · rename_i member hPlace
    obtain ⟨hOffset, rfl⟩ := Member.placeAt_eq_ok_iff.1 hPlace
    cases hRest : assign (layout.extend index d) (index + 1) rest with
    | mk placedRest result =>
        rw [hRest] at h
        obtain ⟨rfl, rfl⟩ := Prod.mk.inj h
        exact ⟨placedRest, hOffset, rfl, rfl⟩

theorem assign_ok {layout layout' : Layout} {index : Nat} {ds placed : List (Declaration α)}
    (hLast : VariableLast ds) (h : assign layout index ds = (placed, .ok layout')) :
    List.Forall₂ Places ds placed ∧
      LaidOut layout.fixedLength (placed.map Declaration.member) := by
  induction ds generalizing layout index placed with
  | nil =>
      cases h
      exact ⟨List.Forall₂.nil, LaidOut.nil _⟩
  | cons d rest ih =>
      obtain ⟨placedRest, -, rfl, hRest⟩ := assign_cons_ok h
      obtain ⟨hLastRest, hEnd⟩ := variableLast_cons hLast
      obtain ⟨hPlaces, hLaidOut⟩ := ih hLastRest hRest
      refine ⟨List.Forall₂.cons rfl hPlaces, ?_⟩
      by_cases hVariable : d.member.kind.isVariable = true
      · have hNil := hEnd hVariable
        subst hNil
        cases hRest
        exact LaidOut.last rfl hVariable
      · rw [Bool.not_eq_true] at hVariable
        refine LaidOut.fixed rfl hVariable ?_
        have hNext : (layout.extend index d).fixedLength =
            Word.addSat layout.fixedLength d.member.kind.minLength := by
          simp [extend, hVariable]
        rw [← hNext]
        exact hLaidOut

/-- Members that are laid out already are given the offsets they have. -/
theorem assign_of_laidOut {layout : Layout} {index : Nat} {ds : List (Declaration α)}
    (h : LaidOut layout.fixedLength (ds.map Declaration.member)) :
    ∃ layout', assign layout index ds = (ds, .ok layout') := by
  induction ds generalizing layout index with
  | nil => exact ⟨layout, rfl⟩
  | cons d rest ih =>
      have hPlace : d.member.offset = some layout.fixedLength →
          d.member.placeAt layout.fixedLength = .ok d.member := by
        intro hOffset
        refine Member.placeAt_eq_ok_iff.2 ⟨Or.inr hOffset, ?_⟩
        rw [← hOffset]
      rw [List.map_cons] at h
      generalize hMembers : rest.map Declaration.member = members at h
      cases h with
      | fixed hOffset hFixed hRest =>
          have hNext : (layout.extend index d).fixedLength =
              Word.addSat layout.fixedLength d.member.kind.minLength := by
            simp [extend, hFixed]
          rw [← hNext, ← hMembers] at hRest
          obtain ⟨layout', hAssign⟩ := @ih _ (index + 1) hRest
          refine ⟨layout', ?_⟩
          simp only [assign, hPlace hOffset, hAssign]
      | last hOffset hVariable =>
          have hNil : rest = [] := List.map_eq_nil_iff.1 hMembers
          subst hNil
          refine ⟨layout.extend index d, ?_⟩
          simp only [assign, hPlace hOffset]

/-! ## The summary -/

/-- The length of the fixed members. -/
def fixedSum (ds : List (Declaration α)) : UInt64 :=
  ds.foldl (fun total d =>
    if d.member.kind.isVariable then total else Word.addSat total d.member.kind.minLength) 0

/-- The last variable member. -/
def trailing? (ds : List (Declaration α)) : Option (Declaration α) :=
  ds.reverse.find? (·.member.kind.isVariable)

/-- The layout summarises the declarations. -/
structure Describes (layout : Layout) (ds : List (Declaration α)) : Prop where
  fixedLength : layout.fixedLength = fixedSum ds
  inside : ∀ i, layout.variableMember = some i → i < ds.length
  variableMember : layout.variableMember.bind (ds[·]?) = trailing? ds
  settable : layout.hasSettable = ds.any (·.settable)
  references : layout.references.isEmpty = !ds.any (·.member.kind.hasReferences)

theorem describes_empty : Describes empty ([] : List (Declaration α)) :=
  ⟨rfl, by simp [empty], rfl, rfl, rfl⟩

theorem Describes.extend {layout : Layout} {ds : List (Declaration α)} (h : Describes layout ds)
    (d : Declaration α) : Describes (layout.extend ds.length d) (ds ++ [d]) where
  fixedLength := by
    simp only [Layout.extend, h.fixedLength, fixedSum, List.foldl_append, List.foldl_cons,
      List.foldl_nil]
  inside := by
    intro i hi
    simp only [Layout.extend] at hi
    rw [List.length_append, List.length_singleton]
    split at hi
    · cases hi
      omega
    · have hLt := h.inside i hi
      omega
  variableMember := by
    simp only [Layout.extend, trailing?, List.reverse_append, List.reverse_singleton,
      List.singleton_append, List.find?_cons]
    by_cases hVariable : d.member.kind.isVariable = true
    · simp [hVariable]
    · rw [if_neg hVariable]
      rw [Bool.not_eq_true] at hVariable
      rw [hVariable, ← trailing?, ← h.variableMember]
      cases hMember : layout.variableMember with
      | none => rfl
      | some i =>
          have hLt := h.inside i hMember
          simp [List.getElem?_append_left hLt]
  settable := by
    have hBefore := h.settable
    simp only [Layout.hasSettable] at hBefore
    simp only [Layout.hasSettable, Layout.extend, List.any_append, List.any_cons, List.any_nil,
      ← hBefore]
    cases d.settable <;> cases d.member.kind.hasReferences <;> simp
  references := by
    have hBefore := h.references
    simp only [Layout.extend, List.any_append, List.any_cons, List.any_nil]
    cases d.member.kind.hasReferences
    · simpa using hBefore
    · simp

/-- What holds of the layout of no members, and is kept when a member is put
behind others, holds of the layout of all of them. -/
theorem assign_induction {P : Layout → List (Declaration α) → Prop}
    (hExtend : ∀ layout ds d, P layout ds → P (layout.extend ds.length d) (ds ++ [d]))
    {layout layout' : Layout} {done ds placed : List (Declaration α)} (hDone : P layout done)
    (h : assign layout done.length ds = (placed, .ok layout')) : P layout' (done ++ placed) := by
  induction ds generalizing layout done placed with
  | nil =>
      cases h
      rw [List.append_nil]
      exact hDone
  | cons d rest ih =>
      obtain ⟨placedRest, -, rfl, hRest⟩ := assign_cons_ok h
      have hNext := hExtend _ _ { d with member := { d.member with offset := some layout.fixedLength } }
        hDone
      have hLength : (done ++ [{ d with
          member := { d.member with offset := some layout.fixedLength } }]).length =
          done.length + 1 := by simp
      have hAll := ih hNext (by rw [hLength]; exact hRest)
      rw [List.append_assoc] at hAll
      exact hAll

theorem describes_assign {layout layout' : Layout} {done ds placed : List (Declaration α)}
    (hDone : Describes layout done)
    (h : assign layout done.length ds = (placed, .ok layout')) :
    Describes layout' (done ++ placed) :=
  assign_induction (fun _ _ d hBefore => hBefore.extend d) hDone h

/-! ## Fixed and variable members -/

theorem split_of_laidOut {offset : UInt64} {ds : List (Declaration α)}
    (h : LaidOut offset (ds.map Declaration.member)) :
    (∀ d ∈ ds, d.member.kind.isVariable = false) ∨
      ∃ front v, ds = front ++ [v] ∧ (∀ d ∈ front, d.member.kind.isVariable = false) ∧
        v.member.kind.isVariable = true := by
  induction ds generalizing offset with
  | nil => exact Or.inl (by simp)
  | cons d rest ih =>
      rw [List.map_cons] at h
      generalize hMembers : rest.map Declaration.member = members at h
      cases h with
      | fixed hOffset hFixed hRest =>
          rw [← hMembers] at hRest
          rcases ih hRest with hAll | ⟨front, v, rfl, hFront, hVariable⟩
          · left
            intro d' hd'
            rcases List.mem_cons.1 hd' with rfl | hIn
            · exact hFixed
            · exact hAll d' hIn
          · refine Or.inr ⟨d :: front, v, rfl, ?_, hVariable⟩
            intro d' hd'
            rcases List.mem_cons.1 hd' with rfl | hIn
            · exact hFixed
            · exact hFront d' hIn
      | last hOffset hVariable =>
          have hNil : rest = [] := List.map_eq_nil_iff.1 hMembers
          subst hNil
          exact Or.inr ⟨[], d, rfl, by simp, hVariable⟩

theorem toNat_fixedSum_filter (ds : List (Declaration α)) :
    (fixedSum ds).toNat =
      min ((ds.filter fun d => !d.member.kind.isVariable).map
        fun d => d.member.kind.minLength.toNat).sum Word.max.toNat := by
  have key : ∀ (ds : List (Declaration α)) (total : UInt64),
      (ds.foldl (fun total d => if d.member.kind.isVariable then total
          else Word.addSat total d.member.kind.minLength) total).toNat =
        min (total.toNat + ((ds.filter fun d => !d.member.kind.isVariable).map
          fun d => d.member.kind.minLength.toNat).sum) Word.max.toNat := by
    intro ds
    induction ds with
    | nil =>
        intro total
        have hTop : total.toNat ≤ Word.max.toNat := Nat.le_of_lt_succ total.toNat_lt
        simp only [List.foldl_nil, List.filter_nil, List.map_nil, List.sum_nil]
        omega
    | cons d rest ih =>
        intro total
        rw [List.foldl_cons, ih, List.filter_cons]
        cases d.member.kind.isVariable
        · simp only [Bool.false_eq_true, Bool.not_false, if_false, if_true, Word.toNat_addSat,
            List.map_cons, List.sum_cons]
          omega
        · simp
  have hAll := key ds 0
  rw [UInt64.toNat_zero, Nat.zero_add] at hAll
  exact hAll

theorem toNat_fixedSum {ds : List (Declaration α)}
    (h : ∀ d ∈ ds, d.member.kind.isVariable = false) :
    (fixedSum ds).toNat =
      min (ds.map fun d => d.member.kind.minLength.toNat).sum Word.max.toNat := by
  rw [toNat_fixedSum_filter, List.filter_eq_self.2 fun d hd => by rw [h d hd]; rfl]

theorem fixedSum_append_variable {front : List (Declaration α)} {v : Declaration α}
    (h : v.member.kind.isVariable = true) : fixedSum (front ++ [v]) = fixedSum front := by
  simp [fixedSum, h]

theorem trailing?_fixed {ds : List (Declaration α)}
    (h : ∀ d ∈ ds, d.member.kind.isVariable = false) : trailing? ds = none := by
  apply List.find?_eq_none.2
  intro d hd
  simp [h d (List.mem_reverse.1 hd)]

theorem trailing?_append_variable {front : List (Declaration α)} {v : Declaration α}
    (h : v.member.kind.isVariable = true) : trailing? (front ++ [v]) = some v := by
  simp [trailing?, h]

/-! ## Names -/

theorem nameFault_eq_none {typeName : String} {seen : List MemberId} {ds : List (Declaration α)} :
    nameFault typeName seen ds = none ↔
      (∀ d ∈ ds, d.member.id.name ≠ "" ∧ d.member.id ∉ seen) ∧
        (ds.map (·.member.id)).Nodup := by
  induction ds generalizing seen with
  | nil => simp [nameFault]
  | cons d rest ih =>
      simp only [nameFault]
      by_cases hName : d.member.id.name = ""
      · simp [hName]
      · by_cases hSeen : d.member.id ∈ seen
        · simp [hName, hSeen]
        · rw [if_neg hName, if_neg hSeen, ih, List.map_cons, List.nodup_cons]
          constructor
          · rintro ⟨hRest, hNodup⟩
            refine ⟨?_, ?_, hNodup⟩
            · intro d' hd'
              rcases List.mem_cons.1 hd' with rfl | hIn
              · exact ⟨hName, hSeen⟩
              · obtain ⟨hName', hNew⟩ := hRest d' hIn
                exact ⟨hName', fun hIn' => hNew (List.mem_cons_of_mem _ hIn')⟩
            · intro hIn
              obtain ⟨d', hd', hEq⟩ := List.mem_map.1 hIn
              exact (hRest d' hd').2 (hEq ▸ List.mem_cons_self)
          · rintro ⟨hAll, hHead, hNodup⟩
            refine ⟨?_, hNodup⟩
            intro d' hd'
            obtain ⟨hName', hNew⟩ := hAll d' (List.mem_cons_of_mem _ hd')
            refine ⟨hName', ?_⟩
            intro hIn
            rcases List.mem_cons.1 hIn with hEq | hIn
            · exact hHead (hEq ▸ List.mem_map_of_mem hd')
            · exact hNew hIn

/-! ## The derivation -/

theorem perm_variableLast (ds : List (Declaration α)) : (variableLast ds).Perm ds := by
  have hPerm := List.filter_append_perm (fun d : Declaration α => !d.member.kind.isVariable) ds
  simp only [Bool.not_not] at hPerm
  exact hPerm

theorem variableLast_variableLast {ds : List (Declaration α)}
    (h : (ds.filter fun d => d.member.kind.isVariable).length ≤ 1) :
    VariableLast (variableLast ds) := by
  apply variableLast_append _ h
  intro d hd
  simpa using (List.mem_filter.1 hd).2

/-- A derivation succeeds if the names are in order, there is at most one
variable member, and the walk over the reordered declarations succeeds. -/
theorem derive_eq_ok {typeName : String} {ds placed : List (Declaration α)} {layout : Layout} :
    derive typeName ds = (placed, .ok layout) ↔
      (∀ d ∈ ds, d.member.id.name ≠ "") ∧ (ds.map (·.member.id)).Nodup ∧
        (ds.filter fun d => d.member.kind.isVariable).length ≤ 1 ∧
          assign empty 0 (variableLast ds) = (placed, .ok layout) := by
  unfold derive
  cases hNames : nameFault typeName [] ds with
  | some e =>
      constructor
      · intro h
        cases h
      · rintro ⟨hNamed, hNodup, -, -⟩
        rw [nameFault_eq_none.2 ⟨fun d hd => ⟨hNamed d hd, by simp⟩, hNodup⟩] at hNames
        cases hNames
  | none =>
      obtain ⟨hFine, hNodup⟩ := nameFault_eq_none.1 hNames
      have hNamed : ∀ d ∈ ds, d.member.id.name ≠ "" := fun d hd => (hFine d hd).1
      dsimp only
      split
      · rename_i first second rest hFilter
        simp [hFilter]
      · rename_i hFew
        have hLength : (ds.filter fun d => d.member.kind.isVariable).length ≤ 1 := by
          generalize ds.filter (fun d => d.member.kind.isVariable) = vs at hFew
          match vs with
          | [] => exact Nat.zero_le _
          | [_] => exact Nat.le_refl _
          | first :: second :: rest => exact absurd rfl (hFew first second rest)
        exact ⟨fun h => ⟨hNamed, hNodup, hLength, h⟩, fun h => h.2.2.2⟩

/-- What a derivation that succeeds leaves behind. -/
theorem derive_ok {typeName : String} {ds placed : List (Declaration α)} {layout : Layout}
    (h : derive typeName ds = (placed, .ok layout)) :
    List.Forall₂ Places (variableLast ds) placed ∧ LaidOut 0 (placed.map Declaration.member) ∧
      Describes layout placed ∧ (∀ d ∈ ds, d.member.id.name ≠ "") ∧
      (ds.map (·.member.id)).Nodup := by
  obtain ⟨hNamed, hNodup, hFew, hAssign⟩ := derive_eq_ok.1 h
  obtain ⟨hPlaces, hLaidOut⟩ := assign_ok (variableLast_variableLast hFew) hAssign
  exact ⟨hPlaces, hLaidOut, describes_assign describes_empty hAssign, hNamed, hNodup⟩

theorem variableLast_of_laidOut {offset : UInt64} {ds : List (Declaration α)}
    (h : LaidOut offset (ds.map Declaration.member)) :
    variableLast ds = ds ∧ (ds.filter fun d => d.member.kind.isVariable).length ≤ 1 := by
  induction ds generalizing offset with
  | nil => exact ⟨rfl, Nat.zero_le _⟩
  | cons d rest ih =>
      rw [List.map_cons] at h
      generalize hMembers : rest.map Declaration.member = members at h
      cases h with
      | fixed hOffset hFixed hRest =>
          rw [← hMembers] at hRest
          obtain ⟨hSame, hFew⟩ := ih hRest
          constructor
          · simp only [variableLast, List.filter_cons, hFixed, Bool.not_false, if_true,
              Bool.false_eq_true, if_false, List.cons_append]
            exact congrArg _ hSame
          · rw [List.filter_cons_of_neg (by simp [hFixed])]
            exact hFew
      | last hOffset hVariable =>
          have hNil : rest = [] := List.map_eq_nil_iff.1 hMembers
          subst hNil
          simp [variableLast, hVariable]

/-- Declarations that are laid out already stay as they are. -/
theorem derive_of_laidOut (typeName : String) {ds : List (Declaration α)}
    (hLaidOut : LaidOut 0 (ds.map Declaration.member))
    (hNamed : ∀ d ∈ ds, d.member.id.name ≠ "") (hNodup : (ds.map (·.member.id)).Nodup) :
    ∃ layout, derive typeName ds = (ds, .ok layout) := by
  obtain ⟨hSame, hFew⟩ := variableLast_of_laidOut hLaidOut
  obtain ⟨layout, hAssign⟩ := @assign_of_laidOut α empty 0 ds hLaidOut
  refine ⟨layout, derive_eq_ok.2 ⟨hNamed, hNodup, hFew, ?_⟩⟩
  rw [hSame]
  exact hAssign

/-! ## Definitions -/

theorem deriveMembers_eq_ok {typeName : String} {declared members : List Member} {layout : Layout}
    (h : deriveMembers typeName declared = (members, .ok layout)) :
    LaidOut 0 members ∧ (∀ m ∈ members, m.id.name ≠ "") ∧ (members.map Member.id).Nodup := by
  simp only [deriveMembers] at h
  cases hDerive : derive typeName (declared.map Declaration.plain) with
  | mk placed result =>
      rw [hDerive] at h
      obtain ⟨rfl, rfl⟩ := Prod.mk.inj h
      obtain ⟨hPlaces, hLaidOut, -, hNamed, hNodup⟩ := derive_ok hDerive
      have hIds := ids_of_places hPlaces
      have hPerm := (perm_variableLast (declared.map Declaration.plain)).map (·.member.id)
      rw [hIds] at hPerm
      refine ⟨hLaidOut, ?_, ?_⟩
      · intro m hm
        obtain ⟨d, hd, rfl⟩ := List.mem_map.1 hm
        have hIn := hPerm.mem_iff.1 (List.mem_map_of_mem (f := (·.member.id)) hd)
        obtain ⟨d', hd', hEq⟩ := List.mem_map.1 hIn
        rw [← hEq]
        exact hNamed d' hd'
      · rw [List.map_map]
        exact hPerm.nodup_iff.2 hNodup

/-- A definition has the members that the derivation has placed. -/
theorem make_of_deriveMembers (id : TypeId) {name : String} (runtime : Option String)
    {declared members : List Member} {layout : Layout}
    (h : deriveMembers name declared = (members, .ok layout)) :
    ∃ d, Definition.make id name runtime declared = .ok d ∧ d.id = id ∧ d.name = name ∧
      d.runtime = runtime ∧ d.members = members := by
  unfold Definition.make
  split
  · rename_i members' layout' hMake
    rw [h] at hMake
    obtain ⟨rfl, -⟩ := Prod.mk.inj hMake
    exact ⟨_, rfl, rfl, rfl, rfl, rfl⟩
  · rename_i members' e hMake
    rw [h] at hMake
    cases hMake

/-- Laid out members stay as they are. -/
theorem members_of_make (id : TypeId) (name : String) (runtime : Option String)
    {members : List Member} (hLaidOut : LaidOut 0 members)
    (hNamed : ∀ m ∈ members, m.id.name ≠ "") (hNodup : (members.map Member.id).Nodup) :
    ∃ d, Definition.make id name runtime members = .ok d ∧ d.id = id ∧ d.name = name ∧
      d.runtime = runtime ∧ d.members = members := by
  have hPlain : (members.map Declaration.plain).map Declaration.member = members := by
    rw [List.map_map]
    exact List.map_id members
  have hNamedPlain : ∀ d ∈ members.map Declaration.plain, d.member.id.name ≠ "" := by
    intro d hd
    obtain ⟨m, hm, rfl⟩ := List.mem_map.1 hd
    exact hNamed m hm
  have hNodupPlain : ((members.map Declaration.plain).map (·.member.id)).Nodup := by
    rw [List.map_map]
    exact hNodup
  rw [← hPlain] at hLaidOut
  obtain ⟨layout, hDerive⟩ := derive_of_laidOut name hLaidOut hNamedPlain hNodupPlain
  have hMembers : deriveMembers name members = (members, .ok layout) := by
    simp only [deriveMembers, hDerive, hPlain]
  exact make_of_deriveMembers id runtime hMembers

end Layout

namespace Definition

theorem laidOut_members (d : Definition) :
    LaidOut 0 d.members ∧ (∀ m ∈ d.members, m.id.name ≠ "") ∧ (d.members.map Member.id).Nodup := by
  obtain ⟨declared, layout, h⟩ := d.laidOut
  exact Layout.deriveMembers_eq_ok h

/-- Definitions with the same data are equal. -/
theorem ext_data {a b : Definition} (hId : a.id = b.id) (hName : a.name = b.name)
    (hRuntime : a.runtime = b.runtime) (hMembers : a.members = b.members) : a = b := by
  cases a
  cases b
  simp only at hId hName hRuntime hMembers
  subst hId hName hRuntime hMembers
  rfl

/-- A definition is made from its own members. -/
theorem make_members (d : Definition) : make d.id d.name d.runtime d.members = .ok d := by
  obtain ⟨hLaidOut, hNamed, hNodup⟩ := d.laidOut_members
  obtain ⟨d', hMake, hId, hName, hRuntime, hMembers⟩ :=
    Layout.members_of_make d.id d.name d.runtime hLaidOut hNamed hNodup
  rw [hMake, ext_data hId hName hRuntime hMembers]

end Definition

end ObjectStore
