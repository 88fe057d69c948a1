import ObjectStore.Proofs.Layout.Tiling

/-!
# What can be laid out, and how it is arranged

Whether declarations can be laid out is told by the declarations: all members
have names, no two have one identifier, at most one is variable, and an offset
that is there already is the one that its member is about to get. The outcome
is told by them as well. The declarations come back in declared order, but for
the variable one, which is last, and their members tile the content.

None of this holds of members that need more bytes than a word can count. The
statements ask for half of that.

## Main results

* `Layout.assign_isOk_iff`: when the walk over reordered declarations succeeds.
* `Definition.bounds_of_extent`: the least and the largest length of a type.
* `Layout.derive_arranges`: when a derivation succeeds, and what it and the
  definition of the type say then.
-/

namespace ObjectStore

universe u

namespace Layout

open Member

variable {α : Type u} {typeName : String} {layout layout' : Layout}
  {ds placed : List (Declaration α)}

/-! ## The positions of members -/

/-- The positions of the declarations with a property, in ascending order. -/
def positions (p : Declaration α → Bool) (ds : List (Declaration α)) : List Nat :=
  (List.range ds.length).filter fun i => (ds[i]?).any p

theorem positions_append_singleton (p : Declaration α → Bool) (ds : List (Declaration α))
    (d : Declaration α) :
    positions p (ds ++ [d]) = positions p ds ++ (if p d then [ds.length] else []) := by
  have hFront : (List.range ds.length).filter (fun i => ((ds ++ [d])[i]?).any p) =
      positions p ds := by
    apply List.filter_congr
    intro i hi
    rw [List.getElem?_append_left (List.mem_range.1 hi)]
  have hEnd : ((ds ++ [d])[ds.length]?).any p = p d := by simp
  rw [positions, List.length_append, List.length_singleton, List.range_succ, List.filter_append,
    hFront]
  by_cases hKept : p d = true
  · rw [List.filter_cons_of_pos (by rw [hEnd]; exact hKept), List.filter_nil, if_pos hKept]
  · rw [List.filter_cons_of_neg (by rw [hEnd]; exact hKept), List.filter_nil, if_neg hKept]

/-- A layout lists the positions of the declarations by what they hold, and by
whether they can be set. -/
structure Partitions (layout : Layout) (ds : List (Declaration α)) : Prop where
  storing : layout.storing = List.range ds.length
  references : layout.references = positions (fun d => d.member.kind.hasReferences) ds
  settingValues :
    layout.settingValues = positions (fun d => d.settable && !d.member.kind.hasReferences) ds
  settingReferences :
    layout.settingReferences = positions (fun d => d.settable && d.member.kind.hasReferences) ds
  variableMember :
    layout.variableMember = (positions (fun d => d.member.kind.isVariable) ds).getLast?

theorem partitions_empty : Partitions empty ([] : List (Declaration α)) :=
  ⟨rfl, rfl, rfl, rfl, rfl⟩

theorem Partitions.extend (h : Partitions layout ds) (d : Declaration α) :
    Partitions (layout.extend ds.length d) (ds ++ [d]) where
  storing := by
    rw [List.length_append, List.length_singleton, List.range_succ, ← h.storing]
    rfl
  references := by
    rw [positions_append_singleton, ← h.references]
    cases hKind : d.member.kind.hasReferences <;> simp [Layout.extend, hKind]
  settingValues := by
    rw [positions_append_singleton, ← h.settingValues]
    cases hSet : d.settable && !d.member.kind.hasReferences <;> simp [Layout.extend, hSet]
  settingReferences := by
    rw [positions_append_singleton, ← h.settingReferences]
    cases hSet : d.settable && d.member.kind.hasReferences <;> simp [Layout.extend, hSet]
  variableMember := by
    rw [positions_append_singleton]
    cases hKind : d.member.kind.isVariable <;> simp [Layout.extend, hKind, h.variableMember]

/-! ## When the walk succeeds -/

/-- What lets declarations be laid out. -/
structure Derivable (ds : List (Declaration α)) : Prop where
  named : ∀ d ∈ ds, d.member.id.name ≠ ""
  distinct : (ds.map (·.member.id)).Nodup
  single : (ds.filter fun d => d.member.kind.isVariable).length ≤ 1
  agreeing : Agree 0 ((variableLast ds).map Declaration.member)

theorem assign_cons_isOk {index : Nat} {d : Declaration α} {rest : List (Declaration α)} :
    (∃ placed layout', assign layout index (d :: rest) = (placed, .ok layout')) ↔
      (∀ offset, d.member.offset = some offset → offset.toNat = layout.fixedLength.toNat) ∧
        ∃ placed layout', assign (layout.extend index d) (index + 1) rest =
          (placed, .ok layout') := by
  constructor
  · rintro ⟨placed, layout', h⟩
    obtain ⟨placedRest, hOffset, -, hRest⟩ := assign_cons_ok h
    refine ⟨?_, placedRest, layout', hRest⟩
    intro offset hSome
    rcases hOffset with hNone | hSame
    · rw [hNone] at hSome
      cases hSome
    · rw [Option.some.inj (hSome.symm.trans hSame)]
  · rintro ⟨hHead, placedRest, layout', hRest⟩
    have hOffset : d.member.offset = none ∨ d.member.offset = some layout.fixedLength := by
      cases hSome : d.member.offset with
      | none => exact Or.inl rfl
      | some offset => exact Or.inr (congrArg some (UInt64.toNat_inj.1 (hHead offset hSome)))
    have hPlace := Member.placeAt_eq_ok_iff.2 ⟨hOffset, rfl⟩
    simp only [assign, hPlace, hRest]
    exact ⟨_, layout', rfl⟩

/-- The walk over declarations, of which only the last is variable, succeeds if
the offsets agree that are there already. -/
theorem assign_isOk_iff {index : Nat} (hLast : VariableLast ds)
    (hRoom : layout.fixedLength.toNat +
      extent ((ds.map Declaration.member).filter fun m => !m.kind.isVariable) ≤ Word.max.toNat) :
    (∃ placed layout', assign layout index ds = (placed, .ok layout')) ↔
      Agree layout.fixedLength.toNat (ds.map Declaration.member) := by
  induction ds generalizing layout index with
  | nil =>
      constructor
      · intro _ i m offset hAt
        simp at hAt
      · intro _
        exact ⟨[], layout, rfl⟩
  | cons d rest ih =>
      obtain ⟨hLastRest, hEnd⟩ := variableLast_cons hLast
      rw [assign_cons_isOk, List.map_cons, agree_cons]
      apply and_congr_right
      intro _
      by_cases hVariable : d.member.kind.isVariable = true
      · -- nothing stands behind a variable member
        rw [hEnd hVariable]
        constructor
        · intro _ i m offset hAt
          simp at hAt
        · intro _
          exact ⟨[], _, rfl⟩
      · rw [List.map_cons, List.filter_cons_of_pos (by simpa using hVariable), extent_cons]
          at hRoom
        have hNext : (layout.extend index d).fixedLength.toNat =
            layout.fixedLength.toNat + d.member.kind.minLength.toNat := by
          show (if d.member.kind.isVariable = true then layout.fixedLength
            else Word.addSat layout.fixedLength d.member.kind.minLength).toNat = _
          rw [if_neg hVariable, Word.toNat_addSat]
          omega
        rw [← hNext]
        exact ih hLastRest (by omega)

/-! ## Members alone -/

/-- What the declarations carry does not show in the offsets. -/
theorem assign_plain {plain : Layout} {index : Nat}
    (hSame : plain.fixedLength = layout.fixedLength)
    (h : assign layout index ds = (placed, .ok layout')) :
    ∃ plain', assign plain index (ds.map fun d => Declaration.plain d.member) =
      (placed.map fun d => Declaration.plain d.member, .ok plain') := by
  induction ds generalizing layout plain index placed with
  | nil =>
      cases h
      exact ⟨plain, rfl⟩
  | cons d rest ih =>
      obtain ⟨placedRest, hOffset, rfl, hRest⟩ := assign_cons_ok h
      have hNext : (plain.extend index (Declaration.plain d.member)).fixedLength =
          (layout.extend index d).fixedLength := by
        show (if d.member.kind.isVariable = true then plain.fixedLength
          else Word.addSat plain.fixedLength d.member.kind.minLength) = _
        rw [hSame]
        rfl
      obtain ⟨plain', hPlain⟩ := ih hNext hRest
      have hPlace : (Declaration.plain d.member).member.placeAt plain.fixedLength =
          .ok { d.member with offset := some layout.fixedLength } := by
        rw [hSame]
        exact Member.placeAt_eq_ok_iff.2 ⟨hOffset, rfl⟩
      refine ⟨plain', ?_⟩
      rw [List.map_cons, assign, hPlace]
      simp only [hPlain]
      rfl

theorem variableLast_plain (ds : List (Declaration α)) :
    variableLast (ds.map fun d => Declaration.plain d.member) =
      (variableLast ds).map fun d => Declaration.plain d.member := by
  rw [variableLast, variableLast, List.map_append, List.filter_map, List.filter_map]
  rfl

/-- Members are laid out like the declarations that declare them. -/
theorem deriveMembers_of_derive (h : derive typeName ds = (placed, .ok layout)) :
    ∃ plain, deriveMembers typeName (ds.map Declaration.member) =
      (placed.map Declaration.member, .ok plain) := by
  obtain ⟨hNamed, hNodup, hFew, hAssign⟩ := derive_eq_ok.1 h
  obtain ⟨plain, hPlain⟩ := assign_plain rfl hAssign
  rw [← variableLast_plain] at hPlain
  have hDerive : derive typeName (ds.map fun d => Declaration.plain d.member) =
      (placed.map fun d => Declaration.plain d.member, .ok plain) := by
    refine derive_eq_ok.2 ⟨?_, ?_, ?_, hPlain⟩
    · intro d hd
      obtain ⟨d', hd', rfl⟩ := List.mem_map.1 hd
      exact hNamed d' hd'
    · rw [List.map_map]
      exact hNodup
    · rw [List.filter_map, List.length_map]
      exact hFew
  have hSame : (ds.map Declaration.member).map Declaration.plain =
      ds.map fun d => Declaration.plain d.member := List.map_map
  refine ⟨plain, ?_⟩
  simp only [deriveMembers, hSame, hDerive, List.map_map]
  rfl

/-! ## The outcome -/

/-- The outcome of laying out declarations. -/
structure Arrangement (ds placed : List (Declaration α)) (layout : Layout) : Prop where
  ordered : List.Forall₂ Places (variableLast ds) placed
  abutting : Abut 0 (placed.map Declaration.member)
  fixedLength : layout.fixedLength.toNat =
    extent ((ds.map Declaration.member).filter fun m => !m.kind.isVariable)
  partition : Partitions layout placed

theorem Partitions.assign (h : assign empty 0 ds = (placed, .ok layout)) :
    Partitions layout placed :=
  @assign_induction α Partitions (fun _ _ d hBefore => hBefore.extend d) empty layout [] ds placed
    partitions_empty h

theorem kinds_of_places (h : List.Forall₂ Places ds placed) :
    (ds.map Declaration.member).map Member.kind =
      (placed.map Declaration.member).map Member.kind := by
  induction h with
  | nil => rfl
  | cons hHead _ ih => rw [List.map_cons, List.map_cons, List.map_cons, List.map_cons, ih, hHead]

theorem toNat_fixedSum_eq (ds : List (Declaration α)) :
    (fixedSum ds).toNat =
      min (extent ((ds.map Declaration.member).filter fun m => !m.kind.isVariable))
        Word.max.toNat := by
  rw [toNat_fixedSum_filter, extent, List.filter_map, List.map_map]
  rfl

theorem arrangement_of_derive (h : derive typeName ds = (placed, .ok layout))
    (hRoom : extent ((ds.map Declaration.member).filter fun m => !m.kind.isVariable) ≤ 2 ^ 63) :
    Arrangement ds placed layout := by
  obtain ⟨hPlaces, hLaidOut, hDescribes, -, -⟩ := derive_ok h
  have hKinds : ((placed.map Declaration.member).map Member.kind).Perm
      ((ds.map Declaration.member).map Member.kind) := by
    rw [← kinds_of_places hPlaces]
    exact ((perm_variableLast ds).map _).map _
  have hFixed := extent_fixed_perm hKinds
  have hMax : Word.max.toNat = 18446744073709551615 := by decide
  have hZero : (0 : UInt64).toNat = 0 := rfl
  exact
    { ordered := hPlaces
      abutting := hZero ▸ abut_of_laidOut hLaidOut (by omega)
      fixedLength := by
        rw [hDescribes.fixedLength, toNat_fixedSum_eq, hFixed]
        omega
      partition := Partitions.assign (derive_eq_ok.1 h).2.2.2 }

theorem derive_isOk_iff
    (hRoom : extent ((ds.map Declaration.member).filter fun m => !m.kind.isVariable) ≤ 2 ^ 63) :
    (∃ placed layout, derive typeName ds = (placed, .ok layout)) ↔ Derivable ds := by
  have hSame : extent (((variableLast ds).map Declaration.member).filter
        fun m => !m.kind.isVariable) =
      extent ((ds.map Declaration.member).filter fun m => !m.kind.isVariable) :=
    extent_fixed_perm (((perm_variableLast ds).map _).map _)
  have hMax : Word.max.toNat = 18446744073709551615 := by decide
  have hZero : empty.fixedLength.toNat = 0 := rfl
  have hWalk : VariableLast (variableLast ds) →
      ((∃ placed layout, assign empty 0 (variableLast ds) = (placed, .ok layout)) ↔
        Agree 0 ((variableLast ds).map Declaration.member)) :=
    fun hLast => hZero ▸ assign_isOk_iff hLast (by omega)
  constructor
  · rintro ⟨placed, layout, h⟩
    obtain ⟨hNamed, hNodup, hFew, hAssign⟩ := derive_eq_ok.1 h
    exact ⟨hNamed, hNodup, hFew,
      (hWalk (variableLast_variableLast hFew)).1 ⟨placed, layout, hAssign⟩⟩
  · intro h
    obtain ⟨placed, layout, hAssign⟩ := (hWalk (variableLast_variableLast h.single)).2 h.agreeing
    exact ⟨placed, layout, derive_eq_ok.2 ⟨h.named, h.distinct, h.single, hAssign⟩⟩

end Layout

/-! ## The bounds of a definition -/

namespace Definition

open Member

/-- A definition has at most one variable member. -/
theorem countP_isVariable (d : Definition) :
    d.members.countP (fun m => m.kind.isVariable) = if d.hasVariable then 1 else 0 := by
  have key : ∀ {offset : UInt64} {ms : List Member}, LaidOut offset ms →
      ms.countP (fun m => m.kind.isVariable) =
        if ms.any (fun m => m.kind.isVariable) then 1 else 0 := by
    intro offset ms h
    induction h with
    | nil => rfl
    | fixed _ hFixed _ ih => simp [hFixed, ih]
    | last _ hVariable => simp [hVariable]
  exact key d.laidOut_members.1

/-- The bounds of a definition whose fixed members need few enough bytes. -/
theorem bounds_of_extent (d : Definition)
    (hRoom : extent (d.members.filter fun m => !m.kind.isVariable) ≤ 2 ^ 63) :
    d.minLength.toNat = extent d.members ∧
      d.minLength.toNat = extent (d.members.filter fun m => !m.kind.isVariable) +
        (if d.hasVariable then 8 else 0) ∧
      d.maxLength.toNat = extent (d.members.filter fun m => !m.kind.isVariable) +
        (if d.hasVariable then maxContentLength.toNat else 0) := by
  have hMax : Word.max.toNat = 18446744073709551615 := by decide
  have hContent : maxContentLength.toNat = 1073741824 := by decide
  have hMin : d.minLength.toNat = min (extent d.members) Word.max.toNat := d.toNat_minLength
  have hAll := extent_eq d.members
  rw [countP_isVariable] at hAll
  rw [toNat_maxLength, sum_maxLength, countP_isVariable]
  by_cases hVariable : d.hasVariable = true
  · rw [if_pos hVariable] at hAll
    rw [if_pos hVariable, if_pos hVariable, if_pos hVariable]
    omega
  · rw [if_neg hVariable] at hAll
    rw [if_neg hVariable, if_neg hVariable, if_neg hVariable]
    omega

theorem minLength_le_maxLength (d : Definition)
    (hRoom : extent (d.members.filter fun m => !m.kind.isVariable) ≤ 2 ^ 63) :
    d.minLength ≤ d.maxLength := by
  obtain ⟨-, hMin, hMax⟩ := d.bounds_of_extent hRoom
  have hContent : maxContentLength.toNat = 1073741824 := by decide
  rw [UInt64.le_iff_toNat_le, hMin, hMax]
  split <;> omega

/-- Only a variable member leaves a choice of lengths. -/
theorem minLength_eq_maxLength_iff (d : Definition)
    (hRoom : extent (d.members.filter fun m => !m.kind.isVariable) ≤ 2 ^ 63) :
    d.minLength = d.maxLength ↔ d.hasVariable = false := by
  obtain ⟨-, hMin, hMax⟩ := d.bounds_of_extent hRoom
  have hContent : maxContentLength.toNat = 1073741824 := by decide
  rw [← UInt64.toNat_inj, hMin, hMax]
  cases d.hasVariable with
  | true =>
      rw [if_pos rfl, if_pos rfl]
      constructor
      · intro hSame
        omega
      · intro hNone
        cases hNone
  | false => simp

end Definition

/-! ## Main statement -/

namespace Layout

open Member

variable {α : Type u}

/--
Declarations, the fixed members of which need at most `2 ^ 63` bytes, are laid
out exactly if they are derivable. They are reordered and placed as
`Arrangement` says, with and without what they carry. The definition over them
has the fixed members and one length prefix as its least length, which is its
largest one if there is no variable member, and each byte of a shortest content
belongs to exactly one member.
-/
theorem derive_arranges (typeName : String) (ds : List (Declaration α))
    (hRoom : extent ((ds.map Declaration.member).filter fun m => !m.kind.isVariable) ≤ 2 ^ 63) :
    ((∃ placed layout, derive typeName ds = (placed, .ok layout)) ↔ Derivable ds) ∧
      ∀ placed layout, derive typeName ds = (placed, .ok layout) →
        Arrangement ds placed layout ∧
          ∀ id runtime, ∃ definition,
            Definition.make id typeName runtime (ds.map Declaration.member) = .ok definition ∧
              Definition.make id typeName runtime (placed.map Declaration.member) =
                .ok definition ∧
              definition.members = placed.map Declaration.member ∧
              definition.minLength.toNat =
                layout.fixedLength.toNat + (if definition.hasVariable then 8 else 0) ∧
              definition.minLength ≤ definition.maxLength ∧
              (definition.minLength = definition.maxLength ↔ definition.hasVariable = false) ∧
              ∀ place < definition.minLength.toNat,
                ∃! i, Covers definition.members i place := by
  refine ⟨derive_isOk_iff hRoom, ?_⟩
  intro placed layout h
  have hArrangement := arrangement_of_derive h hRoom
  refine ⟨hArrangement, ?_⟩
  intro id runtime
  obtain ⟨plain, hPlain⟩ := deriveMembers_of_derive h
  obtain ⟨definition, hMake, hId, hName, hRuntime, hMembers⟩ :=
    make_of_deriveMembers id runtime hPlain
  have hFixed : extent (definition.members.filter fun m => !m.kind.isVariable) =
      layout.fixedLength.toNat := by
    rw [hArrangement.fixedLength, hMembers]
    apply extent_fixed_perm
    rw [← kinds_of_places hArrangement.ordered]
    exact ((perm_variableLast ds).map _).map _
  have hFew : extent (definition.members.filter fun m => !m.kind.isVariable) ≤ 2 ^ 63 := by
    rw [hFixed, hArrangement.fixedLength]
    exact hRoom
  obtain ⟨hExtent, hMin, -⟩ := definition.bounds_of_extent hFew
  refine ⟨definition, hMake, ?_, hMembers, hFixed ▸ hMin, definition.minLength_le_maxLength hFew,
    definition.minLength_eq_maxLength_iff hFew, ?_⟩
  · have hOwn := definition.make_members
    rw [hId, hName, hRuntime, hMembers] at hOwn
    exact hOwn
  · intro place hPlace
    have hAbut : Abut 0 definition.members := hMembers ▸ hArrangement.abutting
    exact existsUnique_covers hAbut (hExtent ▸ hPlace)

/-- A text that is declared in front of two fixed members, the first of which
has its offset already. -/
def notice : List (Declaration Unit) :=
  [⟨.ofKind (.unqualified "title") .text, true, ()⟩,
    ⟨{ Member.ofKind (.unqualified "pages") (.primitive .u32) with offset := some 0 }, false, ()⟩,
    ⟨.ofKind (.unqualified "author") .reference, true, ()⟩]

/-- The notice with its title behind the other members. -/
def noticePlaced : List (Declaration Unit) :=
  [⟨{ Member.ofKind (.unqualified "pages") (.primitive .u32) with offset := some 0 }, false, ()⟩,
    ⟨{ Member.ofKind (.unqualified "author") .reference with offset := some 4 }, true, ()⟩,
    ⟨{ Member.ofKind (.unqualified "title") .text with offset := some 12 }, true, ()⟩]

theorem derive_arranges_notice :
    Derivable notice ∧ Arrangement notice noticePlaced ⟨[0, 1, 2], [1], [2], [1], some 2, 12⟩ ∧
      ∃ definition, Definition.make ⟨7⟩ "Notice" none (notice.map Declaration.member) =
          .ok definition ∧ definition.minLength.toNat = 20 ∧
        ∃! i, Covers definition.members i 19 := by
  have hDerive : derive "Notice" notice =
      (noticePlaced, .ok ⟨[0, 1, 2], [1], [2], [1], some 2, 12⟩) := by rfl
  obtain ⟨hWhen, hThen⟩ := derive_arranges "Notice" notice (by decide)
  obtain ⟨hArrangement, hDefinitions⟩ := hThen _ _ hDerive
  obtain ⟨definition, hMake, -, hMembers, hMin, -, -, hTiles⟩ := hDefinitions ⟨7⟩ none
  have hLength : definition.minLength.toNat = 20 := by
    rw [hMin, Definition.hasVariable, hMembers]
    decide
  exact ⟨hWhen.1 ⟨_, _, hDerive⟩, hArrangement, definition, hMake, hLength,
    hTiles 19 (by omega)⟩

end Layout

end ObjectStore
