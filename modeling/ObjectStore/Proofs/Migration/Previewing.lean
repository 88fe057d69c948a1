import Mathlib.Data.List.Find
import ObjectStore.Proofs.Dictionary.Versions
import ObjectStore.Proofs.Migration.Merging
import ObjectStore.Proofs.Migration.Recordwise
import ObjectStore.Suggestion

/-!
# Suggestions preview what loading does

Suggestions are made from two dictionaries, and loading asks a registry that
knows the types of both, handlers for the current ones only, and maybe other
types. Both find a current type by name. They find the same one if no later
version of a current type is registered that the current dictionary does not
have, for the current version is the one with the highest identifier on either
side. Since both use one table and one matcher, a type is then suggested as
deleted exactly if its records are dropped, and the members of all other
records are copied as they are listed.

The registry may have its definitions from other runtime types. Nothing that
is looked up in a table of a configuration depends on those.

## Main results

* `Conversion.make_eq_ok`: a conversion is what a matching lists.
* `Registry.Hosts.current?_some`, `Registry.Hosts.unhandled_of_none`: what a
  name leads to on either side.
* `Suggestion.all_previews`: suggestions preview what loading does.
-/

namespace ObjectStore

/-! ## Runtime types are remarks -/

namespace Definition

/-- The definition, derived from another runtime type. -/
def withRuntime (d : Definition) (runtime : Option String) : Definition := { d with runtime }

/-- Definitions of the same records differ in their runtime types only. -/
theorem eq_withRuntime {a b : Definition} (h : a.isLayoutEqual b = true) :
    a = b.withRuntime a.runtime := by
  obtain ⟨hId, hName, hMembers⟩ := isLayoutEqual_iff.1 h
  cases a
  cases b
  dsimp only at hId hName hMembers
  subst hId hName hMembers
  rfl

end Definition

namespace Config

variable (c : Config) (threshold : Option Float) (d e : Definition)
  (runtime runtime' : Option String)

/-- The table of a configuration does not know of runtime types. -/
theorem currentType_withRuntime {α : Type} (lookup : String → Option α) :
    (c.matcher threshold).refactoring.currentType (d.withRuntime runtime) lookup =
      (c.matcher threshold).refactoring.currentType d lookup := rfl

theorem run_withRuntime :
    (c.matcher threshold).run (d.withRuntime runtime) (e.withRuntime runtime') =
      (c.matcher threshold).run d e := rfl

end Config

/-! ## Conversions as they are listed -/

/-- What a member leads to is a member of the current type. -/
theorem Refactoring.mem_of_memberTarget {refactoring : Refactoring} {source target : Definition}
    {m t : Member} (h : refactoring.memberTarget source m target = .ok (some (some t))) :
    t ∈ target.members := by
  unfold memberTarget at h
  split at h
  · cases h
  · cases h
  · split at h
    · rename_i hFound
      cases h
      exact (findTarget_eq_some hFound).1
    · cases h

namespace Matching

variable {matcher : Matcher} {source target : Definition} {matching : Matching} {t : Member}
  {x : Match}

/-- A match leads to a member of the current type. -/
theorem target_mem (hRun : matcher.run source target = .ok matching) (hx : x ∈ matching.matched)
    (hTarget : x.target = some t) : t ∈ target.members := by
  obtain ⟨explicit, exact, similar, hRounds, rfl⟩ := Matcher.run_eq_ok.1 hRun
  rcases hRounds.cases_of_mem (hRounds.mem_matched.1 hx) with ⟨hIn, -⟩ | ⟨hIn, -⟩ | ⟨hIn, -⟩
  · have hAsked := hRounds.mem_explicit.1 hIn
    have hBasis := hAsked.explicit_of_target hTarget
    obtain ⟨m, target', basis⟩ := x
    dsimp only at hTarget hBasis
    subst hTarget hBasis
    exact Refactoring.mem_of_memberTarget (asked_explicit.1 hAsked).2
  · obtain ⟨-, found, hFound, -, hMatch⟩ := hRounds.mem_exact.1 hIn
    rw [hMatch] at hTarget
    cases hTarget
    exact (mem_unclaimed.1 hFound).1
  · obtain ⟨c, hc, rfl⟩ := hRounds.candidate_of_mem_similar hIn
    cases hTarget
    exact (mem_unclaimed.1 (mem_candidates.1 hc).2.1).1

/-- Members with different names are told by these. -/
theorem find?_render (hRun : matcher.run source target = .ok matching)
    (hNodup : (target.members.map fun t => t.id.render).Nodup) (ht : t ∈ target.members) :
    (matching.matched.find? fun m => m.target.map (·.id.render) = some t.id.render) =
      matching.matched.find? (·.target = some t) := by
  refine List.find?_congr fun m hm => ?_
  rw [decide_eq_decide]
  cases hTarget : m.target with
  | none => simp
  | some t' =>
      rw [Option.map_some, Option.some.injEq, Option.some.injEq]
      exact ⟨List.inj_on_of_nodup_map hNodup (target_mem hRun hm hTarget) ht,
        congrArg fun t : Member => t.id.render⟩

theorem mem_added_render (hRun : matcher.run source target = .ok matching)
    (hNodup : (target.members.map fun t => t.id.render).Nodup) (ht : t ∈ target.members) :
    t.id.render ∈ matching.added.map (·.id.render) ↔ t ∈ matching.added := by
  obtain ⟨explicit, exact, similar, -, rfl⟩ := Matcher.run_eq_ok.1 hRun
  refine ⟨fun h => ?_, List.mem_map_of_mem⟩
  obtain ⟨t', ht', hSame⟩ := List.mem_map.1 h
  have hEq := List.inj_on_of_nodup_map hNodup (List.mem_of_mem_filter ht') ht hSame
  exact hEq ▸ ht'

/-- A current member is new exactly if no match leads to it. -/
theorem mem_added (hRun : matcher.run source target = .ok matching) (ht : t ∈ target.members) :
    t ∈ matching.added ↔ matching.matched.find? (·.target = some t) = none := by
  have hAdded : t ∈ matching.added ↔ ∀ x ∈ matching.matched, x.target ≠ some t := by
    obtain ⟨explicit, exact, similar, hRounds, rfl⟩ := Matcher.run_eq_ok.1 hRun
    rw [hRounds.accounts.added, List.mem_filter, and_iff_right ht, List.all_eq_true]
    simp only [decide_eq_true_eq]
  rw [hAdded, List.find?_eq_none]
  simp only [decide_eq_true_eq]

end Matching

/-- A place is an offset. -/
theorem Member.place_eq_ok {m : Member} {offset : UInt64} :
    m.place = .ok offset ↔ m.offset = some offset := by
  unfold place
  cases m.offset with
  | none => simp
  | some found => simp

namespace Conversion

variable {matcher : Matcher} {legacy current : Definition} {matching : Matching} {t : Member}
  {source : MemberSource} {c : Conversion}

/-- Where a current member comes from, as the matching lists it: from the
source of the first match that leads to it, or from nowhere if it is listed as
new. -/
inductive Listed (matching : Matching) (t : Member) : MemberSource → Prop where
  | copied {m : Match} {offset : UInt64} : matching.matched.find? (·.target = some t) = some m →
      m.source.kind = t.kind → m.source.offset = some offset →
        Listed matching t (.copy offset t.kind)
  | new : t ∈ matching.added → Listed matching t (.blank t.kind)

/-- A member to which no match leads is new. -/
theorem listed_of_none (hRun : matcher.run legacy current = .ok matching)
    (ht : t ∈ current.members) (hNone : matching.matched.find? (·.target = some t) = none) :
    Listed matching t source ↔ source = .blank t.kind := by
  constructor
  · intro h
    cases h with
    | copied hFirst => rw [hNone] at hFirst; cases hFirst
    | new => rfl
  · rintro rfl
    exact .new ((Matching.mem_added hRun ht).2 hNone)

/-- A member to which a match leads has its source, if that has the same
kind. -/
theorem listed_of_some {m : Match} (hRun : matcher.run legacy current = .ok matching)
    (ht : t ∈ current.members) (hSome : matching.matched.find? (·.target = some t) = some m) :
    Listed matching t source ↔
      m.source.kind = t.kind ∧ ∃ offset, m.source.offset = some offset ∧
        source = .copy offset t.kind := by
  constructor
  · intro h
    cases h with
    | copied hFirst hKind hOffset =>
        cases hSome.symm.trans hFirst
        exact ⟨hKind, _, hOffset, rfl⟩
    | new hNew =>
        cases hSome.symm.trans ((Matching.mem_added hRun ht).1 hNew)
  · rintro ⟨hKind, offset, hOffset, rfl⟩
    exact .copied hSome hKind hOffset

theorem sourceOf_eq_ok (hRun : matcher.run legacy current = .ok matching)
    (ht : t ∈ current.members) :
    sourceOf legacy current matching.matched t = .ok source ↔ Listed matching t source := by
  unfold sourceOf
  cases hFind : matching.matched.find? (·.target = some t) with
  | none =>
      rw [listed_of_none hRun ht hFind]
      exact ⟨fun h => (Except.ok.inj h).symm, fun h => congrArg Except.ok h.symm⟩
  | some m =>
      rw [listed_of_some hRun ht hFind]
      dsimp only
      by_cases hKind : m.source.kind = t.kind
      · rw [if_neg (not_not.2 hKind), and_iff_right hKind]
        constructor
        · intro h
          obtain ⟨offset, hPlace, h⟩ := bind_eq_ok.1 h
          cases h
          exact ⟨offset, Member.place_eq_ok.1 hPlace, rfl⟩
        · rintro ⟨offset, hOffset, rfl⟩
          exact bind_eq_ok.2 ⟨offset, Member.place_eq_ok.2 hOffset, rfl⟩
      · rw [if_pos hKind]
        exact iff_of_false (fun h => by cases h) fun h => hKind h.1

/-- A conversion is what a matching lists. -/
theorem make_eq_ok (hRun : matcher.run legacy current = .ok matching) :
    make matcher legacy current = .ok c ↔ c.source = legacy.id ∧ c.target = current.id ∧
      List.Forall₂ (Listed matching) current.members c.members := by
  have hMembers : ∀ sources, current.members.mapM (sourceOf legacy current matching.matched) =
      .ok sources ↔ List.Forall₂ (Listed matching) current.members sources := by
    intro sources
    have hInside : ∀ t ∈ current.members, t ∈ current.members := fun _ ht => ht
    rw [mapM_eq_ok]
    constructor
    · intro h
      refine ((List.forall₂_and_left _ _).2 ⟨hInside, h⟩).imp ?_
      exact fun t source ⟨ht, hSource⟩ => (sourceOf_eq_ok hRun ht).1 hSource
    · intro h
      refine ((List.forall₂_and_left _ _).2 ⟨hInside, h⟩).imp ?_
      exact fun t source ⟨ht, hListed⟩ => (sourceOf_eq_ok hRun ht).2 hListed
  unfold make
  rw [hRun]
  show (_ >>= fun sources => Except.ok _) = _ ↔ _
  rw [bind_eq_ok]
  constructor
  · rintro ⟨sources, hSources, h⟩
    cases h
    exact ⟨rfl, rfl, (hMembers sources).1 hSources⟩
  · rintro ⟨hSource, hTarget, hListed⟩
    refine ⟨c.members, (hMembers _).2 hListed, ?_⟩
    rw [← hSource, ← hTarget]

end Conversion

/-! ## Types on both sides -/

namespace Refactoring

variable {refactoring : Refactoring} {d : Definition} {α β : Type} {look : String → Option α}
  {look' : String → Option β}

/-- What a table leads to is found by every look-up that knows the name. -/
theorem currentType_some_of_look {P : α → β → Prop} {a : α}
    (hLook : ∀ name a, look name = some a → ∃ b, look' name = some b ∧ P a b)
    (h : refactoring.currentType d look = .ok (some a)) :
    ∃ b, refactoring.currentType d look' = .ok (some b) ∧ P a b := by
  unfold currentType at h ⊢
  split at h
  · rename_i hEntry
    obtain ⟨b, hb, hP⟩ := hLook _ _ (Except.ok.inj h)
    exact ⟨b, by rw [hb], hP⟩
  · cases h
  · rename_i source target hEntry
    split at h
    · rename_i hFound
      cases h
      obtain ⟨b, hb, hP⟩ := hLook _ _ hFound
      exact ⟨b, by simp only [hb], hP⟩
    · cases h

/-- A type that was removed leads nowhere. -/
theorem currentType_of_deleted (h : refactoring.typeFate d = .deleted) :
    refactoring.currentType d look = .ok none := by
  unfold typeFate at h
  unfold currentType
  split at h
  · cases h
  · rfl
  · split at h
    · cases h
    · cases h

/-- A type that was not removed leads nowhere if nothing has its name. -/
theorem currentType_eq_none (hKept : refactoring.typeFate d ≠ .deleted) :
    refactoring.currentType d look = .ok none ↔
      refactoring.typeEntry? d = none ∧ look d.name = none := by
  unfold currentType
  unfold typeFate at hKept
  split
  · rename_i hEntry
    simp [hEntry]
  · rename_i hEntry
    simp [hEntry] at hKept
  · rename_i source target hEntry
    cases look target <;> simp [hEntry]

end Refactoring

namespace Registry

variable {ι : Type} {registry : Registry ι} {legacy current : Dictionary} {name : String}
  {d e : Definition}

/-- The registry knows the types of both dictionaries, which have no type in
common, and has handlers for the types of the second one only. Of every name
of a type of this dictionary, it has the version with the highest
identifier. -/
structure Hosts (registry : Registry ι) (legacy current : Dictionary) : Prop where
  coversLegacy : registry.Covers legacy
  coversCurrent : registry.Covers current
  apart : ∀ id, (legacy.get? id).isSome → current.get? id = none
  handled : ∀ id, (registry.handler? id).isSome ↔ (current.get? id).isSome
  latest : ∀ d ∈ current.definitions, ∀ id other, registry.definition? id = some other →
    other.name = d.name → ∃ e ∈ current.definitions, e.name = d.name ∧ id.value ≤ e.id.value

/-- The current version of a name is the same on both sides. -/
theorem Hosts.current?_some (h : registry.Hosts legacy current) (hRegistry : registry.WellFormed)
    (hIndexed : current.Indexed) (hCurrent : current.current? name = some e) :
    ∃ registered, registry.current? name = some registered ∧
      registered.isLayoutEqual e = true := by
  obtain ⟨hGet, hName, hHighest⟩ := hIndexed.current?_iff.1 hCurrent
  have hIn := hIndexed.proper.mem_definitions.2 hGet
  obtain ⟨registered, hRegistered, hEqual⟩ := h.coversCurrent e hIn
  obtain ⟨hId, hSameName, -⟩ := Definition.isLayoutEqual_iff.1 hEqual
  refine ⟨registered, hRegistry.current?_iff.2 ⟨?_, hSameName.trans hName, ?_⟩, hEqual⟩
  · rw [hId]
    exact hRegistered
  · intro id other hOther hOtherName
    obtain ⟨last, hLast, hLastName, hLe⟩ :=
      h.latest e hIn id other hOther (hOtherName.trans hName.symm)
    have hLastLe := hHighest last.id last (hIndexed.proper.mem_definitions.1 hLast)
      (hLastName.trans hName)
    rw [hId]
    exact UInt64.le_trans hLe hLastLe

/-- What is registered under a name that the current dictionary does not have
is not handled. -/
theorem Hosts.unhandled_of_none (h : registry.Hosts legacy current)
    (hRegistry : registry.WellFormed) (hIndexed : current.Indexed)
    (hNone : current.current? name = none) (hOther : registry.current? name = some d) :
    registry.handler? d.id = none := by
  refine Option.not_isSome_iff_eq_none.1 fun hHandled => ?_
  obtain ⟨e, hGet⟩ := Option.isSome_iff_exists.1 ((h.handled d.id).1 hHandled)
  obtain ⟨hKnown, hName⟩ := current?_ok hRegistry hOther
  obtain ⟨registered, hRegistered, hEqual⟩ :=
    hIndexed.proper.definition_of_covers h.coversCurrent hGet
  cases hKnown.symm.trans hRegistered
  have hSameName := (Definition.isLayoutEqual_iff.1 hEqual).2.1
  have hIn : current.Carries name d.id := ⟨e, hGet, hSameName.symm.trans hName⟩
  obtain ⟨last, hLast, -⟩ := hIndexed.highest name d.id hIn
  obtain ⟨carrier, hCarrier, -⟩ := hIndexed.carried name last hLast
  rw [Dictionary.current?, hLast] at hNone
  cases hCarrier.symm.trans hNone

end Registry

/-- A dictionary lists its definitions in the order of their identifiers. -/
theorem Dictionary.Proper.sorted {d : Dictionary} (h : d.Proper) :
    d.definitions.Pairwise fun e e' => e.id.value < e'.id.value :=
  Registry.sorted_allDefinitions
    (wellFormed_asRegistry h.keyed : (d.asRegistry : Registry Unit).WellFormed)

/-- The types of a dictionary are those that were registered. -/
theorem Dictionary.exists_of_isSome_build {definitions : List Definition} {id : TypeId}
    (h : ((build definitions).get? id).isSome) : ∃ d ∈ definitions, d.id = id := by
  rw [get?_build, List.find?_isSome] at h
  obtain ⟨d, hIn, hSame⟩ := h
  exact ⟨d, hIn, of_decide_eq_true hSame⟩

/-! ## Conversions of legacy types -/

namespace MigratedChunk

variable {ι : Type} {registry : Registry ι} {matcher : Matcher} {id : TypeId} {d e : Definition}
  {r : Record}

theorem conversion?_of_removed (hKnown : registry.definition? id = some d)
    (hCurrent : matcher.refactoring.currentType d registry.current? = .ok none) :
    conversion? registry matcher id = .ok none := by
  unfold conversion?
  simp only [hKnown, hCurrent]
  rfl

theorem conversion?_of_found (hKnown : registry.definition? id = some d)
    (hCurrent : matcher.refactoring.currentType d registry.current? = .ok (some e)) :
    conversion? registry matcher id =
      if e.id = id ∨ registry.handler? e.id = none then .error (.unhandledTypeId e.id)
      else (Conversion.make matcher d e).map some := by
  have hRefused : (e.id = id || (registry.handler? e.id).isNone) = true ↔
      e.id = id ∨ registry.handler? e.id = none := by
    rw [Bool.or_eq_true, decide_eq_true_eq, Option.isNone_iff_eq_none]
  unfold conversion?
  simp only [hKnown, hCurrent]
  show (if (decide (e.id = id) || (registry.handler? e.id).isNone) = true then _ else _) = _
  rw [ite_cond_congr (propext hRefused)]
  split
  · rfl
  · cases Conversion.make matcher d e <;> rfl

/-- A legacy record is dropped if there is no conversion of its type, unless
it is refused for its length. -/
theorem migrateRecord_eq_ok_none (hLegacy : registry.isLegacy r.type = true)
    (hKnown : registry.definition? r.type = some d) :
    migrateRecord registry matcher r = .ok none ↔
      conversion? registry matcher r.type = .ok none ∧ d.acceptsLength r.length = true := by
  unfold migrateRecord
  rw [hLegacy]
  show (_ >>= fun _ => _) = _ ↔ _
  rw [bind_eq_ok]
  constructor
  · rintro ⟨known, hValid, h⟩
    obtain ⟨hSame, hAccepts⟩ := Registry.validateEntity_eq_ok.1 hValid
    cases hKnown.symm.trans hSame
    obtain ⟨conversion, hConversion, h⟩ := bind_eq_ok.1 h
    cases conversion with
    | none => exact ⟨hConversion, hAccepts⟩
    | some c =>
        obtain ⟨bytes, -, h⟩ := bind_eq_ok.1 h
        cases h
  · rintro ⟨hConversion, hAccepts⟩
    exact ⟨d, Registry.validateEntity_eq_ok.2 ⟨hKnown, hAccepts⟩,
      bind_eq_ok.2 ⟨none, hConversion, rfl⟩⟩

/-! ### Legacy types of a dictionary -/

section

variable {c : Config} {threshold : Option Float} {legacy current : Dictionary}
  (hHosts : registry.Hosts legacy current) (hRegistry : registry.WellFormed)
  (hLegacy : legacy.Indexed) (hCurrent : current.Indexed) (hIn : d ∈ legacy.definitions)

include hHosts hIn

theorem hosted_known : ∃ runtime, registry.definition? d.id = some (d.withRuntime runtime) := by
  obtain ⟨registered, hRegistered, hEqual⟩ := hHosts.coversLegacy d hIn
  rw [Definition.eq_withRuntime hEqual] at hRegistered
  exact ⟨_, hRegistered⟩

include hLegacy in
/-- A record of a legacy type is dropped if there is no conversion of it. -/
theorem hosted_dropped (hType : r.type = d.id) :
    migrateRecord registry matcher r = .ok none ↔
      conversion? registry matcher d.id = .ok none ∧ d.acceptsLength r.length = true := by
  obtain ⟨runtime, hKnown⟩ := hosted_known hHosts hIn
  have hGet := hLegacy.proper.mem_definitions.1 hIn
  have hUnhandled : registry.handler? d.id = none := by
    refine Option.not_isSome_iff_eq_none.1 fun hHandled => ?_
    have hSome := (hHosts.handled d.id).1 hHandled
    rw [hHosts.apart d.id (hGet ▸ rfl)] at hSome
    cases hSome
  rw [← hType] at hKnown hUnhandled ⊢
  show _ ↔ _ ∧ (d.withRuntime runtime).acceptsLength r.length = true
  exact migrateRecord_eq_ok_none (Registry.isLegacy_iff.2 ⟨_, hUnhandled, hKnown⟩) hKnown

theorem hosted_removed
    (hRemoved : (c.matcher threshold).refactoring.typeFate d = .deleted) :
    conversion? registry (c.matcher threshold) d.id = .ok none := by
  obtain ⟨runtime, hKnown⟩ := hosted_known hHosts hIn
  exact conversion?_of_removed hKnown (Refactoring.currentType_of_deleted hRemoved)

include hRegistry hCurrent

theorem hosted_missing
    (hKept : (c.matcher threshold).refactoring.typeFate d ≠ .deleted)
    (hMissing : (c.matcher threshold).refactoring.currentType d current.current? = .ok none) :
    ∃ e, conversion? registry (c.matcher threshold) d.id = .error e := by
  obtain ⟨runtime, hKnown⟩ := hosted_known hHosts hIn
  obtain ⟨hEntry, hNone⟩ := (Refactoring.currentType_eq_none hKept).1 hMissing
  obtain ⟨other, hOther⟩ := Option.ne_none_iff_exists'.1
    (Registry.current?_ne_none hRegistry hKnown)
  have hLeads : (c.matcher threshold).refactoring.currentType (d.withRuntime runtime)
      registry.current? = .ok (some other) := by
    rw [Config.currentType_withRuntime, Refactoring.currentType, hEntry]
    exact congrArg Except.ok hOther
  have hUnhandled := hHosts.unhandled_of_none hRegistry hCurrent hNone hOther
  exact ⟨_, (conversion?_of_found hKnown hLeads).trans (if_pos (Or.inr hUnhandled))⟩

include hLegacy

theorem hosted_found {e : Definition} {matching : Matching}
    (hFound : (c.matcher threshold).refactoring.currentType d current.current? = .ok (some e))
    (hRun : (c.matcher threshold).run d e = .ok matching) :
    current.current? e.name = some e ∧
      conversion? registry (c.matcher threshold) d.id ≠ .ok none ∧
      ∀ conversion, conversion? registry (c.matcher threshold) d.id = .ok (some conversion) ↔
        conversion.source = d.id ∧ conversion.target = e.id ∧
          List.Forall₂ (Conversion.Listed matching) e.members conversion.members := by
  obtain ⟨runtime, hKnown⟩ := hosted_known hHosts hIn
  obtain ⟨name, hName⟩ := Refactoring.currentType_some hFound
  obtain ⟨hGet, rfl, -⟩ := hCurrent.current?_iff.1 hName
  obtain ⟨registered, hLeads, hEqual⟩ : ∃ registered,
      (c.matcher threshold).refactoring.currentType (d.withRuntime runtime) registry.current? =
        .ok (some registered) ∧ registered.isLayoutEqual e = true :=
    Refactoring.currentType_some_of_look
      (fun _ _ => hHosts.current?_some hRegistry hCurrent) hFound
  rw [Definition.eq_withRuntime hEqual] at hLeads
  have hApart : e.id ≠ d.id := by
    intro hSame
    have hLegacyGet := hLegacy.proper.mem_definitions.1 hIn
    have hNone := hHosts.apart d.id (hLegacyGet ▸ rfl)
    rw [← hSame, hGet] at hNone
    cases hNone
  have hHandled : registry.handler? e.id ≠ none :=
    Option.isSome_iff_ne_none.1 ((hHosts.handled e.id).2 (hGet ▸ rfl))
  have hConversion : conversion? registry (c.matcher threshold) d.id =
      (Conversion.make (c.matcher threshold) (d.withRuntime runtime)
        (e.withRuntime registered.runtime)).map some :=
    (conversion?_of_found hKnown hLeads).trans (if_neg (not_or.2 ⟨hApart, hHandled⟩))
  refine ⟨hName, ?_, fun conversion => ?_⟩
  · rw [hConversion]
    intro h
    obtain ⟨_, -, hNone⟩ := map_eq_ok.1 h
    cases hNone
  · have hMake := Conversion.make_eq_ok (c := conversion)
      ((Config.run_withRuntime c threshold d e runtime registered.runtime).trans hRun)
    rw [hConversion, map_eq_ok]
    simp only [Option.some.injEq, exists_eq_right]
    exact hMake

end

end MigratedChunk

/-! ## Suggestions -/

namespace Suggestion

variable {ι : Type} {registry : Registry ι} {matcher : Matcher} {legacy current : Dictionary}
  {d : Definition} {s : Suggestion}

/-- What the suggestion for a type is made of. -/
theorem ofDefinition_ok (h : ofDefinition matcher current d = .ok s) :
    s.source = d.name ∧
      ((matcher.refactoring.typeFate d = .deleted ∧ s.resolution = .deleted ∧ s.target = none) ∨
        matcher.refactoring.typeFate d ≠ .deleted ∧
          ((matcher.refactoring.currentType d current.current? = .ok none ∧
              s.resolution = .missing ∧ s.target = none) ∨
            ∃ e, matcher.refactoring.currentType d current.current? = .ok (some e) ∧
              (s.resolution = .unchanged ∨ s.resolution = .renamed) ∧
                s.target = some e.name ∧ matcher.run d e = .ok s.matching)) := by
  unfold ofDefinition at h
  split at h
  · rename_i hFate
    cases h
    exact ⟨rfl, Or.inl ⟨hFate, rfl, rfl⟩⟩
  · rename_i hFate
    obtain ⟨found, hFound, h⟩ := bind_eq_ok.1 h
    cases found with
    | none =>
        cases h
        exact ⟨rfl, Or.inr ⟨hFate, Or.inl ⟨hFound, rfl, rfl⟩⟩⟩
    | some e =>
        obtain ⟨matching, hRun, h⟩ := bind_eq_ok.1 h
        cases h
        refine ⟨rfl, Or.inr ⟨hFate, Or.inr ⟨e, hFound, ?_, rfl, hRun⟩⟩⟩
        dsimp only
        split
        · exact Or.inl rfl
        · exact Or.inr rfl

/-- The suggestion says what loading does with the records of the type. -/
structure Previews (registry : Registry ι) (matcher : Matcher) (current : Dictionary)
    (d : Definition) (s : Suggestion) : Prop where
  source : s.source = d.name
  /-- Suggested as deleted are the types whose records are dropped. -/
  deleted : s.resolution = .deleted ↔
    MigratedChunk.conversion? registry matcher d.id = .ok none
  dropped : ∀ r : Record, r.type = d.id →
    (MigratedChunk.migrateRecord registry matcher r = .ok none ↔
      s.resolution = .deleted ∧ d.acceptsLength r.length = true)
  /-- The records of a missing type cannot be loaded. -/
  missing : s.resolution = .missing →
    ∃ e, MigratedChunk.conversion? registry matcher d.id = .error e
  /-- All other records become records of the current type, as it is listed. -/
  target : ∀ name, s.target = some name → ∃ latest, current.current? name = some latest ∧
    ∀ c, MigratedChunk.conversion? registry matcher d.id = .ok (some c) ↔
      c.source = d.id ∧ c.target = latest.id ∧
        List.Forall₂ (Conversion.Listed s.matching) latest.members c.members
  /-- The members are told by their names, if these differ. -/
  told : ∀ name latest, s.target = some name → current.current? name = some latest →
    (latest.members.map fun t => t.id.render).Nodup → ∀ t ∈ latest.members,
      (s.matching.matched.find? fun m => m.target.map (·.id.render) = some t.id.render) =
        s.matching.matched.find? (·.target = some t) ∧
      (t.id.render ∈ s.matching.added.map (·.id.render) ↔ t ∈ s.matching.added)

theorem previews_of_ofDefinition {c : Config} {threshold : Option Float}
    (hHosts : registry.Hosts legacy current) (hRegistry : registry.WellFormed)
    (hLegacy : legacy.Indexed) (hCurrent : current.Indexed) (hIn : d ∈ legacy.definitions)
    (h : ofDefinition (c.matcher threshold) current d = .ok s) :
    Previews registry (c.matcher threshold) current d s := by
  have hDropped : (s.resolution = .deleted ↔
      MigratedChunk.conversion? registry (c.matcher threshold) d.id = .ok none) →
      ∀ r : Record, r.type = d.id →
        (MigratedChunk.migrateRecord registry (c.matcher threshold) r = .ok none ↔
          s.resolution = .deleted ∧ d.acceptsLength r.length = true) := by
    intro hDeleted r hType
    rw [MigratedChunk.hosted_dropped hHosts hLegacy hIn hType, hDeleted]
  obtain ⟨hSource, ⟨hFate, hResolution, hTarget⟩ | ⟨hKept, ⟨hMissing, hResolution, hTarget⟩ |
    ⟨e, hFound, hResolution, hTarget, hRun⟩⟩⟩ := ofDefinition_ok h
  · have hDeleted := iff_of_true hResolution (MigratedChunk.hosted_removed hHosts hIn hFate)
    exact {
      source := hSource
      deleted := hDeleted
      dropped := hDropped hDeleted
      missing := fun h => absurd (hResolution.symm.trans h) (by decide)
      target := fun _ h => absurd (hTarget.symm.trans h) (by simp)
      told := fun _ _ h => absurd (hTarget.symm.trans h) (by simp) }
  · obtain ⟨e, hError⟩ := MigratedChunk.hosted_missing hHosts hRegistry hCurrent hIn hKept hMissing
    have hDeleted : s.resolution = .deleted ↔
        MigratedChunk.conversion? registry (c.matcher threshold) d.id = .ok none := by
      rw [hResolution, hError]
      exact iff_of_false (by decide) (by simp)
    exact {
      source := hSource
      deleted := hDeleted
      dropped := hDropped hDeleted
      missing := fun _ => ⟨e, hError⟩
      target := fun _ h => absurd (hTarget.symm.trans h) (by simp)
      told := fun _ _ h => absurd (hTarget.symm.trans h) (by simp) }
  · obtain ⟨hLatest, hSome, hConversion⟩ :=
      MigratedChunk.hosted_found hHosts hRegistry hLegacy hCurrent hIn hFound hRun
    have hNot : s.resolution ≠ .deleted ∧ s.resolution ≠ .missing := by
      rcases hResolution with h | h <;> rw [h] <;> decide
    have hDeleted := iff_of_false hNot.1 hSome
    have hName : ∀ name, s.target = some name → current.current? name = some e := by
      intro name h
      cases hTarget.symm.trans h
      exact hLatest
    exact {
      source := hSource
      deleted := hDeleted
      dropped := hDropped hDeleted
      missing := fun h => absurd h hNot.2
      target := fun name h => ⟨e, hName name h, hConversion⟩
      told := by
        intro name latest h hOther hNodup t ht
        cases (hName name h).symm.trans hOther
        exact ⟨Matching.find?_render hRun hNodup ht, Matching.mem_added_render hRun hNodup ht⟩ }

/-- Suggestions preview what loading does. -/
theorem all_previews (registrations : List (Registration ι)) (formers currents : List Definition)
    (c : Config) (threshold : Option Float) {suggestions : List Suggestion}
    (hHosts : (Registry.build registrations).Hosts (.build formers) (.build currents))
    (hAll : all (c.matcher threshold) (.build formers) (.build currents) none = .ok suggestions) :
    (Dictionary.build formers).definitions.Pairwise (fun d d' => d.id.value < d'.id.value) ∧
      List.Forall₂ (Previews (Registry.build registrations) (c.matcher threshold) (.build currents))
        (Dictionary.build formers).definitions suggestions := by
  refine ⟨(Dictionary.proper_build formers).sorted, ?_⟩
  simp only [all, Option.map_none, Option.getD_none, List.filter_true] at hAll
  have hEach := (List.forall₂_and_left _ _).2 ⟨fun _ hd => hd, mapM_eq_ok.1 hAll⟩
  refine hEach.imp fun d s ⟨hIn, hSuggestion⟩ => ?_
  exact previews_of_ofDefinition hHosts (Registry.wellFormed_build registrations)
    (Dictionary.indexed_build formers) (Dictionary.indexed_build currents) hIn hSuggestion

end Suggestion

namespace Slots

/-- People as they are stored now. -/
def currentPerson : Definition where
  id := ⟨1000⟩
  name := "Person"
  runtime := none
  members :=
    [⟨MemberId.unqualified "age", .primitive .u32, "u32", some 0⟩,
      ⟨MemberId.unqualified "friend", .reference, "ref", some 4⟩]
  laidOut := ⟨[Member.ofKind (MemberId.unqualified "age") (.primitive .u32),
    Member.ofKind (MemberId.unqualified "friend") .reference], _, rfl⟩

/-- Bicycles are not wanted any more. -/
def tidying : Config := { Config.default with entries := [("Bicycle", none)] }

theorem hosts_garage :
    (Registry.build garage).Hosts (.build [formerPerson, formerBicycle])
      (.build [currentPerson]) := by
  have hRegistry := Registry.wellFormed_build garage
  have hHandlers : (Registry.build garage).allHandlers = [.object person] := rfl
  obtain ⟨registered, hAll, hId⟩ : ∃ registered : Definition,
      (Registry.build garage).allDefinitions = [formerPerson, formerBicycle, registered] ∧
        registered.id = ⟨1000⟩ := ⟨_, rfl, rfl⟩
  have hCurrent : ∀ d ∈ (Dictionary.build [currentPerson]).definitions, d = currentPerson :=
    fun d hd => List.mem_singleton.1 hd
  have hOnly : ∀ id, ((Dictionary.build [currentPerson]).get? id).isSome → id = ⟨1000⟩ := by
    intro id hSome
    obtain ⟨d, hd, rfl⟩ := Dictionary.exists_of_isSome_build hSome
    rw [List.mem_singleton.1 hd]
    rfl
  refine ⟨?_, ?_, ?_, fun id => ⟨?_, ?_⟩, ?_⟩
  · intro d hd
    have hFormer : d ∈ [formerPerson, formerBicycle] := hd
    rcases List.mem_cons.1 hFormer with rfl | hd
    · exact ⟨_, rfl, Definition.isLayoutEqual_self _⟩
    · rw [List.mem_singleton.1 hd]
      exact ⟨_, rfl, Definition.isLayoutEqual_self _⟩
  · intro d hd
    rw [hCurrent d hd]
    exact ⟨_, rfl, rfl⟩
  · intro id hSome
    obtain ⟨d, hd, rfl⟩ := Dictionary.exists_of_isSome_build hSome
    rcases List.mem_cons.1 hd with rfl | hd
    · rfl
    · rw [List.mem_singleton.1 hd]
      rfl
  · intro hSome
    obtain ⟨handler, hHandler⟩ := Option.isSome_iff_exists.1 hSome
    have hSame := (hRegistry.handled id handler hHandler).1
    rw [Registry.eq_of_handler? hHandlers hHandler] at hSame
    rw [← hSame]
    rfl
  · intro hSome
    rw [hOnly id hSome]
    rfl
  · intro d hd id other hOther hName
    refine ⟨currentPerson, List.mem_singleton.2 rfl, (congrArg _ (hCurrent d hd)).symm, ?_⟩
    have hOtherId := hRegistry.keyed id other hOther
    rw [← hOtherId] at hOther ⊢
    have hIn := (Registry.mem_allDefinitions hRegistry).2 hOther
    rw [hAll] at hIn
    rcases List.mem_cons.1 hIn with rfl | hIn
    · decide
    · rcases List.mem_cons.1 hIn with rfl | hIn
      · decide
      · rw [List.mem_singleton.1 hIn, hId]
        decide

/-- People keep their name, and both of their members. Bicycles are gone. -/
theorem all_previews_garage :
    (Registry.build garage).Hosts (.build [formerPerson, formerBicycle]) (.build [currentPerson]) ∧
    ∃ suggestions,
      Suggestion.all (tidying.matcher none) (.build [formerPerson, formerBicycle])
          (.build [currentPerson]) none = .ok suggestions ∧
        suggestions.map (·.resolution) = [.unchanged, .deleted] ∧
        MigratedChunk.conversion? (Registry.build garage) (tidying.matcher none) ⟨901⟩ = .ok none ∧
        MigratedChunk.conversion? (Registry.build garage) (tidying.matcher none) ⟨900⟩ =
          .ok (some ⟨⟨900⟩, ⟨1000⟩, [.copy 8 (.primitive .u32), .copy 0 .reference]⟩) := by
  obtain ⟨ofPerson, ofBicycle, hAll, hPerson, hBicycle, hTarget, hMembers⟩ :
      ∃ ofPerson ofBicycle : Suggestion,
        Suggestion.all (tidying.matcher none) (.build [formerPerson, formerBicycle])
            (.build [currentPerson]) none = .ok [ofPerson, ofBicycle] ∧
          ofPerson.resolution = .unchanged ∧ ofBicycle.resolution = .deleted ∧
          ofPerson.target = some "Person" ∧
          List.Forall₂ (Conversion.Listed ofPerson.matching) currentPerson.members
            [.copy 8 (.primitive .u32), .copy 0 .reference] :=
    ⟨_, _, rfl, rfl, rfl, rfl,
      .cons (.copied rfl rfl rfl) (.cons (.copied rfl rfl rfl) .nil)⟩
  have hPreviews := Suggestion.all_previews garage [formerPerson, formerBicycle] [currentPerson]
    tidying none hosts_garage hAll
  obtain _ | ⟨hFirst, _ | ⟨hSecond, -⟩⟩ := hPreviews.2
  obtain ⟨latest, hLatest, hConversion⟩ := hFirst.target _ hTarget
  cases (show (Dictionary.build [currentPerson]).current? "Person" = some currentPerson from
    rfl).symm.trans hLatest
  refine ⟨hosts_garage, _, hAll, ?_, hSecond.deleted.1 hBicycle,
    (hConversion _).2 ⟨rfl, rfl, hMembers⟩⟩
  rw [List.map_cons, List.map_cons, List.map_nil, hPerson, hBicycle]

end Slots

end ObjectStore
