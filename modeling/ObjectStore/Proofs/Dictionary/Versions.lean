import ObjectStore.Proofs.Dictionary.Building

/-!
# Versions of a type

Of several definitions with one name, the one with the highest identifier is
the current version. A dictionary finds it through its index by name, a
registry by looking through its definitions from behind, and both ways lead
to the last of all versions. Which definitions a dictionary has is told by the
sequence in which they came: for every identifier the first one counts, so
that the order makes no difference to definitions with different identifiers.

## Main results

* `Dictionary.Indexed.current?_iff`, `Registry.WellFormed.current?_iff`: what
  a name leads to.
* `Dictionary.get?_build`: the first definition of a type counts.
* `Dictionary.current_agrees`: the look-ups by name agree.
-/

namespace ObjectStore

open Std

/-! ## Looking through the definitions -/

namespace Registry

variable {ι : Type} {r : Registry ι} {name : String} {d : Definition}

/-- A registry finds the definition with the highest identifier. -/
theorem WellFormed.current?_iff (h : r.WellFormed) : r.current? name = some d ↔
    r.definition? d.id = some d ∧ d.name = name ∧
      ∀ id other, r.definition? id = some other → other.name = name → id.value ≤ d.id.value := by
  constructor
  · intro hCurrent
    obtain ⟨hKnown, hName⟩ := current?_ok h hCurrent
    exact ⟨hKnown, hName, fun _ _ hOther hSame => current?_highest h hCurrent hOther hSame⟩
  · rintro ⟨hKnown, rfl, hHighest⟩
    obtain ⟨found, hFound⟩ := Option.ne_none_iff_exists'.1 (current?_ne_none h hKnown)
    obtain ⟨hFoundKnown, hFoundName⟩ := current?_ok h hFound
    have hLe := hHighest _ _ hFoundKnown hFoundName
    have hGe := current?_highest h hFound hKnown rfl
    have hId : found.id = d.id := TypeId.eq_of_value_eq (UInt64.le_antisymm hLe hGe)
    rw [hId, hKnown] at hFoundKnown
    rw [hFound, ← hFoundKnown]

end Registry

namespace Dictionary

variable {ι : Type} {d d' : Dictionary} {definition : Definition} {name : String} {id : TypeId}
  {definitions definitions' : List Definition}

/-! ## Looking up the index -/

/-- A dictionary finds the definition with the highest identifier. -/
theorem Indexed.current?_iff (h : d.Indexed) : d.current? name = some definition ↔
    d.get? definition.id = some definition ∧ definition.name = name ∧
      ∀ id other, d.get? id = some other → other.name = name →
        id.value ≤ definition.id.value := by
  rw [current?, Option.bind_eq_some_iff]
  constructor
  · rintro ⟨current, hCurrent, hGet⟩
    have hId := h.keyed current definition hGet
    obtain ⟨carrier, hCarrier, hName⟩ := h.carried name current hCurrent
    rw [hGet] at hCarrier
    cases hCarrier
    rw [hId]
    refine ⟨hGet, hName, fun id other hOther hSame => ?_⟩
    obtain ⟨highest, hHighest, hLe⟩ := h.highest name id ⟨other, hOther, hSame⟩
    rw [hCurrent] at hHighest
    cases hHighest
    exact hLe
  · rintro ⟨hGet, hName, hHighest⟩
    obtain ⟨current, hCurrent, hLe⟩ := h.highest name definition.id ⟨definition, hGet, hName⟩
    obtain ⟨carrier, hCarrier, hSame⟩ := h.carried name current hCurrent
    have hGe := hHighest current carrier hCarrier hSame
    have hId : current = definition.id := TypeId.eq_of_value_eq (UInt64.le_antisymm hGe hLe)
    exact ⟨current, hCurrent, hId ▸ hGet⟩

/-- The current version is the last one. -/
theorem Indexed.getLast?_versions (h : d.Indexed) (name : String) :
    (d.versions name).getLast? = d.current? name := by
  have hRegistry : (d.asRegistry : Registry Unit).WellFormed := wellFormed_asRegistry h.keyed
  have hLast : (d.versions name).getLast? = (d.asRegistry : Registry Unit).current? name := by
    rw [versions, List.getLast?_eq_head?_reverse, ← List.filter_reverse, List.head?_filter]
    rfl
  rw [hLast]
  refine Option.ext fun definition => ?_
  rw [hRegistry.current?_iff, h.current?_iff]
  rfl

/-- The snapshot of a registry leads from every name to the same definition
as the registry. -/
theorem current?_snapshot {r : Registry ι} (hRegistry : r.WellFormed)
    (hSnapshot : r.snapshot = .ok d) (hById : d.byId = r.definitions) (name : String) :
    r.current? name = d.current? name := by
  have hIndexed : d.Indexed := indexed_registerAll indexed_empty hSnapshot
  refine Option.ext fun definition => ?_
  rw [hRegistry.current?_iff, hIndexed.current?_iff]
  unfold get? Registry.definition?
  rw [hById]

/-! ## What was registered -/

theorem get?_offer (d : Dictionary) (definition : Definition) (id : TypeId) :
    (d.offer definition).get? id =
      (d.get? id).or (if definition.id = id then some definition else none) := by
  unfold offer
  cases hRegister : d.register definition with
  | ok d' =>
      show d'.get? id = _
      rw [get?_register hRegister]
      by_cases hId : definition.id = id
      · cases hGet : d.get? id <;> simp [hId]
      · simp [hId]
  | error e =>
      -- A definition is refused only if there is one under its identifier.
      by_cases hId : definition.id = id
      · cases hGet : d.get? id with
        | some known => simp
        | none =>
            rw [← hId] at hGet
            rw [register_of_free hGet] at hRegister
            cases hRegister
      · simp [hId]

/-- Of all definitions under an identifier the first one counts. -/
theorem get?_build (definitions : List Definition) (id : TypeId) :
    (build definitions).get? id = definitions.find? (·.id = id) := by
  have hAll : ∀ d : Dictionary, (definitions.foldl offer d).get? id =
      (d.get? id).or (definitions.find? (·.id = id)) := by
    induction definitions with
    | nil => simp
    | cons first rest ih =>
        intro d
        rw [List.foldl_cons, ih, get?_offer, Option.or_assoc, List.find?_cons]
        by_cases hId : first.id = id <;> simp [hId]
  rw [build, hAll]
  simp [get?, empty]

/-- Definitions with different identifiers may come in any order. -/
theorem build_perm (hPerm : definitions.Perm definitions')
    (hIds : (definitions.map Definition.id).Nodup) : build definitions = build definitions' := by
  apply (indexed_build definitions).ext (indexed_build definitions')
  apply ExtTreeMap.ext_getElem?
  intro id
  show (build definitions).get? id = (build definitions').get? id
  rw [get?_build, get?_build]
  refine Option.ext fun found => ?_
  rw [find?_key hIds, find?_key ((hPerm.map _).nodup hIds), hPerm.mem_iff]

/-! ## Main statement -/

/--
After any registrations a name leads to the last of its versions, which is
the definition with the highest identifier among those with that name; under
each identifier is the definition that came first, a refused registration is
as good as none, and definitions with different identifiers may come in any
order. Every registry has a snapshot, and its look-ups by name and its highest
identifier are those of the snapshot.
-/
theorem current_agrees (ι : Type) :
    (∀ (definitions : List Definition) (name : String),
        (build definitions).current? name = ((build definitions).versions name).getLast? ∧
          ∀ d, (build definitions).current? name = some d ↔
            (build definitions).get? d.id = some d ∧ d.name = name ∧
              ∀ id other, (build definitions).get? id = some other → other.name = name →
                id.value ≤ d.id.value) ∧
      (∀ (definitions : List Definition) (id : TypeId),
        (build definitions).get? id = definitions.find? (·.id = id)) ∧
      (∀ (before after : List Definition) (refused : Definition) (e : Error),
        (build before).register refused = .error e →
          build (before ++ refused :: after) = build (before ++ after)) ∧
      (∀ definitions definitions' : List Definition, definitions.Perm definitions' →
        (definitions.map Definition.id).Nodup → build definitions = build definitions') ∧
      ∀ registrations : List (Registration ι), ∃ d,
        (Registry.build registrations).snapshot = .ok d ∧
          (∀ name, (Registry.build registrations).current? name = d.current? name) ∧
            (Registry.build registrations).highestId? = d.highestId? := by
  refine ⟨fun definitions name => ?_, get?_build, ?_, fun _ _ => build_perm, ?_⟩
  · have hIndexed := indexed_build definitions
    exact ⟨(hIndexed.getLast?_versions name).symm, fun d => hIndexed.current?_iff⟩
  · intro before after refused e hRefused
    have hSame : (build before).offer refused = build before := by
      rw [offer, hRefused]
    rw [build, build, List.foldl_append, List.foldl_append, List.foldl_cons]
    exact congrArg (after.foldl offer) hSame
  · intro registrations
    have hRegistry : (Registry.build registrations).WellFormed :=
      Registry.wellFormed_build registrations
    obtain ⟨d, hSnapshot, hById⟩ := Registry.snapshot_ok hRegistry
    refine ⟨d, hSnapshot, current?_snapshot hRegistry hSnapshot hById, ?_⟩
    rw [highestId?, hById]
    rfl

/-- A type that takes the identifier of a counter. -/
def tally : Definition where
  id := ⟨9⟩
  name := "Tally"
  runtime := none
  members := [⟨⟨none, "count"⟩, .primitive .u32, "u32", some 0⟩]
  laidOut := ⟨[⟨⟨none, "count"⟩, .primitive .u32, "u32", none⟩], _, rfl⟩

/-- The newer counter is the current one, whether it came first or last, and
the tally has no effect. -/
theorem current_agrees_counters :
    ((build [counter 9]).register tally = .error (.definitionMismatch ⟨9⟩ "Tally") ∧
        [counter 9, counter 7].Perm [counter 7, counter 9] ∧
          ([counter 9, counter 7].map Definition.id).Nodup) ∧
      build [counter 9, tally, counter 7] = build [counter 7, counter 9] ∧
        (build [counter 7, counter 9]).current? "Counter" = some (counter 9) := by
  obtain ⟨hCurrent, -, hRefuse, hOrder, -⟩ := current_agrees Unit
  have hRefused : (build [counter 9]).register tally =
      .error (.definitionMismatch ⟨9⟩ "Tally") := by rfl
  have hPerm : [counter 9, counter 7].Perm [counter 7, counter 9] := List.Perm.swap _ _ _
  have hIds : ([counter 9, counter 7].map Definition.id).Nodup := by decide
  refine ⟨⟨hRefused, hPerm, hIds⟩, ?_, ?_⟩
  · exact (hRefuse [counter 9] [counter 7] tally _ hRefused).trans (hOrder _ _ hPerm hIds)
  · rw [(hCurrent _ _).1]
    rfl

end Dictionary

end ObjectStore
