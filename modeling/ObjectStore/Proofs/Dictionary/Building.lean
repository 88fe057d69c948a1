import ObjectStore.Proofs.Dictionary.RoundTrip

/-!
# Dictionaries that were built

A dictionary is built by registering definitions, one after the other. One
that contradicts a known definition is refused, and leaves the dictionary as
it was. In whatever order they came, the index by name is determined by the
definitions that are there: it leads to the highest identifier with each
name. So a dictionary that is read back from its file, where the definitions
stand in the order of their identifiers, is the same in every respect.

## Main results

* `Dictionary.Indexed.ext`: a dictionary is known by its definitions.
* `Dictionary.proper_build`, `Dictionary.proper_decode`: what was built and
  what was read is proper.
* `Dictionary.decode_build`: the file of a dictionary that was built.
-/

namespace ObjectStore

open Std

theorem Definition.isLayoutEqual_trans {a b c : Definition} (h : a.isLayoutEqual b = true)
    (h' : b.isLayoutEqual c = true) : a.isLayoutEqual c = true := by
  obtain ⟨hId, hName, hMembers⟩ := Definition.isLayoutEqual_iff.1 h
  obtain ⟨hId', hName', hMembers'⟩ := Definition.isLayoutEqual_iff.1 h'
  exact Definition.isLayoutEqual_iff.2
    ⟨hId.trans hId', hName.trans hName', hMembers.trans hMembers'⟩

theorem TypeId.compare_gt_iff {a b : TypeId} : compare a b = .gt ↔ b.value < a.value :=
  compare_eq_gt (a := a.value) (b := b.value)

namespace Dictionary

variable {ι : Type} {registry : Registry ι} {d d' : Dictionary} {definition : Definition}

/-! ## Proper dictionaries -/

/-- Every definition stands under its own identifier, and registering all of
them gives the dictionary again. -/
structure Proper (d : Dictionary) : Prop where
  keyed : ∀ id definition, d.get? id = some definition → definition.id = id
  listed : ofList d.definitions = .ok d

/-- The registry that knows the types of a dictionary, and no handler. -/
def asRegistry (d : Dictionary) : Registry ι := ⟨none, d.byId, ∅, ∅⟩

theorem wellFormed_asRegistry
    (h : ∀ id definition, d.get? id = some definition → definition.id = id) :
    (d.asRegistry : Registry ι).WellFormed where
  keyed := h
  handled := by simp [asRegistry, Registry.handler?]
  typed := by simp [asRegistry, Registry.handler?]

theorem proper_empty : empty.Proper where
  keyed := by simp [empty, get?]
  listed := rfl

theorem proper_snapshot (hRegistry : registry.WellFormed) (hSnapshot : registry.snapshot = .ok d) :
    d.Proper ∧ d.byId = registry.definitions := by
  obtain ⟨d', hSnapshot', hById⟩ := Registry.snapshot_ok hRegistry
  have hSame : d' = d := by
    rw [hSnapshot] at hSnapshot'
    exact (Except.ok.inj hSnapshot').symm
  rw [hSame] at hById
  refine ⟨⟨?_, Registry.ofList_snapshot hSnapshot hById⟩, hById⟩
  intro id definition hGet
  apply hRegistry.keyed id definition
  rw [Registry.definition?, ← hById]
  exact hGet

theorem Proper.mem_definitions (h : d.Proper) :
    definition ∈ d.definitions ↔ d.get? definition.id = some definition :=
  Registry.mem_allDefinitions
    (wellFormed_asRegistry h.keyed : (d.asRegistry : Registry Unit).WellFormed)

theorem Proper.nodup (h : d.Proper) : (d.definitions.map Definition.id).Nodup :=
  Registry.nodup_allDefinitions
    (wellFormed_asRegistry h.keyed : (d.asRegistry : Registry Unit).WellFormed)

/-- A registry that covers a dictionary knows its types. -/
theorem Proper.definition_of_covers (h : d.Proper) (hCovers : registry.Covers d) {id : TypeId}
    (hGet : d.get? id = some definition) :
    ∃ registered, registry.definition? id = some registered ∧
      registered.isLayoutEqual definition = true := by
  have hId := h.keyed id definition hGet
  rw [← hId] at hGet ⊢
  exact hCovers definition (h.mem_definitions.2 hGet)

theorem Proper.covers_snapshot (h : d.Proper) (hById : d.byId = registry.definitions) :
    registry.Covers d := by
  intro definition hIn
  refine ⟨definition, ?_, Definition.isLayoutEqual_self definition⟩
  rw [Registry.definition?, ← hById]
  exact h.mem_definitions.1 hIn

/-! ## Dictionaries that grow -/

/-- Every type of a dictionary is in another one, with the same layout. -/
def Extends (d d' : Dictionary) : Prop :=
  ∀ id definition, d.get? id = some definition →
    ∃ later, d'.get? id = some later ∧ later.isLayoutEqual definition = true

theorem Extends.refl (d : Dictionary) : d.Extends d :=
  fun _ definition hGet => ⟨definition, hGet, Definition.isLayoutEqual_self definition⟩

theorem Extends.trans {d'' : Dictionary} (h : d.Extends d') (h' : d'.Extends d'') :
    d.Extends d'' := by
  intro id definition hGet
  obtain ⟨later, hLater, hEqual⟩ := h id definition hGet
  obtain ⟨last, hLast, hEqual'⟩ := h' id later hLater
  exact ⟨last, hLast, Definition.isLayoutEqual_trans hEqual' hEqual⟩

/-- The snapshot of a registry that covers a dictionary extends it. -/
theorem Proper.extends_snapshot (h : d.Proper) (hCovers : registry.Covers d)
    (hById : d'.byId = registry.definitions) : d.Extends d' := by
  intro id definition hGet
  obtain ⟨registered, hRegistered, hEqual⟩ := h.definition_of_covers hCovers hGet
  refine ⟨registered, ?_, hEqual⟩
  rw [get?, hById]
  exact hRegistered

/-! ## The index by name -/

/-- A definition under the identifier has the name. -/
def Carries (d : Dictionary) (name : String) (id : TypeId) : Prop :=
  ∃ definition, d.get? id = some definition ∧ definition.name = name

/-- Every definition stands under its own identifier, and the index leads
from every name to the highest identifier that carries it. -/
structure Indexed (d : Dictionary) : Prop where
  keyed : ∀ id definition, d.get? id = some definition → definition.id = id
  carried : ∀ name id, d.currentByName[name]? = some id → d.Carries name id
  highest : ∀ name id, d.Carries name id →
    ∃ current, d.currentByName[name]? = some current ∧ id.value ≤ current.value

theorem indexed_empty : empty.Indexed where
  keyed := by simp [empty, get?]
  carried := by simp [empty]
  highest := by simp [empty, Carries, get?]

theorem Carries.congr (hById : d.byId = d'.byId) {name : String} {id : TypeId}
    (h : d.Carries name id) : d'.Carries name id := by
  obtain ⟨definition, hGet, hName⟩ := h
  rw [get?, hById] at hGet
  exact ⟨definition, hGet, hName⟩

/-- A dictionary is known by its definitions. -/
theorem Indexed.ext (h : d.Indexed) (h' : d'.Indexed) (hById : d.byId = d'.byId) : d = d' := by
  have hIndex : d.currentByName = d'.currentByName := by
    apply ExtTreeMap.ext_getElem?
    intro name
    cases hCurrent : d.currentByName[name]? with
    | none =>
        cases hCurrent' : d'.currentByName[name]? with
        | none => rfl
        | some id' =>
            have hCarried := (h'.carried name id' hCurrent').congr hById.symm
            obtain ⟨current, hSome, -⟩ := h.highest name id' hCarried
            rw [hCurrent] at hSome
            cases hSome
    | some id =>
        obtain ⟨id', hCurrent', hLe⟩ :=
          h'.highest name id ((h.carried name id hCurrent).congr hById)
        obtain ⟨current, hSome, hGe⟩ :=
          h.highest name id' ((h'.carried name id' hCurrent').congr hById.symm)
        rw [hCurrent] at hSome
        cases hSome
        rw [hCurrent', TypeId.eq_of_value_eq (UInt64.le_antisymm hLe hGe)]
  cases d
  cases d'
  simp only at hById hIndex
  rw [hById, hIndex]

/-- The current identifier of the name of a new definition is the higher one
of the former and the new. -/
theorem currentWith_cases (d : Dictionary) (definition : Definition) :
    d.currentWith definition = definition.id ∧
        (∀ current, d.currentByName[definition.name]? = some current →
          current.value ≤ definition.id.value) ∨
      d.currentByName[definition.name]? = some (d.currentWith definition) ∧
        definition.id.value ≤ (d.currentWith definition).value := by
  unfold currentWith
  cases hCurrent : d.currentByName[definition.name]? with
  | none => exact Or.inl ⟨rfl, by simp⟩
  | some current =>
      by_cases hGreater : compare definition.id current = .gt
      · have hLess : current.value < definition.id.value := TypeId.compare_gt_iff.1 hGreater
        simp only [hGreater, if_true]
        exact Or.inl ⟨trivial, fun _ hSome => Option.some.inj hSome ▸ UInt64.le_of_lt hLess⟩
      · have hLe : definition.id.value ≤ current.value :=
          UInt64.not_lt.1 fun hLess => hGreater (TypeId.compare_gt_iff.2 hLess)
        simp only [hGreater, if_false]
        exact Or.inr ⟨trivial, hLe⟩

/-- A registration changes nothing, or it takes a free identifier. -/
theorem register_cases (hRegister : d.register definition = .ok d') :
    d' = d ∨ d.get? definition.id = none := by
  unfold register at hRegister
  split at hRegister
  · split at hRegister
    · cases hRegister
      exact Or.inl rfl
    · cases hRegister
  · rename_i hNew
    exact Or.inr hNew

theorem current_register (hNew : d.get? definition.id = none)
    (hRegister : d.register definition = .ok d') (name : String) :
    d'.currentByName[name]? =
      if definition.name = name then some (d.currentWith definition)
      else d.currentByName[name]? := by
  rw [register_of_free hNew] at hRegister
  cases hRegister
  simp [ExtTreeMap.getElem?_insert]

theorem carries_register (hNew : d.get? definition.id = none)
    (hRegister : d.register definition = .ok d') (name : String) (id : TypeId) :
    d'.Carries name id ↔
      (definition.id = id ∧ definition.name = name) ∨ d.Carries name id := by
  unfold Carries
  rw [get?_register hRegister]
  by_cases hId : definition.id = id
  · simp [← hId, hNew]
  · simp [hId]

theorem indexed_register (h : d.Indexed) (hRegister : d.register definition = .ok d') :
    d'.Indexed := by
  rcases register_cases hRegister with rfl | hNew
  · exact h
  have hCurrent := current_register hNew hRegister
  have hCarries := carries_register hNew hRegister
  refine ⟨?keyed, ?carried, ?highest⟩
  case keyed =>
    intro id known hKnown
    rw [get?_register hRegister] at hKnown
    split at hKnown
    · rename_i hFirst
      cases hKnown
      exact hFirst.1
    · exact h.keyed id known hKnown
  case carried =>
    intro name id hFound
    rw [hCurrent] at hFound
    rw [hCarries]
    split at hFound
    · rename_i hName
      cases hFound
      rcases currentWith_cases d definition with ⟨hNewest, -⟩ | ⟨hFormer, -⟩
      · exact Or.inl ⟨hNewest.symm, hName⟩
      · exact Or.inr (hName ▸ h.carried _ _ hFormer)
    · exact Or.inr (h.carried name id hFound)
  case highest =>
    intro name id hCarried
    rw [hCurrent]
    rcases (hCarries name id).1 hCarried with ⟨rfl, rfl⟩ | hFormer
    · rw [if_pos rfl]
      rcases currentWith_cases d definition with ⟨hNewest, -⟩ | ⟨-, hLe⟩
      · exact ⟨_, rfl, hNewest ▸ UInt64.le_refl _⟩
      · exact ⟨_, rfl, hLe⟩
    · obtain ⟨current, hFound, hLe⟩ := h.highest name id hFormer
      split
      · rename_i hName
        subst hName
        rcases currentWith_cases d definition with ⟨hNewest, hAbove⟩ | ⟨hSame, -⟩
        · exact ⟨_, rfl, hNewest ▸ UInt64.le_trans hLe (hAbove current hFound)⟩
        · rw [hFound] at hSame
          cases hSame
          exact ⟨_, rfl, hLe⟩
      · exact ⟨current, hFound, hLe⟩

theorem indexed_registerAll {definitions : List Definition} (h : d.Indexed)
    (hAll : definitions.foldlM register d = .ok d') : d'.Indexed := by
  induction definitions generalizing d with
  | nil =>
      cases hAll
      exact h
  | cons first rest ih =>
      rw [List.foldlM_cons] at hAll
      obtain ⟨d₁, hFirst, hRest⟩ := bind_eq_ok.1 hAll
      exact ih (indexed_register h hFirst) hRest

/-- Registering the definitions again gives the same definitions, and with
them the same index. -/
theorem Indexed.proper (h : d.Indexed) : d.Proper := by
  obtain ⟨d', hList, hById⟩ :=
    Registry.snapshot_ok (wellFormed_asRegistry h.keyed : (d.asRegistry : Registry Unit).WellFormed)
  have hSame : d' = d := (indexed_registerAll indexed_empty hList).ext h hById
  exact ⟨h.keyed, hSame ▸ hList⟩

/-! ## Building -/

/-- The dictionary after a definition was registered, unless it was
refused. -/
def offer (d : Dictionary) (definition : Definition) : Dictionary :=
  match d.register definition with
  | .ok d' => d'
  | .error _ => d

/-- The dictionary that a sequence of registrations leads to, of which any
may have been refused. -/
def build (definitions : List Definition) : Dictionary := definitions.foldl offer empty

theorem indexed_offer (h : d.Indexed) (definition : Definition) : (d.offer definition).Indexed := by
  unfold offer
  cases hRegister : d.register definition with
  | ok d' => exact indexed_register h hRegister
  | error e => exact h

theorem indexed_build (definitions : List Definition) : (build definitions).Indexed := by
  have hAll : ∀ d : Dictionary, d.Indexed → (definitions.foldl offer d).Indexed := by
    induction definitions with
    | nil => exact fun d h => h
    | cons first rest ih => exact fun d h => ih _ (indexed_offer h first)
  exact hAll empty indexed_empty

theorem proper_build (definitions : List Definition) : (build definitions).Proper :=
  (indexed_build definitions).proper

/-- A dictionary that was read from any file is proper, whoever wrote the
file. -/
theorem proper_decode {file : ByteArray} (h : decode file = .ok d) : d.Proper := by
  obtain ⟨descriptions, hList⟩ := decode_ok h
  obtain ⟨definitions, -, hAll⟩ := bind_eq_ok.1 hList
  exact (indexed_registerAll indexed_empty hAll).proper

theorem offerAll_of_registerAll {definitions : List Definition}
    (hAll : definitions.foldlM register d = .ok d') : definitions.foldl offer d = d' := by
  induction definitions generalizing d with
  | nil =>
      cases hAll
      rfl
  | cons first rest ih =>
      rw [List.foldlM_cons] at hAll
      obtain ⟨next, hFirst, hRest⟩ := bind_eq_ok.1 hAll
      rw [List.foldl_cons, offer, hFirst]
      exact ih hRest

/-- A dictionary is proper if it was built, or could have been. -/
theorem proper_iff_build : d.Proper ↔ ∃ definitions, d = build definitions := by
  constructor
  · exact fun h => ⟨d.definitions, (offerAll_of_registerAll h.listed).symm⟩
  · rintro ⟨definitions, rfl⟩
    exact proper_build definitions

/-- The file of a dictionary that was built gives that dictionary, whatever
stands behind it, and nothing of it can be missing. -/
theorem decode_build (definitions : List Definition) :
    (∀ tail : Bytes, ((build definitions).encode ++ tail).length ≤ maxFileSize →
        decode ⟨((build definitions).encode ++ tail).toArray⟩ = .ok (build definitions)) ∧
      ∀ front : Bytes, front <+: (build definitions).encode → front ≠ (build definitions).encode →
        ∃ fault, decode ⟨front.toArray⟩ = .error (.deserialization fault) := by
  constructor
  · intro tail hSize
    rw [List.length_append] at hSize
    exact decode_encode_append (proper_build definitions).listed hSize
  · rintro front ⟨missing, hEncode⟩ hPart
    refine decode_part hEncode.symm ?_
    rintro rfl
    rw [List.append_nil] at hEncode
    exact hPart hEncode

/-- A version of a type that holds one number. -/
def counter (id : UInt64) : Definition where
  id := ⟨id⟩
  name := "Counter"
  runtime := none
  members := [⟨⟨none, "count"⟩, .primitive .u32, "u32", some 0⟩]
  laidOut := ⟨[⟨⟨none, "count"⟩, .primitive .u32, "u32", none⟩], _, rfl⟩

/-- Two versions, of which the newer one was registered first. -/
def counters : Dictionary := build [counter 9, counter 7]

theorem decode_build_counters :
    ((counters.encode ++ [255]).length ≤ maxFileSize ∧
        decode ⟨(counters.encode ++ [255]).toArray⟩ = .ok counters) ∧
      (counters.encode.take 30 <+: counters.encode ∧ counters.encode.take 30 ≠ counters.encode ∧
        ∃ fault, decode ⟨(counters.encode.take 30).toArray⟩ = .error (.deserialization fault)) := by
  have hSize : (counters.encode ++ [255]).length ≤ maxFileSize := by decide +kernel
  have hPart : counters.encode.take 30 ≠ counters.encode := by decide +kernel
  obtain ⟨hWhole, hParts⟩ := decode_build [counter 9, counter 7]
  have hPrefix := List.take_prefix 30 counters.encode
  exact ⟨⟨hSize, hWhole [255] hSize⟩, hPrefix, hPart, hParts _ hPrefix hPart⟩

end Dictionary

end ObjectStore
