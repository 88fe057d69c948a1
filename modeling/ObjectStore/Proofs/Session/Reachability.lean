import ObjectStore.Proofs.EntityStore.Writes
import ObjectStore.Proofs.Handler.Slots
import ObjectStore.Proofs.Record.References
import ObjectStore.Proofs.Traversal.Coverage
import ObjectStore.Session.Check

/-!
# What a check finds

A check judges every record by itself, and then walks from the roots over the
valid ones. Which records it reaches is said here without the walk: they are
the least set of valid records that holds those of the roots and, with a
record, every valid record that it refers to. An invalid record ends a path,
and so does an object that has no record.

The walk visits them all because a record that may be the end of a path, as
its definition has no references, refers to nothing. If the walk comes to its
end, the references of each visited record could be listed.

## Main results

* `Check.reachable_iff_linked`: what the walk reaches.
* `Check.exact_of_records`: what the report of a check says.
* `Session.check_exact`: the same for the check of a store, whatever was
  written to it.
-/

namespace ObjectStore

open Std

variable {ι : Type} {registry : Registry ι} {rs : List Record} {roots : List ObjectId}

namespace Check

/-- The record is one of the records, and valid by the definition. -/
structure Valid (registry : Registry ι) (rs : List Record) (r : Record) (d : Definition) :
    Prop where
  mem : r ∈ rs
  judged : registry.validateEntity r.length r.type r.object = .ok d

/-- The valid records that the roots lead to. -/
inductive Linked (registry : Registry ι) (rs : List Record) (roots : List ObjectId) :
    Record → Prop where
  | root {r : Record} {d : Definition} :
      Valid registry rs r d → r.object ∈ roots → Linked registry rs roots r
  | step {r r' : Record} {d d' : Definition} :
      Linked registry rs roots r → Valid registry rs r d → r.RefersTo d r'.object →
        Valid registry rs r' d' → Linked registry rs roots r'

variable {r : Record} {d : Definition} {id : ObjectId}

theorem Linked.valid (h : Linked registry rs roots r) : ∃ d, Valid registry rs r d := by
  cases h with
  | root hValid _ => exact ⟨_, hValid⟩
  | step _ _ _ hValid => exact ⟨_, hValid⟩

theorem Valid.unique {d' : Definition} (h : Valid registry rs r d) (h' : Valid registry rs r d') :
    d' = d := by
  cases h.judged.symm.trans h'.judged
  rfl

/-! ## Records by object -/

/-- The objects of the records. -/
abbrev objects (rs : List Record) : ExtTreeSet ObjectId :=
  rs.foldl (fun s r => s.insert r.object) ∅

theorem contains_foldl_objects (rs : List Record) (stored : ExtTreeSet ObjectId) :
    (rs.foldl (fun s r => s.insert r.object) stored).contains id = true ↔
      (∃ r ∈ rs, r.object = id) ∨ stored.contains id = true := by
  induction rs generalizing stored with
  | nil => simp
  | cons r rest ih =>
      rw [List.foldl_cons, ih, ExtTreeSet.contains_insert]
      by_cases hId : r.object = id
      · simp [hId]
      · simp [hId]

theorem contains_objects : (objects rs).contains id = true ↔ ∃ r ∈ rs, r.object = id := by
  rw [objects, contains_foldl_objects]
  simp

/-- The valid ones among the records, with their definitions. -/
def accepted (registry : Registry ι) (rs : List Record) : List (Record × Definition) :=
  rs.filterMap fun r => (judge registry r).toOption.map fun d => (r, d)

theorem mem_accepted : (r, d) ∈ accepted registry rs ↔ Valid registry rs r d := by
  rw [accepted, List.mem_filterMap]
  constructor
  · rintro ⟨r', hr', hSome⟩
    cases hJudge : judge registry r' with
    | error e => simp [hJudge, Except.toOption] at hSome
    | ok definition =>
        simp only [hJudge, Except.toOption, Option.map_some, Option.some.injEq,
          Prod.mk.injEq] at hSome
        obtain ⟨rfl, rfl⟩ := hSome
        exact ⟨hr', hJudge⟩
  · rintro ⟨hr, hJudge⟩
    have hAccepted : judge registry r = .ok d := hJudge
    exact ⟨r, hr, by simp [hAccepted, Except.toOption]⟩

theorem validRecords_eq (registry : Registry ι) (rs : List Record) :
    validRecords registry rs =
      (accepted registry rs).foldl (fun valid p => valid.insert p.1.object p) ∅ := by
  rw [accepted, List.foldl_filterMap, validRecords]
  congr
  funext valid r
  cases judge registry r <;> rfl

/-- Of records of different objects, the valid ones are found under their
objects. -/
theorem get?_eq_some (hNodup : (rs.map Record.object).Nodup) :
    (validRecords registry rs)[id]? = some (r, d) ↔ Valid registry rs r d ∧ r.object = id := by
  rw [validRecords_eq]
  rcases getElem?_foldl_insert (fun p : Record × Definition => p.1.object) (fun p => p)
    (accepted registry rs) ∅ id with ⟨⟨r', d'⟩, hp, hObject, hGet⟩ | ⟨hNone, hGet⟩
  · have hFound := mem_accepted.1 hp
    rw [hGet]
    constructor
    · intro hSame
      cases Option.some.inj hSame
      exact ⟨hFound, hObject⟩
    · rintro ⟨hValid, rfl⟩
      have hSame : r' = r := List.inj_on_of_nodup_map hNodup hFound.mem hValid.mem hObject
      subst hSame
      rw [hValid.unique hFound]
  · rw [hGet]
    constructor
    · intro hSame
      simp at hSame
    · rintro ⟨hValid, hObject⟩
      exact absurd hObject (hNone _ (mem_accepted.2 hValid))

theorem contains_validRecords (hNodup : (rs.map Record.object).Nodup) :
    (validRecords registry rs).contains id = true ↔
      ∃ r d, Valid registry rs r d ∧ r.object = id := by
  rw [ExtTreeMap.contains_iff_mem, ExtTreeMap.mem_iff_isSome_getElem?, Option.isSome_iff_exists]
  constructor
  · rintro ⟨⟨r, d⟩, hGet⟩
    exact ⟨r, d, (get?_eq_some hNodup).1 hGet⟩
  · rintro ⟨r, d, hValid⟩
    exact ⟨(r, d), (get?_eq_some hNodup).2 hValid⟩

/-! ## The walk -/

/-- A record whose definition has no references refers to nothing. -/
theorem hasReferences_of_refersTo {target : ObjectId} (h : r.RefersTo d target) :
    d.hasReferences = true := by
  obtain ⟨m, hm, hRefers⟩ := h
  cases hSome : m.kind.hasReferences with
  | false => exact absurd hRefers (Record.not_refersAt (Or.inl hSome))
  | true => exact List.any_eq_true.2 ⟨m, hm, hSome⟩

/-- What the walk reaches is linked. -/
theorem linked_of_reachable (hNodup : (rs.map Record.object).Nodup)
    (h : Reachable (network (validRecords registry rs)) (rules (validRecords registry rs)) roots
      id) : ∃ r, Linked registry rs roots r ∧ r.object = id := by
  have hFound : ∀ id, (rules (validRecords registry rs)).skip id = false →
      ∃ r d, Valid registry rs r d ∧ r.object = id := by
    intro id hSkip
    exact (contains_validRecords hNodup).1 (by simpa [rules] using hSkip)
  induction h with
  | root hRoot hSkip =>
      obtain ⟨r, d, hValid, rfl⟩ := hFound _ hSkip
      exact ⟨r, Linked.root hValid hRoot, rfl⟩
  | step _ _ hNext hIn hSkip ih =>
      obtain ⟨r, hLinked, rfl⟩ := ih
      obtain ⟨d, hValid⟩ := hLinked.valid
      obtain ⟨r', d', hValid', rfl⟩ := hFound _ hSkip
      have hGet := (get?_eq_some hNodup).2 ⟨hValid, rfl⟩
      simp only [network, hGet] at hNext
      have hRefers := (Definition.mem_references hNext).1 hIn
      exact ⟨r', Linked.step hLinked hValid hRefers hValid', rfl⟩

/-- What is linked the walk reaches, if the references on the way can be
listed. -/
theorem reachable_of_linked (hNodup : (rs.map Record.object).Nodup)
    (hListed : ∀ id, Reachable (network (validRecords registry rs))
      (rules (validRecords registry rs)) roots id →
      (rules (validRecords registry rs)).classify id = .full →
      ∃ next, (network (validRecords registry rs)).successors id = .ok next)
    (h : Linked registry rs roots r) :
    Reachable (network (validRecords registry rs)) (rules (validRecords registry rs)) roots
      r.object := by
  have hKept : ∀ {r d}, Valid registry rs r d →
      (rules (validRecords registry rs)).skip r.object = false := by
    intro r d hValid
    have hContains := (contains_validRecords hNodup).2 ⟨r, d, hValid, rfl⟩
    simp [rules, hContains]
  induction h with
  | root hValid hRoot => exact Reachable.root hRoot (hKept hValid)
  | @step r r' d d' hLinked hValid hRefers hValid' ih =>
      have hGet := (get?_eq_some hNodup).2 ⟨hValid, rfl⟩
      -- The walk goes on from every record that refers to something.
      have hFull : (rules (validRecords registry rs)).classify r.object = .full := by
        simp [Rules.classify, rules, hGet, hasReferences_of_refersTo hRefers]
      obtain ⟨next, hNext⟩ := hListed _ ih hFull
      have hReferences := hNext
      simp only [network, hGet] at hReferences
      exact Reachable.step ih hFull hNext ((Definition.mem_references hReferences).2 hRefers)
        (hKept hValid')

theorem reachable_iff_linked (hNodup : (rs.map Record.object).Nodup)
    (hListed : ∀ id, Reachable (network (validRecords registry rs))
      (rules (validRecords registry rs)) roots id →
      (rules (validRecords registry rs)).classify id = .full →
      ∃ next, (network (validRecords registry rs)).successors id = .ok next) :
    Reachable (network (validRecords registry rs)) (rules (validRecords registry rs)) roots id ↔
      ∃ r, Linked registry rs roots r ∧ r.object = id := by
  refine ⟨linked_of_reachable hNodup, ?_⟩
  rintro ⟨r, hLinked, rfl⟩
  exact reachable_of_linked hNodup hListed hLinked

/-! ## What is noted -/

section

instance : LawfulEqCmp (compareLex (compareOn Prod.fst) (compareOn Prod.snd) :
    ObjectId × ObjectId → ObjectId × ObjectId → Ordering) where
  eq_of_compare {p q} h := by
    obtain ⟨hFirst, hSecond⟩ := compareLex_eq_eq.1 h
    exact Prod.ext (ObjectId.compare_eq_iff.1 hFirst) (ObjectId.compare_eq_iff.1 hSecond)

variable {stored : ExtTreeSet ObjectId} {valid : ValidRecords} {found found' : Found}

theorem mem_noted (targets : List ObjectId)
    (dangling : ExtTreeMap (ObjectId × ObjectId) Unit
      (compareLex (compareOn Prod.fst) (compareOn Prod.snd))) (p : ObjectId × ObjectId) :
    p ∈ targets.foldl (fun ds target => ds.insert (id, target) ()) dangling ↔
      p ∈ dangling ∨ p.1 = id ∧ p.2 ∈ targets := by
  induction targets generalizing dangling with
  | nil => simp
  | cons target rest ih =>
      rw [List.foldl_cons, ih, ExtTreeMap.mem_insert, LawfulEqCmp.compare_eq_iff_eq, List.mem_cons,
        Prod.ext_iff]
      grind

/-- One visit notes that the record was reached, and which of its references
are dangling. -/
theorem visit_proceeds {treatment : Visit}
    (h : visit stored valid id treatment found = (.proceed, found')) :
    found'.reached = found.reached.insert id ∧
      (∀ p, p ∈ found'.dangling ↔ p ∈ found.dangling ∨ p.1 = id ∧ ∃ r d,
        valid[id]? = some (r, d) ∧ p.2 ∈ (d.references r).seen ∧ stored.contains p.2 = false) ∧
      ∀ r d, valid[id]? = some (r, d) → (d.references r).result = .ok () := by
  unfold visit at h
  cases hGet : valid[id]? with
  | none =>
      simp only [hGet] at h
      obtain ⟨-, rfl⟩ := Prod.mk.inj h
      simp
  | some entry =>
      obtain ⟨r, d⟩ := entry
      simp only [hGet] at h
      cases hResult : (d.references r).result with
      | error e =>
          simp only [hResult] at h
          cases h
      | ok _ =>
          simp only [hResult] at h
          obtain ⟨-, rfl⟩ := Prod.mk.inj h
          refine ⟨rfl, fun p => ?_, ?_⟩
          · rw [mem_noted]
            simp
          · intro r' d' hSame
            cases hSame
            exact hResult

/-- What is noted on the way. -/
theorem visits_noted {visitRules : Rules ObjectId} {visited : List ObjectId}
    (h : Visits visitRules (visit stored valid) found visited found') :
    (∀ id, id ∈ found'.reached ↔ id ∈ found.reached ∨ id ∈ visited) ∧
      (∀ p, p ∈ found'.dangling ↔ p ∈ found.dangling ∨ p.1 ∈ visited ∧ ∃ r d,
        valid[p.1]? = some (r, d) ∧ p.2 ∈ (d.references r).seen ∧ stored.contains p.2 = false) ∧
      ∀ id ∈ visited, ∀ r d, valid[id]? = some (r, d) → (d.references r).result = .ok () := by
  induction h with
  | nil found => simp
  | @cons id rest found found₁ found' hVisit _ ih =>
      obtain ⟨hReached, hDangling, hResult⟩ := visit_proceeds hVisit
      obtain ⟨hReachedRest, hDanglingRest, hResultRest⟩ := ih
      refine ⟨fun other => ?_, fun p => ?_, ?_⟩
      · rw [hReachedRest, hReached, ExtTreeSet.mem_insert, ObjectId.compare_eq_iff, List.mem_cons]
        grind
      · rw [hDanglingRest, hDangling, List.mem_cons]
        grind
      · intro other hOther
        rcases List.mem_cons.1 hOther with rfl | hIn
        · exact hResult
        · exact hResultRest other hIn

end

end Check

/-! ## The report -/

/-- The report says of the records what is to be said. -/
structure CheckReport.Exact (registry : Registry ι) (rs : List Record) (roots : List ObjectId)
    (report : CheckReport) : Prop where
  entities : report.entities = rs.length
  invalid : ∀ id e, (id, e) ∈ report.invalid ↔
    ∃ r ∈ rs, r.object = id ∧ registry.validateEntity r.length r.type r.object = .error e
  invalidAscending : report.invalid.Pairwise fun p q => p.1.value < q.1.value
  /-- The reached records are counted, each once. -/
  reachable : ∃ reached : List ObjectId, reached.Nodup ∧ report.reachable = reached.length ∧
    ∀ id, id ∈ reached ↔ ∃ r, Check.Linked registry rs roots r ∧ r.object = id
  unreachable : ∀ id, id ∈ report.unreachable ↔
    ∃ r d, Check.Valid registry rs r d ∧ ¬Check.Linked registry rs roots r ∧ r.object = id
  unreachableAscending : report.unreachable.Pairwise fun id id' => id.value < id'.value
  dangling : ∀ source target, ⟨source, target⟩ ∈ report.dangling ↔
    ∃ r d, Check.Linked registry rs roots r ∧ Check.Valid registry rs r d ∧ r.object = source ∧
      r.RefersTo d target ∧ ∀ r' ∈ rs, r'.object ≠ target
  missingRoots : report.missingRoots = roots.filter fun id => id ∉ rs.map Record.object

namespace Check

variable {id : ObjectId} {r : Record} {d : Definition}

theorem visit_ne_stop {stored : ExtTreeSet ObjectId} {valid : ValidRecords} (treatment : Visit)
    (found : Found) : (visit stored valid id treatment found).1 ≠ .stop := by
  unfold visit
  cases valid[id]? with
  | none => exact fun hStop => nomatch hStop
  | some entry =>
      dsimp only
      cases (entry.2.references entry.1).result with
      | ok _ => exact fun hStop => nomatch hStop
      | error e => exact fun hStop => nomatch hStop

theorem mem_invalidRecords {e : Error} : (id, e) ∈ invalidRecords registry rs ↔
    ∃ r ∈ rs, r.object = id ∧ judge registry r = .error e := by
  rw [invalidRecords, List.mem_filterMap]
  constructor
  · rintro ⟨r, hr, hSome⟩
    cases hJudge : judge registry r with
    | ok d => simp [hJudge] at hSome
    | error cause =>
        simp only [hJudge, Option.some.injEq, Prod.mk.injEq] at hSome
        exact ⟨r, hr, hSome.1, by rw [hJudge, hSome.2]⟩
  · rintro ⟨r, hr, rfl, hJudge⟩
    exact ⟨r, hr, by simp [hJudge]⟩

/-- The invalid records are listed in the order of the records. -/
theorem sublist_invalidRecords :
    ((invalidRecords registry rs).map Prod.fst).Sublist (rs.map Record.object) := by
  induction rs with
  | nil => exact List.Sublist.slnil
  | cons r rest ih =>
      rw [invalidRecords, List.filterMap_cons]
      cases judge registry r with
      | ok d => exact ih.cons _
      | error e => exact ih.cons_cons _

theorem ascending_invalidRecords (hAscending : EntityStore.Ascending rs) :
    (invalidRecords registry rs).Pairwise fun p q => p.1.value < q.1.value := by
  have hObjects : (rs.map Record.object).Pairwise fun id id' => id.value < id'.value :=
    List.pairwise_map.2 hAscending
  have hInvalid := hObjects.sublist (@sublist_invalidRecords _ registry rs)
  rwa [List.pairwise_map] at hInvalid

/-- A linked record is the only one of its object. -/
theorem Linked.eq_of_object (hNodup : (rs.map Record.object).Nodup) {r' : Record}
    (h : Linked registry rs roots r) (hr' : r' ∈ rs) (hObject : r.object = r'.object) : r = r' := by
  obtain ⟨d, hValid⟩ := h.valid
  exact List.inj_on_of_nodup_map hNodup hValid.mem hr' hObject

/-- The walk of a check. -/
abbrev walk (registry : Registry ι) (rs : List Record) (roots : List ObjectId) :
    Walk ObjectId Found :=
  Walk.run (network (validRecords registry rs)) (rules (validRecords registry rs)) roots
    (visit (objects rs) (validRecords registry rs)) ⟨∅, ∅⟩

/-- What is found are the linked records, and their references to objects
without a record. All their references can be listed. -/
structure Finds (registry : Registry ι) (rs : List Record) (roots : List ObjectId)
    (found : Found) : Prop where
  reached : ∀ id, id ∈ found.reached ↔ ∃ r, Linked registry rs roots r ∧ r.object = id
  dangling : ∀ source target, (source, target) ∈ found.dangling ↔
    ∃ r d, Linked registry rs roots r ∧ Valid registry rs r d ∧ r.object = source ∧
      r.RefersTo d target ∧ ∀ r' ∈ rs, r'.object ≠ target
  listed : ∀ r d, Linked registry rs roots r → Valid registry rs r d →
    (d.references r).toExcept = .ok (d.references r).seen

theorem finds_of_walk (hNodup : (rs.map Record.object).Nodup) {summary : Summary}
    (h : (walk registry rs roots).result = .ok summary) :
    Finds registry rs roots (walk registry rs roots).state := by
  obtain ⟨visited, -, hOrder, hVisits, hNext⟩ :=
    Walk.run_ok (fun _ treatment found => visit_ne_stop treatment found) h
  obtain ⟨hReached, hDangling, hListed⟩ := visits_noted hVisits
  have hVisited : ∀ id, id ∈ visited ↔ ∃ r, Linked registry rs roots r ∧ r.object = id := by
    intro id
    rw [hOrder.reachable, reachable_iff_linked hNodup]
    exact fun id hReachable hFull => hNext id ((hOrder.reachable id).2 hReachable) hFull
  have hAll : ∀ r d, Linked registry rs roots r → Valid registry rs r d →
      (d.references r).toExcept = .ok (d.references r).seen := by
    intro r d hLinked hValid
    have hGet := (get?_eq_some hNodup).2 ⟨hValid, rfl⟩
    have hResult := hListed _ ((hVisited _).2 ⟨r, hLinked, rfl⟩) r d hGet
    exact Enumeration.toExcept_eq_ok.2 ⟨hResult, rfl⟩
  refine ⟨fun id => ?_, fun source target => ?_, hAll⟩
  · rw [hReached, ← hVisited]
    simp
  · rw [hDangling]
    constructor
    · rintro (hNone | ⟨hIn, r, d, hGet, hTarget, hMissing⟩)
      · simp at hNone
      · obtain ⟨hValid, rfl⟩ := (get?_eq_some hNodup).1 hGet
        obtain ⟨r', hLinked, hObject⟩ := (hVisited _).1 hIn
        cases hLinked.eq_of_object hNodup hValid.mem hObject
        refine ⟨_, d, hLinked, hValid, rfl,
          (Definition.mem_references (hAll _ d hLinked hValid)).1 hTarget, ?_⟩
        intro r' hr' hSame
        rw [contains_objects.2 ⟨r', hr', hSame⟩] at hMissing
        cases hMissing
    · rintro ⟨r, d, hLinked, hValid, rfl, hRefers, hMissing⟩
      have hIn := (hVisited _).2 ⟨r, hLinked, rfl⟩
      have hGet := (get?_eq_some hNodup).2 ⟨hValid, rfl⟩
      refine Or.inr ⟨hIn, r, d, hGet,
        (Definition.mem_references (hAll r d hLinked hValid)).2 hRefers, ?_⟩
      rw [← Bool.not_eq_true, contains_objects]
      rintro ⟨r', hr', hSame⟩
      exact hMissing r' hr' hSame

/-- A check gives a report if and only if the references of every linked record
can be listed. -/
theorem records_isOk_iff (hNodup : (rs.map Record.object).Nodup) :
    (∃ report, records registry rs roots = .ok report) ↔
      ∀ r d, Linked registry rs roots r → Valid registry rs r d →
        ∃ targets, (d.references r).toExcept = .ok targets := by
  constructor
  · rintro ⟨report, hReport⟩ r d hLinked hValid
    obtain ⟨summary, hResult, -⟩ := bind_eq_ok.1 hReport
    exact ⟨_, (finds_of_walk hNodup hResult).listed r d hLinked hValid⟩
  · intro hListed
    have hFound : ∀ id, Reachable (network (validRecords registry rs))
        (rules (validRecords registry rs)) roots id → ∃ r d targets,
          (validRecords registry rs)[id]? = some (r, d) ∧
            (d.references r).toExcept = .ok targets := by
      intro id hReachable
      obtain ⟨r, hLinked, rfl⟩ := linked_of_reachable hNodup hReachable
      obtain ⟨d, hValid⟩ := hLinked.valid
      obtain ⟨targets, hTargets⟩ := hListed r d hLinked hValid
      exact ⟨r, d, targets, (get?_eq_some hNodup).2 ⟨hValid, rfl⟩, hTargets⟩
    have hProceeds : ∀ id found, Reachable (network (validRecords registry rs))
        (rules (validRecords registry rs)) roots id →
        (visit (objects rs) (validRecords registry rs) id
          ((rules (validRecords registry rs)).classify id) found).1 = .proceed := by
      intro id found hReachable
      obtain ⟨r, d, targets, hGet, hTargets⟩ := hFound id hReachable
      simp only [visit, hGet, (Enumeration.toExcept_eq_ok.1 hTargets).1]
    have hFollows : ∀ id, Reachable (network (validRecords registry rs))
        (rules (validRecords registry rs)) roots id →
        (rules (validRecords registry rs)).classify id = .full →
        ∃ next, (network (validRecords registry rs)).successors id = .ok next := by
      intro id hReachable _
      obtain ⟨r, d, targets, hGet, hTargets⟩ := hFound id hReachable
      refine ⟨targets, ?_⟩
      simp only [network, hGet]
      exact hTargets
    obtain ⟨summary, hResult⟩ := Walk.run_result (s := ⟨∅, ∅⟩) hProceeds hFollows
    exact ⟨_, bind_eq_ok.2 ⟨summary, hResult, rfl⟩⟩

/-- The report of a check is exact. -/
theorem exact_of_records (hAscending : EntityStore.Ascending rs) {report : CheckReport}
    (h : records registry rs roots = .ok report) : report.Exact registry rs roots := by
  have hNodup := hAscending.nodup
  obtain ⟨summary, hResult, hReport⟩ := bind_eq_ok.1 h
  have hFinds := finds_of_walk hNodup hResult
  cases hReport
  refine ⟨rfl, fun _ _ => mem_invalidRecords, ascending_invalidRecords hAscending, ?_, ?_, ?_, ?_,
    ?_⟩
  · refine ⟨_, ?_, ExtTreeSet.length_toList.symm, fun id => ?_⟩
    · exact ExtTreeSet.distinct_toList.imp fun hNot hSame => hNot (ObjectId.compare_eq_iff.2 hSame)
    · rw [ExtTreeSet.mem_toList, hFinds.reached]
  · intro id
    rw [List.mem_filter, ExtTreeMap.mem_keys, ← ExtTreeMap.contains_iff_mem,
      contains_validRecords hNodup, Bool.not_eq_true', ← Bool.not_eq_true,
      ExtTreeSet.contains_iff_mem, hFinds.reached]
    constructor
    · rintro ⟨⟨r, d, hValid, rfl⟩, hNot⟩
      exact ⟨r, d, hValid, fun hLinked => hNot ⟨r, hLinked, rfl⟩, rfl⟩
    · rintro ⟨r, d, hValid, hNot, rfl⟩
      refine ⟨⟨r, d, hValid, rfl⟩, ?_⟩
      rintro ⟨r', hLinked, hObject⟩
      exact hNot (hLinked.eq_of_object hNodup hValid.mem hObject ▸ hLinked)
  · refine List.Pairwise.filter _ (ExtTreeMap.ordered_keys.imp ?_)
    intro id id' hLess
    show id.value < id'.value
    exact compare_eq_lt.1 hLess
  · intro source target
    rw [← hFinds.dangling, ← ExtTreeMap.mem_keys, List.mem_map]
    constructor
    · rintro ⟨p, hp, hSame⟩
      cases hSame
      exact hp
    · exact fun hIn => ⟨_, hIn, rfl⟩
  · apply List.filter_congr
    intro id _
    rw [Bool.eq_iff_iff, Bool.not_eq_true', ← Bool.not_eq_true, contains_objects,
      decide_eq_true_iff, List.mem_map]

end Check

theorem CheckReport.isConsistent_iff {report : CheckReport} : report.isConsistent = true ↔
    report.invalid = [] ∧ report.dangling = [] ∧ report.missingRoots = [] := by
  simp only [CheckReport.isConsistent, Bool.and_eq_true, List.isEmpty_iff, and_assoc]

/-- An exact report is consistent if and only if every record is valid, what
the linked ones refer to has a record, and every root has one. -/
theorem CheckReport.Exact.isConsistent_iff {report : CheckReport}
    (h : report.Exact registry rs roots) : report.isConsistent = true ↔
      (∀ r ∈ rs, ∃ d, Check.Valid registry rs r d) ∧
      (∀ r d target, Check.Linked registry rs roots r → Check.Valid registry rs r d →
        r.RefersTo d target → ∃ r' ∈ rs, r'.object = target) ∧
      ∀ root ∈ roots, ∃ r ∈ rs, r.object = root := by
  rw [CheckReport.isConsistent_iff]
  refine and_congr ?_ (and_congr ?_ ?_)
  · constructor
    · intro hNone r hr
      cases hJudge : registry.validateEntity r.length r.type r.object with
      | ok d => exact ⟨d, hr, hJudge⟩
      | error e =>
          have hIn := (h.invalid r.object e).2 ⟨r, hr, rfl, hJudge⟩
          rw [hNone] at hIn
          cases hIn
    · intro hAll
      apply List.eq_nil_iff_forall_not_mem.2
      rintro ⟨id, e⟩ hIn
      obtain ⟨r, hr, -, hJudge⟩ := (h.invalid id e).1 hIn
      obtain ⟨d, hValid⟩ := hAll r hr
      cases hJudge.symm.trans hValid.judged
  · constructor
    · intro hNone r d target hLinked hValid hRefers
      by_cases hStored : ∃ r' ∈ rs, r'.object = target
      · exact hStored
      · have hIn := (h.dangling r.object target).2 ⟨r, d, hLinked, hValid, rfl, hRefers,
          fun r' hr' hObject => hStored ⟨r', hr', hObject⟩⟩
        rw [hNone] at hIn
        cases hIn
    · intro hAll
      apply List.eq_nil_iff_forall_not_mem.2
      rintro ⟨source, target⟩ hIn
      obtain ⟨r, d, hLinked, hValid, -, hRefers, hMissing⟩ := (h.dangling source target).1 hIn
      obtain ⟨r', hr', hObject⟩ := hAll r d target hLinked hValid hRefers
      exact hMissing r' hr' hObject
  · rw [h.missingRoots, List.filter_eq_nil_iff]
    simp

namespace Session

/-- A check of a session is one of the stored records. -/
theorem check_eq {session : Session ι} (hLists : session.store.Lists rs)
    (hReadable : session.store.Readable) :
    session.check registry = Check.records registry rs session.store.roots := by
  rw [check, hLists.split, hReadable]
  rfl

/-- The check of a store, whatever was written to it and whatever is
registered: if it gives a report, this says of the stored records what is to
be said. -/
theorem check_exact (registry : Registry ι) (writes : List EntityStore.Write) (live : Live ι)
    (matcher : Matcher) (report : CheckReport)
    (h : check registry ⟨EntityStore.writeAll writes, live, matcher⟩ = .ok report) :
    ∃ rs, (EntityStore.writeAll writes).Lists rs ∧ EntityStore.Ascending rs ∧
      report.Exact registry rs (EntityStore.writeAll writes).roots := by
  obtain ⟨rs, hLists, hAscending⟩ := (EntityStore.arranged_writeAll writes).lists
  have hRecords : Check.records registry rs (EntityStore.writeAll writes).roots = .ok report := by
    rw [← h, check_eq hLists (EntityStore.readable_writeAll writes)]
  exact ⟨rs, hLists, hAscending, Check.exact_of_records hAscending hRecords⟩

end Session

/-! ## A store with an unreachable record -/

namespace Slots

open EntityStore

/-- The registration of people. -/
def settlers : List (Registration Slots) := [.handler ⟨0, .object person⟩]

/-- Someone whose friend has no record. -/
def recluse : Record := ⟨⟨1000⟩, ⟨1⟩, [5, 0, 0, 0, 99, 0, 0, 0, 0, 0, 0, 0]⟩

/-- Someone without a friend. -/
def hermit : Record := ⟨⟨1000⟩, ⟨2⟩, [7, 0, 0, 0, 0, 0, 0, 0, 0, 0, 0, 0]⟩

/-- Both of them. -/
def hermits : List Record := [recluse, hermit]

/-- They are written to a store. Only the second one is a root. -/
def retreat : List Write := [.commit ⟨Chunk.join hermits, [⟨2⟩], 2⟩ 3 none]

theorem acceptable_hermits : ∀ r ∈ hermits, Chunk.Acceptable r := by
  have hLength : ∀ r ∈ hermits, r.content.length = 12 := by decide
  intro r hr
  rw [Chunk.Acceptable, hLength r hr]
  decide

theorem split_hermits : Chunk.split (Chunk.join hermits) = ⟨hermits, none⟩ :=
  Chunk.split_join acceptable_hermits

/-- The store that they are written to. -/
def hermitage : EntityStore := empty.committed hermits [⟨2⟩] 3 none

theorem fits_retreat : RootList.Fits [⟨2⟩] := RootList.fits_of_length (by decide)

theorem writeAll_retreat : writeAll retreat = hermitage :=
  congrArg Prod.snd (@start_commit empty _ _ none ⟨Chunk.join hermits, [⟨2⟩], 2⟩ split_hermits
    fits_retreat)

theorem roots_hermitage : hermitage.readRoots = .ok [⟨2⟩] ∧ hermitage.roots = [⟨2⟩] :=
  ⟨readRoots_committed fits_retreat, roots_eq (readRoots_committed fits_retreat)⟩

theorem lists_hermitage : hermitage.Lists hermits where
  bytes := rfl
  acceptable := acceptable_hermits
  stored := List.forall_mem_cons.2 ⟨rfl, List.forall_mem_singleton.2 rfl⟩
  complete := by
    intro id hStored
    rcases record?_committed empty hermits [⟨2⟩] 3 none id with ⟨r, hr, hObject, -⟩ | ⟨-, hNone⟩
    · exact ⟨r, hr, hObject⟩
    · rw [hermitage, hNone, record?_empty] at hStored
      cases hStored
  nodup := by decide
  size := rfl

theorem valid_recluse : ∃ d, Check.Valid (Registry.build settlers) hermits recluse d ∧
    (d.references recluse).toExcept = .ok [⟨99⟩] :=
  ⟨_, ⟨List.mem_cons_self, rfl⟩, rfl⟩

theorem valid_hermit : ∃ d, Check.Valid (Registry.build settlers) hermits hermit d ∧
    (d.references hermit).toExcept = .ok [] :=
  ⟨_, ⟨List.mem_cons_of_mem _ List.mem_cons_self, rfl⟩, rfl⟩

/-- No root leads to the recluse. -/
theorem linked_hermits {r : Record}
    (h : Check.Linked (Registry.build settlers) hermits [⟨2⟩] r) : r = hermit := by
  have hSame : ∀ {r d}, Check.Valid (Registry.build settlers) hermits r d → r.object = ⟨2⟩ →
      r = hermit := by
    intro r d hValid hObject
    rcases List.mem_cons.1 hValid.mem with rfl | hIn
    · cases hObject
    · exact List.mem_singleton.1 hIn
  induction h with
  | root hValid hRoot => exact hSame hValid (List.mem_singleton.1 hRoot)
  | step _ hValid hRefers _ ih =>
      subst ih
      obtain ⟨d, hValid', hNone⟩ := valid_hermit
      cases hValid'.unique hValid
      cases (Definition.mem_references hNone).2 hRefers

/-- The store can be checked, and the check finds nothing that does harm. -/
theorem records_hermits : ∃ report,
    Check.records (Registry.build settlers) hermits hermitage.roots = .ok report ∧
      report.isConsistent = true ∧ ∀ id, id ∈ report.unreachable ↔ id = ⟨1⟩ := by
  rw [roots_hermitage.2]
  obtain ⟨d, hHermit, hNone⟩ := valid_hermit
  obtain ⟨d', hRecluse, -⟩ := valid_recluse
  obtain ⟨report, hReport⟩ := (Check.records_isOk_iff lists_hermitage.nodup).2 (by
    intro r d' hLinked hValid
    cases linked_hermits hLinked
    cases hHermit.unique hValid
    exact ⟨_, hNone⟩)
  have hAscending : Ascending hermits := by
    unfold Ascending
    decide
  have hExact := Check.exact_of_records hAscending hReport
  refine ⟨report, hReport, hExact.isConsistent_iff.2 ⟨?_, ?_, ?_⟩, fun id => ?_⟩
  · exact List.forall_mem_cons.2 ⟨⟨_, hRecluse⟩, List.forall_mem_singleton.2 ⟨_, hHermit⟩⟩
  · intro r d' target hLinked hValid hRefers
    cases linked_hermits hLinked
    cases hHermit.unique hValid
    cases (Definition.mem_references hNone).2 hRefers
  · exact List.forall_mem_singleton.2 ⟨hermit, hHermit.mem, rfl⟩
  · rw [hExact.unreachable]
    constructor
    · rintro ⟨r, d, hValid, hNot, rfl⟩
      rcases List.mem_cons.1 hValid.mem with rfl | hIn
      · rfl
      · cases List.mem_singleton.1 hIn
        exact absurd (Check.Linked.root hValid (List.mem_singleton.2 rfl)) hNot
    · rintro rfl
      refine ⟨recluse, d', hRecluse, fun hLinked => ?_, rfl⟩
      exact absurd (congrArg Record.object (linked_hermits hLinked)) (by decide)

/-- A new session on the store. -/
def visiting : Session Slots := Session.fresh (writeAll retreat)

theorem check_hermits {report : CheckReport}
    (h : Check.records (Registry.build settlers) hermits hermitage.roots = .ok report) :
    visiting.check (Registry.build settlers) = .ok report := by
  rw [visiting, writeAll_retreat, ← h]
  exact Session.check_eq lists_hermitage (readable_of_readRoots roots_hermitage.1)

/-- The recluse is the one record that no root leads to. -/
theorem check_exact_hermits : ∃ report,
    visiting.check (Registry.build settlers) = .ok report ∧
      (∃ rs, (writeAll retreat).Lists rs ∧ Ascending rs ∧
        report.Exact (Registry.build settlers) rs (writeAll retreat).roots) ∧
      ∀ id, id ∈ report.unreachable ↔ id = ⟨1⟩ := by
  obtain ⟨report, hReport, -, hUnreachable⟩ := records_hermits
  have hCheck := check_hermits hReport
  exact ⟨report, hCheck,
    Session.check_exact _ retreat visiting.live visiting.matcher report hCheck, hUnreachable⟩

end Slots

end ObjectStore
