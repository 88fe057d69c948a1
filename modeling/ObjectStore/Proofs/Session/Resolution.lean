import ObjectStore.Proofs.Loading.Unresolved
import ObjectStore.Proofs.Session.Reachability
import ObjectStore.Proofs.Session.Refusal

/-!
# What a consistent store lacks

A check looks for dangling references among the records that the roots lead
to, but a load brings every record and resolves the references of all of them.
So a store that is reported as consistent may still refuse to be loaded. What
is missing then is an object that an unreachable record refers to: nothing
else can be, and if the report lists no unreachable record, every reference in
the store can be resolved.

## Main results

* `Session.loadRoots_unresolved`: which object the load of a consistent store
  may lack.
* `Slots.not_resolved_of_consistent`: that it may lack one.
-/

namespace ObjectStore

variable {ι : Type}

/-- The valid record refers to an object without a record. -/
def Check.Dangles (registry : Registry ι) (rs : List Record) (r : Record) (target : ObjectId) :
    Prop :=
  ∃ d, Valid registry rs r d ∧ r.RefersTo d target ∧ ∀ r' ∈ rs, r'.object ≠ target

/-- In a store that is reported as consistent, only what is reported as
unreachable may have dangling references. -/
theorem CheckReport.Exact.unreachable_of_dangles {registry : Registry ι} {rs : List Record}
    {roots : List ObjectId} {report : CheckReport} (h : report.Exact registry rs roots)
    (hConsistent : report.isConsistent = true) {r : Record} {target : ObjectId}
    (hDangles : Check.Dangles registry rs r target) : r.object ∈ report.unreachable := by
  obtain ⟨d, hValid, hRefers, hMissing⟩ := hDangles
  obtain ⟨-, hLinked, -⟩ := h.isConsistent_iff.1 hConsistent
  refine (h.unreachable r.object).2 ⟨r, d, hValid, fun hReached => ?_, rfl⟩
  obtain ⟨r', hr', hObject⟩ := hLinked r d target hReached hValid hRefers
  exact hMissing r' hr' hObject

namespace Session

variable [Instance ι]

/-- After a load without legacy records, every root that has a record has an
instance. -/
theorem lacksOnly_rootRefs {registry : Registry ι} {matcher : Option Matcher} {bytes : Bytes}
    {roots : List ObjectId} {live live' : Live ι} {refs : List Ref} (hLive : live.WellFormed)
    (hCurrent : ∀ r ∈ (Chunk.split bytes).records, registry.isLegacy r.type = false)
    (hRoots : ∀ root ∈ roots, ∃ r ∈ (Chunk.split bytes).records, r.object = root)
    (hLoad : (loadObjects registry matcher bytes).start live = (.ok refs, live')) :
    LacksOnly (fun _ => False) (roots.mapM (rootRef live'.ids)) := by
  obtain ⟨planned, dropped, s, g, hPrepare, hPerformed⟩ :=
    Loading.performed_of_loadObjects hLive hLoad
  obtain ⟨hPlan, -⟩ := Loading.prepare_of_current hCurrent hPrepare
  obtain ⟨-, hRecords, -, -⟩ := Loading.plan_eq_ok hPlan
  refine lacksOnly_mapM fun root hRoot id hError => ?_
  obtain ⟨r, hr, rfl⟩ := hRoots root hRoot
  rw [← hRecords] at hr
  obtain ⟨p, hp, rfl⟩ := List.mem_map.1 hr
  obtain ⟨ref, hRef⟩ := hPerformed.isBound_iff.2 (Or.inr (List.mem_map_of_mem hp))
  obtain ⟨-, hNone⟩ := rootRef_eq_error hError
  rw [hNone] at hRef
  cases hRef

/-- The roots of a store whose records all have handlers cannot be loaded
because an object cannot be resolved. Then one of the records refers to it, but
it has no record, and it was not live before. -/
theorem loadRoots_lacks {registry : Registry ι} {session session' : Session ι} {rs : List Record}
    {id : ObjectId} (hLive : session.live.WellFormed) (hRegistry : registry.WellFormed)
    (hLists : session.store.Lists rs) (hReadable : session.store.Readable)
    (hRoots : ∀ root ∈ session.store.roots, ∃ r ∈ rs, r.object = root)
    (hRestored : ∀ r ∈ rs, ∃ handler, registry.handler? r.type = some handler ∧ handler.Restores)
    (hLoad : (loadRoots registry).start session = (.error (.unresolvedReference id), session')) :
    session.live.ids.ref? id = none ∧ ∃ r, Check.Dangles registry rs r id := by
  have hRecords : (Chunk.split session.store.records).records = rs := by rw [hLists.split]
  rw [← hRecords] at hRestored hRoots
  cases hStart : (loadObjects registry
      (some (session.matcher.withThreshold session.matcher.threshold))
      session.store.records).start session.live with
  | mk result live' =>
      rw [start_loadRoots hStart] at hLoad
      obtain ⟨hError, -⟩ := Prod.mk.inj hLoad
      cases result with
      | ok refs =>
          have hCurrent : ∀ r ∈ (Chunk.split session.store.records).records,
              registry.isLegacy r.type = false := by
            intro r hr
            obtain ⟨handler, hHandler, -⟩ := hRestored r hr
            exact Loading.isLegacy_of_handler hHandler
          rw [hReadable] at hError
          exact (lacksOnly_rootRefs hLive hCurrent hRoots hStart id hError).elim
      | error e =>
          cases hError
          obtain ⟨hFree, hMissing, r, hr, d, hJudged, hRefers⟩ :=
            loadObjects_unresolved hLive hRegistry hRestored hStart
          rw [hRecords] at hMissing hr
          exact ⟨hFree, r, d, ⟨hr, hJudged⟩, hRefers, hMissing⟩

/-- The check of a store finds nothing that does harm. Then every record is
valid, every root has a record, and only unreachable records may refer to
objects without one. If all records have handlers, a load fails because an
object cannot be resolved only if it is one to which such a record refers. -/
theorem loadRoots_unresolved (registrations : List (Registration ι))
    (writes : List EntityStore.Write) (live : Live ι) (matcher : Matcher) (report : CheckReport)
    (hLive : live.WellFormed)
    (hCheck : check (Registry.build registrations) ⟨EntityStore.writeAll writes, live, matcher⟩ =
      .ok report)
    (hConsistent : report.isConsistent = true) :
    ∃ rs, (EntityStore.writeAll writes).Lists rs ∧
      (∀ r ∈ rs, ∃ d, Check.Valid (Registry.build registrations) rs r d) ∧
      (∀ root ∈ (EntityStore.writeAll writes).roots, ∃ r ∈ rs, r.object = root) ∧
      (∀ r target, Check.Dangles (Registry.build registrations) rs r target →
        r.object ∈ report.unreachable) ∧
      ((∀ r ∈ rs, ∃ handler, (Registry.build registrations).handler? r.type = some handler ∧
          handler.Restores) →
        ∀ id session', (loadRoots (Registry.build registrations)).start
            ⟨EntityStore.writeAll writes, live, matcher⟩ =
              (.error (.unresolvedReference id), session') →
          live.ids.ref? id = none ∧
            ∃ r, Check.Dangles (Registry.build registrations) rs r id) := by
  obtain ⟨rs, hLists, hAscending, hExact⟩ :=
    check_exact (Registry.build registrations) writes live matcher report hCheck
  obtain ⟨hValid, -, hRoots⟩ := hExact.isConsistent_iff.1 hConsistent
  refine ⟨rs, hLists, hValid, hRoots, fun r target => hExact.unreachable_of_dangles hConsistent, ?_⟩
  intro hRestored id session' hLoad
  exact loadRoots_lacks hLive (Registry.wellFormed_build registrations) hLists
    (EntityStore.readable_writeAll writes) hRoots hRestored hLoad

end Session

/-! ## A store that is consistent and cannot be loaded -/

namespace Slots

open EntityStore Session

theorem dangles_recluse : Check.Dangles (Registry.build settlers) hermits recluse ⟨99⟩ := by
  obtain ⟨d, hValid, hReferences⟩ := valid_recluse
  refine ⟨d, hValid, (Definition.mem_references hReferences).1 (List.mem_singleton.2 rfl), ?_⟩
  decide

theorem restored_hermits : ∀ r ∈ hermits, ∃ handler,
    (Registry.build settlers).handler? r.type = some handler ∧ handler.Restores := by
  have hRestores : (Handler.object person).Restores := fun construct hConstruct =>
    nomatch hConstruct
  exact List.forall_mem_cons.2 ⟨⟨_, rfl, hRestores⟩,
    List.forall_mem_singleton.2 ⟨_, rfl, hRestores⟩⟩

/-- The plan to load both of them. -/
def lodging : List (PlannedRecord Slots) := hermits.map fun r => ⟨r, .object person, none⟩

theorem prepare_lodging (matcher : Option Matcher) :
    Loading.prepare (Registry.build settlers) matcher (ObjectIds.startingAt 3) hermitage.records =
      .ok (lodging, []) := by
  have hAcceptable : ∀ p ∈ lodging, Chunk.Acceptable p.record :=
    List.forall_mem_map.2 acceptable_hermits
  refine Loading.prepare_join hAcceptable (by decide) ?_
  exact List.forall_mem_cons.2 ⟨⟨rfl, ⟨_, rfl⟩, by decide, rfl⟩,
    List.forall_mem_singleton.2 ⟨rfl, ⟨_, rfl⟩, by decide, rfl⟩⟩

theorem wellFormed_visiting : visiting.live.WellFormed := Live.wellFormed_empty _

/-- The friend of the recluse cannot be found. -/
theorem loadRoots_visiting : ∃ session', (loadRoots (Registry.build settlers)).start visiting =
    (.error (.unresolvedReference ⟨99⟩), session') := by
  have hLoad : ∀ matcher, ∃ live', (loadObjects (Registry.build settlers) matcher
      hermitage.records).start (fresh hermitage).live =
        (.error (.unresolvedReference ⟨99⟩), live') := by
    intro matcher
    have hPrepare : Loading.prepare (Registry.build settlers) matcher
        (fresh hermitage : Session Slots).live.ids hermitage.records = .ok (lodging, []) :=
      prepare_lodging matcher
    simp only [loadObjects, Attempt.start_of, hPrepare]
    exact ⟨_, rfl⟩
  rw [visiting, writeAll_retreat]
  obtain ⟨live', hStart⟩ := hLoad (some
    ((fresh hermitage : Session Slots).matcher.withThreshold
      (fresh hermitage : Session Slots).matcher.threshold))
  exact ⟨_, start_loadRoots hStart⟩

/-- Nothing is found that does harm, and the load lacks the friend of the
recluse, who is unreachable. -/
theorem loadRoots_unresolved_recluse : ∃ report session',
    visiting.live.WellFormed ∧ visiting.check (Registry.build settlers) = .ok report ∧
      report.isConsistent = true ∧ (writeAll retreat).Lists hermits ∧
      (∀ r ∈ hermits, ∃ handler, (Registry.build settlers).handler? r.type = some handler ∧
        handler.Restores) ∧
      (loadRoots (Registry.build settlers)).start visiting =
        (.error (.unresolvedReference ⟨99⟩), session') ∧
      ∃ r, Check.Dangles (Registry.build settlers) hermits r ⟨99⟩ ∧
        r.object ∈ report.unreachable := by
  obtain ⟨report, hReport, hConsistent, -⟩ := records_hermits
  have hCheck := check_hermits hReport
  obtain ⟨session', hLoad⟩ := loadRoots_visiting
  obtain ⟨rs, hLists, -, -, hUnreachable, hLacks⟩ := loadRoots_unresolved settlers retreat
    visiting.live visiting.matcher report wellFormed_visiting hCheck hConsistent
  have hHermits : (writeAll retreat).Lists hermits := writeAll_retreat ▸ lists_hermitage
  cases hHermits.unique hLists
  obtain ⟨-, r, hDangles⟩ := hLacks restored_hermits ⟨99⟩ session' hLoad
  exact ⟨report, session', wellFormed_visiting, hCheck, hConsistent, hHermits, restored_hermits,
    hLoad, r, hDangles, hUnreachable r ⟨99⟩ hDangles⟩

/-- A store of which a check finds that it is consistent may hold dangling
references, and its roots cannot always be loaded. -/
theorem not_resolved_of_consistent :
    (¬∀ (registrations : List (Registration Slots)) (writes : List Write) (live : Live Slots)
      (matcher : Matcher) (report : CheckReport) (rs : List Record),
      check (Registry.build registrations) ⟨writeAll writes, live, matcher⟩ = .ok report →
      report.isConsistent = true → (writeAll writes).Lists rs →
      ∀ r target, ¬Check.Dangles (Registry.build registrations) rs r target) ∧
    ¬∀ (registrations : List (Registration Slots)) (writes : List Write) (live : Live Slots)
      (matcher : Matcher) (report : CheckReport) (rs : List Record),
      live.WellFormed →
      check (Registry.build registrations) ⟨writeAll writes, live, matcher⟩ = .ok report →
      report.isConsistent = true → (writeAll writes).Lists rs →
      (∀ r ∈ rs, ∃ handler, (Registry.build registrations).handler? r.type = some handler ∧
        handler.Restores) →
      ∀ id session', (loadRoots (Registry.build registrations)).start
        ⟨writeAll writes, live, matcher⟩ ≠ (.error (.unresolvedReference id), session') := by
  obtain ⟨report, hReport, hConsistent, -⟩ := records_hermits
  have hCheck := check_hermits hReport
  have hLists : (writeAll retreat).Lists hermits := writeAll_retreat ▸ lists_hermitage
  constructor
  · intro hNone
    exact hNone settlers retreat visiting.live visiting.matcher report hermits hCheck hConsistent
      hLists recluse ⟨99⟩ dangles_recluse
  · intro hNever
    obtain ⟨session', hLoad⟩ := loadRoots_visiting
    exact hNever settlers retreat visiting.live visiting.matcher report hermits
      wellFormed_visiting hCheck hConsistent hLists restored_hermits ⟨99⟩ session' hLoad

end Slots

end ObjectStore
