import ObjectStore.Proofs.Record.Garbled
import ObjectStore.Proofs.Session.Reachability

/-!
# Records that a check cannot read

A check calls a record invalid if its type is unknown or its length is out of
bounds. Whether its references can be read is found out on the walk only, and
there it is no finding: the walk fails, and the check with it. So one garbled
record that a root leads to hides whatever else there is to report, and a
garbled record that no root leads to is not reported as invalid.

## Main results

* `Check.records_isOk_iff_readable`: a check gives a report if and only if it
  reaches no garbled record.
* `Session.check_isOk_iff`: the same for the check of a store, whatever was
  written to it.
-/

namespace ObjectStore

variable {ι : Type} {registry : Registry ι} {rs : List Record} {roots : List ObjectId}

namespace Check

variable {r : Record} {d : Definition}

/-- The references of a valid record can be listed, or it is garbled. -/
theorem Valid.references_cases (h : Valid registry rs r d) (hAcceptable : Chunk.Acceptable r) :
    (∃ targets, (d.references r).toExcept = .ok targets ∧ ¬r.Garbled d) ∨
      ∃ cause, (d.references r).toExcept = .error (.corruptRecord cause) ∧ r.Garbled d :=
  d.references_cases hAcceptable (Registry.validateEntity_eq_ok.1 h.judged).2

/-- A check fails because the references of a linked record cannot be
listed. -/
theorem records_eq_error (hNodup : (rs.map Record.object).Nodup) {e : Error}
    (h : records registry rs roots = .error e) :
    ∃ r d, Linked registry rs roots r ∧ Valid registry rs r d ∧
      (d.references r).toExcept = .error e := by
  have hWalk : (walk registry rs roots).result = .error e := by
    cases hResult : (walk registry rs roots).result with
    | error e' =>
        have hFail : records registry rs roots = .error e' := by
          simp only [records, walk] at hResult ⊢
          rw [hResult]
          rfl
        cases hFail.symm.trans h
        rfl
    | ok summary =>
        have hReport : ∃ report, records registry rs roots = .ok report :=
          ⟨_, bind_eq_ok.2 ⟨summary, hResult, rfl⟩⟩
        obtain ⟨report, hReport⟩ := hReport
        cases hReport.symm.trans h
  obtain ⟨id, hReachable, hFault⟩ := Walk.run_error hWalk
  obtain ⟨r, hLinked, rfl⟩ := linked_of_reachable hNodup hReachable
  obtain ⟨d, hValid⟩ := hLinked.valid
  have hGet := (get?_eq_some hNodup).2 ⟨hValid, rfl⟩
  refine ⟨r, d, hLinked, hValid, ?_⟩
  rcases hFault with ⟨found, hVisit⟩ | hNext
  · simp only [visit, hGet] at hVisit
    cases hResult : (d.references r).result with
    | ok _ => simp [hResult] at hVisit
    | error cause =>
        simp only [hResult, Signal.fail.injEq] at hVisit
        simp only [Enumeration.toExcept, hResult, hVisit]
  · simp only [network, hGet] at hNext
    exact hNext

/-- A check gives a report if and only if it reaches no garbled record. -/
theorem records_isOk_iff_readable (hNodup : (rs.map Record.object).Nodup)
    (hAcceptable : ∀ r ∈ rs, Chunk.Acceptable r) :
    (∃ report, records registry rs roots = .ok report) ↔
      ∀ r d, Linked registry rs roots r → Valid registry rs r d → ¬r.Garbled d := by
  rw [records_isOk_iff hNodup]
  refine forall₄_congr fun r d hLinked hValid => ?_
  rcases hValid.references_cases (hAcceptable r hValid.mem) with
    ⟨targets, hTargets, hFine⟩ | ⟨cause, hError, hGarbled⟩
  · exact ⟨fun _ => hFine, fun _ => ⟨targets, hTargets⟩⟩
  · constructor
    · rintro ⟨targets, hTargets⟩
      cases hTargets.symm.trans hError
    · exact fun hFine => absurd hGarbled hFine

/-- A report lists no valid record as invalid, garbled or not. -/
theorem not_mem_invalid {report : CheckReport} (hExact : report.Exact registry rs roots)
    (hNodup : (rs.map Record.object).Nodup) (hValid : Valid registry rs r d) (e : Error) :
    (r.object, e) ∉ report.invalid := by
  intro hIn
  obtain ⟨r', hr', hObject, hJudged⟩ := (hExact.invalid r.object e).1 hIn
  have hSame : r' = r := List.inj_on_of_nodup_map hNodup hr' hValid.mem hObject
  subst hSame
  cases hJudged.symm.trans hValid.judged

end Check

namespace Session

/-- The check of a store, whatever was written to it and whatever is
registered, gives a report if and only if no garbled record is linked. It
fails with what is wrong in one of these, and no report calls a garbled record
invalid. -/
theorem check_isOk_iff (registry : Registry ι) (writes : List EntityStore.Write) (live : Live ι)
    (matcher : Matcher) :
    ∃ rs, (EntityStore.writeAll writes).Lists rs ∧ EntityStore.Ascending rs ∧
      ((∃ report, check registry ⟨EntityStore.writeAll writes, live, matcher⟩ = .ok report) ↔
        ∀ r d, Check.Linked registry rs (EntityStore.writeAll writes).roots r →
          Check.Valid registry rs r d → ¬r.Garbled d) ∧
      (∀ e, check registry ⟨EntityStore.writeAll writes, live, matcher⟩ = .error e →
        ∃ r d cause, Check.Linked registry rs (EntityStore.writeAll writes).roots r ∧
          Check.Valid registry rs r d ∧ r.Garbled d ∧ e = .corruptRecord cause ∧
          (d.references r).toExcept = .error e) ∧
      ∀ report, check registry ⟨EntityStore.writeAll writes, live, matcher⟩ = .ok report →
        report.Exact registry rs (EntityStore.writeAll writes).roots ∧
          ∀ r d, Check.Valid registry rs r d → ∀ e, (r.object, e) ∉ report.invalid := by
  obtain ⟨rs, hLists, hAscending⟩ := (EntityStore.arranged_writeAll writes).lists
  have hCheck : check registry ⟨EntityStore.writeAll writes, live, matcher⟩ =
      Check.records registry rs (EntityStore.writeAll writes).roots :=
    check_eq hLists (EntityStore.readable_writeAll writes)
  have hNodup := hAscending.nodup
  refine ⟨rs, hLists, hAscending, ?_, ?_, ?_⟩
  · rw [hCheck]
    exact Check.records_isOk_iff_readable hNodup hLists.acceptable
  · intro e hError
    rw [hCheck] at hError
    obtain ⟨r, d, hLinked, hValid, hReferences⟩ := Check.records_eq_error hNodup hError
    rcases hValid.references_cases (hLists.acceptable r hValid.mem) with
      ⟨targets, hTargets, -⟩ | ⟨cause, hCause, hGarbled⟩
    · cases hReferences.symm.trans hTargets
    · cases hReferences.symm.trans hCause
      exact ⟨r, d, cause, hLinked, hValid, hGarbled, rfl, hReferences⟩
  · intro report hReport
    rw [hCheck] at hReport
    have hExact := Check.exact_of_records hAscending hReport
    exact ⟨hExact, fun r d hValid e => Check.not_mem_invalid hExact hNodup hValid e⟩

end Session

/-! ## A store with a garbled record -/

namespace Slots

open EntityStore

/-- The registration of teams, which have any number of members. -/
def sports : List (Registration Slots) :=
  [.handler ⟨0, .object (handler ⟨1001⟩ "Team" ⟨"Team"⟩ [("members", .referenceList)])⟩]

/-- A team whose list of members claims five bytes and has none. -/
def torn : Record := ⟨⟨1001⟩, ⟨1⟩, [5, 0, 0, 0, 0, 0, 0, 0]⟩

/-- The team is written to a store with these roots. -/
def league (roots : List ObjectId) : List Write :=
  [.commit ⟨Chunk.join [torn], roots, 1⟩ 2 none]

theorem acceptable_torn : ∀ r ∈ [torn], Chunk.Acceptable r := by
  refine List.forall_mem_singleton.2 ?_
  unfold Chunk.Acceptable
  decide

/-- The store that it is written to. -/
def stadium (roots : List ObjectId) : EntityStore := empty.committed [torn] roots 2 none

variable {roots : List ObjectId}

theorem writeAll_league (hFits : RootList.Fits roots) : writeAll (league roots) = stadium roots :=
  congrArg Prod.snd (@start_commit empty _ _ none ⟨Chunk.join [torn], roots, 1⟩
    (Chunk.split_join acceptable_torn) hFits)

theorem lists_stadium (roots : List ObjectId) : (stadium roots).Lists [torn] where
  bytes := rfl
  acceptable := acceptable_torn
  stored := List.forall_mem_singleton.2 rfl
  complete := by
    intro id hStored
    rcases record?_committed empty [torn] roots 2 none id with ⟨r, hr, hObject, -⟩ | ⟨-, hNone⟩
    · exact ⟨r, hr, hObject⟩
    · rw [stadium, hNone, record?_empty] at hStored
      cases hStored
  nodup := by simp
  size := rfl

theorem valid_torn : ∃ d, Check.Valid (Registry.build sports) [torn] torn d ∧
    (d.references torn).toExcept =
      .error (.corruptRecord (.rangeOutOfBounds 8 13 ⟨1⟩ 8)) :=
  ⟨_, ⟨List.mem_cons_self, rfl⟩, rfl⟩

/-- A new session on the store. -/
def onLeague (roots : List ObjectId) : Session Slots := Session.fresh (writeAll (league roots))

theorem check_onLeague (hFits : RootList.Fits roots) :
    (onLeague roots).check (Registry.build sports) =
      Check.records (Registry.build sports) [torn] roots := by
  have hRead : (stadium roots).readRoots = .ok roots := readRoots_committed hFits
  have hStore : (onLeague roots).store = stadium roots := writeAll_league hFits
  rw [Session.check_eq (hStore ▸ lists_stadium roots) (hStore ▸ readable_of_readRoots hRead),
    hStore, roots_eq hRead]

/-- If the team is a root, the check fails. -/
theorem records_torn : Check.records (Registry.build sports) [torn] [⟨1⟩] =
    .error (.corruptRecord (.rangeOutOfBounds 8 13 ⟨1⟩ 8)) := by
  have hNodup : ([torn].map Record.object).Nodup := by simp
  obtain ⟨d, hValid, hReferences⟩ := valid_torn
  have hLinked : Check.Linked (Registry.build sports) [torn] [⟨1⟩] torn :=
    Check.Linked.root hValid (List.mem_singleton.2 rfl)
  cases hCheck : Check.records (Registry.build sports) [torn] [⟨1⟩] with
  | ok report =>
      obtain ⟨targets, hTargets⟩ :=
        (Check.records_isOk_iff hNodup).1 ⟨report, hCheck⟩ torn d hLinked hValid
      cases hTargets.symm.trans hReferences
  | error e =>
      obtain ⟨r, d', -, hValid', hError⟩ := Check.records_eq_error hNodup hCheck
      cases List.mem_singleton.1 hValid'.mem
      cases hValid'.unique hValid
      cases hError.symm.trans hReferences
      rfl

/-- If it is none, the check finds nothing that does harm. -/
theorem records_torn_unlinked : ∃ report,
    Check.records (Registry.build sports) [torn] [] = .ok report ∧ report.isConsistent = true := by
  have hNone : ∀ r, ¬Check.Linked (Registry.build sports) [torn] [] r := by
    intro r hLinked
    induction hLinked with
    | root _ hRoot => cases hRoot
    | step _ _ _ _ ih => exact ih
  obtain ⟨d, hValid, -⟩ := valid_torn
  obtain ⟨report, hReport⟩ := (Check.records_isOk_iff (by simp)).2
    fun r _ hLinked _ => absurd hLinked (hNone r)
  have hExact := Check.exact_of_records (List.pairwise_singleton _ _) hReport
  refine ⟨report, hReport, hExact.isConsistent_iff.2 ⟨?_, ?_, by simp⟩⟩
  · exact List.forall_mem_singleton.2 ⟨d, hValid⟩
  · exact fun r _ _ hLinked => absurd hLinked (hNone r)

/-- The garbled team makes the check fail if it is a root, and goes unnoticed
if it is none. -/
theorem check_league :
    (∃ d, Check.Valid (Registry.build sports) [torn] torn d ∧ torn.Garbled d) ∧
    (onLeague [⟨1⟩]).check (Registry.build sports) =
      .error (.corruptRecord (.rangeOutOfBounds 8 13 ⟨1⟩ 8)) ∧
    ∃ report, (onLeague []).check (Registry.build sports) = .ok report ∧
      report.isConsistent = true := by
  obtain ⟨d, hValid, hReferences⟩ := valid_torn
  refine ⟨⟨d, hValid, ?_⟩, ?_, ?_⟩
  · rcases hValid.references_cases (acceptable_torn torn (List.mem_singleton.2 rfl)) with
      ⟨targets, hTargets, -⟩ | ⟨cause, -, hGarbled⟩
    · cases hTargets.symm.trans hReferences
    · exact hGarbled
  · rw [check_onLeague (RootList.fits_of_length (by decide))]
    exact records_torn
  · rw [check_onLeague (RootList.fits_of_length (by decide))]
    exact records_torn_unlinked

end Slots

end ObjectStore
