import ObjectStore.Proofs.Session.Integrity
import ObjectStore.Proofs.Session.Reachability

/-!
# The check of a sound store

The check of a session looks for what must not be in its store. On a sound
store it finds nothing: every record is valid, so the walk from the roots
visits valid records only, and whatever they refer to is stored.

## Main results

* `Check.records_isConsistent`: a check of sound records finds no harm.
* `Session.check_isConsistent`: the check of an intact session.
-/

namespace ObjectStore

variable {ι : Type} {registry : Registry ι}

namespace Check

variable {rs : List Record}

/-- The record is valid, and its references lead to the objects of the
records. -/
def Approves (registry : Registry ι) (rs : List Record) (r : Record) : Prop :=
  ∃ definition targets, judge registry r = .ok definition ∧
    (definition.references r).toExcept = .ok targets ∧
    ∀ target ∈ targets, ∃ r' ∈ rs, r'.object = target

/-- A check of records that are all approved, and among which all roots are,
finds no harm. -/
theorem records_isConsistent {roots : List ObjectId} (hAscending : EntityStore.Ascending rs)
    (hAll : ∀ r ∈ rs, Approves registry rs r)
    (hRoots : ∀ root ∈ roots, ∃ r ∈ rs, r.object = root) :
    ∃ report, records registry rs roots = .ok report ∧ report.isConsistent = true := by
  have hApproved : ∀ r d, Valid registry rs r d → ∃ targets,
      (d.references r).toExcept = .ok targets ∧ ∀ target ∈ targets, ∃ r' ∈ rs, r'.object = target := by
    intro r d hValid
    obtain ⟨definition, targets, hJudge, hTargets, hStored⟩ := hAll r hValid.mem
    cases hValid.judged.symm.trans hJudge
    exact ⟨targets, hTargets, hStored⟩
  obtain ⟨report, hReport⟩ := (records_isOk_iff hAscending.nodup).2 fun r d _ hValid => by
    obtain ⟨targets, hTargets, -⟩ := hApproved r d hValid
    exact ⟨targets, hTargets⟩
  refine ⟨report, hReport, (exact_of_records hAscending hReport).isConsistent_iff.2 ⟨?_, ?_, hRoots⟩⟩
  · intro r hr
    obtain ⟨definition, -, hJudge, -⟩ := hAll r hr
    exact ⟨definition, hr, hJudge⟩
  · intro r d target _ hValid hRefers
    obtain ⟨targets, hTargets, hStored⟩ := hApproved r d hValid
    exact hStored target ((Definition.mem_references hTargets).2 hRefers)

end Check

namespace Session

/-- The check of an intact session finds no harm. -/
theorem check_isConsistent {session : Session ι} {d : Dictionary}
    (h : session.Intact registry d) :
    ∃ report, session.check registry = .ok report ∧ report.isConsistent = true := by
  have hSound := h.sound_registry
  obtain ⟨rs, hLists, hAscending⟩ := hSound.arranged.lists
  have hAll : ∀ r ∈ rs, Check.Approves registry rs r := by
    intro r hr
    obtain ⟨definition, targets, hValid, hTargets, hStored⟩ := (hLists.validates hSound hr).valid
    refine ⟨definition, targets, hValid, hTargets, ?_⟩
    intro target hTarget
    exact hLists.complete target (hStored target hTarget)
  have hRoots : ∀ root ∈ session.store.roots, ∃ r ∈ rs, r.object = root := by
    intro root hRoot
    exact hLists.complete root (hSound.roots root hRoot)
  obtain ⟨report, hReport, hConsistent⟩ := Check.records_isConsistent hAscending hAll hRoots
  refine ⟨report, ?_, hConsistent⟩
  rw [check_eq hLists hSound.readable]
  exact hReport

end Session

end ObjectStore
