import ObjectStore.Proofs.Migration.Exactness
import ObjectStore.Proofs.Refactoring.Similarity

/-!
# Legacy members that are merged

A current member gets its bytes from one legacy member, the first that is
matched with it. So whatever else is matched with it is lost. Identifiers and
similarity never match a current member that is matched already, but the
entries of the table are followed without a look at each other. Two of them
may lead to one current member, and this is the only way in which two matches
can have the same target.

## Main results

* `Matching.nodup_targets`: matches with different targets.
* `Matching.explicit_of_shared`: only entries share a target.
* `Matching.nodup_targets_iff`: they do if the table merges members.
* `Matcher.run_merges`: when matches share a target, and what is lost.
-/

namespace ObjectStore

/-- The table leads two legacy members to one current member. -/
def Refactoring.Merges (r : Refactoring) (source target : Definition) (t : Member) : Prop :=
  ∃ m ∈ source.members, ∃ m' ∈ source.members, m ≠ m' ∧
    r.memberTarget source m target = .ok (some (some t)) ∧
      r.memberTarget source m' target = .ok (some (some t))

namespace Matching

variable {matcher : Matcher} {source target : Definition} {matching : Matching} {m t : Member}
  {all explicit exact similar : List Match} {x y : Match}

/-! ## Matches of a run -/

theorem nodup_matched (hRun : matcher.run source target = .ok matching) :
    matching.matched.Nodup := by
  obtain ⟨explicit, exact, similar, hRounds, rfl⟩ := Matcher.run_eq_ok.1 hRun
  exact hRounds.nodup_matched

/-- Matches of one legacy member are the same. -/
theorem eq_of_source (hRun : matcher.run source target = .ok matching) (hx : x ∈ matching.matched)
    (hy : y ∈ matching.matched) (hSame : x.source = y.source) : x = y := by
  obtain ⟨explicit, exact, similar, hRounds, rfl⟩ := Matcher.run_eq_ok.1 hRun
  exact hRounds.single x (hRounds.mem_matched.1 hx) y (hRounds.mem_matched.1 hy) hSame

theorem source_mem (hRun : matcher.run source target = .ok matching) (hx : x ∈ matching.matched) :
    x.source ∈ source.members := by
  obtain ⟨explicit, exact, similar, hRounds, rfl⟩ := Matcher.run_eq_ok.1 hRun
  exact hRounds.source_mem (hRounds.mem_matched.1 hx)

/-- A legacy member is matched as the table asks for. -/
theorem mem_explicit_iff (hRun : matcher.run source target = .ok matching)
    (hm : m ∈ source.members) : ⟨m, some t, .explicit⟩ ∈ matching.matched ↔
      matcher.refactoring.memberTarget source m target = .ok (some (some t)) := by
  obtain ⟨explicit, exact, similar, hRounds, rfl⟩ := Matcher.run_eq_ok.1 hRun
  exact hRounds.accounts.explicit m hm t

/-! ## Different targets -/

theorem nodup_targets (hNodup : all.Nodup) : (targets all).Nodup ↔
    ∀ x ∈ all, ∀ y ∈ all, ∀ t, x.target = some t → y.target = some t → x = y := by
  rw [targets, List.Nodup, List.pairwise_filterMap]
  constructor
  · intro hApart x hx y hy t hTarget hTarget'
    have : Std.Symm fun x y : Match => ∀ t, x.target = some t → ∀ t', y.target = some t' → t ≠ t' :=
      ⟨fun x y h t ht t' ht' => (h t' ht' t ht).symm⟩
    refine Classical.byContradiction fun hNe => ?_
    exact hApart.forall hx hy hNe t hTarget t hTarget' rfl
  · intro hSame
    refine hNodup.pairwise_of_forall_ne fun x hx y hy hNe t hTarget t' hTarget' hTargets => hNe ?_
    exact hSame x hx y hy t hTarget (hTargets ▸ hTarget')

/-! ## Entries that share a target -/

/-- A target is shared by entries only. -/
theorem Rounds.explicit_of_shared (h : Rounds matcher source target explicit exact similar)
    (hx : x ∈ explicit ++ exact ++ similar) (hy : y ∈ explicit ++ exact ++ similar) (hNe : x ≠ y)
    (hTarget : x.target = some t) (hTarget' : y.target = some t) :
    x = ⟨x.source, some t, .explicit⟩ := by
  have hAlone : x ∉ exact ++ similar := fun hIn =>
    hNe (h.eq_of_target hIn hy (hTarget'.trans hTarget.symm)).symm
  have hFirst : x ∈ explicit := by
    rw [List.append_assoc] at hx
    exact (List.mem_append.1 hx).resolve_right hAlone
  rcases (h.mem_explicit.1 hFirst).cases with ⟨t', hMatch⟩ | hMatch
  · have hSame : t' = t :=
      Option.some.inj ((congrArg Match.target hMatch).symm.trans hTarget)
    rw [hSame] at hMatch
    exact hMatch
  · cases hTarget.symm.trans (congrArg Match.target hMatch)

theorem explicit_of_shared (hRun : matcher.run source target = .ok matching)
    (hx : x ∈ matching.matched) (hy : y ∈ matching.matched) (hNe : x ≠ y)
    (hTarget : x.target = some t) (hTarget' : y.target = some t) :
    x = ⟨x.source, some t, .explicit⟩ := by
  obtain ⟨explicit, exact, similar, hRounds, rfl⟩ := Matcher.run_eq_ok.1 hRun
  rw [hRounds.mem_matched] at hx hy
  exact hRounds.explicit_of_shared hx hy hNe hTarget hTarget'

/-- The table leads the legacy members of entries that share a target there. -/
theorem nodup_targets_iff (hRun : matcher.run source target = .ok matching) :
    (targets matching.matched).Nodup ↔ ∀ t, ¬matcher.refactoring.Merges source target t := by
  rw [nodup_targets (nodup_matched hRun)]
  constructor
  · rintro hSame t ⟨m, hm, m', hm', hNe, hLeads, hLeads'⟩
    have hMatches := hSame _ ((mem_explicit_iff hRun hm).2 hLeads) _
      ((mem_explicit_iff hRun hm').2 hLeads') t rfl rfl
    exact hNe (congrArg Match.source hMatches)
  · intro hNone x hx y hy t hTarget hTarget'
    refine Classical.byContradiction fun hNe => hNone t ?_
    have hMatch := explicit_of_shared hRun hx hy hNe hTarget hTarget'
    have hMatch' := explicit_of_shared hRun hy hx (Ne.symm hNe) hTarget' hTarget
    have hIn := source_mem hRun hx
    have hIn' := source_mem hRun hy
    refine ⟨x.source, hIn, y.source, hIn', fun hSources => hNe ?_, ?_, ?_⟩
    · rw [hMatch, hMatch', hSources]
    · rw [← mem_explicit_iff hRun hIn, ← hMatch]
      exact hx
    · rw [← mem_explicit_iff hRun hIn', ← hMatch']
      exact hy

/-- A current member that is matched has a first source. -/
theorem exists_firstSource (hRun : matcher.run source target = .ok matching)
    (hx : x ∈ matching.matched) (hTarget : x.target = some t) :
    ∃ y ∈ matching.matched, y.target = some t ∧ FirstSource source matching y.source t := by
  obtain ⟨y, hFind⟩ := Option.isSome_iff_exists.1
    (List.find?_isSome.2 ⟨x, hx, decide_eq_true hTarget⟩ :
      (matching.matched.find? (·.target = some t)).isSome)
  exact ⟨y, List.mem_of_find?_eq_some hFind, by simpa using List.find?_some hFind,
    firstSource_of_find? hRun hFind⟩

end Matching

namespace Matcher

open Matching

/-! ## Main statement -/

/--
Two matches have the same target only if both follow entries of the table, and
there are such matches exactly if the table leads two legacy members to one
current member. Exactly then some legacy member is matched without being the
one that its target is copied from.
-/
theorem run_merges {matcher : Matcher} {source target : Definition} {matching : Matching}
    (h : matcher.run source target = .ok matching) :
    (∀ x ∈ matching.matched, ∀ y ∈ matching.matched, x ≠ y → ∀ t,
        x.target = some t → y.target = some t →
          x = ⟨x.source, some t, .explicit⟩ ∧ y = ⟨y.source, some t, .explicit⟩) ∧
      ((targets matching.matched).Nodup ↔
        ∀ t, ¬matcher.refactoring.Merges source target t) ∧
      ((targets matching.matched).Nodup ↔
        ∀ x ∈ matching.matched, ∀ t, x.target = some t →
          FirstSource source matching x.source t) := by
  refine ⟨?_, nodup_targets_iff h, ?_⟩
  · intro x hx y hy hNe t hTarget hTarget'
    exact ⟨explicit_of_shared h hx hy hNe hTarget hTarget',
      explicit_of_shared h hy hx (Ne.symm hNe) hTarget' hTarget⟩
  · rw [nodup_targets (nodup_matched h)]
    constructor
    · intro hSame x hx t hTarget
      obtain ⟨y, hy, hTarget', hFirst⟩ := exists_firstSource h hx hTarget
      rw [hSame x hx y hy t hTarget hTarget']
      exact hFirst
    · intro hFirst x hx y hy t hTarget hTarget'
      exact eq_of_source h hx hy ((hFirst x hx t hTarget).unique (hFirst y hy t hTarget'))

/-- What a person is called. -/
def fullName : Member := ⟨.unqualified "name", .primitive .u32, "u32", some 0⟩

/-- Persons have one name. -/
def person : Definition where
  id := ⟨1010⟩
  name := "Person"
  runtime := none
  members := [fullName]
  laidOut := ⟨[.ofKind (.unqualified "name") (.primitive .u32)], _, rfl⟩

/-- The first name of a person. -/
def firstName : Member := ⟨.unqualified "first", .primitive .u32, "u32", some 0⟩

/-- The last name of a person. -/
def lastName : Member := ⟨.unqualified "last", .primitive .u32, "u32", some 4⟩

/-- Persons had two names before. -/
def formerPerson : Definition where
  id := ⟨1000⟩
  name := "Person"
  runtime := none
  members := [firstName, lastName]
  laidOut := ⟨[.ofKind (.unqualified "first") (.primitive .u32),
    .ofKind (.unqualified "last") (.primitive .u32)], _, rfl⟩

/-- The members of the given names have become the one name. -/
def naming (names : List String) : Matcher :=
  .of (.ofTable (.ofList (names.map fun name => (name, some "#name")))) TypeSimilarity.empty

/-- If the last name has become the name, it is copied there. -/
theorem run_merges_person : ∃ matching, (naming ["#last"]).run formerPerson person = .ok matching ∧
    (targets matching.matched).Nodup ∧
      FirstSource formerPerson matching lastName fullName := by
  obtain ⟨matching, hRun⟩ : ∃ matching,
      (naming ["#last"]).run formerPerson person = .ok matching := ⟨_, rfl⟩
  obtain ⟨-, hNone, hFirst⟩ := run_merges hRun
  have hLast : ⟨lastName, some fullName, .explicit⟩ ∈ matching.matched :=
    (mem_explicit_iff hRun (by simp [formerPerson])).2 rfl
  have hNodup : (targets matching.matched).Nodup := by
    refine hNone.2 ?_
    rintro t ⟨m, hm, m', hm', hNe, hLeads, hLeads'⟩
    -- Only the last name has an entry.
    have hOnly : ∀ m ∈ formerPerson.members,
        (naming ["#last"]).refactoring.memberTarget formerPerson m person = .ok (some (some t)) →
          m = lastName := by
      intro m hm hLeads
      rcases List.mem_cons.1 hm with rfl | hLast
      · cases hLeads
      · exact List.mem_singleton.1 hLast
    exact hNe ((hOnly m hm hLeads).trans (hOnly m' hm' hLeads').symm)
  exact ⟨matching, hRun, hNodup, hFirst.1 hNodup _ hLast fullName rfl⟩

/-- If both names have become the name, they have the same target, and the
last name is lost. -/
theorem not_nodup_targets_person : ∃ matching,
    (naming ["#first", "#last"]).run formerPerson person = .ok matching ∧
      ⟨firstName, some fullName, .explicit⟩ ∈ matching.matched ∧
      ⟨lastName, some fullName, .explicit⟩ ∈ matching.matched ∧
      ¬(targets matching.matched).Nodup ∧
      ¬FirstSource formerPerson matching lastName fullName := by
  obtain ⟨matching, hRun⟩ : ∃ matching,
      (naming ["#first", "#last"]).run formerPerson person = .ok matching := ⟨_, rfl⟩
  have hFirst : ⟨firstName, some fullName, .explicit⟩ ∈ matching.matched :=
    (mem_explicit_iff hRun (by simp [formerPerson])).2 rfl
  have hLast : ⟨lastName, some fullName, .explicit⟩ ∈ matching.matched :=
    (mem_explicit_iff hRun (by simp [formerPerson])).2 rfl
  have hNe : firstName ≠ lastName := by decide
  refine ⟨matching, hRun, hFirst, hLast, ?_, ?_⟩
  · intro hNodup
    exact (nodup_targets_iff hRun).1 hNodup fullName
      ⟨firstName, by simp [formerPerson], lastName, by simp [formerPerson], hNe, rfl, rfl⟩
  · intro hSource
    have hBefore : FirstSource formerPerson matching firstName fullName :=
      ⟨[], [lastName], rfl, ⟨_, hFirst, rfl, rfl⟩, by simp⟩
    exact hNe (hBefore.unique hSource)

end Matcher

end ObjectStore
