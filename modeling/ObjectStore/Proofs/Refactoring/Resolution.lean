import ObjectStore.Refactoring.Table

/-!
# Which member an entry leads to

A legacy member can be written in several ways, and the first of them that
has an entry in the table decides what becomes of it. The entry names the
current member, and here all ways to write members count alike: the first
member, in stored order, that is written so in any way is the one. So a way
that stands in front has no precedence over one behind it, unless there is
but one member that is written so.

## Main results

* `RenameTable.decides_iff`: which entry decides.
* `Refactoring.findTarget_iff`: which member a name leads to.
* `Refactoring.memberTarget_decides`: what becomes of a legacy member.
-/

namespace ObjectStore

/-! ## The entry that decides -/

namespace RenameTable

variable {κ : Type} {table : RenameTable} {keys : List κ} {write : κ → Option String}
  {source : String} {entry : Option String}

/-- The first of the ways to write a name that has an entry has this one. -/
def Decides (table : RenameTable) (keys : List κ) (write : κ → Option String) (source : String)
    (entry : Option String) : Prop :=
  ∃ before key after, keys = before ++ key :: after ∧ write key = some source ∧
    table.get? source = some entry ∧
      ∀ other ∈ before, ∀ written, write other = some written → table.get? written = none

/-- No way to write the name has an entry. -/
def Silent (table : RenameTable) (keys : List κ) (write : κ → Option String) : Prop :=
  ∀ key ∈ keys, ∀ written, write key = some written → table.get? written = none

/-- The entry of one way to write a name. -/
theorem entryOf_eq_none {written? : Option String} :
    (do
      let name ← written?
      let entry ← table.get? name
      return (name, entry) : Option (String × Option String)) = none ↔
      ∀ written, written? = some written → table.get? written = none := by
  cases written? with
  | none => simp
  | some written => cases hEntry : table.get? written <;> simp [hEntry]

theorem decides_iff :
    (keys.findSome? fun key => do
      let name ← write key
      let entry ← table.get? name
      return (name, entry)) = some (source, entry) ↔ table.Decides keys write source entry := by
  rw [List.findSome?_eq_some_iff]
  simp only [entryOf_eq_none]
  refine exists_congr fun before => exists_congr fun key => exists_congr fun after => ?_
  refine and_congr_right fun _ => ?_
  simp [Option.bind_eq_some_iff, and_assoc]

theorem silent_iff :
    (keys.findSome? fun key => do
      let name ← write key
      let entry ← table.get? name
      return (name, entry)) = none ↔ table.Silent keys write := by
  rw [List.findSome?_eq_none_iff]
  simp only [entryOf_eq_none, Silent]

end RenameTable

namespace Refactoring

variable {r : Refactoring} {d source target : Definition} {m t : Member} {name written : String}
  {entry : Option String} {e : Error}

/-! ## The member that is found -/

/-- The current member can be written so. -/
def Writes (r : Refactoring) (d : Definition) (written : String) (m : Member) : Prop :=
  ∃ key ∈ r.targetKeys, key d m = some written

/-- The first member of the type, in stored order, that can be written so. -/
def FirstWritten (r : Refactoring) (d : Definition) (written : String) (m : Member) : Prop :=
  ∃ before after, d.members = before ++ m :: after ∧ r.Writes d written m ∧
    ∀ other ∈ before, ¬r.Writes d written other

/-- Of the ways to write members, the first one in which any member of the
type is written so writes this one so. -/
def Foremost (r : Refactoring) (d : Definition) (written : String) (m : Member) : Prop :=
  ∃ before key after, r.targetKeys = before ++ key :: after ∧ key d m = some written ∧
    ∀ other ∈ before, ∀ m' ∈ d.members, other d m' ≠ some written

theorem writes_iff : (r.targetKeys.any fun key => key d m = some written) = true ↔
    r.Writes d written m := by
  simp [Writes]

/-- The first member that can be written so is found. -/
theorem findTarget_iff : r.findTarget d written = some m ↔ r.FirstWritten d written m := by
  rw [findTarget, List.find?_eq_some_iff_append, writes_iff]
  simp only [FirstWritten, Bool.not_eq_true', ← Bool.not_eq_true, writes_iff]
  constructor
  · rintro ⟨hWrites, before, after, hSplit, hBefore⟩
    exact ⟨before, after, hSplit, hWrites, hBefore⟩
  · rintro ⟨before, after, hSplit, hWrites, hBefore⟩
    exact ⟨hWrites, before, after, hSplit, hBefore⟩

theorem findTarget_eq_none :
    r.findTarget d written = none ↔ ∀ m ∈ d.members, ¬r.Writes d written m := by
  rw [findTarget, List.find?_eq_none]
  simp only [writes_iff]

theorem FirstWritten.writes (h : r.FirstWritten d written m) : r.Writes d written m := by
  obtain ⟨-, -, -, hWrites, -⟩ := h
  exact hWrites

/-- The member that is found has precedence if no other one is written so. -/
theorem FirstWritten.foremost (h : r.FirstWritten d written m)
    (hSole : ∀ m' ∈ d.members, r.Writes d written m' → m' = m) : r.Foremost d written m := by
  obtain ⟨key, hKey, hWritten⟩ := h.writes
  -- The first way in which the member itself is written so comes first.
  obtain ⟨first, hFind⟩ := Option.isSome_iff_exists.1
    (List.find?_isSome.2 ⟨key, hKey, decide_eq_true hWritten⟩ :
      (r.targetKeys.find? fun key => key d m = some written).isSome)
  obtain ⟨hFirst, before, after, hSplit, hBefore⟩ := List.find?_eq_some_iff_append.1 hFind
  refine ⟨before, first, after, hSplit, of_decide_eq_true hFirst, ?_⟩
  intro other hOther m' hm' hSame
  have hIn : other ∈ r.targetKeys := by
    rw [hSplit]
    exact List.mem_append_left _ hOther
  rw [hSole m' hm' ⟨other, hIn, hSame⟩] at hSame
  simpa [hSame] using hBefore other hOther

/-! ## What becomes of a legacy member -/

theorem memberEntry?_iff : r.memberEntry? d m = some (name, entry) ↔
    r.table.Decides r.sourceKeys (fun key => key d m) name entry :=
  RenameTable.decides_iff

theorem memberEntry?_eq_none :
    r.memberEntry? d m = none ↔ r.table.Silent r.sourceKeys fun key => key d m :=
  RenameTable.silent_iff

/-- The ways to write current members may come in any order. -/
theorem writes_perm {keys : List MemberKey} (hPerm : keys.Perm r.targetKeys) :
    Writes { r with targetKeys := keys } d written m ↔ r.Writes d written m :=
  exists_congr fun _ => and_congr_left fun _ => hPerm.mem_iff

theorem memberTarget_perm {keys : List MemberKey} (hPerm : keys.Perm r.targetKeys) :
    memberTarget { r with targetKeys := keys } source m target =
      r.memberTarget source m target := by
  have hFind : ∀ written,
      findTarget { r with targetKeys := keys } target written = r.findTarget target written := by
    intro written
    refine Option.ext fun t => ?_
    rw [findTarget_iff, findTarget_iff]
    simp only [FirstWritten, writes_perm hPerm]
  unfold memberTarget
  simp only [hFind]
  rfl

/-! ## Main statement -/

/--
What becomes of a legacy member is decided by the first way to write it that
has an entry: without one nothing is known, an entry without target removes
it, and otherwise it leads to the first current member, in stored order, that
can be written as the target in any way; if there is none, the entry is a
fault. The order of the ways to write current members makes no difference. So
the first way in which a current member is written as the target need not
lead to the member that is found; it does if only one can be written so.
-/
theorem memberTarget_decides (r : Refactoring) (source : Definition) (m : Member)
    (target : Definition) :
    (r.memberTarget source m target = .ok none ↔
        r.table.Silent r.sourceKeys fun key => key source m) ∧
      (r.memberTarget source m target = .ok (some none) ↔
        ∃ name, r.table.Decides r.sourceKeys (fun key => key source m) name none) ∧
      (∀ t, r.memberTarget source m target = .ok (some (some t)) ↔
        ∃ name written, r.table.Decides r.sourceKeys (fun key => key source m) name (some written) ∧
          r.FirstWritten target written t) ∧
      (∀ e, r.memberTarget source m target = .error e ↔
        ∃ name written, r.table.Decides r.sourceKeys (fun key => key source m) name (some written) ∧
          (∀ t ∈ target.members, ¬r.Writes target written t) ∧
            e = .unresolvableMember name written) ∧
      (∀ keys : List MemberKey, keys.Perm r.targetKeys →
        memberTarget { r with targetKeys := keys } source m target =
          r.memberTarget source m target) ∧
      ∀ written t, r.FirstWritten target written t →
        (∀ t' ∈ target.members, r.Writes target written t' → t' = t) →
          r.Foremost target written t := by
  simp only [← memberEntry?_iff, ← memberEntry?_eq_none, ← findTarget_eq_none]
  refine ⟨?_, ?_, ?_, ?_, fun keys => memberTarget_perm, fun _ _ => FirstWritten.foremost⟩
  -- No entry, an entry without target, and one with a target that is found or not.
  all_goals
    unfold memberTarget
    rcases hEntry : r.memberEntry? source m with _ | ⟨name, _ | written⟩
    · simp
    · simp
    · cases hFind : r.findTarget target written <;>
        simp [← findTarget_iff, hFind, and_assoc, eq_comm]

/-- The holder of a passport as another office has entered it. -/
def enteredHolder : Member :=
  ⟨⟨some "1010:Passport", "holder"⟩, .primitive .u64, "u64", some 0⟩

/-- The holder of a passport. -/
def ownHolder : Member := ⟨.unqualified "holder", .primitive .u64, "u64", some 8⟩

/-- Passports have two members of the same name. -/
def passport : Definition where
  id := ⟨1010⟩
  name := "Passport"
  runtime := none
  members := [enteredHolder, ownHolder]
  laidOut := ⟨[.ofKind ⟨some "1010:Passport", "holder"⟩ (.primitive .u64),
    .ofKind (.unqualified "holder") (.primitive .u64)], _, rfl⟩

/-- Whose passport it was. -/
def bearer : Member := ⟨.unqualified "bearer", .primitive .u64, "u64", some 0⟩

/-- Passports as they were before. -/
def formerPassport : Definition where
  id := ⟨1000⟩
  name := "Passport"
  runtime := none
  members := [bearer]
  laidOut := ⟨[.ofKind (.unqualified "bearer") (.primitive .u64)], _, rfl⟩

/-- The bearer has become the holder that is written as `holder` says. -/
def renamedBearer (holder : String) : Refactoring :=
  .ofTable (RenameTable.empty.insert "#bearer" (some holder))

/-- The name alone leads to the holder that is stored first, in whatever order
members are written. The name with the type leads to the one holder that can be
written so, and with precedence. -/
theorem memberTarget_decides_passport :
    (MemberKey.all.reverse.Perm MemberKey.all ∧
        memberTarget { renamedBearer "#holder" with targetKeys := MemberKey.all.reverse }
          formerPassport bearer passport = .ok (some (some enteredHolder))) ∧
      (renamedBearer "Passport#holder").FirstWritten passport "Passport#holder" ownHolder ∧
        (renamedBearer "Passport#holder").Foremost passport "Passport#holder" ownHolder := by
  have hPerm : MemberKey.all.reverse.Perm MemberKey.all := List.reverse_perm _
  have hFirst : (renamedBearer "Passport#holder").FirstWritten passport "Passport#holder"
      ownHolder := findTarget_iff.1 rfl
  refine ⟨⟨hPerm, ?_⟩, hFirst, ?_⟩
  · have hOrder := (memberTarget_decides (renamedBearer "#holder") formerPassport bearer
      passport).2.2.2.2.1 MemberKey.all.reverse hPerm
    rw [hOrder]
    rfl
  · refine (memberTarget_decides (renamedBearer "Passport#holder") formerPassport bearer
      passport).2.2.2.2.2 _ _ hFirst ?_
    simp only [← writes_iff]
    decide +kernel

/-- The bearer is found to be the holder that is stored first, although the
first way to write members leads to the other one. -/
theorem not_foremost_passport :
    (renamedBearer "1010:Passport#holder").memberTarget formerPassport bearer passport =
        .ok (some (some enteredHolder)) ∧
      (renamedBearer "1010:Passport#holder").Foremost passport "1010:Passport#holder" ownHolder ∧
      ¬(renamedBearer "1010:Passport#holder").Foremost passport "1010:Passport#holder"
        enteredHolder := by
  have hOwn : MemberKey.withTypeId passport ownHolder = some "1010:Passport#holder" := rfl
  refine ⟨rfl, ⟨[], _, _, rfl, hOwn, by simp⟩, ?_⟩
  rintro ⟨before, key, after, hKeys, hWritten, hBefore⟩
  cases before with
  | nil =>
      obtain ⟨rfl, -⟩ := List.cons.inj hKeys
      revert hWritten
      decide +kernel
  | cons first rest =>
      obtain ⟨rfl, -⟩ := List.cons.inj hKeys
      exact hBefore _ List.mem_cons_self ownHolder (by simp [passport]) hOwn

end Refactoring

end ObjectStore
