import ObjectStore.Handler.Access
import ObjectStore.Refactoring.Matching

/-!
# Converting legacy records

A record of a legacy type is converted into the layout of the current type
member by member. A current member with a legacy counterpart gets its bytes
unchanged, which is possible only if both are of one kind; any other current
member is zero, false, empty or absent. The object identifier is kept. The
converted record is appended to what was written before.

## Main results

* `Conversion.make_types`: a conversion leads from the legacy type to the
  current one.
-/

namespace ObjectStore

/-- Where a current member comes from. -/
inductive MemberSource where
  /-- From the legacy member of the kind at an offset. -/
  | copy (offset : UInt64) (kind : FieldKind)
  /-- From nowhere. -/
  | blank (kind : FieldKind)
deriving DecidableEq, Inhabited

/-- How records of a legacy type become records of a current one. -/
structure Conversion where
  source : TypeId
  target : TypeId
  /-- Where the current members come from, in stored order. -/
  members : List MemberSource
deriving DecidableEq, Inhabited

namespace Conversion

/-- Where a current member comes from, given how the members are matched. -/
def sourceOf (legacy current : Definition) (matched : List Match) (target : Member) :
    Except Error MemberSource := do
  match matched.find? (·.target = some target) with
  | none => return .blank target.kind
  | some m =>
      if m.source.kind ≠ target.kind then
        throw (.incompatibleMembers (legacy.name ++ "#" ++ m.source.id.render)
          (current.name ++ "#" ++ target.id.render))
      return .copy (← m.source.place) target.kind

/-- The conversion that a matcher leads to. -/
def make (matcher : Matcher) (legacy current : Definition) : Except Error Conversion := do
  let matching ← matcher.run legacy current
  let members ← current.members.mapM (sourceOf legacy current matching.matched)
  return ⟨legacy.id, current.id, members⟩

/-- The bytes of a current member. -/
def memberBytes (r : Record) : MemberSource → Except Corruption Bytes
  | .copy offset kind =>
      if kind.isVariable then (r.readVariable offset.toNat).map writeVariable
      else r.slice offset.toNat kind.minLength.toNat
  | .blank kind =>
      .ok (if kind.isVariable then writeVariable []
        else List.replicate kind.minLength.toNat 0)

/-- The content of the current record that a legacy record becomes. -/
def content (c : Conversion) (r : Record) : Except Error Bytes := do
  if r.type ≠ c.source then throw (.unhandledTypeId r.type)
  let parts ← Access.orCorrupt (c.members.mapM (memberBytes r))
  return parts.flatten

/-- Appends the current record that a legacy record becomes. The content is
put together before anything is written. -/
def append (c : Conversion) (r : Record) : Attempt Bytes Unit := do
  let content ← Attempt.lift (c.content r)
  Attempt.modify fun out =>
    (Header.begin ⟨Word.ofNatSat content.length, c.target, r.object⟩).map (out ++ ·)
  Attempt.modify fun out => .ok (out ++ content)

/-- The bytes of the current record that a legacy record becomes. -/
def convert (c : Conversion) (r : Record) : Except Error Bytes :=
  match (c.append r).start [] with
  | (.ok (), bytes) => .ok bytes
  | (.error e, _) => .error e

theorem make_types {matcher : Matcher} {legacy current : Definition} {c : Conversion}
    (h : make matcher legacy current = .ok c) : c.source = legacy.id ∧ c.target = current.id := by
  unfold make at h
  cases hRun : matcher.run legacy current with
  | error e => simp [hRun, bind, Except.bind] at h
  | ok matching =>
      simp only [hRun, bind, Except.bind] at h
      split at h
      · cases h
      · cases h
        exact ⟨rfl, rfl⟩

end Conversion

end ObjectStore
