import ObjectStore.Member.Basic

/-!
# Similarity of members

A legacy member without an entry in the refactoring table may still have an
obvious counterpart. How likely a current member is that counterpart is
scored between zero and one, half by the names and half by the types:

* how alike two names are is not decided here but given, and it counts half
  if the qualifiers differ;
* types are alike if their names agree, and otherwise as far as a table of
  type similarities says.

## Main results

* `TypeSimilarity.key_comm`: the table is symmetric.
-/

namespace ObjectStore

open Std

/-! ## Scores -/

/-- The score cut to the range from zero to one. No number counts as zero. -/
def clampScore (score : Float) : Float :=
  if score.isNaN then 0.0
  else if score < 0.0 then 0.0
  else if 1.0 < score then 1.0
  else score

/-- A position in the total order of floats, in which numbers are ordered by
value, and by sign where the values agree. -/
def scoreRank (score : Float) : Nat :=
  let bits := score.toBits.toNat
  let sign := 0x8000000000000000
  if bits < sign then sign + bits else Word.max.toNat - bits

/-- A symmetric table of similarities between types, by name. -/
structure TypeSimilarity where
  scores : ExtTreeMap (String × String) Float (compareLex (compareOn Prod.fst) (compareOn Prod.snd))

namespace TypeSimilarity

/-- The table without entries. -/
def empty : TypeSimilarity := ⟨∅⟩

/-- The two names in order. -/
def key (a b : String) : String × String :=
  if compare a b = .gt then (b, a) else (a, b)

/-- Records how alike two types are. -/
def insert (t : TypeSimilarity) (a b : String) (score : Float) : TypeSimilarity :=
  ⟨t.scores.insert (key a b) (clampScore score)⟩

/-- What the table says about two types. -/
def get? (t : TypeSimilarity) (a b : String) : Option Float := t.scores[key a b]?

/-- How alike two types are. -/
def similarity (t : TypeSimilarity) (a b : String) : Float :=
  if a = b then 1.0 else (t.get? a b).getD 0.0

/-- The table of the entries, added in order. -/
def ofList (entries : List (String × String × Float)) : TypeSimilarity :=
  entries.foldl (fun t entry => t.insert entry.1 entry.2.1 entry.2.2) empty

/-- The number of entries. -/
def size (t : TypeSimilarity) : Nat := t.scores.size

/-- Whether there is no entry. -/
def isEmpty (t : TypeSimilarity) : Bool := t.scores.isEmpty

theorem key_comm (a b : String) : key a b = key b a := by
  unfold key
  cases h : compare a b with
  | lt =>
      have : compare b a = .gt := OrientedCmp.gt_of_lt h
      simp [this]
  | eq =>
      have : a = b := LawfulEqCmp.eq_of_compare h
      subst this
      simp
  | gt =>
      have : compare b a = .lt := OrientedCmp.lt_of_gt h
      simp [this]

/-- How likely a current member is the counterpart of a legacy member, if it is
given how alike two names are. -/
def scoreBy (t : TypeSimilarity) (names : String → String → Float) (source target : Member) :
    Float :=
  let factor := if source.id.qualifier = target.id.qualifier then 1.0 else 0.5
  let name := names source.id.name target.id.name * factor
  clampScore ((name + t.similarity source.typeName target.typeName) / 2.0)

end TypeSimilarity

end ObjectStore
