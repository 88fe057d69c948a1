import ObjectStore.Refactoring.Matching

/-!
# Similarity of names

Matching takes it as given how alike two names are. A program that runs has
the names compared by edit distance, relative to the longer one.
-/

namespace ObjectStore

namespace EditDistance

variable {α : Type} [DecidableEq α]

/-- The rest of a row of distances, given the row above it and the distance
to its left. -/
def row (a : α) : List α → List Nat → Nat → List Nat
  | b :: bs, diagonal :: above :: rest, left =>
      let distance :=
        min (min (left + 1) (above + 1)) (diagonal + if a = b then 0 else 1)
      distance :: row a bs (above :: rest) distance
  | _, _, _ => []

/-- The row of distances below the given one. -/
def nextRow (bs : List α) (above : List Nat) (a : α) : List Nat :=
  let first := above.headD 0 + 1
  first :: row a bs above first

/-- The least number of insertions, deletions and replacements of single
elements that lead from one list to the other. -/
def distance (as bs : List α) : Nat :=
  (as.foldl (nextRow bs) (List.range (bs.length + 1))).getLastD 0

end EditDistance

/-- How alike two names are: one less the edit distance relative to the
longer name. -/
def nameSimilarity (a b : String) : Float :=
  let as := a.toList
  let bs := b.toList
  if as.isEmpty && bs.isEmpty then 1.0
  else
    1.0 - Float.ofNat (EditDistance.distance as bs) / Float.ofNat (max as.length bs.length)

/-- How likely a current member is the counterpart of a legacy member, if names
are compared by edit distance. -/
def TypeSimilarity.score (t : TypeSimilarity) : Member → Member → Float :=
  t.scoreBy nameSimilarity

/-- The matcher of a refactoring with the default threshold, which compares names
by edit distance. -/
def Matcher.of (refactoring : Refactoring) (types : TypeSimilarity) : Matcher :=
  ⟨refactoring, types, defaultThreshold, nameSimilarity⟩

end ObjectStore
