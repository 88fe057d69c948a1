import ObjectStore.Decimal.Nearest

/-!
# Decimals of floats

Two decimals of a float are used in reports: the one with the fewest digits
that reads back as the same float, and the one with a given number of places
behind the point. Both are found by exact arithmetic.

## Main results

* `Decimal.reads_of_firstReading`: what the search for the fewest digits
  returns reads back.
-/

namespace ObjectStore

namespace Decimal

/-! ## The fewest digits -/

/-- A whole number times a power of ten. -/
structure Scientific where
  digits : Nat
  exponent : Int
deriving DecidableEq, Inhabited

/-- The exponent of the highest power of ten that is not above the positive
fraction. -/
def leadingExponent (num den : Nat) : Int :=
  if den ≤ num then Int.ofNat (digitCount (num / den)) - 1
  else
    let estimate := digitCount (den / num)
    if den ≤ num * tenTo (estimate - 1) then 1 - Int.ofNat estimate else -Int.ofNat estimate

/-- The two multiples of a power of ten around a fraction, the nearer one
first; of two equally near ones, the even one. -/
def neighbours (num den : Nat) (exponent : Int) : List Scientific :=
  let (n, d) :=
    if 0 ≤ exponent then (num, den * tenTo exponent.toNat)
    else (num * tenTo (-exponent).toNat, den)
  let below := n / d
  let near := roundDiv n d
  let far := if near = below then below + 1 else below
  [⟨near, exponent⟩, ⟨far, exponent⟩]

/-- Whether a decimal reads back as the float with the bits. -/
def readsBack (bits : UInt64) (s : Scientific) : Bool :=
  (ofScientific s.digits s.exponent).toBits = bits

/-- The first among decimals that reads back as the float with the bits. -/
def firstReading (bits : UInt64) (candidates : List Scientific) : Option Scientific :=
  candidates.find? (readsBack bits)

/-- Moves zeros at the end of the digits into the exponent, at most as many
as there are digits. -/
def trim (fuel : Nat) (s : Scientific) : Scientific :=
  match fuel with
  | 0 => s
  | fuel + 1 =>
      if s.digits % 10 = 0 then trim fuel ⟨s.digits / 10, s.exponent + 1⟩ else s

/-- The decimal with the fewest digits that reads back as the positive finite
float. Seventeen digits are always enough. -/
def shortest (x : Float) : Scientific :=
  let (num, den) := fraction x
  let lead := leadingExponent num den
  let candidates := (List.range 17).flatMap fun more => neighbours num den (lead - Int.ofNat more)
  trim 18 ((firstReading x.toBits candidates).getD ⟨0, 0⟩)

theorem reads_of_firstReading {bits : UInt64} {candidates : List Scientific} {s : Scientific}
    (h : firstReading bits candidates = some s) : s ∈ candidates ∧ readsBack bits s = true :=
  ⟨List.mem_of_find?_eq_some h, List.find?_some h⟩

/-! ## A given number of places -/

/-- The digits of a number, with zeros in front up to a width. -/
def padded (width n : Nat) : List Char :=
  let digits := Nat.toDigits 10 n
  List.replicate (width - digits.length) '0' ++ digits

/-- A finite float that is not negative, with a number of places behind the
point. It is rounded to the nearest such decimal; of two, the even one. -/
def fixed (places : Nat) (x : Float) : String :=
  let (num, den) := fraction x
  let scaled := padded (places + 1) (roundDiv (num * tenTo places) den)
  let whole := scaled.take (scaled.length - places)
  String.ofList (if places = 0 then whole else whole ++ '.' :: scaled.drop whole.length)

end Decimal

end ObjectStore
