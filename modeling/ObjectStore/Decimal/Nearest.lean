/-!
# The float nearest to a fraction

A float is an integer of at most 53 bits times a power of two. This module finds
the float nearest to a fraction, and, the other way round, the integer and
the power of two that a float is made of. Everything is exact arithmetic on
natural numbers; the only floats are those that go in and come out.

## Main results

* `Decimal.roundDiv_near`: a rounded quotient is within half a unit of the
  exact one.
-/

namespace ObjectStore

namespace Decimal

/-! ## Rounding -/

/-- The whole number nearest to a quotient; of two, the even one. -/
def roundDiv (num den : Nat) : Nat :=
  let whole := num / den
  let twice := 2 * (num % den)
  if twice < den then whole
  else if den < twice then whole + 1
  else if whole % 2 = 0 then whole else whole + 1

theorem roundDiv_near {num den : Nat} (h : 0 < den) :
    2 * (roundDiv num den * den) ≤ 2 * num + den ∧
      2 * num ≤ 2 * (roundDiv num den * den) + den := by
  have hSplit : den * (num / den) + num % den = num := Nat.div_add_mod num den
  have hRest : num % den < den := Nat.mod_lt _ h
  simp only [roundDiv]
  generalize num / den = whole at *
  generalize num % den = rest at *
  have hNext : (whole + 1) * den = den * whole + den := by
    rw [Nat.add_mul, Nat.mul_comm]
    simp
  have hWhole : whole * den = den * whole := Nat.mul_comm ..
  generalize den * whole = product at *
  split
  · omega
  · split
    · omega
    · split <;> omega

/-! ## Binary fractions -/

/-- The number of bits behind the leading one of a float's integer. -/
def fractionBits : Nat := 52

/-- The least power of two that a float is a multiple of. -/
def leastPower : Int := -1074

/-- A fraction divided by a power of two. -/
def scale (num den : Nat) (power : Int) : Nat × Nat :=
  if 0 ≤ power then (num, den <<< power.toNat) else (num <<< (-power).toNat, den)

/-- The exponent of the highest power of two that is not above the
fraction. -/
def leadingPower (num den : Nat) : Int :=
  let estimate : Int := Int.ofNat num.log2 - Int.ofNat den.log2
  let (n, d) := scale num den estimate
  if n < d then estimate - 1 else estimate

/-- The bits of positive infinity. -/
def infinityBits : Nat := 0x7FF0000000000000

/-- The bits of the float nearest to a fraction; of two, the one with an even
integer. What is too large is infinite. -/
def nearestBits (num den : Nat) : Nat :=
  if num = 0 then 0
  else
    let power := max (leadingPower num den - fractionBits) leastPower
    let (n, d) := scale num den power
    min ((power - leastPower).toNat <<< fractionBits + roundDiv n d) infinityBits

/-- The float nearest to a fraction. -/
def nearest (num den : Nat) : Float := Float.ofBits (UInt64.ofNat (nearestBits num den))

/-- The integer and the power of two that the absolute value of a finite
float is made of. -/
def parts (x : Float) : Nat × Int :=
  let bits := x.toBits.toNat % 0x8000000000000000
  let leading := 1 <<< fractionBits
  let exponent := bits / leading
  let fraction := bits % leading
  if exponent = 0 then (fraction, leastPower)
  else (fraction + leading, leastPower + Int.ofNat exponent - 1)

/-- The absolute value of a finite float as a fraction. -/
def fraction (x : Float) : Nat × Nat :=
  let (integer, power) := parts x
  if 0 ≤ power then (integer <<< power.toNat, 1) else (integer, 1 <<< (-power).toNat)

/-! ## Decimal fractions -/

/-- A power of ten. -/
def tenTo (exponent : Nat) : Nat := Nat.pow 10 exponent

/-- The number of decimal digits. -/
def digitCount (n : Nat) : Nat := (Nat.toDigits 10 n).length

/-- The float nearest to `digits` times a power of ten. -/
def ofScientific (digits : Nat) (exponent : Int) : Float :=
  let lead := exponent + digitCount digits
  if digits = 0 || lead < -330 then 0.0
  else if 330 < lead then Float.ofBits (UInt64.ofNat infinityBits)
  else if 0 ≤ exponent then nearest (digits * tenTo exponent.toNat) 1
  else nearest digits (tenTo (-exponent).toNat)

end Decimal

end ObjectStore
