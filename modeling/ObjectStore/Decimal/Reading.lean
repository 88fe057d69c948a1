import ObjectStore.Decimal.Nearest
import ObjectStore.Decimal.Signed

/-!
# Reading decimals

A decimal is an optional sign in front of a word for an infinite or
undefined number, or in front of digits with at most one point among them
and an optional power of ten behind them. At least one digit stands before
the power of ten, and the power of ten has at least one digit.

What is read is the nearest float.
-/

namespace ObjectStore

namespace Decimal

/-- The digits at the front, and what stands behind them. -/
def digitsOf (cs : List Char) : List Char × List Char := cs.span Char.isDigit

/-- The number that digits stand for. -/
def digitsValue (cs : List Char) : Nat :=
  cs.foldl (fun n c => 10 * n + (c.toNat - '0'.toNat)) 0

/-- A sign at the front, and what stands behind it. -/
def signOf : List Char → Bool × List Char
  | '-' :: rest => (true, rest)
  | '+' :: rest => (false, rest)
  | rest => (false, rest)

/-- A power of ten that nothing stands behind. Without mark it is zero. -/
def exponentOf : List Char → Option Int
  | [] => some 0
  | mark :: rest =>
      if mark = 'e' || mark = 'E' then
        let (negative, digits) := signOf rest
        if digits.isEmpty || !digits.all Char.isDigit then none
        else
          let n := Int.ofNat (digitsValue digits)
          some (if negative then -n else n)
      else none

/-- A point and the digits behind it, if there are any. -/
def placesOf : List Char → List Char × List Char
  | '.' :: rest => digitsOf rest
  | rest => ([], rest)

/-- An unsigned decimal of digits. -/
def unsignedOf (cs : List Char) : Option Float := do
  let (whole, rest) := digitsOf cs
  let (places, rest) := placesOf rest
  if whole.isEmpty && places.isEmpty then none
  let exponent ← exponentOf rest
  return ofScientific (digitsValue (whole ++ places)) (exponent - Int.ofNat places.length)

/-- The words for numbers without digits. -/
def wordOf (cs : List Char) : Option Float :=
  match String.ofList (cs.map Char.toLower) with
  | "inf" | "infinity" => some (1.0 / 0.0)
  | "nan" => some (0.0 / 0.0)
  | _ => none

/-- The float that a text stands for, with the sign as it is written. -/
def signed? (text : List Char) : Option SignedFloat := do
  let (negative, rest) := signOf text
  return ⟨negative, ← (wordOf rest).or (unsignedOf rest)⟩

/-- The float that a text stands for. -/
def parse? (text : String) : Option Float := (signed? text.toList).map SignedFloat.toFloat

end Decimal

end ObjectStore
