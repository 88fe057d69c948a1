/-!
# Floats with a sign of their own

The sign of a float says little when the float is no number: the undefined
number has two signs, between which arithmetic does not tell. Where the sign
that was written matters, it is kept beside the magnitude.
-/

namespace ObjectStore

/-- A float as its sign and its magnitude, which has no sign. -/
structure SignedFloat where
  negative : Bool
  magnitude : Float
deriving BEq, Inhabited

namespace SignedFloat

/-- The float. -/
def toFloat (x : SignedFloat) : Float := if x.negative then -x.magnitude else x.magnitude

/-- The bit of the sign. -/
def signBit : UInt64 := 0x8000000000000000

/-- The bit pattern, in which the undefined number has its sign too. -/
def bits (x : SignedFloat) : UInt64 :=
  if x.negative then x.magnitude.toBits ||| signBit else x.magnitude.toBits

end SignedFloat

end ObjectStore
