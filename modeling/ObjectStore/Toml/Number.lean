import ObjectStore.Decimal.Reading

/-!
# Numbers as they are written

A number of a document is kept as it is written and gets its value only when
it is asked for. So a number that is too large does no harm where nobody
asks for it, nor does a whole number with a letter behind its first
underscore. Reading a number checks no more than its form:

* a whole number is digits without a leading zero, or, behind `0x`, `0o` or
  `0b`, digits of that base, of which there may be none;
* a float has digits, then places behind a point, then an exponent, and at
  least one of the last two; `inf` and `nan` are floats too;
* an underscore stands in front of a digit, and behind a digit or the first
  character. Where a whole number has one, the characters behind it are not
  looked at until the value is asked for. Beside the underscores of whole
  numbers the letters up to `f` count as digits.

All but the numbers in another base than ten may have a sign.
-/

namespace ObjectStore

namespace Toml

/-- The value of a hexadecimal digit. -/
def hexValue? (c : Char) : Option Nat :=
  if c.isDigit then some (c.toNat - '0'.toNat)
  else if 'a' ≤ c ∧ c ≤ 'f' then some (c.toNat - 'a'.toNat + 10)
  else if 'A' ≤ c ∧ c ≤ 'F' then some (c.toNat - 'A'.toNat + 10)
  else none

/-- Whether the character is a digit in a base. -/
def isDigitOf (base : Nat) (c : Char) : Bool := (hexValue? c).any (· < base)

/-- A number as it is written, without the underscores. -/
inductive Number where
  /-- A whole number in a base: a sign, if there is one, and digits. -/
  | whole (base : Nat) (written : List Char)
  | float (written : List Char)
deriving DecidableEq, Inhabited

namespace Number

/-! ## Forms -/

/-- The text without its underscores from a place on where one may stand, or
may not. Each underscore stands in front of a digit. -/
def joinedFrom? (isDigit : Char → Bool) : (mayJoin : Bool) → List Char → Option (List Char)
  | _, [] => some []
  | mayJoin, '_' :: rest =>
      if mayJoin && rest.head?.any isDigit then joinedFrom? isDigit false rest else none
  | _, c :: rest => (joinedFrom? isDigit (isDigit c) rest).map (c :: ·)

/-- The text without its underscores, each of which stands in front of a
digit, and behind a digit or the first character. -/
def joined? (isDigit : Char → Bool) : List Char → Option (List Char)
  | [] => some []
  | '_' :: _ => none
  | c :: rest => (joinedFrom? isDigit true rest).map (c :: ·)

/-- What stands behind the digits and underscores at the front, of which at
least one is a digit. Several digits begin with a zero only if that is
allowed. -/
def afterDigits? (leadingZero : Bool) (cs : List Char) : Option (List Char) :=
  let (front, rest) := cs.span fun c => c.isDigit || c = '_'
  let count := front.countP Char.isDigit
  if count = 0 then none
  else if !leadingZero && 1 < count && front.head? = some '0' then none
  else some rest

/-- What stands behind a point and its places, if there is a point. -/
def afterPlaces? : List Char → Option (List Char)
  | '.' :: rest => afterDigits? true rest
  | rest => some rest

/-- What stands behind an exponent, if there is one. -/
def afterExponent? : List Char → Option (List Char)
  | mark :: rest =>
      if mark = 'e' || mark = 'E' then afterDigits? true (Decimal.signOf rest).2
      else some (mark :: rest)
  | [] => some []

/-- Whether an unsigned text has the form of a float, but for the places of
the underscores. -/
def isFloat (unsigned : List Char) : Bool :=
  ((afterDigits? false unsigned).bind afterPlaces?).bind afterExponent? = some []

/-- A whole number in another base than ten. -/
def based? (base : Nat) (digits : List Char) : Option Number :=
  if digits.all fun c => isDigitOf base c || c = '_' then
    (joined? (isDigitOf base) digits).map (whole base)
  else none

/-- A number in base ten. -/
def decimal? (word : List Char) : Option Number :=
  let unsigned := (Decimal.signOf word).2
  let rest := unsigned.dropWhile Char.isDigit
  if unsigned = ['i', 'n', 'f'] || unsigned = ['n', 'a', 'n'] then some (float word)
  else if rest.any fun c => c = '.' || c = 'e' || c = 'E' then
    if isFloat unsigned then (joined? Char.isDigit word).map float else none
  else if unsigned.isEmpty || unsigned.head? = some '0' && unsigned ≠ ['0'] then none
  else if rest.head?.all (· = '_') then (joined? (isDigitOf 16) word).map (whole 10)
  else none

/-- The number that a word stands for. -/
def ofWord? : List Char → Option Number
  | '0' :: 'x' :: digits => based? 16 digits
  | '0' :: 'o' :: digits => based? 8 digits
  | '0' :: 'b' :: digits => based? 2 digits
  | word => if word.contains ' ' then none else decimal? word

/-! ## Values -/

/-- The number that digits stand for in a base. -/
def digitsValue (base : Nat) (digits : List Char) : Nat :=
  digits.foldl (fun n c => base * n + (hexValue? c).getD 0) 0

/-- The least whole number that has a value, as its magnitude. -/
def maxNegative : Nat := 0x8000000000000000

/-- The largest whole number that has a value. -/
def maxPositive : Nat := 0xFFFFFFFFFFFFFFFF

/-- The value of the number. A whole number has at most 64 bits, and only
`inf` is infinite. -/
def value? : Number → Option SignedFloat
  | whole base written =>
      let (negative, digits) := Decimal.signOf written
      let n := digitsValue base digits
      if digits.isEmpty || !digits.all (isDigitOf base) then none
      else if n ≤ (if negative then maxNegative else maxPositive) then
        some ⟨negative && n ≠ 0, Decimal.ofScientific n 0⟩
      else none
  | float written =>
      match Decimal.signed? written with
      | some x => if x.magnitude.isInf && written.any Char.isDigit then none else some x
      | none => none

end Number

end Toml

end ObjectStore
