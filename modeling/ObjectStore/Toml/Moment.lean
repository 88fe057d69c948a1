import ObjectStore.Decimal.Reading

/-!
# Dates and times

A moment is a date, a time of the day, or both with a `T` or a blank between
them. Behind both may stand where the clock is: `Z`, or its distance from
there in hours and minutes.

The date is one of the calendar. The seconds may be left out, and may count
up to sixty, for a second that was added to the last minute.
-/

namespace ObjectStore

namespace Toml

namespace Moment

/-- The number that the digits at the front stand for, of which there is a
given count, and what stands behind them. -/
def digits? (count : Nat) (cs : List Char) : Option (Nat × List Char) :=
  let (front, rest) := Decimal.digitsOf cs
  if front.length = count then some (Decimal.digitsValue front, rest) else none

/-- What stands behind a given character at the front. -/
def after? (expected : Char) : List Char → Option (List Char)
  | c :: rest => if c = expected then some rest else none
  | [] => none

/-! ## Dates -/

/-- Whether the year has a day more than others. -/
def isLeap (year : Nat) : Bool := year % 4 = 0 && (year % 100 ≠ 0 || year % 400 = 0)

/-- The number of days in a month. -/
def daysIn (year month : Nat) : Nat :=
  match month with
  | 2 => if isLeap year then 29 else 28
  | 4 | 6 | 9 | 11 => 30
  | _ => 31

/-- What stands behind a date. -/
def afterDate? (cs : List Char) : Option (List Char) := do
  let (year, cs) ← digits? 4 cs
  let (month, cs) ← digits? 2 (← after? '-' cs)
  let (day, cs) ← digits? 2 (← after? '-' cs)
  if 1 ≤ month ∧ month ≤ 12 ∧ 1 ≤ day ∧ day ≤ daysIn year month then some cs else none

/-! ## Times -/

/-- What stands behind hours and minutes. -/
def afterMinutes? (cs : List Char) : Option (List Char) := do
  let (hour, cs) ← digits? 2 cs
  let (minute, cs) ← digits? 2 (← after? ':' cs)
  if hour < 24 ∧ minute < 60 then some cs else none

/-- What stands behind a point and its places, if there is a point. -/
def afterFraction? : List Char → Option (List Char)
  | '.' :: rest =>
      let (places, rest) := Decimal.digitsOf rest
      if places.isEmpty then none else some rest
  | rest => some rest

/-- What stands behind seconds, if there are any. -/
def afterSeconds? : List Char → Option (List Char)
  | ':' :: rest => do
      let (second, rest) ← digits? 2 rest
      if second ≤ 60 then afterFraction? rest else none
  | rest => some rest

/-- What stands behind a time of the day. -/
def afterTime? (cs : List Char) : Option (List Char) := (afterMinutes? cs).bind afterSeconds?

/-- What stands behind the place of the clock, if it is given. -/
def afterOffset? : List Char → Option (List Char)
  | 'Z' :: rest | 'z' :: rest => some rest
  | '+' :: rest | '-' :: rest => afterMinutes? rest
  | rest => some rest

/-! ## Moments -/

/-- Whether the character stands between a date and a time. -/
def isSeparator (c : Char) : Bool := c = 'T' || c = 't' || c = ' '

/-- Whether a word is a moment. -/
def isMoment (word : List Char) : Bool :=
  match afterDate? word with
  | none => afterTime? word = some []
  | some [] => true
  | some (c :: time) => isSeparator c && (afterTime? time).bind afterOffset? = some []

end Moment

end Toml

end ObjectStore
