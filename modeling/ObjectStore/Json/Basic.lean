import ObjectStore.Decimal.Shortest

/-!
# JSON reports

Reports for other programs are written in JSON: indented by two spaces a
level, the members of an object in the order in which the report gives
them.

A number is written with the fewest digits that read back as the same float.
Numbers from `0.00001` up to, and without, `10 ^ 16` are written without an
exponent and always have a point. Undefined and infinite numbers have no
JSON form and are written as `null`.

## Main results

* `Json.escape_of_plain`: what needs no escape is written as it is.
-/

namespace ObjectStore

/-- A report. -/
inductive Json where
  | null
  | number (n : Nat)
  | float (x : Float)
  | text (s : String)
  | array (items : List Json)
  | object (members : List (String × Json))

namespace Json

/-- A text or nothing. -/
def optional {α : Type} (f : α → Json) : Option α → Json
  | none => null
  | some a => f a

/-! ## Texts -/

/-- What a character is written as between quotes. -/
def escape (c : Char) : List Char :=
  match c with
  | '"' => ['\\', '"']
  | '\\' => ['\\', '\\']
  | '\x08' => ['\\', 'b']
  | '\x0c' => ['\\', 'f']
  | '\n' => ['\\', 'n']
  | '\r' => ['\\', 'r']
  | '\t' => ['\\', 't']
  | c =>
      if c.toNat < 32 then
        ['\\', 'u', '0', '0', Nat.digitChar (c.toNat / 16), Nat.digitChar (c.toNat % 16)]
      else [c]

/-- A text between quotes. -/
def quote (s : String) : String := String.ofList ('"' :: s.toList.flatMap escape ++ ['"'])

theorem escape_of_plain {c : Char} (hLow : 32 ≤ c.toNat) (hQuote : c ≠ '"')
    (hBackslash : c ≠ '\\') : escape c = [c] := by
  unfold escape
  split
  · exact absurd rfl hQuote
  · exact absurd rfl hBackslash
  · exact absurd hLow (by decide)
  · exact absurd hLow (by decide)
  · exact absurd hLow (by decide)
  · exact absurd hLow (by decide)
  · exact absurd hLow (by decide)
  · have hNot : ¬c.toNat < 32 := by omega
    simp [hNot]

/-! ## Numbers -/

/-- Digits times a power of ten, without an exponent if it is not far from
one. -/
def layOut (digits : List Char) (exponent : Int) : List Char :=
  let point := Int.ofNat digits.length + exponent
  if 0 ≤ exponent ∧ point ≤ 16 then digits ++ List.replicate exponent.toNat '0' ++ ['.', '0']
  else if 0 < point ∧ point ≤ 16 then
    digits.take point.toNat ++ '.' :: digits.drop point.toNat
  else if -5 < point ∧ point ≤ 0 then
    ['0', '.'] ++ List.replicate (-point).toNat '0' ++ digits
  else
    let places := digits.drop 1
    digits.take 1 ++ (if places.isEmpty then [] else '.' :: places) ++
      'e' :: (toString (point - 1)).toList

/-- The written form of a float. -/
def floatText (x : Float) : String :=
  if x.isNaN || x.isInf then "null"
  else
    let sign := if x.toBits < 0x8000000000000000 then "" else "-"
    let absolute := x.abs
    if absolute == 0.0 then sign ++ "0.0"
    else
      let s := Decimal.shortest absolute
      sign ++ String.ofList (layOut (Nat.toDigits 10 s.digits) s.exponent)

/-! ## Whole reports -/

/-- The spaces in front of a line at a level. -/
def indent (level : Nat) : String := String.ofList (List.replicate (2 * level) ' ')

/-- Lines of one level between brackets. -/
def block (level : Nat) (opening closing : String) (lines : List String) : String :=
  if lines.isEmpty then opening ++ closing
  else
    opening ++ "\n" ++
      String.intercalate ",\n" (lines.map fun line => indent (level + 1) ++ line) ++
      "\n" ++ indent level ++ closing

mutual

/-- The written form of a report whose first line stands at a level. -/
def renderAt (level : Nat) : Json → String
  | null => "null"
  | number n => toString n
  | float x => floatText x
  | text s => quote s
  | array items => block level "[" "]" (renderItems (level + 1) items)
  | object members => block level "\x7b" "\x7d" (renderMembers (level + 1) members)

/-- The written forms of the items of an array. -/
def renderItems (level : Nat) : List Json → List String
  | [] => []
  | item :: rest => renderAt level item :: renderItems level rest

/-- The written forms of the members of an object. -/
def renderMembers (level : Nat) : List (String × Json) → List String
  | [] => []
  | (name, value) :: rest =>
      (quote name ++ ": " ++ renderAt level value) :: renderMembers level rest

end

/-- The written form of a report. -/
def render (report : Json) : String := renderAt 0 report

end Json

end ObjectStore
