import ObjectStore.Toml.Basic

/-!
# Scanning

A scanner takes a value off the front of a text. Loops are bounded by the
length of the whole text, which every scanner is given: each round takes at
least one character, so the bound is never met.
-/

namespace ObjectStore

namespace Toml

/-- Takes a value off the front of a text. The number bounds loops. -/
abbrev Scan (α : Type) := ReaderT Nat (StateT (List Char) (Except Fault)) α

namespace Scan

variable {σ α : Type}

/-- What a scanner finds in a text, and what it leaves. -/
def start (scan : Scan α) (text : List Char) : Except Fault (α × List Char) :=
  (scan.run (text.length + 1)).run text

/-- The rest of the text. -/
def rest : Scan (List Char) := get

/-- Goes on with another rest. -/
def goOn (text : List Char) : Scan Unit := set text

/-- Refuses the text. -/
def refuse (fault : Fault) : Scan α := throw fault

/-- Repeats a step until it yields a result. -/
def iterate (step : σ → Scan (σ ⊕ α)) : Nat → σ → Scan α
  | 0, _ => refuse .endOfText
  | bound + 1, s => do
      match ← step s with
      | .inl s => iterate step bound s
      | .inr a => return a

/-- Repeats a step until it yields a result. -/
def loop (step : σ → Scan (σ ⊕ α)) (s : σ) : Scan α := do iterate step (← read) s

/-! ## Characters -/

/-- The next character, which stays where it is. -/
def peek? : Scan (Option Char) := do return (← rest).head?

/-- Takes the next character. -/
def next : Scan Char := do
  match ← rest with
  | [] => refuse .endOfText
  | c :: text =>
      goOn text
      return c

/-- What the next character is refused with. -/
def unexpected : Scan α := do
  match ← rest with
  | [] => refuse .endOfText
  | c :: _ => refuse (.unexpected c)

/-- Takes a given character. -/
def char (expected : Char) : Scan Unit := do
  match ← rest with
  | c :: text => if c = expected then goOn text else unexpected
  | [] => unexpected

/-- Takes a given word, if it stands at the front. -/
def word? (expected : List Char) : Scan Bool := do
  let text ← rest
  if expected.isPrefixOf text then
    goOn (text.drop expected.length)
    return true
  else return false

/-- Takes the characters at the front that have a property. -/
def takeWhile (p : Char → Bool) : Scan (List Char) := do
  let (front, back) := (← rest).span p
  goOn back
  return front

/-! ## Blanks and comments -/

/-- Whether the character may not stand in a document, not even between
quotes or in a comment. -/
def isControl (c : Char) : Bool := (c.toNat < 32 && c ≠ '\t') || c.toNat = 127

/-- Whether the character is a blank inside a line. -/
def isBlank (c : Char) : Bool := c = ' ' || c = '\t'

/-- Takes the blanks at the front. -/
def blanks : Scan Unit := do let _ ← takeWhile isBlank

/-- Takes a line break, if one stands at the front. -/
def lineBreak? : Scan Bool := do
  if ← word? ['\n'] then return true else word? ['\r', '\n']

/-- Takes a comment up to the end of its line, if one stands at the
front. -/
def comment : Scan Unit := do
  if (← peek?) = some '#' then
    let text ← takeWhile fun c => c ≠ '\n' && c ≠ '\r'
    if let some c := text.find? isControl then refuse (.unexpected c)

/-- Takes the end of a line. -/
def lineEnd : Scan Unit := do
  blanks
  comment
  if (← rest).isEmpty || (← lineBreak?) then return
  unexpected

/-- Takes blanks, comments and line breaks. -/
def gaps : Scan Unit :=
  loop (fun _ => do
    blanks
    comment
    return if ← lineBreak? then .inl () else .inr ()) ()

end Scan

end Toml

end ObjectStore
