import ObjectStore.Toml.Moment
import ObjectStore.Toml.Scan

/-!
# Texts, names and words

Texts stand between quotes, on one line or, between three quotes, on
several. In double quotes a backslash begins an escape; in single quotes
every character stands for itself. A line break inside a text is kept as the
file writes it, and the one right behind the opening quotes does not count.

Names are words or texts. All other values that hold no values are words: a
word ends where the line ends, and at the marks that separate values.
-/

namespace ObjectStore

namespace Toml

namespace Scan

/-! ## Escapes -/

/-- The number of some hexadecimal digits. -/
def hexNumber : Nat → Nat → Scan Nat
  | 0, n => return n
  | count + 1, n => do
      match hexValue? (← next) with
      | some digit => hexNumber count (16 * n + digit)
      | none => refuse .invalidEscape

/-- The character with a code of some hexadecimal digits. -/
def coded (count : Nat) : Scan Char := do
  let code ← hexNumber count 0
  if code.isValidChar then return Char.ofNat code else refuse .invalidEscape

/-- The character that the letters behind a backslash stand for. -/
def escaped : Scan Char := do
  match ← next with
  | 'b' => return '\x08'
  | 't' => return '\t'
  | 'n' => return '\n'
  | 'f' => return '\x0c'
  | 'r' => return '\r'
  | 'e' => return '\x1b'
  | '"' => return '"'
  | '\\' => return '\\'
  | 'x' => coded 2
  | 'u' => coded 4
  | 'U' => coded 8
  | _ => refuse .invalidEscape

/-! ## Texts -/

/-- Takes a character that stands for itself. -/
def plain : Scan Char := do
  let c ← next
  if isControl c then refuse (.unexpected c) else return c

/-- The text up to a closing quote on the same line. -/
def lineText (quote : Char) (escapes : Bool) : Scan String :=
  loop (fun found => do
    if ← word? [quote] then return .inr (String.ofList found.reverse)
    else if escapes && (← word? ['\\']) then return .inl ((← escaped) :: found)
    else return .inl ((← plain) :: found)) []

/-- Takes the blanks and line breaks at the front, of which there is at least
one line break behind the first blanks. -/
def folded : Scan Unit := do
  blanks
  if ← lineBreak? then
    loop (fun _ => do
      blanks
      return if ← lineBreak? then .inl () else .inr ()) ()
  else refuse .invalidEscape

/-- How many of the quotes at the front of a text of several lines belong to
the text, and whether the text ends behind them. -/
def quotesOf (count : Nat) : Nat × Bool :=
  if count < 3 then (count, false) else (min count 5 - 3, true)

/-- The text up to three closing quotes. -/
def blockText (quote : Char) (escapes : Bool) : Scan String := do
  let _ ← lineBreak?
  loop (fun found => do
    let quotes := (← rest).takeWhile (· = quote)
    if quotes.isEmpty then
      if ← word? ['\r', '\n'] then return .inl ('\n' :: '\r' :: found)
      else if ← word? ['\n'] then return .inl ('\n' :: found)
      else if escapes && (← word? ['\\']) then
        match ← peek? with
        | some ' ' | some '\t' | some '\n' | some '\r' =>
            folded
            return .inl found
        | _ => return .inl ((← escaped) :: found)
      else return .inl ((← plain) :: found)
    else
      let (inside, ends) := quotesOf quotes.length
      goOn ((← rest).drop (if ends then inside + 3 else inside))
      let found := List.replicate inside quote ++ found
      return if ends then .inr (String.ofList found.reverse) else .inl found) []

/-- A text between quotes. -/
def quotedText (quote : Char) (escapes : Bool) : Scan String := do
  if ← word? [quote, quote, quote] then blockText quote escapes
  else
    char quote
    lineText quote escapes

/-! ## Names -/

/-- Whether the character may stand in a name without quotes. -/
def isBare (c : Char) : Bool := c.isAlphanum || c = '_' || c = '-'

/-- One part of a name. -/
def simpleName : Scan String := do
  match ← peek? with
  | some '"' =>
      char '"'
      lineText '"' true
  | some '\'' =>
      char '\''
      lineText '\'' false
  | _ =>
      let word ← takeWhile isBare
      if word.isEmpty then unexpected else return String.ofList word

/-- The parts of a name: those before the last, and the last. -/
def dottedName : Scan (List String × String) :=
  loop (fun path => do
    blanks
    let name ← simpleName
    blanks
    if ← word? ['.'] then
      if maxDepth ≤ path.length + 1 then refuse .tooDeep
      return .inl (path ++ [name])
    else return .inr (path, name)) []

/-! ## Words -/

/-- Whether the character may stand in a value without quotes. -/
def isWordChar (c : Char) : Bool :=
  !isBlank c && c ≠ '\n' && c ≠ '\r' && !("=,[]\x7b\x7d#".toList.contains c)

/-- Takes the characters of a value without quotes. One blank may stand
between a date and a time. -/
def word : Scan (List Char) := do
  let front ← takeWhile isWordChar
  match ← rest with
  | ' ' :: c :: more =>
      if isWordChar c then
        goOn (c :: more)
        return front ++ ' ' :: (← takeWhile isWordChar)
      else return front
  | _ => return front

end Scan

/-- The value that a word stands for. -/
def Value.ofWord? (word : List Char) : Option Value :=
  if word = "true".toList then some (.boolean true)
  else if word = "false".toList then some (.boolean false)
  else if Moment.isMoment word then some (.moment (String.ofList word))
  else (Number.ofWord? word).map .number

/-- A value without quotes. -/
def Scan.scalar : Scan Value := do
  let word ← word
  if word.isEmpty then unexpected
  match Value.ofWord? word with
  | some value => return value
  | none => refuse (.invalidValue (String.ofList word))

end Toml

end ObjectStore
