import ObjectStore.Text.Printable

/-!
# Quoted text

In messages and diagnostics a text is shown between double quotes. What
could be mistaken inside the quotes, and what cannot be seen, is escaped: a
double quote and a backslash by a backslash, the common control characters
by their letters, and every other hidden character by its code in
hexadecimal digits.

## Main results

* `Quoted.escape_of_plain`: a printable character other than the quote and
  the backslash stands for itself.
-/

namespace ObjectStore

namespace Quoted

/-- The code in lower-case hexadecimal digits, as in `\u{301}`. -/
def codeEscape (c : Char) : List Char :=
  ['\\', 'u', '\x7b'] ++ Nat.toDigits 16 c.toNat ++ ['\x7d']

/-- What a character is shown as between quotes. -/
def escape (c : Char) : List Char :=
  match c with
  | '"' => ['\\', '"']
  | '\\' => ['\\', '\\']
  | '\n' => ['\\', 'n']
  | '\r' => ['\\', 'r']
  | '\t' => ['\\', 't']
  | '\x00' => ['\\', '0']
  | c => if Printable.isPrintable c then [c] else codeEscape c

/-- The text between quotes. -/
def quote (text : String) : String :=
  String.ofList ('"' :: text.toList.flatMap escape ++ ['"'])

theorem escape_of_plain {c : Char} (hLow : 32 ≤ c.toNat) (hHigh : c.toNat < 127)
    (hQuote : c ≠ '"') (hBackslash : c ≠ '\\') : escape c = [c] := by
  have hPrintable := Printable.isPrintable_of_ascii hLow hHigh
  unfold escape
  split
  · exact absurd rfl hQuote
  · exact absurd rfl hBackslash
  · exact absurd hLow (by decide)
  · exact absurd hLow (by decide)
  · exact absurd hLow (by decide)
  · exact absurd hLow (by decide)
  · simp [hPrintable]

end Quoted

end ObjectStore
