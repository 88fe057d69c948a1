import ObjectStore.Bytes.Cursor

/-!
# Compact encoding

The payload of a dictionary file and the root list of a store are written in a
compact form without any tags or padding. Numbers are little-endian base-128 groups, of which all but
the last have the high bit set; texts and lists have their length in front;
an optional value has a presence byte; a choice among alternatives is the
number of the alternative; and a structure is its parts, one behind the
other.

A `Codec` holds both directions for one type, and the combinators below
build the codec of a type from those of its parts.

Reading is lenient in one respect: a number may be padded with zero groups
up to the length that its width allows.
-/

namespace ObjectStore

/-! ## Numbers -/

namespace Varint

/-- How long a number may be: at most `groups` groups, of which the last is
at most `last`. -/
structure Width where
  groups : Nat
  last : UInt8
deriving DecidableEq

/-- The width of a 64-bit number. -/
def word : Width := ⟨10, 1⟩

/-- The width of the number of an alternative, which has 32 bits. -/
def alternative : Width := ⟨5, 15⟩

/-- The number of 64-bit words. -/
def limit : Nat := 18446744073709551616

/-- Writes a number, least significant group first. -/
def write (n : Nat) : Bytes :=
  if n < 128 then [UInt8.ofNat n]
  else UInt8.ofNat (n % 128 + 128) :: write (n / 128)
termination_by n
decreasing_by omega

/-- Reads the remaining groups of a number, which stand at `shift` bits. -/
def readFrom (last : UInt8) : (groups shift value : Nat) → Reader Nat
  | 0, _, _ => Reader.refuse .runawayVarint
  | groups + 1, shift, value => do
      let byte ← Reader.byte
      let value := value + (byte.toNat % 128) <<< shift
      if byte < 128 then
        if groups = 0 ∧ last < byte then Reader.refuse .runawayVarint
        else return value
      else readFrom last groups (shift + 7) value

/-- Reads a number of the given width. -/
def read (width : Width) : Reader Nat := readFrom width.last width.groups 0 0

end Varint

/-! ## Codecs -/

/-- Both directions of the encoding of a type. -/
structure Codec (α : Type) where
  write : α → Bytes
  read : Reader α

namespace Codec

variable {α β : Type}

/-- A 64-bit number. -/
def word : Codec UInt64 where
  write w := Varint.write w.toNat
  read := do return UInt64.ofNat (← Varint.read Varint.word)

/-- A text with its length in bytes in front. -/
def text : Codec String where
  write s := Varint.write s.toByteArray.size ++ s.toByteArray.data.toList
  read := do
    let size ← Varint.read Varint.word
    let block ← Reader.block size
    match String.fromUTF8? block with
    | some s => return s
    | none => Reader.refuse .invalidText

/-- A value that may be absent. -/
def option (codec : Codec α) : Codec (Option α) where
  write
    | none => [0]
    | some a => 1 :: codec.write a
  read := do
    match ← Reader.byte with
    | 0 => return none
    | 1 => return some (← codec.read)
    | _ => Reader.refuse .invalidPresence

/-- Reads `n` values in a row. -/
def readMany (reader : Reader α) : Nat → Reader (List α)
  | 0 => return []
  | n + 1 => do
      let head ← reader
      let rest ← readMany reader n
      return head :: rest

/-- A list with its length in front. -/
def list (codec : Codec α) : Codec (List α) where
  write as := Varint.write as.length ++ as.flatMap codec.write
  read := do
    let n ← Varint.read Varint.word
    readMany codec.read n

/-- One value behind another. -/
def product (first : Codec α) (second : Codec β) : Codec (α × β) where
  write p := first.write p.1 ++ second.write p.2
  read := do
    let a ← first.read
    let b ← second.read
    return (a, b)

/-- The encoding of `α` through that of `β`. -/
def through (codec : Codec β) (forth : α → β) (back : β → α) : Codec α where
  write a := codec.write (forth a)
  read := do return back (← codec.read)

/-- One of finitely many alternatives, by its number. -/
def choice [DecidableEq α] (all : List α) : Codec α where
  write a := Varint.write (all.idxOf a)
  read := do
    let number ← Varint.read Varint.alternative
    match all[number]? with
    | some a => return a
    | none => Reader.refuse .unknownAlternative

end Codec

end ObjectStore
