import ObjectStore.Error

/-!
# Members

A member is one persisted value of a type. It is identified by a name and,
where names of several declaring scopes meet, by a qualifier in front of it.
The written form of an identifier is `qualifier#name`, or the name alone.

A member's offset is its place in the content of a record. Layout derivation
assigns it once; assigning the same offset again changes nothing, and any
other offset is refused.

## Main results

* `MemberId.splitLast_append`: a text is cut at its last separator.
* `Member.placeAt_eq_ok_iff`: when an offset can be assigned, and with what
  result.
-/

namespace ObjectStore

/-! ## Identifiers -/

/-- The identifier of a member within its type. -/
structure MemberId where
  qualifier : Option String
  name : String
deriving DecidableEq, Hashable, Inhabited

namespace MemberId

/-- The character between qualifier and name. -/
def separator : Char := '#'

/-- The identifier without qualifier. -/
def unqualified (name : String) : MemberId := ⟨none, name⟩

/-- Cuts a text at the last occurrence of a character, which goes to neither
part. -/
def splitLast (c : Char) : List Char → Option (List Char × List Char)
  | [] => none
  | head :: rest =>
      match splitLast c rest with
      | some (before, after) => some (head :: before, after)
      | none => if head = c then some ([], rest) else none

/-- Reads an identifier. The last separator counts, and a qualifier without
a character is none. -/
def parse (text : String) : MemberId :=
  match splitLast separator text.toList with
  | none => ⟨none, text⟩
  | some ([], name) => ⟨none, String.ofList name⟩
  | some (qualifier, name) => ⟨some (String.ofList qualifier), String.ofList name⟩

/-- The written form of an identifier. -/
def render (id : MemberId) : String :=
  match id.qualifier with
  | some qualifier => qualifier ++ "#" ++ id.name
  | none => id.name

theorem splitLast_eq_none {c : Char} {text : List Char} :
    splitLast c text = none ↔ c ∉ text := by
  induction text with
  | nil => simp [splitLast]
  | cons head rest ih =>
      simp only [splitLast]
      split
      · rename_i before after h
        have hMem : c ∈ rest := by
          have := mt ih.2
          simp [h] at this
          exact this
        simp [hMem]
      · rename_i h
        have hNot := ih.1 h
        by_cases hHead : head = c
        · simp [hHead]
        · simp [hHead, hNot, Ne.symm hHead]

theorem splitLast_append {c : Char} {before after : List Char} (h : c ∉ after) :
    splitLast c (before ++ c :: after) = some (before, after) := by
  induction before with
  | nil => simp [splitLast, splitLast_eq_none.2 h]
  | cons head rest ih => simp [splitLast, ih]

end MemberId

/-! ## Members -/

/-- A persisted member of a type. -/
structure Member where
  id : MemberId
  kind : FieldKind
  /-- The declared type: the name of the primitive kind, or the name of the
  referenced type. -/
  typeName : String
  /-- The place in the content of a record, once it is assigned. -/
  offset : Option UInt64
deriving DecidableEq, Inhabited

namespace Member

/-- The member of a kind that declares no type name and has no place yet. -/
def ofKind (id : MemberId) (kind : FieldKind) : Member :=
  ⟨id, kind, kind.defaultTypeName, none⟩

/-- The member with another declared type name. -/
def withTypeName (member : Member) (typeName : String) : Member :=
  { member with typeName }

/-- Assigns the offset. -/
def placeAt (member : Member) (offset : UInt64) : Except Error Member :=
  match member.offset with
  | none => .ok { member with offset := some offset }
  | some current =>
      if current = offset then .ok member
      else .error (.offsetConflict member.id.render current offset)

/-- The assigned offset. -/
def place (member : Member) : Except Error UInt64 :=
  match member.offset with
  | some offset => .ok offset
  | none => .error (.corruptRecord (.unplacedMember member.id.render))

theorem placeAt_eq_ok_iff {member placed : Member} {offset : UInt64} :
    member.placeAt offset = .ok placed ↔
      (member.offset = none ∨ member.offset = some offset) ∧
        placed = { member with offset := some offset } := by
  unfold placeAt
  split
  · rename_i h
    simp [h, eq_comm]
  · rename_i current h
    by_cases hEq : current = offset
    · subst hEq
      cases member
      simp_all [eq_comm]
    · simp [h, hEq]

end Member

end ObjectStore
