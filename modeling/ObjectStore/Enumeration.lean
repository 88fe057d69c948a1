import ObjectStore.Error

/-!
# Enumerations that may fail

Looking for the references in a record or an instance goes member by member
and may fail at any of them. What was found before the failure has been
seen, and a caller may have reacted to it. An `Enumeration` keeps both: what
was seen, in order, and how the search ended.

## Main results

* `Enumeration.andThen_of_ok`, `Enumeration.andThen_of_error`: what follows
  a success is seen behind it, and nothing follows a failure.
* `Enumeration.andThen_eq_ok`, `Enumeration.andThen_eq_error`: two searches
  come to their end if both do, and fail as the first of them that fails.
-/

namespace ObjectStore

/-- What a search went through before it ended, and how it ended. -/
structure Enumeration (α : Type) where
  seen : List α
  result : Except Error Unit

namespace Enumeration

variable {α : Type}

/-- The search that found these and came to its end. -/
def ok (seen : List α) : Enumeration α := ⟨seen, .ok ()⟩

/-- The search that failed before it found anything. -/
def error (e : Error) : Enumeration α := ⟨[], .error e⟩

/-- One search after another; nothing follows a failure. -/
def andThen (first second : Enumeration α) : Enumeration α :=
  match first.result with
  | .ok () => ⟨first.seen ++ second.seen, second.result⟩
  | .error _ => first

/-- What was seen, if the search came to its end. -/
def toExcept (enumeration : Enumeration α) : Except Error (List α) :=
  match enumeration.result with
  | .ok () => .ok enumeration.seen
  | .error e => .error e

@[simp] theorem toExcept_ok (seen : List α) : (ok seen).toExcept = .ok seen := rfl

theorem andThen_of_ok {first second : Enumeration α} (h : first.result = .ok ()) :
    first.andThen second = ⟨first.seen ++ second.seen, second.result⟩ := by
  simp [andThen, h]

theorem andThen_of_error {first second : Enumeration α} {e : Error}
    (h : first.result = .error e) : first.andThen second = first := by
  simp [andThen, h]

theorem toExcept_eq_ok {e : Enumeration α} {seen : List α} :
    e.toExcept = .ok seen ↔ e.result = .ok () ∧ e.seen = seen := by
  unfold toExcept
  cases hResult : e.result with
  | error cause => simp
  | ok u => simp

/-- Two searches come to their end if each of them does. -/
theorem andThen_eq_ok {first second : Enumeration α} {seen : List α} :
    (first.andThen second).toExcept = .ok seen ↔
      ∃ front back, first.toExcept = .ok front ∧ second.toExcept = .ok back ∧
        seen = front ++ back := by
  simp only [toExcept_eq_ok]
  cases hFirst : first.result with
  | error cause => simp [andThen_of_error hFirst, hFirst]
  | ok u =>
      rw [andThen_of_ok hFirst]
      constructor
      · rintro ⟨hSecond, rfl⟩
        exact ⟨first.seen, second.seen, ⟨rfl, rfl⟩, ⟨hSecond, rfl⟩, rfl⟩
      · rintro ⟨front, back, ⟨-, rfl⟩, ⟨hSecond, rfl⟩, rfl⟩
        exact ⟨hSecond, rfl⟩

/-- Two searches fail as the first one does, or as the second one if the first
comes to its end. -/
theorem andThen_eq_error {first second : Enumeration α} {cause : Error} :
    (first.andThen second).toExcept = .error cause ↔
      first.toExcept = .error cause ∨
        (∃ front, first.toExcept = .ok front) ∧ second.toExcept = .error cause := by
  cases hFirst : first.result with
  | error e => simp [andThen_of_error hFirst, toExcept, hFirst]
  | ok u =>
      rw [andThen_of_ok hFirst]
      cases hSecond : second.result with
      | error e => simp [toExcept, hFirst, hSecond]
      | ok v => simp [toExcept, hFirst, hSecond]

end Enumeration

end ObjectStore
