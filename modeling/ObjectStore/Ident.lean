import Std.Data.ExtTreeMap

/-!
# Identifiers

Three kinds of identifier occur everywhere in the library.

* A `TypeId` names a persisted type and is written into every record.
* An `ObjectId` names a persisted object; the value zero is the absent
  reference.
* A `Ref` is the position of a live instance in an object graph. It has no
  meaning outside that graph and is never written anywhere.

The persisted identifiers are 64-bit words, because that is what a record
has room for. They are ordered by their value, and the order is lawful, so
that they can be the keys of an ordered map.

## Main results

* `TypeId.compare_eq_iff`, `ObjectId.compare_eq_iff`: two identifiers
  compare equal only when they are equal.
-/

namespace ObjectStore

open Std

/-! ## Persisted identifiers -/

/-- The stable identifier of a persisted type. -/
structure TypeId where
  value : UInt64
deriving DecidableEq, Hashable, Inhabited

/-- The stable identifier of a persisted object. -/
structure ObjectId where
  value : UInt64
deriving DecidableEq, Hashable, Inhabited

namespace TypeId

instance : Ord TypeId := ⟨compareOn TypeId.value⟩

instance : TransCmp (compare : TypeId → TypeId → Ordering) :=
  inferInstanceAs (TransCmp (compareOn TypeId.value))

theorem eq_of_value_eq {a b : TypeId} (h : a.value = b.value) : a = b := by
  cases a; cases b; exact congrArg _ h

instance : LawfulEqCmp (compare : TypeId → TypeId → Ordering) where
  eq_of_compare {a b} h := by
    have hKey : compare a.value b.value = .eq := h
    exact eq_of_value_eq (LawfulEqCmp.eq_of_compare hKey)

theorem compare_eq_iff {a b : TypeId} : compare a b = .eq ↔ a = b :=
  LawfulEqCmp.compare_eq_iff_eq

instance : ToString TypeId := ⟨fun id => toString id.value.toNat⟩

end TypeId

namespace ObjectId

/-- The absent reference. -/
def null : ObjectId := ⟨0⟩

/-- The first identifier a store hands out. -/
def first : ObjectId := ⟨1⟩

/-- Whether the identifier is the absent reference. -/
def isNull (id : ObjectId) : Bool := id.value == 0

instance : Ord ObjectId := ⟨compareOn ObjectId.value⟩

instance : TransCmp (compare : ObjectId → ObjectId → Ordering) :=
  inferInstanceAs (TransCmp (compareOn ObjectId.value))

theorem eq_of_value_eq {a b : ObjectId} (h : a.value = b.value) : a = b := by
  cases a; cases b; exact congrArg _ h

instance : LawfulEqCmp (compare : ObjectId → ObjectId → Ordering) where
  eq_of_compare {a b} h := by
    have hKey : compare a.value b.value = .eq := h
    exact eq_of_value_eq (LawfulEqCmp.eq_of_compare hKey)

theorem compare_eq_iff {a b : ObjectId} : compare a b = .eq ↔ a = b :=
  LawfulEqCmp.compare_eq_iff_eq

@[simp] theorem isNull_iff {id : ObjectId} : id.isNull = true ↔ id = null := by
  cases id; simp [isNull, null]

instance : ToString ObjectId := ⟨fun id => toString id.value.toNat⟩

end ObjectId

/-! ## Live instances -/

/-- The position of a live instance in its object graph. -/
structure Ref where
  index : Nat
deriving DecidableEq, Hashable, Inhabited

namespace Ref

instance : Ord Ref := ⟨compareOn Ref.index⟩

instance : TransCmp (compare : Ref → Ref → Ordering) :=
  inferInstanceAs (TransCmp (compareOn Ref.index))

theorem eq_of_index_eq {a b : Ref} (h : a.index = b.index) : a = b := by
  cases a; cases b; exact congrArg _ h

instance : LawfulEqCmp (compare : Ref → Ref → Ordering) where
  eq_of_compare {a b} h := by
    have hKey : compare a.index b.index = .eq := h
    exact eq_of_index_eq (LawfulEqCmp.eq_of_compare hKey)

end Ref

/-- The in-memory type of a live instance, known by its name. -/
structure RuntimeType where
  name : String
deriving DecidableEq, Hashable, Inhabited

namespace RuntimeType

instance : Ord RuntimeType := ⟨compareOn RuntimeType.name⟩

instance : TransCmp (compare : RuntimeType → RuntimeType → Ordering) :=
  inferInstanceAs (TransCmp (compareOn RuntimeType.name))

theorem eq_of_name_eq {a b : RuntimeType} (h : a.name = b.name) : a = b := by
  cases a; cases b; exact congrArg _ h

instance : LawfulEqCmp (compare : RuntimeType → RuntimeType → Ordering) where
  eq_of_compare {a b} h := by
    have hKey : compare a.name b.name = .eq := h
    exact eq_of_name_eq (LawfulEqCmp.eq_of_compare hKey)

end RuntimeType

end ObjectStore
