import Mathlib.Algebra.GroupWithZero.Nat
import ObjectStore.Bytes.Cursor
import ObjectStore.Proofs.Handler.Derived
import ObjectStore.Proofs.Record.Places

/-!
# The content of an instance's record

What a handler writes of an instance depends on the identifiers of the
instances it refers to, and on nothing else that is not in the instance.
`Access.bytesOf` and `ObjectHandler.content` say what it is, as functions of
these identifiers. The length that the header announces is that of the
content, unless it saturates.

## Main results

* `Access.bytesOf_congr`: only the held references count.
* `ObjectHandler.toNat_contentLength`: the announced length is the real one.
* `ObjectHandler.stands_content`: the parts of a content stand at the offsets
  of their members.
-/

namespace ObjectStore

variable {ι : Type}

/-! ## Members -/

namespace Access

/-- The bytes of the member of an instance, if the instances it refers to
have these identifiers. -/
def bytesOf (access : Access ι) (name : Ref → ObjectId) (x : ι) : Bytes :=
  match access with
  | value kind get _ => kind.encode (get x)
  | reference get _ => Word.ofWord (((get x).map name).getD ObjectId.null).value
  | bytes get _ => writeVariable (get x)
  | text get _ => writeVariable (Text.encode (get x))
  | references get _ => writeObjectIds ((get x).map name)

variable {access : Access ι} {name name' : Ref → ObjectId} {x : ι}

/-- Only the identifiers of the held references count. -/
theorem bytesOf_congr (h : ∀ ref ∈ access.held x, name ref = name' ref) :
    access.bytesOf name x = access.bytesOf name' x := by
  cases access with
  | value kind get set => rfl
  | bytes get set => rfl
  | text get set => rfl
  | reference get set =>
      simp only [held] at h
      cases hGet : get x with
      | none => simp only [bytesOf, hGet, Option.map_none]
      | some ref =>
          rw [hGet] at h
          have hName := h ref (by simp)
          simp only [bytesOf, hGet, Option.map_some, hName]
  | references get set =>
      have hMap : (get x).map name = (get x).map name' := List.map_congr_left h
      simp only [bytesOf, hMap]

theorem length_writeVariable (payload : Bytes) :
    (writeVariable payload).length = 8 + payload.length := by
  rw [writeVariable, List.length_append, Word.length_ofWord]

theorem length_writeObjectIds (ids : List ObjectId) :
    (writeObjectIds ids).length = 8 + 8 * ids.length := by
  rw [writeObjectIds_eq, length_writeVariable, length_writeIds]

theorem length_bytesOf_fixed (h : access.kind.isVariable = false) :
    (access.bytesOf name x).length = access.kind.minLength.toNat := by
  rw [FieldKind.toNat_minLength]
  cases access with
  | value kind get set => exact PrimitiveKind.length_encode kind _
  | reference get set => exact Word.length_ofWord _
  | bytes get set => cases h
  | text get set => cases h
  | references get set => cases h

/-- The announced length of a member is the real one, or the largest word. -/
theorem toNat_length (access : Access ι) (name : Ref → ObjectId) (x : ι) :
    (access.length x).toNat = min (access.bytesOf name x).length Word.max.toNat := by
  have hMax : Word.max.toNat = 18446744073709551615 := by decide
  have hPrefix : lengthPrefixLength.toNat = 8 := by decide
  cases access with
  | value kind get set =>
      have hWidth : kind.width ≤ 8 := by cases kind <;> decide
      simp only [length, bytesOf, PrimitiveKind.length_encode, PrimitiveKind.toNat_width]
      omega
  | reference get set =>
      have hReference : referenceLength.toNat = 8 := by decide
      simp only [length, bytesOf, Word.length_ofWord]
      omega
  | bytes get set =>
      simp only [length, bytesOf, length_writeVariable, Word.toNat_addSat, Word.toNat_ofNatSat]
      omega
  | text get set =>
      have hSize : (Text.encode (get x)).length = (get x).utf8ByteSize := by
        exact Cursor.length_toList (get x).toByteArray
      simp only [length, bytesOf, length_writeVariable, Word.toNat_addSat, Word.toNat_ofNatSat,
        hSize]
      omega
  | references get set =>
      simp only [length, bytesOf, length_writeObjectIds, Word.toNat_addSat, Word.toNat_ofNatSat,
        List.length_map]
      omega

end Access

/-! ## Whole contents -/

namespace ObjectHandler

variable {h : ObjectHandler ι} {d : Derived ι} {name name' : Ref → ObjectId} {x : ι}

/-- The parts of the content of an instance, in stored order. -/
def parts (d : Derived ι) (name : Ref → ObjectId) (x : ι) : List Bytes :=
  d.fields.map fun f => f.payload.bytesOf name x

/-- The content of the record of an instance. -/
def content (d : Derived ι) (name : Ref → ObjectId) (x : ι) : Bytes := (parts d name x).flatten

/-- The record of an instance. -/
def recordOf (h : ObjectHandler ι) (d : Derived ι) (name : Ref → ObjectId) (object : ObjectId)
    (x : ι) : Record := ⟨h.id, object, content d name x⟩

theorem parts_congr (hSame : ∀ f ∈ d.fields, ∀ ref ∈ f.payload.held x, name ref = name' ref) :
    parts d name x = parts d name' x :=
  List.map_congr_left fun f hf => Access.bytesOf_congr (hSame f hf)

theorem length_content : (content d name x).length =
    (d.fields.map fun f => (f.payload.bytesOf name x).length).sum := by
  simp only [content, parts, List.length_flatten, List.map_map]
  rfl

/-- The announced length of a content is the real one, or the largest
word. -/
theorem toNat_contentLength (hOrders : d.Orders h) (name : Ref → ObjectId) (x : ι) :
    (contentLength d x).toNat = min (content d name x).length Word.max.toNat := by
  have hFixed : ∀ fields : List (Declaration (Access ι)), (∀ f ∈ fields, f ∈ d.fields) →
      (∀ f ∈ fields, f.member.kind.isVariable = false) →
      (fields.map fun f => f.member.kind.minLength.toNat) =
        fields.map fun f => (f.payload.bytesOf name x).length := by
    intro fields hSub hAll
    apply List.map_congr_left
    intro f hf
    have hKind := hOrders.kind f (hSub f hf)
    rw [Access.length_bytesOf_fixed (hKind ▸ hAll f hf), hKind]
  have hTrailing := hOrders.describes.variableMember
  have hLength := hOrders.describes.fixedLength
  rw [length_content, contentLength, hLength, hTrailing, Word.toNat_addSat]
  rcases Layout.split_of_laidOut hOrders.laidOut with hAll | ⟨front, v, hSplit, hFront, hVariable⟩
  · rw [Layout.trailing?_fixed hAll, Layout.toNat_fixedSum hAll, hFixed _ (fun f hf => hf) hAll]
    simp only [Option.map_none, Option.getD_none, UInt64.toNat_zero]
    omega
  · have hSub : ∀ f ∈ front, f ∈ d.fields := by
      intro f hf
      rw [hSplit]
      exact List.mem_append_left _ hf
    rw [hSplit, Layout.trailing?_append_variable hVariable,
      Layout.fixedSum_append_variable hVariable, Layout.toNat_fixedSum hFront,
      hFixed front hSub hFront]
    simp only [Option.map_some, Option.getD_some, List.map_append, List.map_cons, List.map_nil,
      List.sum_append, List.sum_cons, List.sum_nil, Access.toNat_length v.payload name x]
    omega

/-- The parts of fixed members have the lengths of their kinds. -/
theorem fills_parts (hOrders : d.Orders h) :
    List.Forall₂ Record.Fills (d.fields.map Declaration.member) (parts d name x) := by
  rw [List.forall₂_map_left_iff, parts, List.forall₂_map_right_iff]
  apply List.forall₂_same.2
  intro f hf hFixed
  have hKind := hOrders.kind f hf
  rw [hKind] at hFixed ⊢
  exact Access.length_bytesOf_fixed hFixed

/-- The parts of a content stand at the offsets of their members. -/
theorem stands_content (hOrders : d.Orders h) {object : ObjectId}
    (hFits : (recordOf h d name object x).Fits) :
    ∀ f ∈ d.fields, (recordOf h d name object x).Stands f.member (f.payload.bytesOf name x) := by
  have hStands := @Record.stands_of_laidOut (recordOf h d name object x) 0 _ _ [] hFits
    hOrders.laidOut (fills_parts hOrders) rfl rfl
  rw [List.forall₂_map_left_iff, parts, List.forall₂_map_right_iff] at hStands
  exact List.forall₂_same.1 hStands

end ObjectHandler

end ObjectStore
