import ObjectStore.EntityStore
import ObjectStore.Refactoring.Table
import ObjectStore.Text.Outline

/-!
# Diagnostics

The outlines of what a program holds, for logs and for the debugger. They
show the identity and the size of a thing rather than its content, except
for definitions and their members, which are shown in full.
-/

namespace ObjectStore

/-! ## Members and definitions -/

/-- The name of a primitive kind in an outline. -/
def PrimitiveKind.outlineName : PrimitiveKind → String
  | bool => "Bool"
  | i8 => "I8"
  | u8 => "U8"
  | i16 => "I16"
  | u16 => "U16"
  | i32 => "I32"
  | u32 => "U32"
  | i64 => "I64"
  | u64 => "U64"
  | f32 => "F32"
  | f64 => "F64"
  | char => "Char"

/-- The outline of a kind. -/
def FieldKind.outline : FieldKind → Outline
  | primitive kind => .tuple "Primitive" [.plain kind.outlineName]
  | reference => .plain "Reference"
  | bytes => .plain "Bytes"
  | text => .plain "Text"
  | referenceList => .plain "ReferenceList"

/-- The outline of a member identifier. -/
def MemberId.outline (id : MemberId) : Outline :=
  .whole "MemberIdentifier"
    [("qualifier", .optional (id.qualifier.map .quoted)), ("name", .quoted id.name)]

/-- The outline of a member. -/
def Member.outline (m : Member) : Outline :=
  .whole "FieldDescriptor"
    [("identifier", m.id.outline), ("kind", m.kind.outline), ("type_name", .quoted m.typeName),
      ("offset", .optional (m.offset.map fun offset => .number offset.toNat))]

/-- The outline of a type identifier. -/
def TypeId.outline (id : TypeId) : Outline := .tuple "TypeId" [.number id.value.toNat]

/-- The outline of a definition. -/
def Definition.outline (d : Definition) : Outline :=
  .whole "TypeDefinition"
    [("type_id", d.id.outline), ("type_name", .quoted d.name),
      ("runtime_type_name", .optional (d.runtime.map .quoted)),
      ("members", .list (d.members.map Member.outline)),
      ("has_references", .truth d.hasReferences),
      ("has_variable_length", .truth d.hasVariable),
      ("minimum_length", .number d.minLength.toNat),
      ("maximum_length", .number d.maxLength.toNat)]

/-! ## Fields and handlers -/

/-- The outline of a declared field. -/
def Field.outline {ι : Type} (f : Field ι) : Outline :=
  .whole "BinaryField"
    [("descriptor", f.member.outline), ("settable", .truth f.access.isSettable)]

/-- The outline of a handler. `used` says whether its layout has been asked
for. -/
def Handler.outline {ι : Type} (used : Bool) : Handler ι → Outline
  | object h =>
      .partly "CustomTypeHandler"
        [("type_id", h.id.outline), ("type_name", .quoted h.name), ("initialized", .truth used)]
  | placeholder d => .whole "AbstractTypeHandler" [("definition", d.outline)]

/-! ## Collections -/

/-- The outline of a registry. -/
def Registry.outline {ι : Type} (r : Registry ι) : Outline :=
  .whole "TypeRegistry"
    [("initialized", .truth r.bound.isSome),
      ("entity_handlers", .number r.definitions.size),
      ("type_handlers", .number r.handlers.size)]

/-- The outline of an object graph. -/
def Graph.outline {ι : Type} (g : Graph ι) : Outline :=
  .partly "ObjectGraph" [("len", .number g.size)]

/-- The outline of an entity store. -/
def EntityStore.outline (s : EntityStore) : Outline :=
  .partly "RedbEntityStore" [("next_object_id", .number s.next.toNat)]

/-- The outline of a refactoring. -/
def Refactoring.outline (r : Refactoring) : Outline :=
  .whole "RefactoringResolver"
    [("entries", .number r.table.size),
      ("type_builders", .number r.typeKeys.length),
      ("source_member_builders", .number r.sourceKeys.length),
      ("target_member_builders", .number r.targetKeys.length)]

end ObjectStore
