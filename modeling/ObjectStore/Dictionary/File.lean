import ObjectStore.Bytes.Codec
import ObjectStore.Dictionary.Basic

/-!
# Dictionary files

A dictionary file is a five-byte header, four bytes of magic and a format
version, followed by the list of all type descriptions in compact encoding,
in the order of their identifiers.

A file is checked from the outside to the inside: its size, its header, its
payload, and then every description, whose members are laid out again. So an
offset that disagrees with the layout is refused, and so are two
descriptions that contradict each other. Bytes behind the payload are
ignored.
-/

namespace ObjectStore

/-! ## The header -/

/-- The first bytes of a dictionary file. -/
structure FileHeader where
  magic : Bytes
  version : UInt8
deriving DecidableEq

namespace FileHeader

/-- The four bytes every dictionary file begins with. -/
def expectedMagic : Bytes := [0x4C, 0x4F, 0x44, 0x45]

/-- The format version that is written and read. -/
def expectedVersion : UInt8 := 1

/-- The bytes a header occupies. -/
def size : Nat := 5

/-- The header of the files written here. -/
def current : FileHeader := ⟨expectedMagic, expectedVersion⟩

/-- The header at the front of the bytes. -/
def read : Bytes → Except Error FileHeader
  | a :: b :: c :: d :: version :: _ => .ok ⟨[a, b, c, d], version⟩
  | _ => .error (.deserialization .truncatedHeader)

/-- The bytes of a header. -/
def write (header : FileHeader) : Bytes := header.magic ++ [header.version]

/-- Whether the header is that of a file that can be read. -/
def validate (header : FileHeader) : Except Error Unit :=
  if header.magic ≠ expectedMagic then .error (.deserialization .wrongMagic)
  else if header.version ≠ expectedVersion then
    .error (.deserialization (.unsupportedVersion header.version expectedVersion))
  else .ok ()

end FileHeader

/-! ## Descriptions -/

/-- A type as a file describes it, before its members are laid out. -/
structure Description where
  id : TypeId
  name : String
  runtime : Option String
  members : List Member
deriving DecidableEq

namespace Description

/-- The description of a definition. -/
def ofDefinition (d : Definition) : Description := ⟨d.id, d.name, d.runtime, d.members⟩

/-- The definition that a description gives rise to. -/
def toDefinition (d : Description) : Except Error Definition :=
  Definition.make d.id d.name d.runtime d.members

end Description

namespace Codec

/-- A kind: the five shapes are alternatives, and a primitive one is
followed by the number of the primitive kind. -/
def fieldKind : Codec FieldKind where
  write
    | .primitive kind => Varint.write 0 ++ (choice PrimitiveKind.all).write kind
    | .reference => Varint.write 1
    | .bytes => Varint.write 2
    | .text => Varint.write 3
    | .referenceList => Varint.write 4
  read := do
    match ← Varint.read Varint.alternative with
    | 0 => return .primitive (← (choice PrimitiveKind.all).read)
    | 1 => return .reference
    | 2 => return .bytes
    | 3 => return .text
    | 4 => return .referenceList
    | _ => Reader.refuse .unknownAlternative

/-- A member identifier. -/
def memberId : Codec MemberId :=
  (product (option text) text).through (fun id => (id.qualifier, id.name)) (fun p => ⟨p.1, p.2⟩)

/-- A member. -/
def member : Codec Member :=
  (product memberId (product fieldKind (product text (option word)))).through
    (fun m => (m.id, m.kind, m.typeName, m.offset))
    (fun p => ⟨p.1, p.2.1, p.2.2.1, p.2.2.2⟩)

/-- A type description. -/
def description : Codec Description :=
  (product word (product text (product (option text) (list member)))).through
    (fun d => (d.id.value, d.name, d.runtime, d.members))
    (fun p => ⟨⟨p.1⟩, p.2.1, p.2.2.1, p.2.2.2⟩)

end Codec

/-! ## Whole files -/

namespace Dictionary

/-- The largest dictionary file that is read, in bytes. -/
def maxFileSize : Nat := 67108864

/-- The descriptions of a dictionary, in the order of their identifiers. -/
def descriptions (d : Dictionary) : List Description :=
  d.definitions.map Description.ofDefinition

/-- The file of a dictionary. -/
def encode (d : Dictionary) : Bytes :=
  FileHeader.current.write ++ (Codec.list Codec.description).write d.descriptions

/-- The dictionary that a list of descriptions gives rise to. -/
def ofDescriptions (descriptions : List Description) : Except Error Dictionary := do
  ofList (← descriptions.mapM Description.toDefinition)

/-- The dictionary in a file. -/
def decode (file : ByteArray) : Except Error Dictionary := do
  if file.size < FileHeader.size then throw (.deserialization .tooShort)
  if maxFileSize < file.size then throw (.deserialization (.tooLarge file.size maxFileSize))
  let header ← FileHeader.read (file.extract 0 FileHeader.size).data.toList
  header.validate
  match (Codec.list Codec.description).read ⟨file, FileHeader.size⟩ with
  | .ok (descriptions, _) => ofDescriptions descriptions
  | .error fault => throw (.deserialization (.payload fault))

end Dictionary

end ObjectStore
