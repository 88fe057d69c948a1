import ObjectStore.Error

/-!
# The catalogue of errors

Every cause of an error has a code, under which tools that do not read its
wording know it. An embedding program that reports through the same channel
makes an error from its code and its parts.

## Main results

* `Error.code_of_ofCode`: an error that was made from a code has that code.
-/

namespace ObjectStore

/-- The word for a class of errors. -/
def ErrorCategory.word : ErrorCategory → String
  | configuration => "Configuration"
  | dataConsistency => "DataConsistency"
  | notPersistable => "NotPersistable"
  | storage => "Storage"

/-- What an error is made of: up to two texts and three numbers, and the
bounds of a length. -/
structure ErrorParts where
  first : String
  second : String
  x : UInt64
  y : UInt64
  z : UInt64
  min : UInt64
  max : UInt64
deriving Inhabited

namespace Error

/-- The code of the error. -/
def code : Error → String
  | unnamedField _ => "UnnamedField"
  | duplicateField _ => "DuplicateField"
  | multipleVariableFields _ _ => "MultipleVariableLengthFields"
  | offsetConflict _ _ _ => "OffsetConflict"
  | typeIdTaken _ _ => "TypeIdAlreadyRegistered"
  | runtimeTypeTaken _ _ => "RuntimeTypeAlreadyRegistered"
  | unhandledRuntimeType _ => "UnhandledRuntimeType"
  | dictionaryTaken => "AlreadyInitialized"
  | unhandledTypeId _ => "UnhandledTypeId"
  | unknownEntityType _ _ _ => "UnknownEntityType"
  | invalidEntityLength _ _ _ _ _ => "InvalidEntityLength"
  | definitionMismatch _ _ => "TypeDefinitionMismatch"
  | unresolvableMember _ _ => "UnresolvableMemberMapping"
  | unresolvableType _ _ => "UnresolvableTypeMapping"
  | incompatibleMembers _ _ => "IncompatibleMemberMapping"
  | unknownField _ _ => "UnknownField"
  | unknownInstance _ => "UnknownInstance"
  | unresolvedReference _ => "UnresolvedReference"
  | duplicateObjectId _ => "DuplicateObjectId"
  | corruptRecord _ => "CorruptRecord"
  | instanceTypeMismatch _ => "InstanceTypeMismatch"
  | stateMismatch _ _ _ => "StateMismatch"
  | notPersistable _ => "TypeNotPersistable"
  | serialization _ => "SerializationError"
  | deserialization _ => "DeserializationError"
  | io _ => "IoError"
  | capacityExceeded _ => "CapacityExceeded"
  | config _ => "ConfigError"

/-- An error of each cause, made of the same parts. -/
def catalogue (p : ErrorParts) : List Error :=
  [unnamedField p.first, duplicateField p.first, multipleVariableFields p.first p.second,
    offsetConflict p.first p.x p.y, typeIdTaken ⟨p.x⟩ p.first,
    runtimeTypeTaken ⟨p.first⟩ ⟨p.x⟩, unhandledRuntimeType ⟨p.first⟩, dictionaryTaken,
    unhandledTypeId ⟨p.x⟩, unknownEntityType ⟨p.x⟩ ⟨p.y⟩ p.z,
    invalidEntityLength ⟨p.x⟩ ⟨p.y⟩ p.z p.min p.max, definitionMismatch ⟨p.x⟩ p.first,
    unresolvableMember p.first p.second, unresolvableType p.first p.second,
    incompatibleMembers p.first p.second, unknownField p.first p.second,
    unknownInstance ⟨p.x.toNat⟩, unresolvedReference ⟨p.x⟩, duplicateObjectId ⟨p.x⟩,
    corruptRecord (.described p.first), instanceTypeMismatch p.first,
    stateMismatch p.first p.second ⟨p.x⟩, notPersistable p.first, serialization p.first,
    deserialization (.described p.first), io (.described p.first),
    capacityExceeded (.described p.first), config (.malformed p.first)]

/-- The error with a code that is made of the parts. -/
def ofCode? (code : String) (parts : ErrorParts) : Option Error :=
  (catalogue parts).find? (·.code = code)

theorem code_of_ofCode {code : String} {parts : ErrorParts} {e : Error}
    (h : ofCode? code parts = some e) : e.code = code := by
  simpa using List.find?_some h

/-- Every cause stands in the catalogue. -/
theorem code_mem_catalogue (e : Error) (parts : ErrorParts) :
    e.code ∈ (catalogue parts).map code := by
  cases e <;> simp [catalogue, code]

end Error

end ObjectStore
