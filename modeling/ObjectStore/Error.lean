import ObjectStore.Bytes.Hex
import ObjectStore.Bytes.Text
import ObjectStore.Host.Fault
import ObjectStore.Ident
import ObjectStore.Member.Kind
import ObjectStore.Text.Quoted

/-!
# Errors

Every operation of the library that can fail does so with an `Error`: a
cause with the data that identifies it. Nothing is decided by the wording of
an error; the wording is computed from the cause by `Error.message`, and the
broad class a caller may react to by `Error.category`.

Causes that occur in many places for one reason, such as a record that
cannot be read, are inductive types of their own (`Corruption`,
`FileFault`, `Shortage`). Each of them has a constructor that carries a
caller's own words, for embedding programs that report through the same
channel.
-/

namespace ObjectStore

/-! ## Corrupt records -/

/-- What is wrong with a record or a chunk of records. -/
inductive Corruption where
  /-- An offset or length leaves the 64-bit range. -/
  | offsetOverflow
  /-- No whole word stands at the position. -/
  | wordOutOfBounds (position : Nat)
  /-- The header declares another content length than the record has. -/
  | lengthMismatch (object : ObjectId) (declared : UInt64) (actual : Nat)
  /-- A range reaches beyond the content. -/
  | rangeOutOfBounds (start stop : Nat) (object : ObjectId) (size : Nat)
  /-- The payload of a variable member stops before the record does. -/
  | trailingBytes (object : ObjectId)
  /-- A reference list whose payload is no sequence of whole references. -/
  | raggedReferenceList (object : ObjectId) (size : Nat)
  /-- The chunk ends inside a header. -/
  | truncatedHeader (position : Nat)
  /-- A header claims more content than any record may have. -/
  | impossibleLength (object : ObjectId) (claimed : UInt64)
  /-- The chunk ends inside a content. -/
  | truncatedContent (object : ObjectId) (position : Nat)
  /-- A primitive value of the wrong width. -/
  | widthMismatch (kind : PrimitiveKind) (actual : Nat)
  /-- A byte that is neither false nor true. -/
  | invalidBool (byte : UInt8)
  /-- A code that is no Unicode scalar value. -/
  | invalidChar (code : Nat)
  /-- A text payload that is no UTF-8. -/
  | invalidText (fault : TextFault)
  /-- A member without a place in the record. -/
  | unplacedMember (member : String)
  /-- A reference list that holds the absent reference. -/
  | nullInReferenceList
  /-- A record that carries the absent reference as its identifier. -/
  | nullObjectId
  /-- A store whose records do not fit together. -/
  | inconsistentStore (invalid dangling missingRoots : Nat)
  /-- A caller's own words. -/
  | described (text : String)
deriving DecidableEq, Inhabited

namespace Corruption

/-- The wording of the cause. -/
def message : Corruption → String
  | offsetOverflow => "offset overflow"
  | wordOutOfBounds position => s!"word at {position} out of bounds"
  | lengthMismatch object declared actual =>
      s!"entity {object} declares {declared} content bytes but has {actual}"
  | rangeOutOfBounds start stop object size =>
      s!"bytes {start}..{stop} out of bounds in entity {object} ({size} bytes)"
  | trailingBytes object => s!"variable field of entity {object} does not end the record"
  | raggedReferenceList object size => s!"reference list of entity {object} has {size} bytes"
  | truncatedHeader position => s!"truncated header at byte {position}"
  | impossibleLength object claimed => s!"entity {object} claims {claimed} content bytes"
  | truncatedContent object position =>
      s!"truncated content of entity {object} at byte {position}"
  | widthMismatch kind actual =>
      s!"expected {kind.width} bytes for {kind.name}, got {actual}"
  | invalidBool byte => s!"invalid bool byte {byte}"
  | invalidChar code => "invalid char 0x" ++ Hex.digits 0 code
  | invalidText fault => s!"invalid UTF-8 text: {fault.message}"
  | unplacedMember member => s!"field {member} has no offset"
  | nullInReferenceList => "null object id in reference list"
  | nullObjectId => "entity record with null object id"
  | inconsistentStore invalid dangling missingRoots =>
      s!"{invalid} invalid records, {dangling} dangling references, " ++
        s!"{missingRoots} missing roots"
  | described text => text

end Corruption

/-! ## Dictionary files and root lists -/

/-- Why bytes in compact encoding cannot be decoded. -/
inductive WireFault where
  /-- The input ends where more is expected. -/
  | endOfInput
  /-- A variable-length number is too long or too large. -/
  | runawayVarint
  /-- A string that is no UTF-8. -/
  | invalidText
  /-- A presence byte that is neither absent nor present. -/
  | invalidPresence
  /-- The number of an alternative that does not exist. -/
  | unknownAlternative
deriving DecidableEq, Inhabited

/-- The wording of the fault. -/
def WireFault.message : WireFault → String
  | endOfInput => "Hit the end of buffer, expected more data"
  | runawayVarint =>
      "Found a varint that didn't terminate. Is the usize too big for this platform?"
  | invalidText => "Tried to parse invalid utf-8"
  | invalidPresence => "Found an Option discriminant that wasn't 0 or 1"
  | unknownAlternative => "Serde Deserialization Error"

/-- Why a dictionary file or a root list is refused. -/
inductive FileFault where
  /-- There is no room for a header. -/
  | tooShort
  /-- The file is larger than any dictionary may be. -/
  | tooLarge (size limit : Nat)
  /-- A file on disk is larger than any dictionary may be. -/
  | fileTooLarge (size limit : Nat)
  /-- A header that is cut off. -/
  | truncatedHeader
  /-- The file does not begin as dictionary files do. -/
  | wrongMagic
  /-- A format version this library does not read. -/
  | unsupportedVersion (found expected : UInt8)
  /-- The payload cannot be decoded. -/
  | payload (fault : WireFault)
  /-- The root list of a store cannot be decoded. -/
  | rootList (fault : WireFault)
  /-- A caller's own words. -/
  | described (text : String)
deriving DecidableEq, Inhabited

/-- The wording of the fault. -/
def FileFault.message : FileFault → String
  | tooShort => "Data too short: minimum 5 bytes required"
  | tooLarge size limit => s!"Data size {size} bytes exceeds maximum allowed {limit} bytes"
  | fileTooLarge size limit => s!"File size {size} bytes exceeds maximum allowed {limit} bytes"
  | truncatedHeader => "Header too short"
  | wrongMagic => "Invalid magic bytes"
  | unsupportedVersion found expected => s!"Unsupported version: {found} (expected {expected})"
  | payload fault => s!"Failed to deserialize type dictionary: {fault.message}"
  | rootList fault => fault.message
  | described text => text

/-! ## Bounded resources -/

/-- Which bounded resource is exhausted. -/
inductive Shortage where
  /-- No object identifier is left. -/
  | objectIds
  /-- A record would have more content than any reader accepts. -/
  | recordContent (object : ObjectId) (type : TypeId) (size : Nat)
  /-- The object graph cannot number another instance. -/
  | instances
  /-- A caller's own words. -/
  | described (text : String)
deriving DecidableEq, Inhabited

/-- The wording of the shortage. -/
def Shortage.message : Shortage → String
  | objectIds => "object id space"
  | recordContent object type size =>
      s!"entity {object} of type {type} has {size} content bytes, " ++
        s!"maximum is {maxContentLength}"
  | instances => "object graph holds u32::MAX instances"
  | described text => text

/-! ## Files and configurations -/

/-- Which operation on files failed, and how. -/
inductive FileOperation where
  /-- No store stands at the path. -/
  | storeMissing (path : String)
  /-- A store is in the way of a new one. -/
  | storeExists
  /-- A store cannot be opened. -/
  | openStore (fault : StoreFault)
  /-- A former store cannot be removed. -/
  | removeStore (fault : HostFault)
  /-- A path leads to no file. -/
  | findFile (path : String) (fault : HostFault)
  /-- A path leads to something other than a file. -/
  | irregularFile (path : String)
  /-- The directory of an output path does not exist. -/
  | findDirectory (path : String) (fault : HostFault)
  /-- The directory of an output path is none. -/
  | irregularDirectory (path : String)
  /-- An output path that names no file. -/
  | unnamedOutput
  /-- A file cannot be measured. -/
  | measure (fault : HostFault)
  /-- A file cannot be read. -/
  | read (fault : HostFault)
  /-- A file cannot be written. -/
  | write (fault : HostFault)
  /-- A caller's own words. -/
  | described (text : String)
deriving DecidableEq, Inhabited

/-- The wording of the failure. -/
def FileOperation.message : FileOperation → String
  | storeMissing path =>
      "Store " ++ Quoted.quote path ++ " not found. Run \x60lodestore init\x60 first."
  | storeExists => "Store already exists. Use --force to overwrite."
  | openStore fault => fault.message
  | removeStore fault => "Remove store: " ++ fault.message
  | findFile path fault => "Invalid file path '" ++ path ++ "': " ++ fault.message
  | irregularFile path => "Path '" ++ path ++ "' is not a regular file"
  | findDirectory path fault => "Invalid output directory '" ++ path ++ "': " ++ fault.message
  | irregularDirectory path => "Output directory '" ++ path ++ "' is not a valid directory"
  | unnamedOutput => "Output path has no filename"
  | measure fault => "Cannot read file metadata: " ++ fault.message
  | read fault => "Read file: " ++ fault.message
  | write fault => "Write file: " ++ fault.message
  | described text => text

/-- Why a configuration is refused. -/
inductive ConfigFault where
  /-- The file is larger than any configuration may be. -/
  | tooLarge (size limit : Nat)
  /-- The file cannot be read. -/
  | unreadable (path : String) (fault : HostFault)
  /-- The text is no configuration, and why. -/
  | malformed (reason : String)
deriving DecidableEq, Inhabited

/-- The wording of the fault. -/
def ConfigFault.message : ConfigFault → String
  | tooLarge size limit => s!"File size {size} bytes exceeds maximum allowed {limit} bytes"
  | unreadable path fault => "Read " ++ path ++ ": " ++ fault.message
  | malformed reason => reason

/-! ## All errors -/

/-- The broad class of an error. -/
inductive ErrorCategory where
  /-- Wrong use at setup time. -/
  | configuration
  /-- Corrupt data or a broken migration. -/
  | dataConsistency
  /-- A type that stands for no stored object was asked to store one. -/
  | notPersistable
  /-- The backing store or an encoding failed. -/
  | storage
deriving DecidableEq, Inhabited

/-- The cause of a failed operation. -/
inductive Error where
  /-- A member was declared without a name. -/
  | unnamedField (typeName : String)
  /-- Two members of a type have one identifier. -/
  | duplicateField (field : String)
  /-- A type declares more than one variable member. -/
  | multipleVariableFields (first second : String)
  /-- A member already has another offset than the one to assign. -/
  | offsetConflict (field : String) (current requested : UInt64)
  /-- A type identifier is bound to another handler. -/
  | typeIdTaken (type : TypeId) (typeName : String)
  /-- A runtime type is bound to another type identifier. -/
  | runtimeTypeTaken (runtime : RuntimeType) (type : TypeId)
  /-- No handler is bound to a runtime type. -/
  | unhandledRuntimeType (runtime : RuntimeType)
  /-- The registry is bound to another dictionary. -/
  | dictionaryTaken
  /-- No runtime handler is bound to a type identifier. -/
  | unhandledTypeId (type : TypeId)
  /-- A record of a type that nothing is known about. -/
  | unknownEntityType (type : TypeId) (object : ObjectId) (length : UInt64)
  /-- A record whose length the type does not allow. -/
  | invalidEntityLength (type : TypeId) (object : ObjectId) (length min max : UInt64)
  /-- Two definitions of one type identifier differ. -/
  | definitionMismatch (type : TypeId) (typeName : String)
  /-- A mapping entry names a member that does not exist. -/
  | unresolvableMember (source target : String)
  /-- A mapping entry names a type that does not exist. -/
  | unresolvableType (source target : String)
  /-- A member is mapped onto one of another kind. -/
  | incompatibleMembers (source target : String)
  /-- A type has no member of the name. -/
  | unknownField (typeName field : String)
  /-- A handle points outside the object graph. -/
  | unknownInstance (ref : Ref)
  /-- A stored reference leads to an object that was not loaded. -/
  | unresolvedReference (object : ObjectId)
  /-- Two records of one chunk describe one object. -/
  | duplicateObjectId (object : ObjectId)
  /-- A record cannot be read. -/
  | corruptRecord (cause : Corruption)
  /-- An instance of another runtime type than expected. -/
  | instanceTypeMismatch (expected : String)
  /-- An immutable instance differs from its record. -/
  | stateMismatch (typeName field : String) (object : ObjectId)
  /-- A type that stands for no stored object was asked to store one. -/
  | notPersistable (typeName : String)
  /-- Something cannot be written. -/
  | serialization (text : String)
  /-- A dictionary file or a root list cannot be read. -/
  | deserialization (fault : FileFault)
  /-- An operation on files failed. -/
  | io (operation : FileOperation)
  /-- A bounded resource is exhausted. -/
  | capacityExceeded (shortage : Shortage)
  /-- A configuration is refused. -/
  | config (fault : ConfigFault)
deriving DecidableEq, Inhabited

namespace Error

/-- The broad class of the error. -/
def category : Error → ErrorCategory
  | unnamedField _ | duplicateField _ | multipleVariableFields _ _ | offsetConflict _ _ _
  | typeIdTaken _ _ | runtimeTypeTaken _ _ | unhandledRuntimeType _ | dictionaryTaken =>
      .configuration
  | unhandledTypeId _ | unknownEntityType _ _ _ | invalidEntityLength _ _ _ _ _
  | definitionMismatch _ _ | unresolvableMember _ _ | unresolvableType _ _
  | incompatibleMembers _ _ | unknownField _ _ | unknownInstance _ | unresolvedReference _
  | duplicateObjectId _ | corruptRecord _ | instanceTypeMismatch _ | stateMismatch _ _ _ =>
      .dataConsistency
  | notPersistable _ => .notPersistable
  | serialization _ | deserialization _ | io _ | capacityExceeded _ | config _ => .storage

/-- The wording of the error. -/
def message : Error → String
  | unnamedField typeName => s!"Unnamed field of type {typeName}"
  | duplicateField field => s!"Duplicate field: {field}"
  | multipleVariableFields first second =>
      s!"Multiple variable-length fields: {first} and {second}"
  | offsetConflict field current requested =>
      s!"Offset of field {field} already set to {current}, refusing {requested}"
  | typeIdTaken type typeName =>
      s!"Type id {type} is already associated with a type handler for {typeName}"
  | runtimeTypeTaken runtime type =>
      s!"Runtime type {runtime.name} is already registered as type id {type}"
  | unhandledRuntimeType runtime =>
      s!"No type handler registered for runtime type {runtime.name}"
  | dictionaryTaken => "Type dictionary already initialized"
  | unhandledTypeId type => s!"Unhandled type id {type}"
  | unknownEntityType type object length =>
      s!"Unknown type id {type} of entity with oid {object} and length {length}"
  | invalidEntityLength type object length min max =>
      s!"Invalid length {length} of entity {object} of type {type}: expected {min}..={max}"
  | definitionMismatch type typeName => s!"Invalid type description: {type} {typeName}"
  | unresolvableMember source target =>
      s!"Refactoring mapping {source} -> {target} cannot be resolved"
  | unresolvableType source target =>
      s!"Refactoring mapping {source} -> {target} names no known type"
  | incompatibleMembers source target =>
      s!"Member {source} cannot be loaded into {target}: field kinds differ"
  | unknownField typeName field => s!"Type {typeName} has no field {field}"
  | unknownInstance ref => s!"No instance at ObjRef({ref.index})"
  | unresolvedReference object => s!"Unresolved reference to object {object}"
  | duplicateObjectId object => s!"Duplicate object id {object}"
  | corruptRecord cause => s!"Corrupt record: {cause.message}"
  | instanceTypeMismatch expected => s!"Instance type mismatch: expected {expected}"
  | stateMismatch typeName field object =>
      s!"State mismatch in {typeName}.{field} of object {object}"
  | notPersistable typeName => s!"Type not persistable: {typeName}"
  | serialization text => s!"Serialization error: {text}"
  | deserialization fault => s!"Deserialization error: {fault.message}"
  | io operation => s!"I/O error: {operation.message}"
  | capacityExceeded shortage => s!"Capacity exceeded: {shortage.message}"
  | config fault => s!"Configuration error: {fault.message}"

end Error

end ObjectStore
