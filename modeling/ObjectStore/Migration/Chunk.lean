import ObjectStore.Migration.Conversion
import ObjectStore.Record.Chunk
import ObjectStore.Registry

/-!
# Migrating chunks

Before a chunk is loaded, its legacy records are converted into the layouts
of the current types. Records of other types stay as they are, byte for
byte. Records of types that were removed on purpose are dropped, and their
object identifiers are remembered, because references to them load as
absent.

A chunk without legacy records is not touched, not even if it is corrupt.

## Main results

* `MigratedChunk.of_no_legacy`: a chunk without legacy records stays as it
  is.
-/

namespace ObjectStore

/-- A chunk whose legacy records are converted. -/
structure MigratedChunk where
  bytes : Bytes
  /-- The objects whose records were dropped. -/
  dropped : List ObjectId
deriving DecidableEq, Inhabited

namespace MigratedChunk

variable {ι : Type}

/-- The chunk as it is. -/
def unchanged (bytes : Bytes) : MigratedChunk := ⟨bytes, []⟩

/-- The conversion of the records of a legacy type. There is none if the
type was removed. -/
def conversion? (registry : Registry ι) (matcher : Matcher) (id : TypeId) :
    Except Error (Option Conversion) := do
  match registry.definition? id with
  | none => throw (.unhandledTypeId id)
  | some legacy =>
      match ← matcher.refactoring.currentType legacy registry.current? with
      | none => return none
      | some current =>
          if current.id = id || (registry.handler? current.id).isNone then
            throw (.unhandledTypeId current.id)
          return some (← Conversion.make matcher legacy current)

/-- What becomes of one record: its new bytes, or nothing if it is
dropped. -/
def migrateRecord (registry : Registry ι) (matcher : Matcher) (r : Record) :
    Except Error (Option Bytes) := do
  if !registry.isLegacy r.type then return some r.encode
  let _ ← registry.validateEntity r.length r.type r.object
  match ← conversion? registry matcher r.type with
  | some conversion => return some (← conversion.convert r)
  | none => return none

/-- Puts together what became of the records. -/
def collect : List (Record × Option Bytes) → MigratedChunk
  | [] => ⟨[], []⟩
  | (_, some bytes) :: rest =>
      let chunk := collect rest
      ⟨bytes ++ chunk.bytes, chunk.dropped⟩
  | (r, none) :: rest =>
      let chunk := collect rest
      ⟨chunk.bytes, r.object :: chunk.dropped⟩

/-- Converts the legacy records of a chunk. -/
def migrate (registry : Registry ι) (matcher : Matcher) (bytes : Bytes) :
    Except Error MigratedChunk := do
  let chunk := Chunk.split bytes
  if !chunk.records.any fun r => registry.isLegacy r.type then return unchanged bytes
  let outcomes ← chunk.records.mapM fun r => do
    return (r, ← migrateRecord registry matcher r)
  let _ ← chunk.toExcept
  return collect outcomes

theorem of_no_legacy {registry : Registry ι} {matcher : Matcher} {bytes : Bytes}
    (h : ∀ r ∈ (Chunk.split bytes).records, registry.isLegacy r.type = false) :
    migrate registry matcher bytes = .ok (unchanged bytes) := by
  have hAny : ((Chunk.split bytes).records.any fun r => registry.isLegacy r.type) = false := by
    rw [List.any_eq_false]
    intro r hr
    simp [h r hr]
  simp only [migrate, hAny]
  rfl

end MigratedChunk

end ObjectStore
