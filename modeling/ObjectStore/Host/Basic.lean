import ObjectStore.EntityStore
import ObjectStore.Host.Fault

/-!
# The host

Commands work on files and stores, which the host keeps. What commands need
of it is listed here; everything they decide is decided without it. A host
may be the surrounding system, or a value.
-/

namespace ObjectStore

/-- What stands at a path. -/
inductive PathKind where
  /-- A file of a size in bytes. -/
  | file (size : Nat)
  | directory
deriving DecidableEq, Inhabited

/-- The operations on files and stores. -/
class Host (m : Type → Type) where
  /-- What an open store is known by until it is closed. -/
  Lease : Type
  /-- What stands at a path. -/
  kind : String → m (Except HostFault PathKind)
  /-- The absolute path of what stands at a path. -/
  canonical : String → m (Except HostFault String)
  /-- The content of a file. -/
  readFile : String → m (Except HostFault ByteArray)
  /-- Writes a file in place of a former one. -/
  writeFile : String → ByteArray → m (Except HostFault Unit)
  /-- Removes a file. -/
  removeFile : String → m (Except HostFault Unit)
  /-- Opens a store, which is created if nothing stands at the path. -/
  openStore : String → m (Except StoreFault (Lease × EntityStore))
  /-- Closes a store that was opened, and keeps its tables. -/
  closeStore : Lease → EntityStore → m Unit

namespace Host

variable {m : Type → Type} [Monad m] [Host m]

/-- Whether anything stands at a path. -/
def isThere (path : String) : m Bool := do
  match ← kind path with
  | .ok _ => return true
  | .error _ => return false

/-- Whether a directory stands at a path. -/
def isDirectory (path : String) : m Bool := do
  match ← kind path with
  | .ok .directory => return true
  | _ => return false

end Host

end ObjectStore
