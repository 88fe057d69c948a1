import ObjectStore.Host.Basic
import ObjectStore.Session.Basic

/-!
# Opening sessions

A session on the store that a host keeps at a path holds that store until it
is closed. A session that cannot be opened does not keep the store open; what
the attempt has done to the registry remains.
-/

namespace ObjectStore

namespace Session

variable {ι : Type} {m : Type → Type} [Monad m] [Host m]

/-- Opens a session on a store that the host has opened. -/
def openOn (lease : Host.Lease m) (registry : Registry ι) (store : EntityStore) :
    m (Except Error (Host.Lease m × Session ι) × Registry ι) := do
  let opening : Attempt (Registry ι) (Session ι) := openStore store
  let (result, registry) := opening.start registry
  match result with
  | .ok session => return (.ok (lease, session), registry)
  | .error e =>
      Host.closeStore lease store
      return (.error e, registry)

/-- Opens a session on the store at a path, which is created if nothing
stands there. -/
def openAt (path : String) (registry : Registry ι) :
    m (Except Error (Host.Lease m × Session ι) × Registry ι) := do
  match ← Host.openStore path with
  | .error fault => return (.error (.io (.openStore fault)), registry)
  | .ok (lease, store) => openOn lease registry store

/-- Closes a session. The store keeps what has been stored. -/
def close (session : Session ι) (lease : Host.Lease m) : m Unit :=
  Host.closeStore lease session.store

end Session

end ObjectStore
