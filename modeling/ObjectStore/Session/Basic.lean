import ObjectStore.EntityStore
import ObjectStore.Loading
import ObjectStore.Refactoring.NameSimilarity

/-!
# Sessions

A session works on one entity store: it owns the live instances and the
identifiers bound to them, and it loads and stores them as a whole. The
registry is not part of it, because several sessions may share one; the
operations that register types are attempts on the registry as well.

Opening a session checks the stored dictionary against the registry: what is
stored under a type identifier must be layout-equal to what is registered
under it. Stored types that the registry does not know become legacy types.

## Main results

* `Session.start_openStore_of_no_dictionary`: a store without dictionary can be
  opened with every registry.
-/

namespace ObjectStore

/-- The work on one entity store. -/
structure Session (ι : Type) where
  store : EntityStore
  live : Live ι
  /-- How legacy members are matched. -/
  matcher : Matcher

namespace Session

variable {ι : Type}

/-- The session on a store in which nothing is live yet. -/
def fresh (store : EntityStore) : Session ι where
  store := store
  live := ⟨Graph.empty, ObjectIds.startingAt store.next⟩
  matcher := Matcher.of (Refactoring.ofTable RenameTable.empty) TypeSimilarity.empty

/-- Registers all types of a dictionary, one after the other. -/
def registerAll (d : Dictionary) : Attempt (Registry ι) Unit :=
  d.definitions.forM fun definition => do
    let _ ← Registry.addType definition

/-- Makes the types of a stored dictionary known to a registry. -/
def adopt (d : Dictionary) : Attempt (Registry ι) Unit := do
  let registry ← get
  Attempt.lift (registry.validate d)
  if registry.bound.isNone then Registry.bindDictionary ⟨none, d⟩
  else registerAll d

/-- Opens a session on a store. -/
def openStore (store : EntityStore) : Attempt (Registry ι) (Session ι) := do
  match ← Attempt.lift store.dictionary with
  | some d => adopt d
  | none => pure ()
  return fresh store

/-- The session with another way to match legacy members. -/
def withMatcher (session : Session ι) (matcher : Matcher) : Session ι := { session with matcher }

/-- An attempt on the store. -/
def onStore {α : Type} (attempt : Attempt EntityStore α) : Attempt (Session ι) α :=
  Attempt.within Session.store (fun store session => { session with store }) attempt

/-- An attempt on the live instances and their identifiers. -/
def onLive {α : Type} (attempt : Attempt (Live ι) α) : Attempt (Session ι) α :=
  Attempt.within Session.live (fun live session => { session with live }) attempt

/-- An attempt on the live instances alone. -/
def onGraph {α : Type} (attempt : Attempt (Graph ι) α) : Attempt (Session ι) α :=
  onLive (Attempt.within Live.graph (fun graph live => { live with graph }) attempt)

/-! ## Storing and loading -/

/-- Stores everything that the roots lead to, and makes them the stored
roots. All registered definitions are saved with them. -/
def storeRoots [Instance ι] (registry : Registry ι) (roots : List Ref) :
    Attempt (Session ι) StoredChunk := do
  let chunk ← onLive (Attempt.of fun live =>
    let (result, ids) := (storeObjects registry live.graph roots).start live.ids
    (result, { live with ids }))
  let dictionary ← Attempt.lift registry.snapshot
  let session ← get
  onStore (EntityStore.commit chunk session.live.ids.next (some dictionary))
  return chunk

/-- The instance of a stored root. -/
def rootRef (ids : ObjectIds) (root : ObjectId) : Except Error Ref :=
  match ids.ref? root with
  | some ref => .ok ref
  | none => .error (.unresolvedReference root)

/-- Loads every stored record. The result is the instances of the stored
roots. -/
def loadRoots [Instance ι] (registry : Registry ι) : Attempt (Session ι) (List Ref) := do
  let session ← get
  let matcher := session.matcher.withThreshold session.matcher.threshold
  let _ ← onLive (loadObjects registry (some matcher) session.store.records)
  let session ← get
  let roots ← Attempt.lift session.store.readRoots
  Attempt.lift (roots.mapM (rootRef session.live.ids))

/-! ## Dictionaries -/

/-- Saves all registered definitions. -/
def saveDictionary (registry : Registry ι) : Attempt (Session ι) Unit := do
  let dictionary ← Attempt.lift registry.snapshot
  onStore (Attempt.modify fun store => .ok (store.saveDictionary dictionary))

/-- Registers all types of a dictionary, unless one of them contradicts a
registered one, and saves the result. -/
def importDictionary (d : Dictionary) : Attempt (Registry ι × Session ι) Unit := do
  let (registry, _) ← get
  Attempt.lift (registry.validate d)
  Attempt.within Prod.fst (fun r s => (r, s.2)) (registerAll d)
  let (registry, _) ← get
  Attempt.within Prod.snd (fun session s => (s.1, session)) (saveDictionary registry)

/-! ## Summary -/

/-- A summary of a store. -/
structure Status where
  entities : Nat
  types : Nat
  next : UInt64
  roots : List ObjectId
deriving DecidableEq, Inhabited

/-- The summary of the store, with the number of registered types. -/
def status (registry : Registry ι) (session : Session ι) : Except Error Status := do
  let dictionary ← registry.snapshot
  let roots ← session.store.readRoots
  return ⟨session.store.size, dictionary.size, session.store.next, roots⟩

theorem start_openStore_of_no_dictionary {store : EntityStore} {registry : Registry ι}
    (h : store.dictionaryFile = none) :
    (openStore store).start registry = (.ok (fresh store), registry) := by
  have hDictionary : store.dictionary = .ok none := by simp [EntityStore.dictionary, h]
  simp only [openStore, hDictionary]
  rfl

end Session

end ObjectStore
