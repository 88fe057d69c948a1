import ObjectStore.EntityStore.Image
import ObjectStore.Host.Basic
import ObjectStore.Host.Path

/-!
# Disks as values

A disk keeps files and stores below one directory, its home, from which
relative paths start. Of everything outside its home it knows only that
there are directories.

Of a store the disk keeps the tables. A store is held under the number of its
file and not under its path, since the file may be removed and another one put
in its place while the store is open.

## Main results

* `Disk.lookup?_put`, `Disk.lookup?_putFile`: what is put at a location is
  found there.
-/

namespace ObjectStore

/-- What a file holds. -/
inductive FileContent where
  | plain (bytes : ByteArray)
  | store (tables : StoreTables)
deriving Inhabited

/-- What a disk keeps at a location. A file has a number, which it keeps
while its content changes. -/
inductive DiskEntry where
  | file (number : Nat) (content : FileContent)
  | directory
deriving Inhabited

/-- Files, directories and stores. A location is the names that lead to it
from the home of the disk. -/
structure Disk where
  home : String
  entries : List (List String × DiskEntry)
  /-- The number of the next file. -/
  next : Nat
  /-- The numbers of the files that are open as stores, among them files that
  were removed since. -/
  opened : List Nat

/-- The bytes of a file. The tables of a store are the file of their image. -/
def FileContent.bytes : FileContent → ByteArray
  | plain bytes => bytes
  | store tables => ⟨tables.toImage.toArray⟩

namespace Disk

/-- The disk with nothing on it. -/
def empty (home : String) : Disk := ⟨home, [], 0, []⟩

/-- What stands at a location. -/
def lookup? (d : Disk) (location : List String) : Option DiskEntry :=
  if location = [] then some .directory
  else (d.entries.find? (·.1 = location)).map Prod.snd

/-- The disk without a location. -/
def erase (d : Disk) (location : List String) : Disk :=
  { d with entries := d.entries.filter (·.1 ≠ location) }

/-- Puts something at a location, in place of what stands there. -/
def put (d : Disk) (location : List String) (entry : DiskEntry) : Disk :=
  { d with entries := (location, entry) :: (d.erase location).entries }

/-- Writes a file at a location: a former one gets another content, and one
that was not there gets the next number. -/
def putFile (d : Disk) (location : List String) (content : FileContent) : Nat × Disk :=
  match d.lookup? location with
  | some (.file number _) => (number, d.put location (.file number content))
  | _ => (d.next, { d.put location (.file d.next content) with next := d.next + 1 })

theorem lookup?_put {d : Disk} {location : List String} {entry : DiskEntry} (h : location ≠ []) :
    (d.put location entry).lookup? location = some entry := by
  simp [lookup?, put, h]

theorem lookup?_putFile {d : Disk} {location : List String} {content : FileContent}
    (h : location ≠ []) :
    (d.putFile location content).2.lookup? location =
      some (.file (d.putFile location content).1 content) := by
  unfold putFile
  split
  · exact lookup?_put h
  · exact lookup?_put (d := d) h

/-! ## Finding locations -/

/-- Where a path leads: to a location, or to a directory outside. -/
inductive Place where
  | inside (location : List String)
  | outside
deriving DecidableEq, Inhabited

/-- Fails unless one can go on from a location. -/
def expectDirectory (d : Disk) (location : List String) : Except HostFault Unit :=
  match d.lookup? location with
  | none => .error .notFound
  | some .directory => .ok ()
  | some _ => .error .notDirectory

/-- Goes on from a place by one part of a path. -/
def step (d : Disk) (place : Place) (part : String) : Except HostFault Place :=
  match place with
  | .outside =>
      if Path.isVoid part || part = ".." then .ok .outside
      else .error (if Path.isTooLong part then .nameTooLong else .notFound)
  | .inside location => do
      d.expectDirectory location
      if Path.isVoid part then return .inside location
      else if part = ".." then
        return if location = [] then .outside else .inside location.dropLast
      else if Path.isTooLong part then throw .nameTooLong
      else return .inside (location ++ [part])

/-- The path as one that starts from the home of the disk, if it leads
there. -/
def relative (d : Disk) (path : String) : String :=
  if path = d.home then "."
  else if (d.home ++ "/").toList.isPrefixOf path.toList then
    String.ofList (path.toList.drop (d.home.length + 1))
  else path

/-- Where the parts of a path lead. An empty first part stands for the root,
which is outside. -/
def walk (d : Disk) : List String → Except HostFault Place
  | "" :: rest => rest.foldlM d.step .outside
  | parts => parts.foldlM d.step (.inside [])

/-- Where a path leads. Nothing needs to stand at its end. -/
def resolve (d : Disk) (path : String) : Except HostFault Place :=
  if path.isEmpty then .error .notFound else d.walk (Path.parts (d.relative path))

/-- Fails if a name in the path cannot be. -/
def expectNames (path : String) : Except HostFault Unit :=
  if path.contains '\x00' then .error .nulInName else .ok ()

/-- Fails if one cannot ask for the path. -/
def expectPath (path : String) : Except HostFault Unit := do
  expectNames path
  if Path.maxLength < path.utf8ByteSize then throw .nameTooLong

/-- What stands at a place. -/
def entryAt (d : Disk) : Place → Except HostFault DiskEntry
  | .outside => .ok .directory
  | .inside location =>
      match d.lookup? location with
      | some entry => .ok entry
      | none => .error .notFound

/-- What stands at the end of a path, and where that is. -/
def find (d : Disk) (path : String) : Except HostFault (Place × DiskEntry) := do
  expectPath path
  let place ← d.resolve path
  return (place, ← d.entryAt place)

/-- Where a file can be written. A path that says that a directory stands at
its end is refused, whatever stands there. -/
def locateFile (d : Disk) (path : String) : Except HostFault (List String) := do
  expectPath path
  let place ←
    match Path.aboveOpenEnd? (d.relative path) with
    | none => d.resolve path
    | some above =>
        let place ← d.walk above
        if let .inside location := place then d.expectDirectory location
        throw .isDirectory
  match place with
  | .outside => throw .isDirectory
  | .inside location =>
      match d.lookup? location with
      | some .directory => throw .isDirectory
      | _ => return location

/-! ## Operations -/

/-- What stands at a path. -/
def kind (d : Disk) (path : String) : Except HostFault PathKind := do
  match ← d.find path with
  | (_, .file _ content) => return .file content.bytes.size
  | (_, .directory) => return .directory

/-- The absolute path of what stands at a path. -/
def canonical (d : Disk) (path : String) : Except HostFault String := do
  expectNames path
  let place ← d.resolve path
  let _ ← d.entryAt place
  match place with
  | .inside location => return String.intercalate "/" (d.home :: location)
  | .outside => return "/"

/-- The content of a file. -/
def readFile (d : Disk) (path : String) : Except HostFault ByteArray := do
  match ← d.find path with
  | (_, .file _ content) => return content.bytes
  | (_, .directory) => throw .isDirectory

/-- Writes a file. -/
def writeFile (d : Disk) (path : String) (bytes : ByteArray) : Except HostFault Disk := do
  return (d.putFile (← d.locateFile path) (.plain bytes)).2

/-- Makes a directory, and those on the way to it. -/
def makeDirectory (d : Disk) (path : String) : Except HostFault Disk := do
  expectPath path
  let parts := Path.parts (d.relative path)
  let ways := (List.range (parts.length + 1)).drop 1 |>.map parts.take
  ways.foldlM (fun d way => do
    match ← d.walk way with
    | .outside => return d
    | .inside location =>
        match d.lookup? location with
        | some .directory => return d
        | some (.file _ _) =>
            throw (if way.length = parts.length then .alreadyThere else .notDirectory)
        | none => return d.put location .directory) d

/-- Removes a file. -/
def removeFile (d : Disk) (path : String) : Except HostFault Disk := do
  match ← d.find path with
  | (.inside location, .file _ _) => return d.erase location
  | _ => throw .isDirectory

/-- The tables that a file holds. A file without content becomes an empty
store. -/
def tablesAt (d : Disk) (location : List String) : Except StoreFault StoreTables :=
  match d.lookup? location with
  | some (.file number content) =>
      if d.opened.contains number then .error .alreadyOpen
      else
        match content with
        | .store tables => .ok tables
        | .plain bytes => if bytes.isEmpty then .ok StoreTables.empty else .error .notAStore
  | _ => .ok StoreTables.empty

/-- Opens a store from its tables. It is known by the number of its file. -/
def openStore (d : Disk) (path : String) : Except StoreFault ((Nat × EntityStore) × Disk) := do
  let location ← (d.locateFile path).mapError StoreFault.host
  let tables ← d.tablesAt location
  let (number, d) := d.putFile location (.store tables)
  return ((number, EntityStore.opened tables), { d with opened := number :: d.opened })

/-- Closes a store, of which the tables are kept. Nothing is kept of a store
that was removed while it was open, not even if another one stands in its
place. -/
def closeStore (d : Disk) (number : Nat) (store : EntityStore) : Disk :=
  { d with
    opened := d.opened.filter (· ≠ number)
    entries := d.entries.map fun (location, entry) =>
      match entry with
      | .file other (.store former) =>
          (location,
            .file other (.store (if other = number then store.toStoreTables else former)))
      | _ => (location, entry) }

/-- An operation that changes the disk only if it succeeds. -/
def change (f : Disk → Except HostFault Disk) : StateM Disk (Except HostFault Unit) := fun d =>
  match f d with
  | .ok d' => (.ok (), d')
  | .error fault => (.error fault, d)

instance : Host (StateM Disk) where
  Lease := Nat
  kind path := do return (← get).kind path
  canonical path := do return (← get).canonical path
  readFile path := do return (← get).readFile path
  writeFile path bytes := change (·.writeFile path bytes)
  removeFile path := change (·.removeFile path)
  openStore path := fun d =>
    match d.openStore path with
    | .ok (opened, d') => (.ok opened, d')
    | .error fault => (.error fault, d)
  closeStore number store := modify (·.closeStore number store)

end Disk

end ObjectStore
