import ObjectStore.CommandLine.Run
import ObjectStore.EntityStore.Image

/-!
# The program

Runs one command on the files of the surrounding system. The tables of a store
are kept as their image in one file: it is read when the store is opened, and
written back when the store is closed.

The program ends with zero if the command succeeded, with one if it failed,
and with two if the command line was wrong.
-/

namespace ObjectStore

/-- Whether the system gave an error code, which it may give with either
sign. -/
def HostFault.isCode (given code : UInt32) : Bool := given = code || given = 0 - code

/-- Why the system refused an operation. -/
def HostFault.ofSystem (e : IO.Error) : HostFault :=
  match e with
  | .noFileOrDirectory _ _ _ | .noSuchThing _ _ _ => .notFound
  | .inappropriateType _ code _ | .invalidArgument _ code _ =>
      if isCode code 21 then .isDirectory
      else if isCode code 20 then .notDirectory
      else if isCode code 36 then .nameTooLong
      else .described (toString e)
  | _ => .described (toString e)

/-- An operation of the system on a path, with its refusal as a value. -/
def HostFault.guard {α : Type} (path : String) (operation : IO α) : IO (Except HostFault α) := do
  if path.contains '\x00' then return .error .nulInName
  try
    return .ok (← operation)
  catch e =>
    return .error (.ofSystem e)

/-- What stands at a path of the system. -/
def PathKind.ofSystem (path : String) : IO PathKind := do
  let found ← (← IO.FS.realPath path).metadata
  match found.type with
  | .dir => return .directory
  | _ => return .file found.byteSize.toNat

/-- The tables of the store at a path of the system. An empty store is created
if nothing stands there, and a file without content is one. A path that leads
through a file is refused when it is to be written. -/
def StoreTables.ofSystem (path : String) : IO (Except StoreFault StoreTables) := do
  match ← HostFault.guard path (IO.FS.readBinFile path) with
  | .ok file =>
      if file.isEmpty then return .ok StoreTables.empty
      match StoreTables.ofImage? file with
      | some tables => return .ok tables
      | none => return .error .notAStore
  | .error .notFound | .error .notDirectory =>
      let image : ByteArray := ⟨StoreTables.empty.toImage.toArray⟩
      match ← HostFault.guard path (IO.FS.writeBinFile path image) with
      | .ok () => return .ok StoreTables.empty
      | .error fault => return .error (.host fault)
  | .error fault => return .error (.host fault)

instance : Host IO where
  Lease := String
  kind path := HostFault.guard path (PathKind.ofSystem path)
  canonical path := HostFault.guard path (do return (← IO.FS.realPath path).toString)
  readFile path := HostFault.guard path (IO.FS.readBinFile path)
  writeFile path bytes := HostFault.guard path (IO.FS.writeBinFile path bytes)
  removeFile path := HostFault.guard path (IO.FS.removeFile path)
  openStore path := do
    return (← StoreTables.ofSystem path).map fun tables => (path, EntityStore.opened tables)
  closeStore path store := IO.FS.writeBinFile path ⟨store.toImage.toArray⟩

/-- The version of the program. -/
def version : String := "lodestore 0.1.0\n"

/-- How the program is called. -/
def usage : String :=
  "Usage: lodestore [-D DATABASE] [-c CONFIG] [--json] [COMMAND]\n\n" ++
    "Commands: " ++ String.intercalate ", " Invocation.commandNames ++ "\n"

/-- Runs a command line, and says how the program ends. -/
def runArguments (arguments : List String) : IO Nat := do
  match Invocation.parse arguments with
  | .error stop =>
      match stop with
      | .help => IO.print usage
      | .version => IO.print version
      | _ => IO.eprint ("error: " ++ stop.word ++ "\n\n" ++ usage)
      return stop.exitCode
  | .ok invocation =>
      let outcome ← (invocation.run : IO Outcome)
      IO.print outcome.output
      match outcome.result with
      | .ok () => return 0
      | .error e =>
          IO.eprintln ("Error: " ++ e.message)
          return 1

end ObjectStore

def main (arguments : List String) : IO UInt32 := do
  return (← ObjectStore.runArguments arguments).toUInt32
