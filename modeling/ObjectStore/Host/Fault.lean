/-!
# Faults of the host

The host is the system that keeps the files a command works on. When it
refuses an operation it says why, in words of its own that are passed on
unchanged. A store has one fault of its own: it is open already, and only
one program at a time may work on it.
-/

namespace ObjectStore

/-- Why the host refuses an operation. -/
inductive HostFault where
  /-- Nothing stands at the path. -/
  | notFound
  /-- A file is expected where a directory stands. -/
  | isDirectory
  /-- A directory is expected where a file stands. -/
  | notDirectory
  /-- A name, or a whole path, is longer than the host allows. -/
  | nameTooLong
  /-- A path holds a character that no name can hold. -/
  | nulInName
  /-- A directory is to be made where a file stands. -/
  | alreadyThere
  /-- A text is expected in a file that holds other bytes. -/
  | notText
  /-- The host's own words. -/
  | described (text : String)
deriving DecidableEq, Inhabited

/-- The wording of the fault. -/
def HostFault.message : HostFault → String
  | notFound => "No such file or directory (os error 2)"
  | isDirectory => "Is a directory (os error 21)"
  | notDirectory => "Not a directory (os error 20)"
  | nameTooLong => "File name too long (os error 36)"
  | nulInName => "file name contained an unexpected NUL byte"
  | alreadyThere => "File exists (os error 17)"
  | notText => "stream did not contain valid UTF-8"
  | described text => text

/-- Why a store cannot be opened. -/
inductive StoreFault where
  /-- It is open already. -/
  | alreadyOpen
  /-- The file is no store. -/
  | notAStore
  /-- The host refuses. -/
  | host (fault : HostFault)
deriving DecidableEq, Inhabited

/-- The wording of the fault. -/
def StoreFault.message : StoreFault → String
  | alreadyOpen => "Database already open. Cannot acquire lock."
  | notAStore => "I/O error: Not a redb database: magic number mismatch"
  | host fault => "I/O error: " ++ fault.message

end ObjectStore
