/-!
# Paths

A path is a sequence of names with slashes between them. Behind the first
name, empty names and single dots say nothing. A path splits into its
directory and its last name; two dots are no name, and neither is the root.
Slashes behind a name say that a directory stands there.
-/

namespace ObjectStore

namespace Path

/-- The parts of a path, in order. -/
def parts (path : String) : List String := path.splitToList fun c => c = '/'

/-- Whether the part of a path says nothing, unless it is the first. -/
def isVoid (part : String) : Bool := part = "" || part = "."

/-- The parts of a path, the last first, without the void ones behind the
last that counts. -/
def dropVoid : List String → List String
  | part :: next :: rest => if isVoid part then dropVoid (next :: rest) else part :: next :: rest
  | parts => parts

/-- The last name of a path. -/
def fileName? (path : String) : Option String :=
  match dropVoid (parts path).reverse with
  | name :: _ => if isVoid name || name = ".." then none else some name
  | [] => none

/-- The directory of a path, as it is written. It is empty if the path is a
single name or the root. -/
def parent (path : String) : String :=
  match dropVoid ((dropVoid (parts path).reverse).drop 1) with
  | [""] => "/"
  | above => String.intercalate "/" above.reverse

/-- The path of a name in a directory. -/
def join (directory name : String) : String :=
  if directory = "/" then "/" ++ name else directory ++ "/" ++ name

/-- The parts of a path in front of its last name, if there are slashes
behind that name. -/
def aboveOpenEnd? (path : String) : Option (List String) :=
  match (parts path).reverse with
  | "" :: rest =>
      match rest.dropWhile (· = "") with
      | name :: above => if name = "." || name = ".." then none else some above.reverse
      | [] => none
  | _ => none

/-- The longest name, in bytes. -/
def maxNameLength : Nat := 255

/-- The longest path that one can ask for, in bytes. -/
def maxLength : Nat := 4095

/-- Whether a name is longer than any that can be there. -/
def isTooLong (name : String) : Bool := maxNameLength < name.utf8ByteSize

end Path

end ObjectStore
