import Accumulator.Path
import Accumulator.Text.Quoted
import Std.Data.HashMap

/-!
# Files

`Files` holds what is known to lie at places: plain files with their bytes, and directories.  Paths
are walked name by name, so a path through a plain file or a missing directory leads nowhere, and
each failure says which it was.
-/

namespace Accumulator

/-- Why a file could not be used. -/
inductive FileError
  | missing (path : String)
  | isDirectory (path : String)
  | notDirectory (path : String)
  | exists (path : String)
  | nameTooLong (path : String)
  /-- The name holds the character that ends names. -/
  | nullInName
  /-- Too many directories on one way are missing. -/
  | tooDeep
  deriving DecidableEq, Repr

namespace FileError

/-- The wording of the failure. -/
def message : FileError → String
  | missing path => "[Errno 2] No such file or directory: " ++ Text.quoted path
  | isDirectory path => "[Errno 21] Is a directory: " ++ Text.quoted path
  | notDirectory path => "[Errno 20] Not a directory: " ++ Text.quoted path
  | «exists» path => "[Errno 17] File exists: " ++ Text.quoted path
  | nameTooLong path => "[Errno 36] File name too long: " ++ Text.quoted path
  | nullInName => "embedded null byte"
  | tooDeep => "maximum recursion depth exceeded while calling a Python object"

end FileError

/-- The files, by their places. -/
structure Files where
  entries : Std.HashMap Place Entry

namespace Files

/-- The most bytes a name may have. -/
def maxNameBytes : Nat := 255

/-- The most bytes a path may have. -/
def maxPathBytes : Nat := 4095

/-- Nothing but what is there in every system. -/
def empty : Files := ⟨∅⟩

/-- What lies at a place. -/
def find? (files : Files) (place : Place) : Option Entry :=
  files.entries[place]?.or place.standardEntry?

/-- The files with an entry at a place. -/
def put (files : Files) (place : Place) (entry : Entry) : Files :=
  ⟨files.entries.insert place entry⟩

/-! ### Walking a path -/

/-- The place that names lead to from another one.  All but the last name must lead to directories.
`path` is the whole path, for the failure. -/
def walk (files : Files) (path : String) : Place → List String → Except FileError Place
  | place, [] => .ok place
  | place, name :: names =>
    match files.find? place with
    | none => .error (.missing path)
    | some (.file _) => .error (.notDirectory path)
    | some .directory =>
      if maxNameBytes < name.utf8ByteSize then .error (.nameTooLong path)
      else files.walk path (place.child name) names

/-- The place that a path leads to. -/
def locate (files : Files) (path : Path) : Except FileError Place :=
  let text := path.text
  if text.toList.contains '\x00' then .error .nullInName
  else if maxPathBytes < text.utf8ByteSize then .error (.nameTooLong text)
  else files.walk text path.start path.names

/-! ### Reading and writing -/

/-- The bytes of the file at a path. -/
def read (files : Files) (path : Path) : Except FileError (List UInt8) := do
  let place ← files.locate path
  match files.find? place with
  | none => .error (.missing path.text)
  | some .directory => .error (.isDirectory path.text)
  | some (.file bytes) => .ok bytes

/-- The files with bytes put at the end of the file at a path, which is made if it is not there.
The null device stays empty. -/
def append (files : Files) (path : Path) (bytes : List UInt8) : Except FileError Files := do
  let place ← files.locate path
  if place = .nullDevice then return files
  match files.find? place with
  | some .directory => .error (.isDirectory path.text)
  | some (.file old) => return files.put place (.file (old ++ bytes))
  | none => return files.put place (.file bytes)

/-! ### Making directories -/

/-- The files with a directory at the place that a path leads to. -/
def settle (files : Files) (path : Path) (place : Place) : Except FileError (Files × Place) :=
  match files.find? place with
  | some .directory => .ok (files, place)
  | some (.file _) => .error (.exists path.text)
  | none => .ok (files.put place .directory, place)

/-- The files with a directory at a path, and its place.  If the way there is missing it is made
first, unless more than `count` directories are missing. -/
def ensureDirectory (files : Files) (path : Path) : Nat → Except FileError (Files × Place)
  | 0 => .error .tooDeep
  | count + 1 =>
    match files.locate path with
    | .ok place => files.settle path place
    | .error (.missing text) =>
      if path.names = [] then .error (.missing text)
      else do
        let (files, place) ← files.ensureDirectory path.parent count
        if maxNameBytes < path.name.utf8ByteSize then .error (.nameTooLong path.text)
        else files.settle path (place.child path.name)
    | .error failure => .error failure

/-- The most directories on one way that are made. -/
def maxMade : Nat := 988

/-- The files with a directory at a path and at all that leads there. -/
def ensureDirectories (files : Files) (path : Path) : Except FileError Files := do
  let (files, _) ← files.ensureDirectory path maxMade
  return files

end Files

end Accumulator
