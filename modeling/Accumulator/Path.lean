/-!
# Paths and places

A path is a row of names between slashes, from the root of the file system if a slash comes first.
Slashes in a row count as one, except that exactly two in front are a root of their own; a single
point names the directory it stands in and is left out.  The parent, written as two points, is
kept: what it leads to depends on the files.

A place is what a path leads to: a row of names from the root of the file system down.  Paths that
are not from the root begin at the place in use, a directory two steps below the root whose own name
no path spells.  Some places are the same in every system: the root, its standard directories, the
place in use, and the null device.
-/

namespace Accumulator

/-! ### Paths -/

/-- A path without redundant parts. -/
structure Path where
  /-- The slashes in front: none, one or two. -/
  root : String
  names : List String
  deriving DecidableEq, Repr

namespace Path

/-- The slashes that a text with so many of them in front begins its path with. -/
def rootOf (slashes : Nat) : String :=
  match slashes with
  | 0 => ""
  | 2 => "//"
  | _ => "/"

/-- The path that a text stands for. -/
def ofString (s : String) : Path where
  root := rootOf (s.toList.takeWhile (· == '/')).length
  names := ((s.toList.splitOn '/').map String.ofList).filter fun name => name != "" && name != "."

/-- The text of a path; the path without names is a point. -/
def text (p : Path) : String :=
  let s := p.root ++ "/".intercalate p.names
  if s = "" then "." else s

/-- The last name of a path. -/
def name (p : Path) : String := p.names.getLastD ""

/-- The path without its last name. -/
def parent (p : Path) : Path := { p with names := p.names.dropLast }

end Path

/-! ### Places -/

/-- What lies at a place. -/
inductive Entry
  | file (bytes : List UInt8)
  | directory
  deriving DecidableEq, Repr

/-- A place, by the names that lead to it from the root. -/
structure Place where
  names : List String
  deriving DecidableEq, Hashable, Repr

namespace Place

/-- The root of the file system. -/
def root : Place := ⟨[]⟩

/-- The place in use.  A slash stands for its own name, since no name holds one. -/
def inUse : Place := ⟨["tmp", "/"]⟩

/-- The device that is always empty. -/
def nullDevice : Place := ⟨["dev", "null"]⟩

/-- The place one name on.  Two points lead back by one name, and from the root to itself. -/
def child (place : Place) (name : String) : Place :=
  if name = ".." then ⟨place.names.dropLast⟩ else ⟨place.names ++ [name]⟩

/-- The names that lead to the standard directories below the root. -/
def standardDirectories : List (List String) :=
  ["bin", "boot", "dev", "etc", "home", "lib", "media", "mnt", "opt", "proc", "root", "run", "sbin",
    "srv", "sys", "tmp", "usr", "var"].map ([·]) ++
  ["bin", "lib", "local", "sbin", "share"].map (["usr", ·]) ++
  ["cache", "lib", "log", "run", "tmp"].map (["var", ·])

/-- What lies at a place in every system. -/
def standardEntry? (place : Place) : Option Entry :=
  if place = root || place = inUse || standardDirectories.contains place.names then
    some .directory
  else if place = nullDevice then some (.file [])
  else none

end Place

namespace Path

/-- Where the names of a path begin. -/
def start (p : Path) : Place := if p.root = "" then .inUse else .root

/-- The place that a path leads to if each of its names leads somewhere. -/
def place (p : Path) : Place := p.names.foldl Place.child p.start

/-- The path without steps back to the place that a path leads to if each of its names leads
somewhere. -/
def straight (p : Path) : Path :=
  let names := p.place.names
  let inUse := Place.inUse.names
  if inUse.isPrefixOf names then ⟨"", names.drop inUse.length⟩
  else ⟨if p.root = "" then "/" else p.root, names⟩

end Path

end Accumulator
