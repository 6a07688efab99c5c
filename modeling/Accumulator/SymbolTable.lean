import Accumulator.Fault
import Accumulator.Memory.Basic
import Accumulator.OrderedMap

/-!
# Symbol tables

A symbol table binds names to data addresses.  Addresses are handed out upward from `dataStart` and
never twice; a name that is declared again is bound to a fresh address and keeps its place in the
table.  When the next address would lie past the end of memory, a declaration is refused.
-/

namespace Accumulator

/-- Names bound to data addresses. -/
structure SymbolTable where
  /-- The first address that is handed out. -/
  dataStart : Int := Memory.dataStart
  /-- The size of the memory that the addresses are for. -/
  memorySize : Int := Memory.standardSize
  /-- The next address to be handed out. -/
  next : Int := dataStart
  /-- The names and their addresses, in the order of their first declaration. -/
  bindings : OrderedMap String Int := .empty

namespace SymbolTable

/-- A table without names. -/
def new (dataStart memorySize : Int) : SymbolTable := { dataStart, memorySize }

instance : Inhabited SymbolTable := ⟨{}⟩

/-- The table with no name bound and all addresses free again. -/
def reset (t : SymbolTable) : SymbolTable := new t.dataStart t.memorySize

/-- The number of names. -/
def size (t : SymbolTable) : Nat := t.bindings.size

/-- The address of a name. -/
def address? (t : SymbolTable) (name : String) : Option Int := t.bindings.get? name

/-- The address of a name; a name without one is a fault. -/
def resolve (t : SymbolTable) (name : String) : Except Failure Int :=
  match t.address? name with
  | none => .error (.ofCause (.unknownSymbol name))
  | some address => .ok address

/-- The table with a name bound to the next address. -/
def declare (t : SymbolTable) (name : String) : Except Failure SymbolTable :=
  if t.memorySize ≤ t.next then
    .error (.ofCause (.dataMemoryFull name (t.next - t.dataStart)))
  else
    .ok { t with next := t.next + 1, bindings := t.bindings.insert name t.next }

end SymbolTable

end Accumulator
