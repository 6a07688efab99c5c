/-!
# Lines and columns

A text file is cut into lines at every *line end*: the line feed, the other vertical controls, the
three separator controls, the next-line control and the two Unicode separators.  A carriage return,
alone or followed by a line feed, is one line feed.  A line end closes its line, so nothing follows
the last one.

A listing sets texts in columns: filled up with spaces to the width of the column, and never cut.
Numbers stand at the right of their column and words at the left.
-/

namespace Accumulator.Text

/-! ### Lines -/

/-- Carriage returns, alone or before a line feed, as single line feeds. -/
def unifyReturns : List Char → List Char
  | [] => []
  | '\r' :: '\n' :: cs => '\n' :: unifyReturns cs
  | c :: cs => (if c = '\r' then '\n' else c) :: unifyReturns cs

/-- A character that closes a line, once carriage returns are gone. -/
def isLineEnd (c : Char) : Bool :=
  let n := c.toNat
  (0x0A ≤ n && n ≤ 0x0D) || (0x1C ≤ n && n ≤ 0x1E) || n == 0x85 || n == 0x2028 || n == 0x2029

/-- The pieces between line ends, without the empty piece after a final line end. -/
def splitLines (cs : List Char) : List (List Char) :=
  let pieces := cs.splitOnP isLineEnd
  if pieces.getLast? = some [] then pieces.dropLast else pieces

/-- The lines of a text, without their line ends. -/
def lines (cs : List Char) : List String :=
  (splitLines (unifyReturns cs)).map String.ofList

/-! ### Columns -/

/-- The spaces that fill a text up to `width` characters. -/
def filler (width : Nat) (s : String) : String :=
  String.ofList (List.replicate (width - s.length) ' ')

/-- A text at the right of a column. -/
def flushRight (width : Nat) (s : String) : String :=
  filler width s ++ s

/-- A text at the left of a column. -/
def flushLeft (width : Nat) (s : String) : String :=
  s ++ filler width s

/-- Texts one below the other. -/
def stack (rows : List String) : String :=
  "\n".intercalate rows

end Accumulator.Text
