import Accumulator.Files
import Accumulator.Journal
import Accumulator.Text.Line

/-!
# Program files

A program file is UTF-8 text with an instruction in each line.  The blanks around a line do not
count, and a blank line keeps its place, so that each line has the address of its number.  Whether a
program fits into memory is not asked here.
-/

namespace Accumulator

namespace Program

open Text

/-- The lines of a program text. -/
def linesOf (text : List Char) : List String := (lines text).map strip

/-- The lines of a program file of the given name with the given bytes. -/
def ofBytes (name : String) (bytes : List UInt8) : Except Failure (List String) :=
  match Utf8.decode bytes with
  | .error error => .error (.ofCause (.notUtf8 name error))
  | .ok text => .ok (linesOf text)

end Program

/-- Why a program file could not be read. -/
inductive ReadError
  /-- The file is missing or not text. -/
  | failure (failure : Failure)
  /-- The file could not be opened for another reason. -/
  | file (error : FileError)

namespace Program

/-- The lines of a program file and what is noted about it, from what opening the file under the
given name came to. -/
def read (name : String) (opened : Except FileError (List UInt8)) :
    Except ReadError (List String × Event) :=
  let path := Path.ofString name
  match opened with
  | .error (.missing _) => .error (.failure (.ofCause (.fileNotFound name)))
  | .error error => .error (.file error)
  | .ok bytes =>
    match ofBytes path.name bytes with
    | .error failure => .error (.failure failure)
    | .ok lines => .ok (lines, .programRead lines.length path.text)

end Program

end Accumulator
