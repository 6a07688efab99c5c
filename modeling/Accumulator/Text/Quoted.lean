import Accumulator.Text.Printable

/-!
# Quoted text

Messages show a text between quotes, so that its ends and its unprintable characters can be seen.
Single quotes are used unless the text holds a single quote and no double one.  Inside, the quote in
use and the backslash are escaped by a backslash, tab, line feed and carriage return have letters,
and any other unprintable character is written by its code point in two, four or eight digits.

JSON text has a quotation of its own: a string stands in double quotes, and only what JSON requires
to be escaped is escaped.  An object stands over several lines, its members indented by two spaces
for each object around them; an object without members is a pair of braces.
-/

namespace Accumulator.Text

/-! ### Messages -/

/-- A number in lower-case hexadecimal with at least `width` digits. -/
def hex (width n : Nat) : List Char :=
  let digits := Nat.toDigits 16 n
  List.replicate (width - digits.length) '0' ++ digits

/-- The quote a text is put between. -/
def quoteFor (cs : List Char) : Char :=
  if cs.contains '\'' && !cs.contains '"' then '"' else '\''

/-- One character between two `quote`s. -/
def quoteChar (quote c : Char) : List Char :=
  if c = quote || c = '\\' then ['\\', c]
  else if c = '\t' then ['\\', 't']
  else if c = '\n' then ['\\', 'n']
  else if c = '\r' then ['\\', 'r']
  else if isPrintable c then [c]
  else if c.toNat ≤ 0xFF then '\\' :: 'x' :: hex 2 c.toNat
  else if c.toNat ≤ 0xFFFF then '\\' :: 'u' :: hex 4 c.toNat
  else '\\' :: 'U' :: hex 8 c.toNat

/-- A text as messages show it. -/
def quoted (s : String) : String :=
  let quote := quoteFor s.toList
  String.ofList (quote :: s.toList.flatMap (quoteChar quote) ++ [quote])

/-! ### JSON text -/

namespace Json

/-- One character inside a JSON string. -/
def escape (c : Char) : List Char :=
  if c = '"' then ['\\', '"']
  else if c = '\\' then ['\\', '\\']
  else if c = '\n' then ['\\', 'n']
  else if c = '\r' then ['\\', 'r']
  else if c = '\t' then ['\\', 't']
  else if c.toNat = 0x08 then ['\\', 'b']
  else if c.toNat = 0x0C then ['\\', 'f']
  else if c.toNat < 0x20 then '\\' :: 'u' :: hex 4 c.toNat
  else [c]

/-- A text as a JSON string. -/
def string (s : String) : String :=
  String.ofList ('"' :: s.toList.flatMap escape ++ ['"'])

/-- The JSON text of a truth value. -/
def truth (b : Bool) : String := if b then "true" else "false"

/-- A line break and the indentation inside `depth` objects. -/
def lineBreak (depth : Nat) : String :=
  String.ofList ('\n' :: List.replicate (2 * depth) ' ')

/-- A member of an object, from its name and the text of its value. -/
def member (name value : String) : String := string name ++ ": " ++ value

/-- An object that stands inside `depth` others, from the texts of its members. -/
def object (depth : Nat) (members : List String) : String :=
  match members with
  | [] => "\x7b\x7d"
  | members =>
    "\x7b" ++ lineBreak (depth + 1) ++ ("," ++ lineBreak (depth + 1)).intercalate members ++
      lineBreak depth ++ "\x7d"

end Json

end Accumulator.Text
