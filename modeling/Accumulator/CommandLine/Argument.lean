import Accumulator.Text.Character

/-!
# Command line arguments

An argument by itself is plain text, the separator after which all is plain text, or a switch.  A
switch may be spelt out, shortened to any beginning that only one long spelling has, or be a letter
behind a single dash.  It may carry a text: after an equals sign, or behind its letter.

Text with a dash in front is still plain if it is a dash alone, looks like a negative number or
holds a space, unless it is the spelling of a switch.
-/

namespace Accumulator.CommandLine

/-- The switches. -/
inductive Switch
  | help
  | batchSize
  | dumpFormat
  | trace
  | verbose
  | quiet
  | logFile
  | version
  deriving DecidableEq, Repr

namespace Switch

/-- The switches in order. -/
def all : List Switch := [help, batchSize, dumpFormat, trace, verbose, quiet, logFile, version]

/-- The spellings of a switch. -/
def spellings : Switch → List String
  | help => ["-h", "--help"]
  | batchSize => ["--batch-size"]
  | dumpFormat => ["--dump-format"]
  | trace => ["--trace"]
  | verbose => ["--verbose", "-v"]
  | quiet => ["--quiet", "-q"]
  | logFile => ["--log-file"]
  | version => ["--version"]

/-- Whether a switch takes a value. -/
def takesValue : Switch → Bool
  | batchSize | dumpFormat | logFile => true
  | _ => false

/-- The name under which complaints speak of a switch. -/
def title (s : Switch) : String := "/".intercalate s.spellings

end Switch

/-- All spellings with their switches. -/
def spellings : List (String × Switch) :=
  Switch.all.flatMap fun switch => switch.spellings.map (·, switch)

/-- The switch of a spelling. -/
def switch? (spelling : String) : Option Switch := spellings.lookup spelling

/-- An argument. -/
inductive Argument
  | plain (text : String)
  | separator
  /-- A switch with the text that it carries in the same argument, if it does. -/
  | known (switch : Switch) (spelling : String) (attached : Option (List Char))
  /-- Text with a dash in front that is nothing else. -/
  | unknown (text : String)
  deriving DecidableEq, Repr

namespace Argument

open Text

/-- What stands before the first equals sign, and after it if there is one. -/
def splitEquals (cs : List Char) : String × Option (List Char) :=
  let front := cs.takeWhile (· != '=')
  match cs.drop front.length with
  | [] => (String.ofList front, none)
  | _ :: back => (String.ofList front, some back)

/-- Whether digits alone stand here, up to a line feed at the very end. -/
def areDigits (cs : List Char) : Bool :=
  let body := if cs.getLast? = some '\n' then cs.dropLast else cs
  !body.isEmpty && body.all isDigit

/-- Whether a text looks like a negative number: a dash, and digits with at most one point that has
digits behind it. -/
def looksNegative : List Char → Bool
  | '-' :: cs =>
    areDigits cs ||
      match cs.dropWhile isDigit with
      | '.' :: places => areDigits places
      | _ => false
  | _ => false

/-- The ways to read a text as the beginning of a long spelling, or as a letter with a tail. -/
def readings (cs : List Char) : List (String × Switch × Option (List Char)) :=
  match cs with
  | '-' :: '-' :: _ =>
    let (front, back) := splitEquals cs
    (spellings.filter fun entry => entry.1.startsWith front).map fun entry =>
      (entry.1, entry.2, back)
  | _ =>
    let letter := String.ofList (cs.take 2)
    (spellings.filter fun entry => entry.1 = letter).map fun entry =>
      (entry.1, entry.2, some (cs.drop 2))

/-- The argument that a text is, if it is not behind a separator.  A beginning that several long
spellings have is refused with a complaint. -/
def ofString (s : String) : Except String Argument :=
  let cs := s.toList
  let whole := splitEquals cs
  if cs.head? != some '-' then .ok (.plain s)
  else match switch? s, cs.length == 1, switch? whole.1, whole.2 with
  | some switch, _, _, _ => .ok (.known switch s none)
  | none, true, _, _ => .ok (.plain s)
  | none, false, some switch, some value => .ok (.known switch whole.1 (some value))
  | none, false, _, _ =>
    match readings cs with
    | [] => .ok (if looksNegative cs || cs.contains ' ' then .plain s else .unknown s)
    | [(spelling, switch, attached)] => .ok (.known switch spelling attached)
    | several =>
      .error ("ambiguous option: " ++ s ++ " could match " ++
        ", ".intercalate (several.map (·.1)))

/-- The arguments that texts are; behind the first separator all are plain. -/
def ofStrings : List String → Except String (List Argument)
  | [] => .ok []
  | "--" :: texts => .ok (separator :: texts.map plain)
  | text :: texts => do
    let argument ← ofString text
    let arguments ← ofStrings texts
    return argument :: arguments

end Argument

end Accumulator.CommandLine
