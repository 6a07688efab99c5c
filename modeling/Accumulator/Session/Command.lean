import Accumulator.Text.Character

/-!
# Typed lines

What a line means that the user types.  Blanks around it and the case of its letters do not count.
-/

namespace Accumulator

/-- A line as it is compared: without blanks around it and with its capitals made small.  Only ASCII
capitals matter: no other character has a small form among the letters of the words asked for. -/
def foldLine (line : String) : String :=
  String.ofList ((Text.strip line).toList.map Char.toLower)

/-- What can be asked of a session. -/
inductive Command
  /-- One instruction. -/
  | step
  /-- A run. -/
  | run
  /-- The end of the session. -/
  | quit
  deriving DecidableEq, Repr

namespace Command

/-- The words for a command. -/
def words : Command → List String
  | step => ["s", "step"]
  | run => ["a", "run"]
  | quit => ["q", "quit"]

/-- The command that a line stands for. -/
def ofLine? (line : String) : Option Command :=
  [step, run, quit].find? fun command => command.words.contains (foldLine line)

end Command

/-- Whether a line says yes. -/
def saysYes (line : String) : Bool := ["y", "yes"].contains (foldLine line)

end Accumulator
