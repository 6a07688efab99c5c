import Accumulator.CommandLine.Reading
import Accumulator.CommandLine.Usage
import Accumulator.Session.Script

/-!
# The program

The session at a terminal: what is said goes to the standard streams and to the file that keeps the
events, and each question is answered by a line of standard input.
-/

namespace Accumulator.Main

/-- Where a session is held: the level from which on events are shown, and the file that keeps them
all. -/
structure Terminal where
  level : Level
  log : Option IO.FS.Handle

/-- Says one thing to all who listen. -/
def Terminal.say (terminal : Terminal) (utterance : Utterance) : IO Unit := do
  let stdout ← IO.getStdout
  for output in utterance.outputs do stdout.putStr output.text
  stdout.flush
  if let some text := utterance.watched? terminal.level then (← IO.getStderr).putStr text
  if let (some log, some text) := (terminal.log, utterance.kept?) then
    log.putStr text
    log.flush

/-- Says a sequence of things. -/
def Terminal.sayAll (terminal : Terminal) (said : List Utterance) : IO Unit :=
  said.forM terminal.say

/-- The next line of standard input without its line feed; `none` at the end of input. -/
def readLine? : IO (Option String) := do
  let line ← (← IO.getStdin).getLine
  if line.isEmpty then return none
  match line.toList.getLast? with
  | some '\n' => return some (String.ofList line.toList.dropLast)
  | _ => return some line

/-- Holds a session from a turn on. -/
partial def Terminal.converse (terminal : Terminal) (turn : Turn Next) : IO Ending := do
  terminal.sayAll turn.said
  match turn.next with
  | .done ending => return ending
  | .wait session =>
    match ← readLine? with
    | some line => terminal.converse (session.reply (.line line))
    | none =>
      let last := session.close
      terminal.sayAll last.said
      return last.next

/-- The failure of a file operation at a path, where it is one that sessions know. -/
def fileError? (path : String) : IO.Error → Option FileError
  | .noFileOrDirectory .. => some (.missing path)
  -- A path through a plain file fails when it is opened; a directory opens and cannot be read.
  | .inappropriateType (some _) .. => some (.notDirectory path)
  | .inappropriateType none .. => some (.isDirectory path)
  | .invalidArgument .. => some (.nameTooLong path)
  | _ => none

/-- The bytes of a file. -/
def readFile (name : String) : IO (Except FileError (List UInt8)) := do
  let path := (Path.ofString name).text
  if name.toList.contains '\x00' then return .error .nullInName
  try
    let bytes ← IO.FS.readBinFile path
    return .ok bytes.toList
  catch failure =>
    match fileError? path failure with
    | some error => return .error error
    | none => throw failure

/-- Holds a session with the given options. -/
def hold (o : Options) : IO Ending := do
  let log ← o.logName?.mapM fun name => do
    let path := Path.ofString name
    IO.FS.createDirAll path.parent.text
    IO.FS.Handle.mk path.text .append
  let terminal : Terminal := ⟨o.level, log⟩
  let enter := fun (name : String) => do
    terminal.converse (Session.ofFile o name (← readFile name))
  match o.programName? with
  | some name => enter name
  | none =>
    terminal.say .askFile
    let named := match ← readLine? with
      | some line => Session.nameFile (.line line)
      | none => .error Session.nameless
    match named with
    | .ok name => enter name
    | .error turn =>
      terminal.sayAll turn.said
      return turn.next

end Accumulator.Main

open Accumulator in
/-- The program: options from the command line, a session at the terminal, an exit status. -/
def main (arguments : List String) : IO UInt32 := do
  match CommandLine.read arguments with
  | .error .help =>
    IO.print CommandLine.help
    return 0
  | .error .version =>
    IO.print CommandLine.version
    return 0
  | .error (.complaint message) =>
    IO.eprint (CommandLine.complaint message)
    return 2
  | .ok options =>
    match ← Accumulator.Main.hold options with
    | .exit status => return status.toUInt32
    | .escape failure =>
      IO.eprintln failure.message
      return 1
