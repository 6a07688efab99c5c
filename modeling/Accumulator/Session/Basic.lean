import Accumulator.CommandLine.Options
import Accumulator.Machine.Access
import Accumulator.Machine.Run
import Accumulator.Program
import Accumulator.Session.Command
import Accumulator.Session.Utterance
import Accumulator.Snapshot.Json
import Accumulator.Snapshot.Text

/-!
# Sessions

A session loads a program and then takes commands: one instruction, a run, or the end.  It is
written as a dialogue.  A session that waits for an answer is a value, and `reply` says what an
answer leads to: something said, and then another question or the end.  `close` says what the end of
input leads to: it answers no to the question whether to go on with a run, and leaves at the next
command.

A session ends when the program does, when a fault ends it and when the user leaves, so a machine
that has come to its end is never told to go on.
-/

namespace Accumulator

/-- A failure that a session does not deal with. -/
inductive Escape
  | overlong (error : Overlong)
  | file (error : FileError)
  /-- There is no batch size to begin with. -/
  | noBatchSize
  deriving DecidableEq, Repr

/-- The wording of the failure. -/
def Escape.message : Escape → String
  | overlong error => error.message
  | file error => error.message
  | noBatchSize => "'<' not supported between instances of 'list' and 'int'"

/-- How a session ends. -/
inductive Ending
  /-- With an exit status. -/
  | exit (status : Nat)
  /-- With a failure that nobody deals with. -/
  | escape (failure : Escape)
  deriving DecidableEq, Repr

namespace Ending

/-- The end of a session whose program has ended or that the user left. -/
def done : Ending := exit 0

/-- The end of a session whose program could not be loaded. -/
def notLoaded : Ending := exit 1

/-- The end of a session whose program a fault has ended. -/
def faulted : Ending := exit 2

/-- The end of a session that the user broke off. -/
def interrupted : Ending := exit 130

end Ending

/-- An answer of the user. -/
inductive Reply
  | line (text : String)
  /-- The user breaks off. -/
  | interrupt
  deriving DecidableEq, Repr

/-- What is said up to the next answer, and what comes then. -/
structure Turn (α : Type) where
  said : List Utterance
  next : α

/-- A session that waits for an answer. -/
structure Session where
  options : Options
  machine : Machine
  question : Question

/-- What becomes of a session. -/
inductive Next
  /-- It waits for an answer. -/
  | wait (session : Session)
  /-- It has ended. -/
  | done (ending : Ending)

namespace Session

/-! ### Taking commands -/

/-- The events of a report as they are said. -/
def notes (events : Array Event) : List Utterance := events.toList.map .note

/-- A snapshot in the form that was asked for. -/
def dump (o : Options) (s : Snapshot) : Except Overlong String :=
  match o.dumpFormat with
  | .text => s.text
  | .json => s.json

/-- What is said when a session ends in order: the trace, if it was asked for. -/
def farewell (o : Options) (m : Machine) : List Utterance :=
  if o.trace then [.trace m.traceText] else []

/-- The session ended in order, after something is said. -/
def leave (o : Options) (m : Machine) (said : List Utterance) (ending : Ending) : Turn Next :=
  ⟨said ++ farewell o m, .done ending⟩

/-- The question for a command, after something is said. -/
def askCommand (o : Options) (m : Machine) (said : List Utterance) : Turn Next :=
  ⟨said ++ [.commands, .ask .command], .wait ⟨o, m, .command⟩⟩

/-- The session after a request to the machine, which is dumped.  A machine that awaits the word to
continue is asked about, one whose program has ended ends the session, and otherwise the next
command is asked for. -/
def afterRequest (o : Options) (report : Report Overlong State) : Turn Next :=
  let m := report.machine
  let said := notes report.events
  match report.answer, dump o m.snapshot with
  | .error error, _ => ⟨said, .done (.escape (.overlong error))⟩
  | .ok _, .error error => ⟨said, .done (.escape (.overlong error))⟩
  | .ok state, .ok text =>
    let said := said ++ [.dump m.snapshot text]
    match state with
    | .awaitingContinue => ⟨said ++ [.ask .continuation], .wait ⟨o, m, .continuation⟩⟩
    | .halted => leave o m (said ++ [.terminated]) .done
    | .faulted => leave o m (said ++ m.fault.toList.map .faulted) .faulted
    | _ => askCommand o m said

/-- The session broken off by the user. -/
def breakOff : Turn Ending := ⟨[.note .interrupted], .interrupted⟩

/-- The session after a command, or after a line that is none. -/
def obey (o : Options) (m : Machine) : Option Command → Turn Next
  | none => askCommand o m [.noCommand]
  | some .step => afterRequest o m.step
  | some .run => afterRequest o (m.beginRun m.batchSize)
  | some .quit => leave o m [] .done

/-- The session after the word to go on with a run, or to stop it. -/
def decide (o : Options) (m : Machine) (goOn : Bool) : Turn Next :=
  afterRequest o (if goOn then m.batch m.batchSize else m.stopRun)

/-- What an answer leads to. -/
def reply (s : Session) : Reply → Turn Next
  | .interrupt => ⟨breakOff.said, .done breakOff.next⟩
  | .line text =>
    match s.question with
    | .command => obey s.options s.machine (Command.ofLine? text)
    | .continuation => decide s.options s.machine (saysYes text)

/-- What the end of input leads to. -/
def close (s : Session) : Turn Ending :=
  match s.question with
  | .command => ⟨farewell s.options s.machine, .done⟩
  | .continuation =>
    let turn := decide s.options s.machine false
    match turn.next with
    | .done ending => ⟨turn.said, ending⟩
    | .wait s => ⟨turn.said ++ farewell s.options s.machine, .done⟩

/-! ### Beginning -/

/-- The program file that an answer names, or how the session ends without one. -/
def nameFile : Reply → Except (Turn Ending) String
  | .line text => .ok (Text.strip text)
  | .interrupt => .error breakOff

/-- How a session ends whose input ends before it has a program file. -/
def nameless : Turn Ending := ⟨[.complain .unnamed], .notLoaded⟩

/-- The session ended because no program was loaded. -/
def refuse (said : List Utterance) (problem : Problem) : Turn Next :=
  ⟨said ++ [.complain problem], .done .notLoaded⟩

/-- The session ended by a failure that it does not deal with. -/
def giveUp (said : List Utterance) (failure : Escape) : Turn Next :=
  ⟨said, .done (.escape failure)⟩

/-- The session of a program on a machine without one. -/
def ofProgram (o : Options) (m : Machine) (said : List Utterance) (program : List Word) :
    Turn Next :=
  let loaded := m.load program
  let said := said ++ notes loaded.events
  match loaded.answer with
  | .error (.overlong error) => giveUp said (.overlong error)
  | .error (.fault fault) => refuse said (.tooLarge fault)
  | .ok () => askCommand o (loaded.machine.setTracing o.trace) said

/-- The session of a program file on a machine without a program, from what opening the file came
to. -/
def onMachine (o : Options) (m : Machine) (name : String)
    (opened : Except FileError (List UInt8)) : Turn Next :=
  match Program.read name opened with
  | .ok (lines, event) => ofProgram o m [.note event] (lines.map .text)
  | .error (.file .nullInName) => giveUp [] (.file .nullInName)
  | .error (.file error) => refuse [] (.unopened name error)
  | .error (.failure (.overlong error)) => giveUp [] (.overlong error)
  | .error (.failure (.fault fault)) =>
    refuse [] (if fault.kind = .fileNotFound then .missing fault else .notText name fault)

/-- The session of a program file, from what opening it came to. -/
def ofFile (o : Options) (name : String) (opened : Except FileError (List UInt8)) : Turn Next :=
  match o.batchSize with
  | none => giveUp [] .noBatchSize
  | some size => onMachine o (Machine.blank size.1 size.2) name opened

end Session

end Accumulator
