import Accumulator.Machine.Cycle

/-!
# Runs

A run executes instructions in batches.  After each batch that neither ended the program nor failed
it shows a snapshot and asks whether to go on; it stops when told not to, or when nobody can be
asked.  `run` takes the answers as a list, after whose end the answer is no, unless whoever is asked
then fails to answer (`Silence`).  Such a run is broken off: it has no answer, and the machine is
left awaiting the word to continue.
-/

namespace Accumulator

namespace Machine

/-- Up to `count` cycles, noted after `earlier`; the first that does not go on is the last. -/
def cycles (m : Machine) (earlier : Array Event) : Nat → Report Failure Pace
  | 0 => ⟨m, .ok .goesOn, earlier⟩
  | count + 1 =>
    let report := m.cycle
    match report.answer with
    | .ok .goesOn => report.machine.cycles (earlier ++ report.events) count
    | answer => ⟨report.machine, answer, earlier ++ report.events⟩

/-- A batch of `size` instructions.  A machine whose batch came to its end awaits the word to
continue. -/
def batch (m : Machine) (size : Nat) : Report Overlong State :=
  let report := settle .awaitingContinue (m.start.cycles #[] size)
  match report.answer with
  | .ok .awaitingContinue =>
    { report with
      events := report.events.push (.batchDone size report.machine.registers.programCounter) }
  | _ => report

/-- The first batch of a run. -/
def beginRun (m : Machine) (size : Nat) : Report Overlong State :=
  if m.state.isTerminal then m.ignore "run" else m.batch size

/-- A run that is not continued. -/
def stopRun (m : Machine) : Report Overlong State :=
  ⟨{ m with state := .stopped }, .ok .stopped, #[.runStopped]⟩

end Machine

/-- A run with the snapshots that were shown on the way. -/
structure Run where
  report : Report Overlong State
  shown : Array Snapshot

/-- What happens when a run asks whether to go on and there is no answer left. -/
inductive Silence
  /-- The answer is no. -/
  | declines
  /-- Whoever is asked fails to answer. -/
  | breaksOff
  deriving DecidableEq, Repr

/-- Why a step or a run has no answer. -/
inductive Abort
  | overlong (error : Overlong)
  /-- Whoever was asked whether to go on failed to answer. -/
  | unanswered
  deriving DecidableEq, Repr

/-- What a step or a run answers.  That it awaits the word to continue is no answer: it is how a run
stands that was broken off. -/
def Report.outcome (report : Report Overlong State) : Except Abort State :=
  match report.answer with
  | .ok .awaitingContinue => .error .unanswered
  | .ok state => .ok state
  | .error error => .error (.overlong error)

namespace Machine

/-- A run that is told not to go on after a report. -/
def declineRun (report : Report Overlong State) (shown : Array Snapshot) : Run :=
  let stopped := report.machine.stopRun
  ⟨{ stopped with events := report.events ++ stopped.events }, shown⟩

/-- A run that has executed a batch, continued as often as it is told to.  If it is broken off, its
report is that of its last batch. -/
def continueRun (size : Nat) (report : Report Overlong State) (shown : Array Snapshot)
    (answers : List Bool) (silence : Silence := .declines) : Run :=
  match report.answer with
  | .ok .awaitingContinue =>
    let shown := shown.push report.machine.snapshot
    match answers with
    | true :: answers =>
      let next := report.machine.batch size
      continueRun size { next with events := report.events ++ next.events } shown answers silence
    | false :: _ => declineRun report shown
    | [] =>
      match silence with
      | .declines => declineRun report shown
      | .breaksOff => ⟨report, shown⟩
  | _ => ⟨report, shown⟩

/-- The batch size of a run: the one asked for, which is at least one, or the machine's own. -/
def runSize (m : Machine) (asked : Option Int) : Nat :=
  match asked with
  | none => m.batchSize
  | some n => (max n 1).toNat

/-- A run.  `answers` is what is answered at the ends of the batches, `none` if nobody can be
asked. -/
def run (m : Machine) (answers : Option (List Bool)) (asked : Option Int := none)
    (silence : Silence := .declines) : Run :=
  let size := m.runSize asked
  let first := m.beginRun size
  match answers with
  | some answers => continueRun size first #[] answers silence
  | none => { continueRun size first #[] [] with shown := #[] }

/-- A program loaded into a new machine of standard memory size and run. -/
def runProgram (program : List Word) (answers : Option (List Bool)) (batchSize : Int) :
    Except MachineError (Except Failure Run) := do
  let m ← Machine.new batchSize
  let loaded := m.load program
  return loaded.answer.map fun _ => loaded.machine.run answers

end Machine

end Accumulator
