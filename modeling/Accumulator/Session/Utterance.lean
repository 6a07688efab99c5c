import Accumulator.Files
import Accumulator.Journal
import Accumulator.Snapshot.Text

/-!
# What a session says

An utterance is what a session says at once.  Some are printed for the user, some put a question to
the user, some are for whoever watches for errors and some are events for the journal.  Each kind of
listener has a function that gives the text for it, if there is one.  What is printed and what is
asked stand on one screen, in the order in which they were said.
-/

namespace Accumulator

/-- A question that a session with a loaded program puts to the user. -/
inductive Question
  /-- What to do next. -/
  | command
  /-- Whether to go on with a run. -/
  | continuation
  deriving DecidableEq, Repr

/-- The wording of a question. -/
def Question.prompt : Question → String
  | command => "> "
  | continuation =>
    "Maximum instruction count reached. Do you want to continue execution? (y/n): "

/-- Why no program was loaded. -/
inductive Problem
  /-- None was named. -/
  | unnamed
  /-- The file is missing. -/
  | missing (fault : Fault)
  /-- The file is not text. -/
  | notText (name : String) (fault : Fault)
  /-- The file cannot be opened. -/
  | unopened (name : String) (error : FileError)
  /-- The program does not fit into memory. -/
  | tooLarge (fault : Fault)

/-- The wording of a problem. -/
def Problem.message : Problem → String
  | unnamed => "Error: no program file given"
  | missing fault => "Error: " ++ fault.message
  | notText name fault => "Error reading " ++ name ++ ": " ++ fault.message
  | unopened name error => "Error reading " ++ name ++ ": " ++ error.message
  | tooLarge fault => "Error: program too large: " ++ fault.message

/-- What a session says. -/
inductive Utterance
  /-- What the commands are. -/
  | commands
  /-- A question. -/
  | ask (question : Question)
  /-- The question for a program file. -/
  | askFile
  /-- A line was typed that is no command. -/
  | noCommand
  /-- The dump of a snapshot, in the form that was asked for. -/
  | dump (snapshot : Snapshot) (text : String)
  /-- The program has ended. -/
  | terminated
  /-- A fault has ended the program. -/
  | faulted (fault : Fault)
  /-- The instruction trace. -/
  | trace (text : String)
  /-- No program was loaded. -/
  | complain (problem : Problem)
  /-- An event. -/
  | note (event : Event)

namespace Utterance

/-- The text that is printed for the user. -/
def printed? : Utterance → Option String
  | commands =>
    some ("Enter command ('s' to execute single instruction, " ++
      "'a' to execute all instructions, 'q' to quit):\n")
  | noCommand => some "Invalid command. Please enter 's', 'a', or 'q'.\n"
  | dump _ text => some (text ++ "\n")
  | terminated => some "Program Terminated\n"
  | faulted fault => some ("Fault (" ++ fault.kind.label ++ "): " ++ fault.message ++ "\n")
  | trace text => some ("Trace:\n" ++ text ++ "\n")
  | _ => none

/-- The question that is put to the user. -/
def asked? : Utterance → Option String
  | ask question => some question.prompt
  | askFile => some "Enter the filename: "
  | _ => none

/-- The text for whoever watches for errors, where events from a level on are shown. -/
def watched? (level : Level) : Utterance → Option String
  | complain problem => some (problem.message ++ "\n")
  | note event => if event.isShown level then some event.shownLine else none
  | _ => none

/-- The text for the file that keeps all events. -/
def kept? : Utterance → Option String
  | note event => some event.keptLine
  | _ => none

/-- What is put on the screen at once. -/
inductive Output
  /-- A text that is printed. -/
  | printed (text : String)
  /-- The wording of a question, behind which a line is awaited. -/
  | prompt (wording : String)
  deriving DecidableEq, Repr

/-- The characters of an output. -/
def Output.text : Output → String
  | printed text => text
  | prompt wording => wording

/-- What an utterance puts on the screen. -/
def outputs (u : Utterance) : List Output :=
  u.printed?.toList.map .printed ++ u.asked?.toList.map .prompt

/-- What a sequence of utterances puts on the screen. -/
def screen (said : List Utterance) : List Output := said.flatMap outputs

end Utterance

/-- The texts of a sequence of utterances for one listener, put together. -/
def Utterance.collect (text? : Utterance → Option String) (said : List Utterance) : String :=
  String.join (said.filterMap text?)

end Accumulator
