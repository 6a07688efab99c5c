import Accumulator.Session.Basic

/-!
# Scripted sessions

A scripted session is a session over given files with given answers, after which the input ends.
Its record holds what was said, in order, how it ended and the files afterwards.  Nobody reads the
file that keeps the events while the session goes on, unless it is the program file, which is opened
after it was made ready and before anything is written to it; so the events are put there at the
end.
-/

namespace Accumulator

/-- What a session comes to. -/
structure Record where
  said : List Utterance
  ending : Ending
  files : Files

namespace Session

/-- The session from a turn on, with the given answers and then the end of input. -/
def play (turn : Turn Next) (answers : List Reply) : Turn Ending :=
  match turn.next with
  | .done ending => ⟨turn.said, ending⟩
  | .wait session =>
    match answers with
    | [] =>
      let last := session.close
      ⟨turn.said ++ last.said, last.next⟩
    | answer :: answers =>
      let rest := play (session.reply answer) answers
      ⟨turn.said ++ rest.said, rest.next⟩

/-- The session of a program file. -/
def playFile (o : Options) (files : Files) (name : String) (answers : List Reply) : Turn Ending :=
  play (ofFile o name (files.read (Path.ofString name))) answers

/-- The session of a program file that is asked for. -/
def playUnnamed (o : Options) (files : Files) (answers : List Reply) : Turn Ending :=
  let turn := match answers with
    | [] => nameless
    | answer :: answers =>
      match nameFile answer with
      | .error turn => turn
      | .ok name => playFile o files name answers
  ⟨.askFile :: turn.said, turn.next⟩

/-- The session of the program file that the options name, or that is asked for. -/
def playAll (o : Options) (files : Files) (answers : List Reply) : Turn Ending :=
  match o.programName? with
  | some name => playFile o files name answers
  | none => playUnnamed o files answers

/-- The files with the file that keeps the events made ready. -/
def openLog (files : Files) (path : Path) : Except FileError Files := do
  let files ← files.ensureDirectories path.parent
  files.append path.straight []

/-- A session that keeps its events in a file. -/
def playLogged (o : Options) (files : Files) (path : Path) (answers : List Reply) :
    Except FileError Record := do
  let files ← openLog files path
  let turn := playAll o files answers
  let kept := Utterance.collect Utterance.kept? turn.said
  let files ← files.append path.straight (Text.Utf8.encode kept)
  return ⟨turn.said, turn.next, files⟩

/-- A scripted session with the given options. -/
def script (o : Options) (files : Files) (answers : List Reply) : Record :=
  match o.logName? with
  | none =>
    let turn := playAll o files answers
    ⟨turn.said, turn.next, files⟩
  | some name =>
    match playLogged o files (Path.ofString name) answers with
    | .ok record => record
    | .error error => ⟨[], .escape (.file error), files⟩

end Session

end Accumulator
