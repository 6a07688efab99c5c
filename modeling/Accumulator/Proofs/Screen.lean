import Accumulator.Proofs.Dialogue
import Accumulator.Proofs.Dumps

/-!
# What a dialogue puts on the screen

Each utterance of a dialogue puts one text on the screen, which is told here word by word
(`Prints`).  None of these texts is that of another kind of utterance; in particular a dump begins
with a heading or with a brace.  So the words that the program has ended stand on the screen exactly
if it has, and the last text that stands there is those words or the wording of the fault
(`Dialogue.shows`).
-/

namespace Accumulator

open Text
open Utterance (Output outputs screen)

/-! ### How dumps begin -/

namespace Snapshot

variable {s : Snapshot} {dump : String}

theorem head_text (h : s.text = .ok dump) : ∃ cs, dump.toList = 'R' :: cs := by
  obtain ⟨-, rfl⟩ := (s.gives_text dump).1 h
  have hrows : s.rows = "Registers and Flags:" :: s.rows.tail := rfl
  have hrest : s.rows.tail ≠ [] := List.cons_ne_nil _ _
  rw [hrows, stack_cons hrest, String.toList_append, String.toList_append]
  exact ⟨_, rfl⟩

theorem head_json (h : s.json = .ok dump) : ∃ cs, dump.toList = '\x7b' :: cs := by
  obtain ⟨-, rfl⟩ := (s.gives_json dump).1 h
  obtain ⟨_, hobject, -⟩ := Json.toList_object_cons 0 _ _
  exact ⟨_, hobject⟩

end Snapshot

namespace Session

variable {o : Options} {m last : Machine} {said : List Utterance}

/-! ### One utterance -/

/-- What an utterance of a session with a loaded program puts on the screen. -/
inductive Prints (o : Options) : Utterance → Output → Prop
  | commands : Prints o .commands (.printed
      ("Enter command ('s' to execute single instruction, " ++
        "'a' to execute all instructions, 'q' to quit):\n"))
  | askFile : Prints o .askFile (.prompt "Enter the filename: ")
  | askCommand : Prints o (.ask .command) (.prompt "> ")
  | askContinuation : Prints o (.ask .continuation) (.prompt
      "Maximum instruction count reached. Do you want to continue execution? (y/n): ")
  | noCommand : Prints o .noCommand (.printed "Invalid command. Please enter 's', 'a', or 'q'.\n")
  | textDump {s : Snapshot} {text : String} (format : o.dumpFormat = .text)
      (dumped : s.text = .ok text) : Prints o (.dump s text) (.printed (text ++ "\n"))
  | jsonDump {s : Snapshot} {text : String} (format : o.dumpFormat = .json)
      (dumped : s.json = .ok text) : Prints o (.dump s text) (.printed (text ++ "\n"))
  | terminated : Prints o .terminated (.printed "Program Terminated\n")
  | faulted (fault : Fault) : Prints o (.faulted fault)
      (.printed ("Fault (" ++ fault.kind.label ++ "): " ++ fault.message ++ "\n"))
  | trace (text : String) : Prints o (.trace text) (.printed ("Trace:\n" ++ text ++ "\n"))

theorem Prints.of_dump {s : Snapshot} {text : String} (h : dump o s = .ok text) :
    Prints o (.dump s text) (.printed (text ++ "\n")) := by
  cases hformat : o.dumpFormat with
  | text =>
    simp only [dump, hformat] at h
    exact .textDump hformat h
  | json =>
    simp only [dump, hformat] at h
    exact .jsonDump hformat h

theorem Prints.outputs_eq {u : Utterance} {output : Output} (h : Prints o u output) :
    outputs u = [output] := by
  cases h <;> rfl

/-- No other utterance is worded as the end of the program is. -/
theorem Prints.eq_terminated {u : Utterance} (h : Prints o u (.printed "Program Terminated\n")) :
    u = .terminated := by
  generalize houtput : Output.printed "Program Terminated\n" = output at h
  cases h with
  | terminated => rfl
  | commands => simp at houtput
  | noCommand => simp at houtput
  | textDump _ dumped =>
    obtain ⟨cs, hdump⟩ := Snapshot.head_text dumped
    have htexts := congrArg String.toList (Output.printed.inj houtput)
    simp [hdump] at htexts
  | jsonDump _ dumped =>
    obtain ⟨cs, hdump⟩ := Snapshot.head_json dumped
    have htexts := congrArg String.toList (Output.printed.inj houtput)
    simp [hdump] at htexts
  | faulted fault =>
    have htexts := congrArg String.toList (Output.printed.inj houtput)
    simp at htexts
  | trace text =>
    have htexts := congrArg String.toList (Output.printed.inj houtput)
    simp at htexts
  | _ => cases houtput

/-! ### A sequence of utterances -/

/-- Whether every utterance puts a text on the screen. -/
def Worded (o : Options) (said : List Utterance) : Prop := ∀ u ∈ said, ∃ output, Prints o u output

theorem Worded.nil : Worded o [] := fun _ hu => absurd hu List.not_mem_nil

theorem Worded.append {later : List Utterance} (h : Worded o said) (hlater : Worded o later) :
    Worded o (said ++ later) := by
  intro u hu
  rcases List.mem_append.1 hu with hu | hu
  · exact h u hu
  · exact hlater u hu

theorem Worded.of_prints {u : Utterance} {output : Output} (h : Prints o u output) :
    Worded o [u] := by
  intro v hv
  rw [List.mem_singleton.1 hv]
  exact ⟨output, h⟩

/-- The screen holds one text for each utterance. -/
theorem Worded.prints_screen (h : Worded o said) : List.Forall₂ (Prints o) said (screen said) := by
  induction said with
  | nil => exact .nil
  | cons u said ih =>
    obtain ⟨output, hprints⟩ := h u List.mem_cons_self
    have hscreen : screen (u :: said) = output :: screen said := by
      rw [screen, List.flatMap_cons, hprints.outputs_eq]
      rfl
    rw [hscreen]
    exact .cons hprints (ih fun v hv => h v (List.mem_cons_of_mem u hv))

theorem Worded.terminated_mem_iff (h : Worded o said) :
    .printed "Program Terminated\n" ∈ screen said ↔ .terminated ∈ said := by
  rw [screen, List.mem_flatMap]
  constructor
  · rintro ⟨u, hu, hmem⟩
    obtain ⟨output, hprints⟩ := h u hu
    rw [hprints.outputs_eq, List.mem_singleton] at hmem
    subst hmem
    rwa [← hprints.eq_terminated]
  · intro hmem
    exact ⟨_, hmem, List.mem_singleton.2 rfl⟩

/-- The text of the last utterance is the last on the screen. -/
theorem getLast?_screen {u : Utterance} {output : Output} (hlast : said.getLast? = some u)
    (h : Prints o u output) : (screen said).getLast? = some output := by
  obtain ⟨before, rfl⟩ := List.getLast?_eq_some_iff.1 hlast
  rw [screen, List.flatMap_append, List.flatMap_cons, List.flatMap_nil, h.outputs_eq]
  simp

theorem worded_prompt : Worded o prompt :=
  (Worded.of_prints .commands).append (.of_prints .askCommand)

theorem Offers.worded {shown : List Snapshot} (h : Offers o shown said) : Worded o said := by
  induction h with
  | nil => exact .nil
  | cons dumped _ ih =>
    exact (Worded.of_prints (.of_dump dumped)).append
      ((Worded.of_prints .askContinuation).append ih)

theorem Call.worded {script rest : List Reply} {request : Execution}
    (h : Call o m script request said rest) : Worded o said := by
  cases h with
  | intro _ _ offers dumped => exact offers.worded.append (.of_prints (.of_dump dumped))

theorem worded_farewell (o : Options) (m : Machine) : Worded o (farewell o m) := by
  unfold farewell
  split
  · exact .of_prints (.trace _)
  · exact .nil

/-! ### Dialogues -/

theorem Dialogue.worded {script : List Reply} {calls : List Execution} {ending : Ending}
    (h : Dialogue o m script calls said last ending) : Worded o said := by
  induction h with
  | endOfInput => exact worded_prompt
  | quit => exact worded_prompt
  | brokenOff => exact worded_prompt
  | brokenRun _ _ offers => exact worded_prompt.append offers.worded
  | refused _ _ ih => exact worded_prompt.append ((Worded.of_prints .noCommand).append ih)
  | halted call => exact worded_prompt.append (call.worded.append (.of_prints .terminated))
  | faulted call => exact worded_prompt.append (call.worded.append (.of_prints (.faulted _)))
  | carriedOut call _ _ ih => exact worded_prompt.append (call.worded.append ih)

/-- What stands on the screen after what a dialogue has said, which has left a machine behind: a
text for each utterance, and what the last of them tells about the machine. -/
structure Shows (o : Options) (last : Machine) (said : List Utterance) (screen : List Output) :
    Prop where
  prints : List.Forall₂ (Prints o) said screen
  terminated_mem_iff : .printed "Program Terminated\n" ∈ screen ↔ last.state = .halted
  of_halted : last.state = .halted → screen.getLast? = some (.printed "Program Terminated\n")
  of_faulted : last.state = .faulted → ∃ fault, last.fault = some fault ∧
    screen.getLast? =
      some (.printed ("Fault (" ++ fault.kind.label ++ "): " ++ fault.message ++ "\n"))

/-- **The words on the screen tell how the machine was left.** -/
theorem Dialogue.shows {script : List Reply} {calls : List Execution} {ending : Ending}
    (h : Dialogue o m script calls said last ending) (hm : m.state.isTerminal = false) :
    Shows o last said (screen said) := by
  obtain ⟨-, hfaulted, hterminated, hhalted⟩ := (h.ends hm).tells
  refine ⟨h.worded.prints_screen, h.worded.terminated_mem_iff.trans hterminated, fun hstate => ?_,
    fun hstate => ?_⟩
  · exact getLast?_screen (hhalted hstate).2 (.terminated (o := o))
  · obtain ⟨fault, hfault, hlast⟩ := hfaulted hstate
    exact ⟨fault, hfault, getLast?_screen hlast (.faulted (o := o) fault)⟩

end Session

end Accumulator
