import Accumulator.Proofs.BoundedArray
import Accumulator.Proofs.Programmed

/-!
# Loading and resetting

A `Request` is anything that can be asked of a machine, `respond` is what it comes to, and `undergo`
is the machine after a history of requests.

`accepted size history` are the words that were loaded last in a history, as far as a memory of the
size had room for them.  A machine keeps just these as its program (`program_undergo`), and no
request changes the size of its memory, so resetting it cannot fail.

A machine is loaded and reset as if it were new (`load_forgets_history`): a program without room is
refused and leaves the machine as it was; any other program makes of the machine what it makes of a
new one; and resetting loads the last accepted program again.
-/

namespace Accumulator

/-- What can be asked of a machine. -/
inductive Request
  | load (program : List Word)
  | reset
  /-- To execute instructions. -/
  | execute (request : Execution)
  /-- To have a word put at an address, by hand. -/
  | write (address : Int) (word : Word)
  | clearMemory
  | setNumber (value : Int) (register : NumberRegister)
  | setFlag (value : Bool) (register : FlagRegister)
  | declare (name : String)

/-- The words loaded last, `loaded` before a request; a memory of the size has room for no more
words than it has cells. -/
def Request.accept (size : Int) (loaded : List Word) : Request → List Word
  | load program => if program.length ≤ size then program else loaded
  | _ => loaded

/-- The words loaded last in a history, none if nothing was loaded in it. -/
def Request.accepted (size : Int) (history : List Request) : List Word :=
  history.foldl (accept size) []

/-- A report with its answer replaced by another one, whether or not it is a failure. -/
def Report.answering {ε α δ β : Type} (report : Report ε α) (f : Except ε α → Except δ β) :
    Report δ β :=
  ⟨report.machine, f report.answer, report.events⟩

namespace Machine

variable {m : Machine}

/-! ### Requests -/

/-- What a request comes to.  Executing instructions answers a state, and all else is done without
an answer. -/
def respond (m : Machine) : Request → Report Failure (Option State)
  | .load program => (m.load program).answering fun answer => answer.map fun _ => none
  | .reset => m.reset.answering fun answer => answer.map fun _ => none
  | .execute request =>
    (m.perform request).answering fun answer => (answer.map some).mapError .overlong
  | .write address word =>
    match m.write address word with
    | .error failure => ⟨m, .error failure, #[]⟩
    | .ok written => ⟨written, .ok none, #[]⟩
  | .clearMemory => ⟨m.clearMemory, .ok none, #[]⟩
  | .setNumber value register => ⟨m.setNumber value register, .ok none, #[]⟩
  | .setFlag value register => ⟨m.setFlag value register, .ok none, #[]⟩
  | .declare name => (m.declare name).answering fun answer => answer.map fun _ => none

/-- The machine after a history of requests. -/
def undergo (m : Machine) (history : List Request) : Machine :=
  history.foldl (fun m request => (m.respond request).machine) m

theorem reachable_respond (hm : Reachable m) (request : Request) :
    Reachable (m.respond request).machine := by
  cases request with
  | load program => exact hm.load program
  | reset => exact hm.reset
  | execute request => exact hm.perform request
  | write address word =>
    rw [respond]
    split
    · exact hm
    · next hwrite => exact hm.write hwrite
  | clearMemory => exact hm.clearMemory
  | setNumber value register => exact hm.setNumber value register
  | setFlag value register => exact hm.setFlag value register
  | declare name => exact hm.declare name

theorem reachable_undergo (hm : Reachable m) (history : List Request) :
    Reachable (m.undergo history) := by
  induction history generalizing m with
  | nil => exact hm
  | cons request history ih => exact ih (reachable_respond hm request)

/-! ### What requests leave alone -/

/-- A program without room is refused, and nothing is changed. -/
theorem load_of_length_gt {program : List Word} (h : m.memory.size < program.length) :
    m.load program =
      ⟨m, .error (.ofCause (.programTooLarge program.length m.memory.size)), #[]⟩ := by
  have hload : (Memory.blank m.memory.size).load program =
      .error (.ofCause (.programTooLarge program.length m.memory.size)) :=
    dif_neg (Int.not_le.2 h)
  rw [load, hload]

/-- A request to execute instructions changes neither the program nor the size of memory, nor
whether the machine is traced. -/
theorem kept_perform (m : Machine) (request : Execution) :
    (m.perform request).machine.program = m.program ∧
      (m.perform request).machine.memory.size = m.memory.size ∧
      (m.perform request).machine.tracing = m.tracing :=
  perform_induction
    (P := fun n => n.program = m.program ∧ n.memory.size = m.memory.size ∧ n.tracing = m.tracing)
    (fun n h => ⟨n.settings_step.2.1.trans h.1, n.size_step.trans h.2.1,
      n.settings_step.2.2.trans h.2.2⟩)
    (fun _ h _ => h) ⟨rfl, rfl, rfl⟩ request

/-- Only an accepted program replaces the program of a machine. -/
theorem kept_respond (m : Machine) (request : Request) :
    (m.respond request).machine.program = request.accept m.memory.size m.program ∧
      (m.respond request).machine.memory.size = m.memory.size ∧
      (m.respond request).machine.tracing = m.tracing := by
  cases request with
  | load program =>
    rw [Request.accept]
    split
    · next hfits =>
      obtain ⟨memory, hload, hmachine⟩ := of_load (answer_load hfits)
      exact ⟨congrArg Machine.program hmachine,
        (congrArg (·.memory.size) hmachine).trans (Memory.size_load hload),
        congrArg (·.tracing) hmachine⟩
    · next hfits =>
      rw [respond, Report.answering, load_of_length_gt (Int.not_le.1 hfits)]
      exact ⟨rfl, rfl, rfl⟩
  | reset =>
    rw [respond, Report.answering, reset]
    split
    · exact ⟨rfl, rfl, rfl⟩
    · next memory hload =>
      have hsize := Memory.size_load hload
      exact ⟨rfl, hsize, rfl⟩
  | execute request => exact m.kept_perform request
  | write address word =>
    rw [respond]
    split
    · exact ⟨rfl, rfl, rfl⟩
    · next hwrite =>
      obtain ⟨memory, hmemory, hn⟩ := Core.bind_eq_ok hwrite
      obtain rfl := Except.ok.inj hn
      exact ⟨rfl, Memory.size_write hmemory, rfl⟩
  | clearMemory => exact ⟨rfl, rfl, rfl⟩
  | setNumber value register => exact ⟨rfl, rfl, rfl⟩
  | setFlag value register => exact ⟨rfl, rfl, rfl⟩
  | declare name =>
    rw [respond, Report.answering, declare]
    split
    · exact ⟨rfl, rfl, rfl⟩
    · exact ⟨rfl, rfl, rfl⟩

/-- **The program of a machine is what was loaded last.** -/
theorem program_undergo (m : Machine) (history : List Request) :
    (m.undergo history).program = history.foldl (Request.accept m.memory.size) m.program ∧
      (m.undergo history).memory.size = m.memory.size := by
  induction history generalizing m with
  | nil => exact ⟨rfl, rfl⟩
  | cons request history ih =>
    obtain ⟨hprogram, hsize, -⟩ := m.kept_respond request
    obtain ⟨hlater, hlast⟩ := ih (m.respond request).machine
    rw [hprogram, hsize] at hlater
    exact ⟨hlater, hlast.trans hsize⟩

/-- What was loaded last had room. -/
theorem length_accept_le {size : Int} {loaded : List Word} (h : (loaded.length : Int) ≤ size)
    (request : Request) : ((request.accept size loaded).length : Int) ≤ size := by
  cases request with
  | load program =>
    rw [Request.accept]
    split
    · next hfits => exact hfits
    · exact h
  | _ => exact h

theorem length_accepted_le {size : Int} (h : 0 ≤ size) (history : List Request) :
    ((Request.accepted size history).length : Int) ≤ size := by
  have hfold : ∀ loaded : List Word, (loaded.length : Int) ≤ size →
      ((history.foldl (Request.accept size) loaded).length : Int) ≤ size := by
    intro loaded hloaded
    induction history generalizing loaded with
    | nil => exact hloaded
    | cons request history ih => exact ih _ (length_accept_le hloaded request)
  exact hfold [] h

/-! ### Loading -/

/-- Of two machines with symbol tables fitted to memories of one size, the same program makes the
same machine, but for their settings. -/
theorem machine_load_eq {n : Machine} (hm : m.Fitted) (hn : n.Fitted)
    (hsize : m.memory.size = n.memory.size) {program : List Word}
    (h : program.length ≤ m.memory.size) :
    (m.load program).machine = { (n.load program).machine with
      batchSize := m.batchSize
      batchSize_pos := m.batchSize_pos
      tracing := m.tracing } := by
  obtain ⟨memory, hload, hmachine⟩ := of_load (answer_load h)
  obtain ⟨other, hload', hmachine'⟩ := of_load (answer_load (hsize ▸ h))
  -- both put the program into fresh memory and begin with a fresh symbol table
  rw [← hsize, hload] at hload'
  obtain rfl := Except.ok.inj hload'
  have hsymbols : m.symbols.reset = n.symbols.reset := by
    rw [SymbolTable.reset, SymbolTable.reset, hm.dataStart, hn.dataStart, hm.memorySize,
      hn.memorySize, hsize]
  rw [hmachine, hmachine', rewind, rewind]
  dsimp only
  rw [hsymbols]

theorem size_new {batchSize size room : Int} (h : Machine.new batchSize size room = .ok m) :
    m.memory.size = size ∧ m.program = [] := by
  unfold Machine.new at h
  split at h
  · cases h
  · split at h
    · cases h
    · obtain rfl := Except.ok.inj h
      exact ⟨rfl, rfl⟩

/-! ### Fresh machines -/

/-- The machines that have just been made, or been given a program anew. -/
inductive Fresh : Machine → Prop
  | new {batchSize memorySize room : Int} {m : Machine}
      (made : Machine.new batchSize memorySize room = .ok m) : Fresh m
  | load {m : Machine} {program : List Word} (accepted : (m.load program).answer = .ok ()) :
      Fresh (m.load program).machine
  | reset {m : Machine} (accepted : m.reset.answer = .ok ()) : Fresh m.reset.machine

/-- A fresh machine stands before its first instruction. -/
theorem Fresh.rewound (h : m.Fresh) :
    m.registers = .initial ∧ m.state = .ready ∧ m.fault = none ∧ m.trace = #[] := by
  cases h with
  | new h =>
    unfold Machine.new at h
    split at h
    · cases h
    · split at h
      · cases h
      · obtain rfl := Except.ok.inj h
        exact ⟨rfl, rfl, rfl, rfl⟩
  | load h =>
    obtain ⟨memory, -, hmachine⟩ := of_load h
    rw [hmachine]
    exact ⟨rfl, rfl, rfl, rfl⟩
  | @reset m h =>
    unfold Machine.reset at h ⊢
    split at h
    · cases h
    · exact ⟨rfl, rfl, rfl, rfl⟩

/-- **A machine is loaded and reset as if it were new.**  A machine, traced or not, has undergone
any history of requests.  A program that is longer than memory is refused, the fault saying so, and
the machine is left as it was.  Any other program is accepted, and makes of the machine what it
makes of a new one with a memory of the same size, but for the batch size and whether it is traced.
Resetting the machine never fails, and makes of it what loading the last accepted program would. -/
theorem load_forgets_history {batchSize size room : Int} {start : Machine}
    (hstart : Machine.new batchSize size room = .ok start) (hsize : 0 ≤ size) (traced : Bool)
    (history : List Request) :
    let m := (start.setTracing traced).undergo history
    (∀ program : List Word, size < program.length →
      m.load program = ⟨m, .error (.ofCause (.programTooLarge program.length size)), #[]⟩ ∧
        (isIndex program.length → (m.load program).answer =
          .error (.fault { cause := .programTooLarge program.length size }))) ∧
    (∀ program : List Word, program.length ≤ size → (m.load program).answer = .ok () ∧
      ∀ (batch otherRoom : Int) (fresh : Machine), Machine.new batch size otherRoom = .ok fresh →
        (m.load program).machine = { (fresh.load program).machine with
          batchSize := m.batchSize
          batchSize_pos := m.batchSize_pos
          tracing := m.tracing }) ∧
    m.reset.answer = .ok () ∧
      m.reset.machine = (m.load (Request.accepted size history)).machine := by
  intro m
  obtain ⟨hnewSize, hnewProgram⟩ := size_new hstart
  have hreachable : Reachable m :=
    reachable_undergo ((Reachable.new hstart).setTracing traced) history
  obtain ⟨hprogram, hmsize⟩ : m.program = Request.accepted size history ∧ m.memory.size = size := by
    obtain ⟨hprogram, hmsize⟩ := (start.setTracing traced).program_undergo history
    change m.program = history.foldl (Request.accept start.memory.size) start.program at hprogram
    rw [hnewSize, hnewProgram] at hprogram
    exact ⟨hprogram, hmsize.trans hnewSize⟩
  have hlength := length_accepted_le hsize history
  refine ⟨fun program hgt => ?_,
    fun program hfits => ⟨?_, fun batch otherRoom fresh hfresh => ?_⟩, ?_, ?_⟩
  · have hload := load_of_length_gt (m := m) (hmsize ▸ hgt)
    rw [hmsize] at hload
    refine ⟨hload, fun hindex => ?_⟩
    rw [hload]
    refine congrArg Except.error (Failure.ofCause_of_fits fun n hn => ?_)
    have hroom := hreachable.fitted.size_le
    rw [hmsize] at hroom
    obtain rfl | rfl : n = program.length ∨ n = size := by simpa [Cause.numerals] using hn
    · exact (Memory.fits_of_isIndex hindex).1
    · exact fits_of_le_maxIndex hsize hroom
  · exact answer_load (hmsize.symm ▸ hfits)
  · exact machine_load_eq hreachable.fitted (fitted_new hfresh)
      (hmsize.trans (size_new hfresh).1.symm) (hmsize.symm ▸ hfits)
  · exact answer_reset (by rw [hprogram, hmsize]; exact hlength)
  · rw [← hprogram]
    exact reset_eq_load (answer_load (by rw [hprogram, hmsize]; exact hlength))

/-- A history in which a program is loaded and begun, and then every trace of it is wiped out by
hand. -/
def wiped : List Request := [
  .load [.text "LDI 5", .text "HLT"],
  .execute .step,
  .write 0 (.text "JMP 0"),
  .load (List.replicate 3 (.text "HLT")),
  .setNumber 7 .programCounter,
  .declare "X",
  .clearMemory]

theorem load_forgets_history_wiped :
    let start := blank 1 Nat.one_pos 2
    let m := (start.setTracing true).undergo wiped
    (Machine.new 1 2 = .ok start ∧ (0 : Int) ≤ 2) ∧ m.memory.read 0 = .ok .empty ∧
      (m.load (List.replicate 3 (.text "HLT"))).machine = m ∧
      (m.load (List.replicate 3 (.text "HLT"))).answer =
        .error (.fault { cause := .programTooLarge 3 2 }) ∧
      m.reset.answer = .ok () ∧
      m.reset.machine = (m.load [.text "LDI 5", .text "HLT"]).machine := by
  intro start m
  have hstart : Machine.new 1 2 = .ok start := rfl
  have hsize : (0 : Int) ≤ 2 := by decide
  obtain ⟨hrefused, -, hanswer, hreset⟩ := load_forgets_history hstart hsize true wiped
  obtain ⟨hload, hfault⟩ := hrefused (List.replicate 3 (.text "HLT")) (by decide)
  have hwiped : m.memory.read 0 = .ok .empty := Memory.read_eq_cells.2 (by decide +kernel)
  have haccepted : Request.accepted 2 wiped = [.text "LDI 5", .text "HLT"] := by decide +kernel
  rw [haccepted] at hreset
  refine ⟨⟨hstart, hsize⟩, hwiped, ?_, hfault (by decide), hanswer, hreset⟩
  rw [hload]

end Machine

end Accumulator
