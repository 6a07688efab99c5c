import Accumulator.Proofs.History
import Accumulator.Proofs.Loading
import Accumulator.Proofs.Lockstep

/-!
# Flags

`lastResult history` is the exact result of the last addition or subtraction in a history.  From a
machine that has just been given its program on, the two flags say whether this result is zero and
whether it lies outside the signed 32-bit range, and neither is set before there is one
(`flags_reflect_last_result`).

One instruction keeps `Reflects` because it either is such an addition or subtraction, which sets
both flags, or touches neither (`registers_execute_arithmetic`, `flags_execute`).
-/

namespace Accumulator

/-- The exact result of an arithmetic instruction. -/
def Instruction.result? (r : Registers) : Instruction → Option Int
  | add => some (r.accumulator + r.data)
  | subtract => some (r.accumulator - r.data)
  | _ => none

/-- Whether the flags are those of a result, or not set if there is none. -/
def Registers.Reflects (r : Registers) : Option Int → Prop
  | none => r.zero = false ∧ r.overflow = false
  | some n =>
    (r.zero = true ↔ n = 0) ∧ (r.overflow = true ↔ n < -2147483648 ∨ 2147483647 < n)

/-- Zero is no overflow. -/
theorem Registers.Reflects.not_both {r : Registers} {result? : Option Int}
    (h : r.Reflects result?) : ¬ (r.zero = true ∧ r.overflow = true) := by
  rintro ⟨hzero, hoverflow⟩
  cases result? with
  | none =>
    rw [h.1] at hzero
    cases hzero
  | some n =>
    have hn := h.1.1 hzero
    have hrange := h.2.1 hoverflow
    omega

/-- Registers with the same flags reflect the same results. -/
theorem Registers.Reflects.of_eq {r s : Registers} {result? : Option Int}
    (h : r.Reflects result?) (hflags : s.zero = r.zero ∧ s.overflow = r.overflow) :
    s.Reflects result? := by
  cases result? with
  | none => exact ⟨hflags.1.trans h.1, hflags.2.trans h.2⟩
  | some n =>
    rw [Reflects, hflags.1, hflags.2]
    exact h

theorem Registers.reflects_accept (r : Registers) (n : Int) :
    (r.accept (.ofValue n)).Reflects (some n) := by
  constructor
  · show (n == 0) = true ↔ n = 0
    exact beq_iff_eq
  · exact not_inInt32_iff

namespace Core

variable {c d : Core} {history : List Deed}

/-- The exact result of the last arithmetic instruction in a history. -/
def lastResult : List Deed → Option Int
  | [] => none
  | deed :: history => (deed.instruction.result? deed.before.registers).or (lastResult history)

/-! ### What instructions do to the flags -/

/-- An arithmetic instruction leaves its exact result in the accumulator and sets both flags. -/
theorem registers_execute_arithmetic {i : Instruction} {n : Int} (h : c.execute i = .ok d)
    (hresult : i.result? c.registers = some n) :
    d.registers.accumulator = n ∧ d.registers.Reflects (some n) := by
  cases i with
  | add =>
    obtain rfl := Except.ok.inj h
    obtain rfl := Option.some.inj hresult
    exact ⟨rfl, c.registers.reflects_accept _⟩
  | subtract =>
    obtain rfl := Except.ok.inj h
    obtain rfl := Option.some.inj hresult
    exact ⟨rfl, c.registers.reflects_accept _⟩
  | declare | load | loadImmediate | store | exchange | jump | jumpIfZero | jumpIfOverflow | halt =>
    cases hresult

/-- Other instructions leave the flags alone. -/
theorem flags_execute {i : Instruction} (h : c.execute i = .ok d)
    (hresult : i.result? c.registers = none) :
    d.registers.zero = c.registers.zero ∧ d.registers.overflow = c.registers.overflow := by
  cases i with
  | declare name =>
    obtain ⟨symbols, -, rfl⟩ := of_execute_declare h
    exact ⟨rfl, rfl⟩
  | load name =>
    obtain ⟨address, n, -, -, rfl⟩ := of_execute_load h
    exact ⟨rfl, rfl⟩
  | store name =>
    obtain ⟨address, memory, -, -, -, rfl⟩ := of_execute_store h
    exact ⟨rfl, rfl⟩
  | jumpIfZero target =>
    obtain rfl := Except.ok.inj h
    split <;> exact ⟨rfl, rfl⟩
  | jumpIfOverflow target =>
    obtain rfl := Except.ok.inj h
    split <;> exact ⟨rfl, rfl⟩
  | loadImmediate | exchange | jump | halt =>
    obtain rfl := Except.ok.inj h
    exact ⟨rfl, rfl⟩
  | add => cases hresult
  | subtract => cases hresult

/-! ### Histories -/

/-- One more instruction keeps the flags those of the last result. -/
theorem reflects_next {deed : Deed} (h : deed.before.registers.Reflects (lastResult history)) :
    deed.after.registers.Reflects (lastResult (deed :: history)) := by
  rw [lastResult]
  cases hresult : deed.instruction.result? deed.before.registers with
  | none => exact h.of_eq (flags_execute deed.executed hresult)
  | some n => exact (registers_execute_arithmetic deed.executed hresult).2

/-- **The flags are those of the last result**, after any history that begins with none set. -/
theorem Leads.reflects (hc : c.registers.Reflects none) (h : Leads c history d) :
    d.registers.Reflects (lastResult history) := by
  induction h with
  | start => exact hc
  | next _ ih => exact reflects_next ih

end Core

open Accumulator.Core (Deed Leads lastResult)

namespace Machine

variable {m : Machine}

/-- What is shown on the way is the machine after some of its steps, awaiting the word to
continue. -/
theorem exists_of_mem_shown {request : Execution} {snapshot : Snapshot}
    (h : snapshot ∈ m.shown request) :
    ∃ k, snapshot = ((m.stepped k).inState .awaitingContinue).snapshot := by
  cases request with
  | step => exact absurd h (Array.not_mem_empty _)
  | run answers asked =>
    cases hm : m.state.isTerminal with
    | true =>
      rw [shown, run_of_isTerminal hm] at h
      exact absurd h (Array.not_mem_empty _)
    | false =>
      cases answers with
      | none => exact absurd h (Array.not_mem_empty _)
      | some answers =>
        rw [shown, (followsSteps_run hm answers asked).shown, offered, List.mem_toArray,
          List.mem_map] at h
        obtain ⟨j, -, hj⟩ := h
        exact ⟨_, hj.symm⟩

/-- **The flags reflect exactly the last arithmetic instruction.**  However a machine that has just
been given its program is stepped and run, there is one history of the instructions that it has
executed.  Wherever a history leads from the beginning, the zero flag says whether the exact result
of the last addition or subtraction in it is zero, and the overflow flag whether the result lies
outside the signed 32-bit range; neither is set if there was none, and never are both.  The
accumulator is the exact result right after the instruction.  What is shown on the way has the flags
of such a point, further on in the history. -/
theorem flags_reflect_last_result {start : Machine} (hstart : start.Fresh)
    (requests : List Execution) :
    let now := start.after requests
    ∃ history : List Deed,
      (Leads start.toCore history now.toCore ∧ now.registers.executed = history.length ∧
        ∀ other, Leads start.toCore other now.toCore → other = history) ∧
      (∀ older core, Leads start.toCore older core →
        core.registers.Reflects (lastResult older) ∧
        ¬ (core.registers.zero = true ∧ core.registers.overflow = true) ∧
        ∀ deed earlier n, older = deed :: earlier →
          deed.instruction.result? deed.before.registers = some n →
            core.registers.accumulator = n) ∧
      ∀ request, ∀ snapshot ∈ now.shown request, ∃ newer core,
        Leads start.toCore (newer ++ history) core ∧
          snapshot.zero = core.registers.zero ∧ snapshot.overflow = core.registers.overflow := by
  intro now
  have hnone : start.registers.Reflects none := by
    rw [hstart.rewound.1]
    exact ⟨rfl, rfl⟩
  obtain ⟨history, hleads⟩ := start.exists_leads_after requests
  have hcount := hleads.executed
  rw [hstart.rewound.1] at hcount
  refine ⟨history, ⟨hleads, ?_, fun other hother => hleads.unique hother⟩, ?_, ?_⟩
  · rw [hcount]
    exact Int.zero_add _
  · intro older core holder
    have hreflects := holder.reflects hnone
    refine ⟨hreflects, hreflects.not_both, ?_⟩
    rintro deed earlier n rfl hresult
    cases holder with
    | next _ => exact (Core.registers_execute_arithmetic deed.executed hresult).1
  · intro request snapshot hshown
    obtain ⟨k, rfl⟩ := exists_of_mem_shown hshown
    obtain ⟨newer, hnewer⟩ := now.exists_leads_after (List.replicate k .step)
    rw [after_replicate_step] at hnewer
    exact ⟨newer, _, hleads.append hnewer, rfl, rfl⟩

/-- A program that adds one to the greatest 32-bit integer and goes on for ever. -/
def overflowing : List Word :=
  [.text "LDI 2147483647", .text "XCH", .text "LDI 1", .text "ADD", .text "JVS 4"]

theorem flags_reflect_last_result_overflowing :
    let start := ((blank 2 Nat.two_pos 8).load overflowing).machine
    let requests : List Execution := [.step, .run (some [true]) none]
    start.Fresh ∧ ∃ history n, Leads start.toCore history (start.after requests).toCore ∧
      lastResult history = some n ∧ (n < -2147483648 ∨ 2147483647 < n) := by
  intro start requests
  have hload : ((blank 2 Nat.two_pos 8).load overflowing).answer = .ok () :=
    answer_load (by decide +kernel)
  have hstart : start.Fresh := .load hload
  have hset : (start.after requests).registers.overflow = true := by decide +kernel
  obtain ⟨history, ⟨hleads, -, -⟩, hreflects, -⟩ := flags_reflect_last_result hstart requests
  obtain ⟨hflags, -⟩ := hreflects history _ hleads
  refine ⟨hstart, history, ?_⟩
  cases hlast : lastResult history with
  | none =>
    rw [hlast] at hflags
    exact absurd hset (by rw [hflags.2]; exact Bool.false_ne_true)
  | some n =>
    rw [hlast] at hflags
    exact ⟨n, hleads, rfl, hflags.2.1 hset⟩

end Machine

end Accumulator
