import Accumulator.Proofs.Programmed

/-!
# Histories

A `Deed` is an instruction that was executed, with the core it was fetched from and the core it
made.  `Leads c history d` says that the deeds of a history lead from one core to another; the
latest comes first.

Whatever a machine is asked to execute, a history leads to the core that it ends with
(`exists_leads_after`).  There is no other: execution is deterministic, and every instruction is
counted, so that a history is as long as the counter says (`Leads.unique`).
-/

namespace Accumulator

namespace Core

/-- An instruction that was executed. -/
@[ext] structure Deed where
  before : Core
  instruction : Instruction
  after : Core
  fetched : before.fetch = .ok instruction
  executed : before.execute instruction = .ok after

/-- Whether the deeds of a history, the latest first, lead from a core to another. -/
inductive Leads (c : Core) : List Deed → Core → Prop
  | start : Leads c [] c
  | next {history : List Deed} {deed : Deed} (earlier : Leads c history deed.before) :
      Leads c (deed :: history) deed.after

variable {c d e : Core} {history other : List Deed}

/-- The counter counts the deeds. -/
theorem Leads.executed (h : Leads c history d) :
    d.registers.executed = c.registers.executed + history.length := by
  induction h with
  | start => simp
  | @next history deed _ ih =>
    have hcount := (registers_execute deed.executed).1
    rw [hcount, ih, List.length_cons]
    omega

/-- What a core does is determined. -/
theorem Deed.eq_of_before_eq {deed other : Deed} (h : deed.before = other.before) :
    deed = other := by
  have hinstruction : deed.instruction = other.instruction := by
    have hfetched := deed.fetched
    rw [h, other.fetched] at hfetched
    exact (Except.ok.inj hfetched).symm
  have hafter : deed.after = other.after := by
    have hexecuted := deed.executed
    rw [h, hinstruction, other.executed] at hexecuted
    exact (Except.ok.inj hexecuted).symm
  exact Deed.ext h hinstruction hafter

/-- Two histories of one length are the same. -/
theorem Leads.eq_of_length_eq (h : Leads c history d) (hother : Leads c other e)
    (hlength : other.length = history.length) : other = history ∧ e = d := by
  -- both histories end with a deed on the same core, and such a deed is determined
  induction h generalizing other e with
  | start =>
    obtain rfl := List.eq_nil_of_length_eq_zero hlength
    cases hother
    exact ⟨rfl, rfl⟩
  | next _ ih =>
    cases hother with
    | start => cases hlength
    | next hbefore =>
      obtain ⟨rfl, heq⟩ := ih hbefore (Nat.succ.inj hlength)
      obtain rfl := Deed.eq_of_before_eq heq
      exact ⟨rfl, rfl⟩

/-- **Only one history leads from a core to another.** -/
theorem Leads.unique (h : Leads c history d) (hother : Leads c other d) : other = history := by
  have hcount := h.executed
  rw [hother.executed] at hcount
  exact (h.eq_of_length_eq hother (by omega)).1

/-- A history can be gone on with. -/
theorem Leads.append {newer : List Deed} (h : Leads c history d)
    (hlater : Leads d newer e) : Leads c (newer ++ history) e := by
  induction hlater with
  | start => exact h
  | next _ ih => exact .next ih

/-- What was done before a deed led to the core that it was done on. -/
theorem Leads.before {newer older : List Deed} {deed : Deed}
    (h : Leads c (newer ++ deed :: older) d) : Leads c older deed.before := by
  induction newer generalizing d with
  | nil =>
    cases h with
    | next hearlier => exact hearlier
  | cons latest newer ih =>
    cases h with
    | next hearlier => exact ih hearlier

end Core

open Accumulator.Core (Deed Leads)

namespace Machine

variable {m : Machine}

/-- A step that goes on adds the deed of its instruction to a history. -/
theorem leads_stepped_succ {c : Core} {history : List Deed} {i : Instruction} {n : Nat}
    (h : Leads c history (m.stepped n).toCore) (hgoes : (m.stepped n).goesOn)
    (hfetch : (m.stepped n).fetch = .ok i) :
    ∃ deed : Deed, deed.before = (m.stepped n).toCore ∧ deed.instruction = i ∧
      deed.after = (m.stepped (n + 1)).toCore ∧
        Leads c (deed :: history) (m.stepped (n + 1)).toCore := by
  obtain ⟨j, hj, hexecute⟩ := execute_of_goesOn hgoes
  obtain rfl := Except.ok.inj (hj.symm.trans hfetch)
  rw [stepped_succ]
  exact ⟨⟨_, j, _, hfetch, hexecute⟩, rfl, rfl, rfl, .next h⟩

/-- Steps that are asked for one after another are steps in a row. -/
theorem after_replicate_step (m : Machine) (n : Nat) :
    m.after (List.replicate n .step) = m.stepped n := by
  induction n generalizing m with
  | zero => rfl
  | succ n ih => exact ih m.step.machine

/-- A history goes on with a step, or stays as it was. -/
theorem exists_leads_step {c : Core} (h : ∃ history, Leads c history m.toCore) :
    ∃ history, Leads c history m.step.machine.toCore := by
  obtain ⟨history, hleads⟩ := h
  rcases m.toCore_step with hsame | ⟨i, hfetch, hexecute⟩
  · rw [hsame]
    exact ⟨history, hleads⟩
  · exact ⟨⟨m.toCore, i, m.step.machine.toCore, hfetch, hexecute⟩ :: history, .next hleads⟩

/-- **A history leads to every core that execution comes to.** -/
theorem exists_leads_after (m : Machine) (requests : List Execution) :
    ∃ history, Leads m.toCore history (m.after requests).toCore := by
  let P : Machine → Prop := fun n => ∃ history, Leads m.toCore history n.toCore
  have hperform : ∀ n request, P n → P (n.perform request).machine := fun n request hn =>
    perform_induction (P := P) (fun _ h => exists_leads_step h) (fun _ h _ => h) hn request
  exact after_of_forall_perform (P := P) hperform ⟨[], .start⟩ requests

end Machine

end Accumulator
