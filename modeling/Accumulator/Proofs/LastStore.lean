import Accumulator.Proofs.History

/-!
# Variables remember the last store

`lastStored name history` is the accumulator that a name was last stored from since it was last
declared.  Loading the name yields just that, and if there was no such store it yields the integer
in the word that was loaded with the program into the cell of the name (`load_yields_last_store`).
The program may be so long that it reaches into the data cells.

The invariant is `Remembers`: the cell of every name holds the decimal text of what the name was
last stored from, or the word that was loaded there.  A store under another name goes to another
cell, since no two names have the same one.  A declaration hands out a cell that no store has
reached, since it was not handed out before.
-/

namespace Accumulator

open Numeral (decimal fits)

namespace Core

variable {c d : Core} {program : List Word} {history : List Deed} {name : String}

/-- The accumulator that a name was last stored from since it was last declared. -/
def lastStored (name : String) : List Deed → Option Int
  | [] => none
  | deed :: history =>
    match deed.instruction with
    | .declare other => if other = name then none else lastStored name history
    | .store other =>
      if other = name then some deed.before.registers.accumulator else lastStored name history
    | _ => lastStored name history

theorem lastStored_declare {deed : Deed} {other : String} (h : deed.instruction = .declare other) :
    lastStored name (deed :: history) = if other = name then none else lastStored name history := by
  rw [lastStored, h]

theorem lastStored_store {deed : Deed} {other : String} (h : deed.instruction = .store other) :
    lastStored name (deed :: history) =
      if other = name then some deed.before.registers.accumulator
      else lastStored name history := by
  rw [lastStored, h]

theorem lastStored_of_ne {deed : Deed} (hdeclare : ∀ other, deed.instruction ≠ .declare other)
    (hstore : ∀ other, deed.instruction ≠ .store other) :
    lastStored name (deed :: history) = lastStored name history := by
  rw [lastStored]
  split
  · next other h => exact absurd h (hdeclare other)
  · next other h => exact absurd h (hstore other)
  · rfl

/-! ### What instructions do to the cells of names -/

/-- Other instructions than declarations and stores change registers only. -/
theorem kept_of_execute {i : Instruction} (hdeclare : ∀ name, i ≠ .declare name)
    (hstore : ∀ name, i ≠ .store name) (h : c.execute i = .ok d) :
    d.memory = c.memory ∧ d.symbols = c.symbols := by
  cases coreEffect h with
  | declared => exact absurd rfl (hdeclare _)
  | loaded => exact ⟨rfl, rfl⟩
  | stored => exact absurd rfl (hstore _)
  | internal => exact ⟨rfl, rfl⟩

/-- The cell that is handed out next is as it was loaded. -/
theorem Orderly.read_next (hc : c.Orderly program) (h : c.symbols.next < c.symbols.memorySize) :
    c.memory.read c.symbols.next = .ok (loadedWord program c.symbols.next) := by
  have hstart := hc.fitted.dataStart
  have hle := hc.layout.sound.dataStart_le
  rw [hc.fitted.memorySize] at h
  rw [Memory.dataStart] at hstart
  obtain ⟨word, hread⟩ := Memory.exists_read_eq_ok_iff.2 ⟨by omega, h⟩
  rcases hc.layout.cells _ word hread with rfl | ⟨-, hlt, -⟩
  · exact hread
  · exact absurd hlt (Int.lt_irrefl _)

/-! ### The invariant -/

/-- The word in the cell of a name that was last stored from `stored?`, if at all. -/
def recalled (program : List Word) (address : Int) (stored? : Option Int) : Word :=
  match stored? with
  | some n => .text (decimal n)
  | none => loadedWord program address

/-- What the cells of all names hold after a history. -/
structure Remembers (program : List Word) (history : List Deed) (c : Core) : Prop where
  cell : ∀ name address, c.symbols.address? name = some address →
    c.memory.read address = .ok (recalled program address (lastStored name history))
  fits : ∀ name n, lastStored name history = some n → fits n

theorem Remembers.declare {deed : Deed} (hbefore : deed.before.Orderly program)
    (h : Remembers program history deed.before) {other : String}
    (hi : deed.instruction = .declare other) : Remembers program (deed :: history) deed.after := by
  obtain ⟨symbols, hdeclare, hafter⟩ := of_execute_declare (hi ▸ deed.executed)
  have hsymbols : deed.after.symbols = symbols := by rw [hafter]; rfl
  have hmemory : deed.after.memory = deed.before.memory := by rw [hafter]; rfl
  have hroom := (SymbolTable.declare_eq_ok_iff.1 hdeclare).1
  refine ⟨fun name address hbound => ?_, fun name n hn => ?_⟩
  · rw [hsymbols, SymbolTable.address?_of_declare hdeclare] at hbound
    rw [hmemory, lastStored_declare hi]
    split at hbound
    -- the new cell was not handed out before, so that no store has reached it
    · next heq =>
      rw [if_pos heq.symm, ← Option.some.inj hbound]
      exact hbefore.read_next hroom
    · next hne =>
      rw [if_neg fun heq => hne heq.symm]
      exact h.cell name address hbound
  · rw [lastStored_declare hi] at hn
    split at hn
    · cases hn
    · exact h.fits name n hn

theorem Remembers.store {deed : Deed} (hbefore : deed.before.Orderly program)
    (h : Remembers program history deed.before) {other : String}
    (hi : deed.instruction = .store other) : Remembers program (deed :: history) deed.after := by
  obtain ⟨target, memory, htarget, hfits, hwrite, hafter⟩ := of_execute_store (hi ▸ deed.executed)
  have hsymbols : deed.after.symbols = deed.before.symbols := by rw [hafter]; rfl
  have hmemory : deed.after.memory = memory := by rw [hafter]; rfl
  refine ⟨fun name address hbound => ?_, fun name n hn => ?_⟩
  · rw [hsymbols] at hbound
    rw [hmemory, Memory.read_write hwrite, lastStored_store hi]
    by_cases heq : other = name
    · rw [← heq, htarget] at hbound
      rw [if_pos (Option.some.inj hbound).symm, if_pos heq]
      rfl
    · -- two names have two cells
      have hne : address ≠ target := fun hsame =>
        heq (hbefore.layout.sound.distinct other name target htarget (hsame ▸ hbound))
      rw [if_neg hne, if_neg heq]
      exact h.cell name address hbound
  · rw [lastStored_store hi] at hn
    split at hn
    · rw [← Option.some.inj hn]
      exact hfits
    · exact h.fits name n hn

theorem Remembers.next {deed : Deed} (hbefore : deed.before.Orderly program)
    (h : Remembers program history deed.before) :
    Remembers program (deed :: history) deed.after := by
  by_cases hdeclare : ∃ other, deed.instruction = .declare other
  · obtain ⟨other, hi⟩ := hdeclare
    exact h.declare hbefore hi
  · by_cases hstore : ∃ other, deed.instruction = .store other
    · obtain ⟨other, hi⟩ := hstore
      exact h.store hbefore hi
    · have hkept := kept_of_execute (not_exists.1 hdeclare) (not_exists.1 hstore) deed.executed
      have hlast : ∀ name, lastStored name (deed :: history) = lastStored name history :=
        fun name => lastStored_of_ne (not_exists.1 hdeclare) (not_exists.1 hstore)
      refine ⟨fun name address hbound => ?_, fun name n hn => ?_⟩
      · rw [hkept.2] at hbound
        rw [hkept.1, hlast]
        exact h.cell name address hbound
      · rw [hlast] at hn
        exact h.fits name n hn

/-- **The cells of names remember what was stored in them**, after any history that begins with no
name declared. -/
theorem Leads.remembers (hc : c.Orderly program) (hnone : ∀ name, c.symbols.address? name = none)
    (h : Leads c history d) : d.Orderly program ∧ Remembers program history d := by
  induction h with
  | start =>
    refine ⟨hc, fun name address hbound => ?_, fun name n hn => ?_⟩
    · rw [hnone] at hbound
      cases hbound
    · cases hn
  | @next history deed _ ih =>
    exact ⟨ih.1.execute deed.fetched deed.executed, ih.2.next ih.1⟩

/-- What is loaded from a name. -/
theorem Remembers.load {deed : Deed} (h : Remembers program history deed.before)
    (hi : deed.instruction = .load name) :
    ∃ address, deed.before.symbols.address? name = some address ∧
      match lastStored name history with
      | some n => deed.after.registers.accumulator = n
      | none => (loadedWord program address).integer? = some deed.after.registers.accumulator := by
  obtain ⟨address, k, hbound, hload, hafter⟩ := of_execute_load (hi ▸ deed.executed)
  have haccumulator : deed.after.registers.accumulator = k := by rw [hafter]; rfl
  obtain ⟨word, hread, hword⟩ := readInteger_eq_ok_iff.1 hload
  obtain rfl := Except.ok.inj (hread.symm.trans (h.cell name address hbound))
  refine ⟨address, hbound, ?_⟩
  rw [haccumulator]
  cases hlast : lastStored name history with
  | none =>
    rw [hlast] at hword
    exact hword
  | some n =>
    rw [hlast, recalled, Word.integer?, Numeral.read_decimal (h.fits name n hlast)] at hword
    exact (Option.some.inj hword).symm

end Core

open Accumulator.Core (Deed Leads lastStored)

namespace Machine

variable {m : Machine}

/-- A loaded program begins with no instruction executed and no name declared. -/
theorem core_of_load (hm : m.Fitted) {program : List Word}
    (h : (m.load program).answer = .ok ()) :
    (m.load program).machine.toCore.Orderly program ∧
      (m.load program).machine.registers.executed = 0 ∧
        ∀ name, (m.load program).machine.symbols.address? name = none := by
  have hcore := (orderly_load hm h).core
  obtain ⟨memory, -, hmachine⟩ := of_load h
  rw [hmachine] at hcore ⊢
  exact ⟨hcore, rfl, fun _ => rfl⟩

/-- **Loading a variable yields what was last stored in it.**  However a loaded program is stepped
and run, there is one history of the instructions that it has executed.  Wherever a name is loaded
in it, the accumulator becomes what it was when the name was last stored since it was last
declared.  If there was no such store, it becomes the integer in the word that the program has in
the cell of the name, which is zero behind the program. -/
theorem load_yields_last_store (hm : Reachable m) {program : List Word}
    (hload : (m.load program).answer = .ok ()) (requests : List Execution) :
    let loaded := (m.load program).machine
    let later := loaded.after requests
    ∃ history : List Deed,
      (Leads loaded.toCore history later.toCore ∧ later.registers.executed = history.length ∧
        ∀ other, Leads loaded.toCore other later.toCore → other = history) ∧
      ∀ newer deed older name, history = newer ++ deed :: older → deed.instruction = .load name →
        ∃ address, deed.before.symbols.address? name = some address ∧
          match lastStored name older with
          | some n => deed.after.registers.accumulator = n
          | none =>
            (loadedWord program address).integer? = some deed.after.registers.accumulator := by
  intro loaded later
  obtain ⟨horderly, hexecuted, hnone⟩ := core_of_load hm.fitted hload
  obtain ⟨history, hleads⟩ := loaded.exists_leads_after requests
  have hcount := hleads.executed
  rw [hexecuted, Int.zero_add] at hcount
  refine ⟨history, ⟨hleads, hcount, fun other hother => hleads.unique hother⟩, ?_⟩
  intro newer deed older name hsplit hi
  rw [hsplit] at hleads
  exact (hleads.before.remembers horderly hnone).2.load hi

/-- A program that declares the name it has stored in again, and whose last line lies in the cell
that the name has then. -/
def redeclaring : List Word :=
  [.text "DEC X", .text "STR X", .text "DEC X", .text "LDA X"] ++
    List.replicate 125 (.text "") ++ [.text "40"]

theorem load_yields_last_store_redeclared :
    (Reachable small ∧ (small.load redeclaring).answer = .ok ()) ∧
      ((small.load redeclaring).machine.after (List.replicate 4 .step)).registers.accumulator =
        40 := by
  have hsmall : Reachable small := .new (show Machine.new 2 130 = .ok small from rfl)
  have hload : (small.load redeclaring).answer = .ok () := answer_load (by decide +kernel)
  refine ⟨⟨hsmall, hload⟩, ?_⟩
  obtain ⟨history, ⟨-, -, hunique⟩, hyields⟩ :=
    load_yields_last_store hsmall hload (List.replicate 4 .step)
  have hformed : ∀ i : Instruction, i.form.operand = some (.symbol "X") → i.WellFormed := by
    intro i hi operand hoperand
    rw [hi] at hoperand
    obtain rfl := Option.some.inj hoperand
    exact show isName "X" by decide
  have hgoes : ∀ k < 4, ((small.load redeclaring).machine.stepped k).goesOn := by decide +kernel
  have hfetch0 : ((small.load redeclaring).machine.stepped 0).fetch = .ok (.declare "X") :=
    Core.fetch_of_text (hformed _ rfl) (Memory.read_eq_cells.2 (by decide +kernel))
  have hfetch1 : ((small.load redeclaring).machine.stepped 1).fetch = .ok (.store "X") :=
    Core.fetch_of_text (hformed _ rfl) (Memory.read_eq_cells.2 (by decide +kernel))
  have hfetch2 : ((small.load redeclaring).machine.stepped 2).fetch = .ok (.declare "X") :=
    Core.fetch_of_text (hformed _ rfl) (Memory.read_eq_cells.2 (by decide +kernel))
  have hfetch3 : ((small.load redeclaring).machine.stepped 3).fetch = .ok (.load "X") :=
    Core.fetch_of_text (hformed _ rfl) (Memory.read_eq_cells.2 (by decide +kernel))
  have haddress : ((small.load redeclaring).machine.stepped 3).symbols.address? "X" = some 129 := by
    decide +kernel
  rw [after_replicate_step] at hunique ⊢
  generalize (small.load redeclaring).machine = loaded at *
  -- the history of the four steps, with the name declared again after the store
  obtain ⟨first, -, -, -, hleads⟩ :=
    leads_stepped_succ (n := 0) .start (hgoes 0 (by decide)) hfetch0
  obtain ⟨second, -, -, -, hleads⟩ := leads_stepped_succ hleads (hgoes 1 (by decide)) hfetch1
  obtain ⟨third, -, hthird, -, hleads⟩ := leads_stepped_succ hleads (hgoes 2 (by decide)) hfetch2
  obtain ⟨last, hbefore, hlast, hafter, hleads⟩ :=
    leads_stepped_succ hleads (hgoes 3 (by decide)) hfetch3
  have hsplit : history = [] ++ last :: [third, second, first] := (hunique _ hleads).symm
  have hforgotten : lastStored "X" [third, second, first] = none := by
    rw [Core.lastStored_declare hthird, if_pos rfl]
  obtain ⟨address, hbound, hvalue⟩ := hyields [] last _ "X" hsplit hlast
  rw [hforgotten, hafter] at hvalue
  rw [hbefore, haddress] at hbound
  obtain rfl := Option.some.inj hbound
  have hword : (loadedWord redeclaring 129).integer? = some 40 := by decide +kernel
  exact (Option.some.inj (hword.symm.trans hvalue)).symm

end Machine

end Accumulator
