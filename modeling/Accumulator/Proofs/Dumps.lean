import Accumulator.Proofs.JsonDump
import Accumulator.Proofs.TextDump
import Accumulator.Session.Basic

/-!
# The two dumps compared

Both dumps of a snapshot fail for one reason only, a numeral that is too long to be written
(`onlyWriting_text`, `onlyWriting_json`).  JSON shows all that the text does, and the number of
instructions executed; so a snapshot that can be dumped in one form and not in the other is one with
a number of instructions that is too long to be written (`tellsApart_iff`).
-/

namespace Accumulator

open Numeral (fits)

/-! ### Failing to write -/

/-- Whether `x` fails for no other reason than a numeral that is too long to be written. -/
def OnlyWriting {α : Type} (x : Except Overlong α) : Prop :=
  ∀ error, x = .error error → error = .writing

namespace OnlyWriting

variable {α β : Type} {x : Except Overlong α}

theorem pure (a : α) : OnlyWriting (Pure.pure a) := fun _ h => by cases h

theorem bind {f : α → Except Overlong β} (hx : OnlyWriting x) (hf : ∀ a, OnlyWriting (f a)) :
    OnlyWriting (x >>= f) := by
  intro error h
  cases x with
  | error e => exact hx error (congrArg Except.error (Except.error.inj h))
  | ok a => exact hf a error h

theorem map (hx : OnlyWriting x) (f : α → β) : OnlyWriting (x >>= fun a => Pure.pure (f a)) :=
  hx.bind fun a => pure (f a)

theorem mapM {f : α → Except Overlong β} (h : ∀ a, OnlyWriting (f a)) (l : List α) :
    OnlyWriting (l.mapM f) := by
  induction l with
  | nil => exact pure []
  | cons a l ih =>
    rw [List.mapM_cons]
    exact (h a).bind fun b => ih.map (b :: ·)

end OnlyWriting

theorem Numeral.onlyWriting_write (n : Int) : OnlyWriting (write n) := by
  intro error h
  unfold write at h
  split at h
  · cases h
  · exact (Except.error.inj h).symm

theorem Word.onlyWriting_write (w : Word) : OnlyWriting w.write := by
  cases w with
  | text s => exact .pure s
  | number n => exact Numeral.onlyWriting_write n

namespace Snapshot

open Numeral (onlyWriting_write)

variable {s : Snapshot}

theorem onlyWriting_text (s : Snapshot) : OnlyWriting s.text := by
  have hregisters : OnlyWriting s.registersText :=
    (onlyWriting_write _).bind fun _ => (onlyWriting_write _).bind fun _ =>
      (onlyWriting_write _).map _
  have hcell : ∀ cell, OnlyWriting (cellLine cell) := fun cell =>
    (onlyWriting_write cell.1).bind fun _ => cell.2.onlyWriting_write.map _
  have hname : ∀ entry, OnlyWriting (symbolLine entry) := fun entry =>
    (onlyWriting_write entry.2).map _
  have hmemory : OnlyWriting s.memoryText := (OnlyWriting.mapM hcell _).map _
  have hsymbols : OnlyWriting s.symbolsText := (OnlyWriting.mapM hname _).map _
  exact hregisters.bind fun _ => hmemory.bind fun _ => hsymbols.map _

theorem onlyWriting_json (s : Snapshot) : OnlyWriting s.json := by
  have hword : ∀ word, OnlyWriting (wordJson word) := fun word => by
    cases word with
    | text t => exact .pure _
    | number n => exact onlyWriting_write n
  have hcell : ∀ cell, OnlyWriting (cellMember cell) := fun cell =>
    (onlyWriting_write cell.1).bind fun _ => (hword cell.2).map _
  have hname : ∀ entry, OnlyWriting (symbolMember entry) := fun entry =>
    (onlyWriting_write entry.2).map _
  exact (onlyWriting_write _).bind fun _ => (onlyWriting_write _).bind fun _ =>
    (onlyWriting_write _).bind fun _ => (onlyWriting_write _).bind fun _ =>
      (OnlyWriting.mapM hcell _).bind fun _ => (OnlyWriting.mapM hname _).map _

/-! ### Snapshots that tell the dumps apart -/

/-- Whether a snapshot can be dumped as text and not as JSON. -/
def TellsApart (s : Snapshot) : Prop :=
  (∃ text, s.text = .ok text) ∧ ¬ ∃ text, s.json = .ok text

theorem exists_text_iff : (∃ text, s.text = .ok text) ↔ ∀ n ∈ s.numerals, fits n := by
  refine ⟨fun ⟨_, h⟩ => ((s.gives_text _).1 h).1, fun h => ⟨_, (s.gives_text _).2 ⟨h, rfl⟩⟩⟩

theorem exists_json_iff :
    (∃ text, s.json = .ok text) ↔ ∀ n ∈ s.executed :: s.numerals, fits n := by
  refine ⟨fun ⟨_, h⟩ => ((s.gives_json _).1 h).1, fun h => ⟨_, (s.gives_json _).2 ⟨h, rfl⟩⟩⟩

/-- **The dumps are told apart by a number of instructions that is too long.** -/
theorem tellsApart_iff :
    s.TellsApart ↔ (∀ n ∈ s.numerals, fits n) ∧ fits s.executed = false := by
  rw [TellsApart, exists_text_iff, exists_json_iff, List.forall_mem_cons]
  constructor
  · rintro ⟨htext, hjson⟩
    exact ⟨htext, eq_false_of_ne_true fun hfits => hjson ⟨hfits, htext⟩⟩
  · rintro ⟨htext, hfits⟩
    refine ⟨htext, fun hjson => ?_⟩
    rw [hfits] at hjson
    exact Bool.false_ne_true hjson.1

/-- What is too long in the text is too long in JSON. -/
theorem exists_text_of_json (h : ∃ json, s.json = .ok json) : ∃ text, s.text = .ok text :=
  exists_text_iff.2 fun n hn => exists_json_iff.1 h n (List.mem_cons_of_mem _ hn)

/-- Dumps that are not told apart are both written or fail both. -/
theorem exists_text_iff_json (h : ¬ s.TellsApart) :
    (∃ text, s.text = .ok text) ↔ ∃ json, s.json = .ok json := by
  refine ⟨fun htext => ?_, exists_text_of_json⟩
  by_contra hjson
  exact h ⟨htext, hjson⟩

end Snapshot

end Accumulator
