import Accumulator.Proofs.Numeral
import Accumulator.Snapshot.Text

/-!
# What is written, and when

A text that shows integers can be written exactly if none of them is too long.  `Gives x P a` says
that `x` succeeds exactly if `P` holds, and that its result is `a` then.  It is kept by sequences
(`Gives.bind`) and by running through a list (`Gives.mapM`), so that it is read off a text piece by
piece, from the integers (`Numeral.gives_write`) and the memory words (`Word.gives_write`) in it.
-/

namespace Accumulator

variable {ε α β : Type} {x : Except ε α} {P Q : Prop} {a : α}

/-- `x` succeeds exactly if `P` holds, and with the result `a`. -/
def Gives (x : Except ε α) (P : Prop) (a : α) : Prop := ∀ b, x = .ok b ↔ P ∧ b = a

namespace Gives

theorem pure (a : α) : Gives (Pure.pure a : Except ε α) True a := by
  intro b
  constructor
  · intro h
    exact ⟨trivial, (Except.ok.inj h).symm⟩
  · rintro ⟨-, rfl⟩
    rfl

theorem congr (h : Gives x P a) (hiff : P ↔ Q) : Gives x Q a := by
  intro b
  rw [← hiff]
  exact h b

theorem bind {f : α → Except ε β} {b : β} (hx : Gives x P a) (hf : Gives (f a) Q b) :
    Gives (x >>= f) (P ∧ Q) b := by
  intro c
  cases hresult : x with
  | error e =>
    -- what fails at once fails whatever would have followed
    have hP : ¬ P := fun h => by cases hresult.symm.trans ((hx a).2 ⟨h, rfl⟩)
    exact ⟨fun h => (by cases h), fun h => absurd h.1.1 hP⟩
  | ok d =>
    obtain ⟨hP, rfl⟩ := (hx d).1 hresult
    rw [and_iff_right hP]
    exact hf c

/-- A result that something is made of. -/
theorem map {f : α → β} (hx : Gives x P a) : Gives (x >>= fun a => Pure.pure (f a)) P (f a) :=
  (hx.bind (pure (f a))).congr (Iff.of_eq (and_true P))

theorem mapM {f : α → Except ε β} {p : α → Prop} {g : α → β} (h : ∀ a, Gives (f a) (p a) (g a))
    (l : List α) : Gives (l.mapM f) (∀ a ∈ l, p a) (l.map g) := by
  induction l with
  | nil => exact (pure []).congr (by simp)
  | cons a l ih =>
    rw [List.mapM_cons]
    exact ((h a).bind ih.map).congr (by simp)

end Gives

/-- The decimal text of an integer is written exactly if it is not too long. -/
theorem Numeral.gives_write (n : Int) : Gives (write n) (fits n) (decimal n) := by
  intro s
  unfold write
  split
  · next hfits => simp [hfits, eq_comm]
  · next hfits => simp [hfits]

/-- The text that stands for a memory word in a listing. -/
def Word.plain : Word → String
  | text s => s
  | number n => Numeral.decimal n

theorem Word.gives_write (w : Word) :
    Gives w.write (∀ n ∈ w.numerals, Numeral.fits n) w.plain := by
  cases w with
  | text s => exact (Gives.pure s).congr (by simp [numerals])
  | number n => exact (Numeral.gives_write n).congr (by simp [numerals])

/-- The integers that a dump shows of registers, memory and symbol table. -/
def Snapshot.numerals (s : Snapshot) : List Int :=
  [s.accumulator, s.data, s.programCounter] ++
    s.memory.toList.flatMap (fun cell => cell.1 :: cell.2.numerals) ++
    s.symbols.toList.map Prod.snd

theorem Snapshot.forall_mem_numerals_iff {s : Snapshot} {p : Int → Prop} :
    (∀ n ∈ s.numerals, p n) ↔ p s.accumulator ∧ p s.data ∧ p s.programCounter ∧
      (∀ cell ∈ s.memory.toList, ∀ n ∈ cell.1 :: cell.2.numerals, p n) ∧
      ∀ entry ∈ s.symbols.toList, p entry.2 := by
  simp only [numerals, List.forall_mem_append, List.forall_mem_cons, List.forall_mem_flatMap,
    List.forall_mem_map, List.not_mem_nil, false_implies, implies_true, and_true, and_assoc]

end Accumulator
