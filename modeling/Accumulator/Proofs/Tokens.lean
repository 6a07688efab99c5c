import Accumulator.Proofs.Numeral

/-!
# Tokens

A token is a run of characters without blanks.  `Tokenized cs tokens` says, without naming an
algorithm, that a text is made of these tokens and the blanks around them, where blanks keep any two
tokens apart.

Every text is made of tokens in exactly one way, and they are its words (`words_eq_iff`).
-/

namespace Accumulator.Text

variable {cs : List Char} {tokens : List (List Char)}

/-- A token: not empty, and without blanks. -/
def IsToken (cs : List Char) : Prop := cs ≠ [] ∧ ∀ c ∈ cs, isBlank c = false

/-- Whether a text is made of tokens, in this order, and of blanks. -/
inductive Tokenized : List Char → List (List Char) → Prop
  /-- There are blanks only. -/
  | blank {gap : List Char} (gap_blank : ∀ c ∈ gap, isBlank c) : Tokenized gap []
  /-- The first token follows some blanks.  Behind it there is a blank or nothing. -/
  | token {gap token rest : List Char} {tokens : List (List Char)}
      (gap_blank : ∀ c ∈ gap, isBlank c) (isToken : IsToken token)
      (apart : ∀ c ∈ rest.head?, isBlank c) (later : Tokenized rest tokens) :
      Tokenized (gap ++ (token ++ rest)) (token :: tokens)

/-! ### The words of a text are its tokens -/

/-- A blank splits a text. -/
theorem runs_append_cons {b : Char} (h : isBlank b) (before after : List Char) :
    runs (before ++ b :: after) = runs before ++ runs after := by
  rw [runs, List.splitOnP_append_cons _ _ h, List.filter_append]
  rfl

/-- Blanks in front do not count. -/
theorem runs_append_of_blank {gap : List Char} (h : ∀ c ∈ gap, isBlank c) (cs : List Char) :
    runs (gap ++ cs) = runs cs := by
  induction gap with
  | nil => rfl
  | cons b gap ih =>
    have hsplit := runs_append_cons (h b (List.mem_cons_self ..)) [] (gap ++ cs)
    rw [List.cons_append]
    exact hsplit.trans (ih fun c hc => h c (List.mem_cons_of_mem _ hc))

/-- Only the words of a text are tokens that it is made of. -/
theorem Tokenized.eq_runs (h : Tokenized cs tokens) : tokens = runs cs := by
  induction h with
  | @blank gap hblank =>
    have hruns := runs_append_of_blank hblank []
    rw [List.append_nil] at hruns
    rw [hruns]
    rfl
  | @token gap token rest tokens hblank htoken hapart _ ih =>
    rw [runs_append_of_blank hblank]
    have hruns := runs_eq_singleton htoken.1 htoken.2
    cases rest with
    | nil =>
      rw [List.append_nil, hruns, ih]
      rfl
    | cons b rest =>
      have hb : isBlank b := hapart b rfl
      have hrest : runs (b :: rest) = runs rest := runs_append_cons hb [] rest
      rw [runs_append_cons hb, hruns, ih, hrest]
      rfl

/-- A text that begins with a token. -/
theorem Tokenized.solid {token rest : List Char} (isToken : IsToken token)
    (apart : ∀ c ∈ rest.head?, isBlank c) (later : Tokenized rest tokens) :
    Tokenized (token ++ rest) (token :: tokens) := by
  have hgap : ∀ c ∈ ([] : List Char), isBlank c := by simp
  exact .token hgap isToken apart later

/-- Every text is made of tokens. -/
theorem exists_tokenized (cs : List Char) : ∃ tokens, Tokenized cs tokens := by
  induction cs with
  | nil => exact ⟨[], .blank (by simp)⟩
  | cons c cs ih =>
    obtain ⟨tokens, h⟩ := ih
    by_cases hc : isBlank c
    -- a blank in front makes the gap longer
    · cases h with
      | blank hblank => exact ⟨[], .blank (by simpa [hc] using hblank)⟩
      | @token gap token rest tokens hblank htoken hapart hlater =>
        have hlonger : ∀ d ∈ c :: gap, isBlank d := by simpa [hc] using hblank
        exact ⟨token :: tokens, .token hlonger htoken hapart hlater⟩
    · have hsolid : isBlank c = false := by simpa using hc
      by_cases hhead : ∀ d ∈ cs.head?, isBlank d
      -- before a blank and at the end it is a token of its own
      · have htoken : IsToken [c] := ⟨List.cons_ne_nil _ _, by simpa using hsolid⟩
        exact ⟨[c] :: tokens, .solid htoken hhead h⟩
      -- anywhere else it belongs to the first token
      · cases h with
        | blank hblank =>
          exact absurd (fun d hd => hblank d (List.mem_of_mem_head? hd)) hhead
        | @token gap token rest tokens hblank htoken hapart hlater =>
          cases gap with
          | nil =>
            have hlonger : IsToken (c :: token) :=
              ⟨List.cons_ne_nil _ _, by simpa [hsolid] using htoken.2⟩
            exact ⟨(c :: token) :: tokens, .solid hlonger hapart hlater⟩
          | cons b gap =>
            refine absurd (fun d hd => ?_) hhead
            obtain rfl := Option.some.inj hd
            exact hblank b (List.mem_cons_self ..)

theorem tokenized_iff : Tokenized cs tokens ↔ runs cs = tokens := by
  constructor
  · intro h
    exact h.eq_runs.symm
  · rintro rfl
    obtain ⟨tokens, h⟩ := exists_tokenized cs
    rw [← h.eq_runs]
    exact h

/-- **The words of a text are the tokens that it is made of.** -/
theorem words_eq_iff {s : String} {tokens : List String} :
    words s = tokens ↔ Tokenized s.toList (tokens.map String.toList) := by
  rw [tokenized_iff, words]
  constructor
  · rintro rfl
    simp
  · intro h
    rw [h]
    simp

/-- The words of a text are tokens. -/
theorem isToken_of_mem_words {s token : String} (h : token ∈ words s) : IsToken token.toList := by
  have hall : ∀ {cs tokens}, Tokenized cs tokens → ∀ token ∈ tokens, IsToken token := by
    intro cs tokens h
    induction h with
    | blank => simp
    | token _ htoken _ _ ih => simpa using ⟨htoken, ih⟩
  exact hall (words_eq_iff.1 rfl) _ (List.mem_map_of_mem h)

end Accumulator.Text
