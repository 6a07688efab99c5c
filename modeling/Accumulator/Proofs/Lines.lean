import Accumulator.Program
import Accumulator.Proofs.Stripping

/-!
# Lines

`Delimited text lines` says, without naming an algorithm, that a text consists of these lines: each
of them is closed by a line feed, a carriage return and a line feed, or a carriage return, but for
the last one, which may be left open if it is not empty.  Every text consists of lines in exactly
one way (`exists_delimited`, `Delimited.unique`).

The reader of program files cuts a text at more characters than these.  A line end of another sort
is `isForeign`.  Each of them makes one line more, unless it is the last character of the text
(`Program.length_linesOf`); without them the lines are the same, up to the blanks around them
(`Program.linesOf_eq`).

The proofs go through `Pieces`: what a text is cut into at the characters of a class.
-/

namespace Accumulator

namespace Text

variable {p : Char → Bool} {cs : List Char} {pieces others lines : List (List Char)}

/-! ### Pieces -/

/-- What a text is cut into at the characters of a class: the pieces that these close and what is
left behind the last of them, unless it is empty. -/
inductive Pieces (p : Char → Bool) : List Char → List (List Char) → Prop
  | nil : Pieces p [] []
  | last {piece : List Char} (ne : piece ≠ []) (solid : ∀ c ∈ piece, p c = false) :
      Pieces p piece [piece]
  | cons {piece rest : List Char} {c : Char} {pieces : List (List Char)}
      (solid : ∀ c ∈ piece, p c = false) (closes : p c = true) (later : Pieces p rest pieces) :
      Pieces p (piece ++ c :: rest) (piece :: pieces)

theorem exists_pieces (p : Char → Bool) (cs : List Char) : ∃ pieces, Pieces p cs pieces := by
  induction cs with
  | nil => exact ⟨[], .nil⟩
  | cons c cs ih =>
    obtain ⟨pieces, hpieces⟩ := ih
    cases hc : p c with
    | true =>
      have hnone : ∀ c ∈ ([] : List Char), p c = false := by simp
      exact ⟨[] :: pieces, .cons hnone hc hpieces⟩
    | false =>
      -- the character goes in front of the first piece
      cases hpieces with
      | nil => exact ⟨[[c]], .last (by simp) (by simpa using hc)⟩
      | last _ hsolid =>
        exact ⟨[c :: cs], .last (by simp) (List.forall_mem_cons.2 ⟨hc, hsolid⟩)⟩
      | @cons piece rest _ pieces hsolid hcloses hlater =>
        have hpiece : ∀ d ∈ c :: piece, p d = false := List.forall_mem_cons.2 ⟨hc, hsolid⟩
        exact ⟨(c :: piece) :: pieces, .cons hpiece hcloses hlater⟩

/-- The pieces of a split, without the empty one behind a last separator. -/
def cut (p : Char → Bool) (cs : List Char) : List (List Char) :=
  if (cs.splitOnP p).getLast? = some [] then (cs.splitOnP p).dropLast else cs.splitOnP p

/-- **A text is cut into pieces in one way only.** -/
theorem Pieces.eq_cut (h : Pieces p cs pieces) : pieces = cut p cs := by
  induction h with
  | nil => rfl
  | last hne hsolid =>
    rw [cut, List.splitOnP_eq_singleton hsolid, if_neg (by simpa using hne)]
  | @cons piece rest c pieces hsolid hcloses _ ih =>
    have hrest := List.splitOnP_ne_nil p rest
    rw [ih, cut, cut, List.splitOnP_append_cons_of_forall_mem hsolid c hcloses,
      List.getLast?_cons_of_ne_nil hrest, List.dropLast_cons_of_ne_nil hrest]
    split <;> rfl

theorem Pieces.unique (h : Pieces p cs pieces) (hother : Pieces p cs others) :
    others = pieces :=
  hother.eq_cut.trans h.eq_cut.symm

theorem pieces_splitLines (cs : List Char) : Pieces isLineEnd cs (splitLines cs) := by
  obtain ⟨pieces, hpieces⟩ := exists_pieces isLineEnd cs
  have heq : splitLines cs = pieces := hpieces.eq_cut.symm
  rwa [heq]

theorem Pieces.solid (h : Pieces p cs pieces) :
    ∀ piece ∈ pieces, ∀ c ∈ piece, p c = false := by
  induction h with
  | nil => simp
  | last _ hsolid => simpa using hsolid
  | cons hsolid _ _ ih => exact List.forall_mem_cons.2 ⟨hsolid, ih⟩

/-- A text that is not empty has one piece more than characters of the class before its last
character. -/
theorem Pieces.length (h : Pieces p cs pieces) :
    pieces.length = cs.dropLast.countP p + if cs = [] then 0 else 1 := by
  induction h with
  | nil => rfl
  | @last piece hne hsolid =>
    have hnone : piece.dropLast.countP p = 0 :=
      List.countP_eq_zero.2 fun c hc => by simp [hsolid c (List.dropLast_subset _ hc)]
    rw [hnone, if_neg hne]
    rfl
  | @cons piece rest c pieces hsolid hcloses hlater ih =>
    have hnone : piece.countP p = 0 := List.countP_eq_zero.2 fun c hc => by simp [hsolid c hc]
    rw [if_neg (by simp), List.dropLast_append_of_ne_nil (by simp), List.countP_append, hnone,
      List.length_cons, ih]
    by_cases hrest : rest = []
    · simp [hrest]
    · rw [List.dropLast_cons_of_ne_nil hrest, List.countP_cons_of_pos hcloses, if_neg hrest]
      omega

/-! ### Lines of a text -/

/-- What closes a line. -/
def terminators : List (List Char) := [['\n'], ['\r', '\n'], ['\r']]

/-- A character of a terminator. -/
def isNewline (c : Char) : Bool := c == '\n' || c == '\r'

/-- Whether a text consists of these lines.  Each is closed by a terminator, where a carriage return
before a line feed does not stand alone; the last one may be left open if it is not empty. -/
inductive Delimited : List Char → List (List Char) → Prop
  | empty : Delimited [] []
  | unclosed {line : List Char} (ne : line ≠ []) (solid : ∀ c ∈ line, isNewline c = false) :
      Delimited line [line]
  | closed {line terminator rest : List Char} {lines : List (List Char)}
      (solid : ∀ c ∈ line, isNewline c = false) (closes : terminator ∈ terminators)
      (alone : terminator = ['\r'] → rest.head? ≠ some '\n') (later : Delimited rest lines) :
      Delimited (line ++ (terminator ++ rest)) (line :: lines)

/-- **Every text consists of lines.** -/
theorem exists_delimited (text : List Char) : ∃ lines, Delimited text lines := by
  have hnone : ∀ c ∈ ([] : List Char), isNewline c = false := by simp
  fun_induction unifyReturns text with
  | case1 => exact ⟨[], .empty⟩
  | case2 text ih =>
    obtain ⟨lines, hlines⟩ := ih
    have hcloses : ['\r', '\n'] ∈ terminators := by decide
    exact ⟨[] :: lines, .closed hnone hcloses (by simp) hlines⟩
  | case3 c text hpair ih =>
    obtain ⟨lines, hlines⟩ := ih
    cases hc : isNewline c with
    | true =>
      have hcloses : [c] ∈ terminators := by
        rcases Bool.or_eq_true_iff.1 hc with h | h
        all_goals rw [eq_of_beq h]; decide
      have halone : [c] = ['\r'] → text.head? ≠ some '\n' := by
        intro h hhead
        obtain ⟨rest, rfl⟩ := List.head?_eq_some_iff.1 hhead
        exact hpair rest (List.cons.inj h).1 rfl
      exact ⟨[] :: lines, .closed hnone hcloses halone hlines⟩
    | false =>
      -- the character goes in front of the first line
      cases hlines with
      | empty => exact ⟨[[c]], .unclosed (by simp) (by simpa using hc)⟩
      | unclosed _ hsolid =>
        exact ⟨[c :: text], .unclosed (by simp) (List.forall_mem_cons.2 ⟨hc, hsolid⟩)⟩
      | @closed line _ _ lines hsolid hcloses halone hlater =>
        have hline : ∀ d ∈ c :: line, isNewline d = false := List.forall_mem_cons.2 ⟨hc, hsolid⟩
        exact ⟨(c :: line) :: lines, .closed hline hcloses halone hlater⟩

theorem unifyReturns_append {line : List Char} (h : ∀ c ∈ line, isNewline c = false)
    (rest : List Char) : unifyReturns (line ++ rest) = line ++ unifyReturns rest := by
  induction line with
  | nil => rfl
  | cons c line ih =>
    obtain ⟨hc, hline⟩ := List.forall_mem_cons.1 h
    have hreturn : c ≠ '\r' := by
      rintro rfl
      cases hc
    rw [List.cons_append, unifyReturns, ih hline, if_neg hreturn]
    · rfl
    · exact fun _ heq => absurd heq hreturn

theorem unifyReturns_terminator {terminator rest : List Char} (h : terminator ∈ terminators)
    (halone : terminator = ['\r'] → rest.head? ≠ some '\n') :
    unifyReturns (terminator ++ rest) = '\n' :: unifyReturns rest := by
  rcases List.mem_cons.1 h with rfl | h
  · rfl
  rcases List.mem_cons.1 h with rfl | h
  · rfl
  obtain rfl := List.mem_singleton.1 h
  have hhead := halone rfl
  rw [List.singleton_append, unifyReturns]
  · rfl
  · rintro tail - rfl
    exact hhead rfl

/-- Once carriage returns are gone, the lines of a text are what line feeds cut it into. -/
theorem Delimited.pieces_unifyReturns {text : List Char} (h : Delimited text lines) :
    Pieces isNewline (unifyReturns text) lines := by
  induction h with
  | empty => exact .nil
  | @unclosed line hne hsolid =>
    have hunified := unifyReturns_append hsolid []
    rw [List.append_nil] at hunified
    rw [hunified, unifyReturns, List.append_nil]
    exact .last hne hsolid
  | closed hsolid hcloses halone _ ih =>
    rw [unifyReturns_append hsolid, unifyReturns_terminator hcloses halone]
    exact .cons hsolid rfl ih

/-- **A text consists of lines in one way only.** -/
theorem Delimited.unique {text : List Char} (h : Delimited text lines)
    (hother : Delimited text others) : others = lines :=
  h.pieces_unifyReturns.unique hother.pieces_unifyReturns

/-! ### Foreign line ends -/

/-- A character that closes a line of a program file but is no line feed or carriage return. -/
def isForeign (c : Char) : Bool := isLineEnd c && !isNewline c

theorem isLineEnd_of_isNewline {c : Char} (h : isNewline c = true) : isLineEnd c = true := by
  rcases Bool.or_eq_true_iff.1 h with h | h
  all_goals rw [eq_of_beq h]; decide

theorem isBlank_of_isLineEnd {c : Char} (h : isLineEnd c = true) : isBlank c = true := by
  simp only [isLineEnd, isBlank, Bool.or_eq_true, Bool.and_eq_true, decide_eq_true_eq,
    beq_iff_eq] at h ⊢
  omega

theorem unifyReturns_eq_nil_iff {text : List Char} : unifyReturns text = [] ↔ text = [] := by
  fun_cases unifyReturns text <;> simp

/-- The line ends that stay when carriage returns go are counted as before. -/
theorem countP_isForeign_unifyReturns (text : List Char) :
    (unifyReturns text).dropLast.countP isForeign = text.dropLast.countP isForeign := by
  -- the line feeds stand where there was no foreign character either
  fun_induction unifyReturns text with
  | case1 => rfl
  | case2 text ih =>
    by_cases hnil : text = []
    · subst hnil
      decide
    · rw [List.dropLast_cons_of_ne_nil (mt unifyReturns_eq_nil_iff.1 hnil),
        List.dropLast_cons_of_ne_nil (List.cons_ne_nil _ _), List.dropLast_cons_of_ne_nil hnil,
        List.countP_cons, List.countP_cons, List.countP_cons, ih]
      rfl
  | case3 c text _ ih =>
    by_cases hnil : text = []
    · subst hnil
      rfl
    · rw [List.dropLast_cons_of_ne_nil (mt unifyReturns_eq_nil_iff.1 hnil),
        List.dropLast_cons_of_ne_nil hnil, List.countP_cons, List.countP_cons, ih]
      by_cases hc : c = '\r'
      · subst hc
        rfl
      · rw [if_neg hc]

theorem countP_isLineEnd (cs : List Char) :
    cs.countP isLineEnd = cs.countP isNewline + cs.countP isForeign := by
  induction cs with
  | nil => rfl
  | cons c cs ih =>
    rw [List.countP_cons, List.countP_cons, List.countP_cons, ih, isForeign]
    cases hc : isNewline c with
    | true => simp [isLineEnd_of_isNewline hc]; omega
    | false => simp; omega

/-! ### The lines of a program text -/

/-- Without line ends of another sort, but for a last character, a text is cut into the same pieces
at all line ends, up to blanks. -/
theorem Pieces.exists_isLineEnd (h : Pieces isNewline cs pieces)
    (hforeign : ∀ c ∈ cs.dropLast, isForeign c = false) :
    ∃ others, Pieces isLineEnd cs others ∧
      others.map (strip ∘ String.ofList) = pieces.map (strip ∘ String.ofList) := by
  have hsolid : ∀ {piece : List Char}, (∀ c ∈ piece, isNewline c = false) →
      (∀ c ∈ piece, isForeign c = false) → ∀ c ∈ piece, isLineEnd c = false := by
    intro piece hnewline hforeign c hc
    have hother := hforeign c hc
    rw [isForeign, hnewline c hc] at hother
    simpa using hother
  induction h with
  | nil => exact ⟨[], .nil, rfl⟩
  | @last piece hne hnewline =>
    obtain ⟨front, c, rfl⟩ := (List.eq_nil_or_concat' piece).resolve_left hne
    rw [List.dropLast_concat] at hforeign
    obtain ⟨hfront, hc⟩ := List.forall_mem_append.1 hnewline
    have hfront := hsolid hfront hforeign
    cases hend : isLineEnd c with
    | false =>
      exact ⟨_, .last hne (List.forall_mem_append.2 ⟨hfront, by simpa using hend⟩), rfl⟩
    | true =>
      -- the last character closes the line, and is stripped where it does not
      refine ⟨[front], .cons hfront hend .nil, ?_⟩
      have hblank : ∀ b ∈ [c], isBlank b := by simpa using isBlank_of_isLineEnd hend
      simp [strip, trimBoth_append_of_class hblank]
  | @cons piece rest c pieces hnewline hcloses _ ih =>
    rw [List.dropLast_append_of_ne_nil (by simp)] at hforeign
    obtain ⟨hpiece, hrest⟩ := List.forall_mem_append.1 hforeign
    have hlater : ∀ b ∈ rest.dropLast, isForeign b = false := by
      intro b hb
      refine hrest b ?_
      rw [List.dropLast_cons_of_ne_nil (by rintro rfl; cases hb)]
      exact List.mem_cons_of_mem _ hb
    obtain ⟨others, hothers, hmap⟩ := ih hlater
    have hsolid := hsolid hnewline hpiece
    have hcons := Pieces.cons hsolid (isLineEnd_of_isNewline hcloses) hothers
    exact ⟨piece :: others, hcons, by rw [List.map_cons, List.map_cons, hmap]⟩

end Text

namespace Program

open Text

variable {text : List Char} {lines : List (List Char)}

theorem linesOf_eq_map (text : List Char) :
    linesOf text = (splitLines (unifyReturns text)).map (strip ∘ String.ofList) :=
  List.map_map

/-- **Each foreign line end makes a line more**, unless it is the last character of the text. -/
theorem length_linesOf (h : Delimited text lines) :
    (linesOf text).length = lines.length + text.dropLast.countP isForeign := by
  rw [linesOf_eq_map, List.length_map, (pieces_splitLines _).length, h.pieces_unifyReturns.length,
    countP_isLineEnd, countP_isForeign_unifyReturns]
  omega

/-- **Without foreign line ends, but for a last character, the program has the lines of the
text.** -/
theorem linesOf_eq (h : Delimited text lines)
    (hforeign : ∀ c ∈ text.dropLast, isForeign c = false) :
    linesOf text = lines.map (strip ∘ String.ofList) := by
  have hunified : ∀ c ∈ (unifyReturns text).dropLast, isForeign c = false := by
    have hnone : (unifyReturns text).dropLast.countP isForeign = 0 := by
      rw [countP_isForeign_unifyReturns]
      exact List.countP_eq_zero.2 fun c hc => by simp [hforeign c hc]
    intro c hc
    simpa using List.countP_eq_zero.1 hnone c hc
  obtain ⟨others, hothers, hmap⟩ := h.pieces_unifyReturns.exists_isLineEnd hunified
  rw [linesOf_eq_map, hothers.unique (pieces_splitLines _), hmap]

end Program

end Accumulator
