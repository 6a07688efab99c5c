import Accumulator.Proofs.Dumps
import Accumulator.Proofs.Granted
import Accumulator.Proofs.SessionDialogue

/-!
# A session under two displays

A display is the form of dumps and the events that are seen.  It may matter to a session only if a
snapshot is dumped that parts two displays, one that can be written in one of their forms and not in
the other (`Snapshot.Parts`).

A session under two displays is two sessions with the same answers.  Each request leaves them at the
same question about the same machine, or the display that dumps as text, which comes first, dumps a
snapshot that parts them, and the other ends there (`compare_afterRequest`).  From this it follows
by induction on the answers that the sessions come to the same end, or the first dumps what parts
them and has more dumps than the second (`agreeOrPart_play`).
-/

namespace Accumulator

/-- How a session shows what it has to show: the form of its dumps, and the events that are seen. -/
structure Display where
  format : DumpFormat
  verbosity : Nat
  quiet : Bool

/-- The same options with another display. -/
def Options.showing (o : Options) (d : Display) : Options :=
  { o with dumpFormat := d.format, verbosity := d.verbosity, quiet := d.quiet }

namespace Utterance

/-- An utterance without the text of its dump. -/
def bare : Utterance → Utterance
  | dump snapshot _ => dump snapshot ""
  | other => other

variable {said other : List Utterance}

/-- What is taken from utterances without regard to the texts of dumps. -/
theorem filterMap_eq {α : Type} {f : Utterance → Option α}
    (hf : ∀ utterance : Utterance, f utterance.bare = f utterance)
    (h : said.map bare = other.map bare) : said.filterMap f = other.filterMap f := by
  have hbare : ∀ said : List Utterance, (said.map bare).filterMap f = said.filterMap f := by
    intro said
    rw [List.filterMap_map]
    exact List.filterMap_congr fun utterance _ => hf utterance
  rw [← hbare said, h, hbare]

/-- The texts of dumps do not matter for the snapshots. -/
theorem dumped_eq (h : said.map bare = other.map bare) : dumped said = dumped other :=
  filterMap_eq (fun utterance => by cases utterance <;> rfl) h

end Utterance

open Utterance (bare dumped dumped_eq)

/-- Whether two turns say the same, but for the texts of dumps, and come to the same. -/
structure Turn.SameButDumps {α : Type} (first second : Turn α) : Prop where
  said : first.said.map bare = second.said.map bare
  next : first.next = second.next

/-- Whether two records are the same but for the texts of dumps. -/
structure Record.SameButDumps (first second : Record) : Prop where
  said : first.said.map bare = second.said.map bare
  ending : first.ending = second.ending
  files : first.files = second.files

/-- Whether a snapshot can be dumped in one of two forms only. -/
def Snapshot.Parts (d e : Display) (s : Snapshot) : Prop := d.format ≠ e.format ∧ s.TellsApart

theorem Snapshot.Parts.symm {d e : Display} {s : Snapshot} (h : s.Parts d e) : s.Parts e d :=
  ⟨h.1.symm, h.2⟩

namespace Session

variable {o : Options} {d e : Display} {m : Machine}

/-! ### Turns under two displays -/

/-- Two turns of one session under two displays: they say the same, but for the texts of dumps, and
wait for the same answer about the same machine, or end alike. -/
inductive Together (o : Options) (d e : Display) : Turn Next → Turn Next → Prop
  | wait {said other : List Utterance} (same : said.map bare = other.map bare) (m : Machine)
      (question : Question) : Together o d e ⟨said, .wait ⟨o.showing d, m, question⟩⟩
        ⟨other, .wait ⟨o.showing e, m, question⟩⟩
  | done {said other : List Utterance} (same : said.map bare = other.map bare) (ending : Ending) :
      Together o d e ⟨said, .done ending⟩ ⟨other, .done ending⟩

theorem Together.prepend {said other : List Utterance} (same : said.map bare = other.map bare)
    {first second : Turn Next} (h : Together o d e first second) :
    Together o d e ⟨said ++ first.said, first.next⟩ ⟨other ++ second.said, second.next⟩ := by
  cases h with
  | wait hsame m question =>
    exact .wait (by rw [List.map_append, List.map_append, same, hsame]) m question
  | done hsame ending =>
    exact .done (by rw [List.map_append, List.map_append, same, hsame]) ending

theorem Together.said {first second : Turn Next} (h : Together o d e first second) :
    first.said.map bare = second.said.map bare := by
  cases h with
  | wait hsame => exact hsame
  | done hsame => exact hsame

theorem dump_showing (o : Options) (d : Display) (s : Snapshot) :
    dump (o.showing d) s = match d.format with
      | .text => s.text
      | .json => s.json := rfl

theorem onlyWriting_dump (o : Options) (s : Snapshot) : OnlyWriting (dump o s) := by
  unfold dump
  split
  · exact s.onlyWriting_text
  · exact s.onlyWriting_json

/-- A snapshot that does not part two displays is dumped under both or under none. -/
theorem exists_dump_iff {s : Snapshot} (h : ¬ s.Parts d e) :
    (∃ text, dump (o.showing d) s = .ok text) ↔ ∃ text, dump (o.showing e) s = .ok text := by
  rw [dump_showing, dump_showing]
  by_cases hformat : d.format = e.format
  · rw [hformat]
  · have hsame := Snapshot.exists_text_iff_json fun happart => h ⟨hformat, happart⟩
    cases hd : d.format <;> cases he : e.format
    · exact Iff.rfl
    · exact hsame
    · exact hsame.symm
    · exact Iff.rfl

theorem together_leave {said other : List Utterance} (same : said.map bare = other.map bare)
    (m : Machine) (ending : Ending) : Together o d e (leave (o.showing d) m said ending)
      (leave (o.showing e) m other ending) :=
  .done (by rw [List.map_append, List.map_append, same]; rfl) ending

theorem together_askCommand {said other : List Utterance}
    (same : said.map bare = other.map bare) (m : Machine) :
    Together o d e (askCommand (o.showing d) m said) (askCommand (o.showing e) m other) :=
  .wait (by rw [List.map_append, List.map_append, same]) m .command

/-- **After a request both displays go on alike**, unless the snapshot parts them. -/
theorem together_afterRequest {report : Report Overlong State}
    (h : ∀ state, report.answer = .ok state → ¬ report.machine.snapshot.Parts d e) :
    Together o d e (afterRequest (o.showing d) report) (afterRequest (o.showing e) report) := by
  unfold afterRequest
  dsimp only
  cases hanswer : report.answer with
  | error error => exact .done rfl _
  | ok state =>
    have hdumped := exists_dump_iff (o := o) (h state hanswer)
    cases hfirst : dump (o.showing d) report.machine.snapshot with
    | ok text =>
      obtain ⟨other, hsecond⟩ := hdumped.1 ⟨text, hfirst⟩
      rw [hsecond]
      have hsaid (later : List Utterance) :
          (notes report.events ++ [Utterance.dump report.machine.snapshot text] ++
              later).map bare =
            (notes report.events ++ [Utterance.dump report.machine.snapshot other] ++
              later).map bare := by
        simp [bare]
      cases state with
      | awaitingContinue => exact .wait (hsaid _) _ _
      | halted => exact together_leave (hsaid _) _ _
      | faulted => exact together_leave (hsaid _) _ _
      | ready => exact .wait (hsaid _) _ _
      | running => exact .wait (hsaid _) _ _
      | stopped => exact .wait (hsaid _) _ _
    | error error =>
      cases hsecond : dump (o.showing e) report.machine.snapshot with
      | ok text =>
        obtain ⟨other, hok⟩ := hdumped.2 ⟨text, hsecond⟩
        rw [hfirst] at hok
        cases hok
      | error otherError =>
        -- there is one reason only for which a dump is not written
        obtain rfl := onlyWriting_dump _ _ error hfirst
        obtain rfl := onlyWriting_dump _ _ otherError hsecond
        exact .done rfl _

/-! ### Turns that come apart -/

/-- A turn of one session under two displays.  Either they stay together and nothing is dumped that
parts them, or the first dumps what the second ends for. -/
inductive Comparison (o : Options) (d e : Display) (first second : Turn Next) : Prop
  | together (same : Together o d e first second)
      (clear : ∀ s ∈ dumped first.said, ¬ s.Parts d e)
  | apart {s : Snapshot} {ending : Ending} (mem : s ∈ dumped first.said) (parts : s.Parts d e)
      (silent : dumped second.said = []) (ended : second.next = .done ending)

/-- A snapshot that parts two displays is dumped under the one that dumps as text. -/
theorem dump_of_parts (h : d.format = .text ∨ d.format = e.format) {s : Snapshot}
    (hparts : s.Parts d e) : (∃ text, dump (o.showing d) s = .ok text) ∧
      ∃ error, dump (o.showing e) s = .error error := by
  obtain ⟨hformat, htext, hjson⟩ := hparts
  have hd : d.format = .text := h.resolve_right hformat
  have he : e.format = .json := by
    cases hformats : e.format with
    | text => exact absurd (hd.trans hformats.symm) hformat
    | json => rfl
  rw [dump_showing, dump_showing, hd, he]
  refine ⟨htext, ?_⟩
  cases hwritten : s.json with
  | ok text => exact absurd ⟨text, hwritten⟩ hjson
  | error error => exact ⟨error, rfl⟩

theorem compare_afterRequest (h : d.format = .text ∨ d.format = e.format)
    (report : Report Overlong State) :
    Comparison o d e (afterRequest (o.showing d) report) (afterRequest (o.showing e) report) := by
  by_cases hparts : (∃ state, report.answer = .ok state) ∧ report.machine.snapshot.Parts d e
  · obtain ⟨⟨state, hanswer⟩, hparts⟩ := hparts
    obtain ⟨⟨text, hfirst⟩, error, hsecond⟩ := dump_of_parts (o := o) h hparts
    have hmem : report.machine.snapshot ∈ dumped (afterRequest (o.showing d) report).said := by
      rw [dumped_afterRequest hanswer hfirst]
      exact List.mem_singleton_self _
    have hlast := afterRequest_of_overlong hanswer hsecond
    refine .apart hmem hparts ?_ (congrArg Turn.next hlast)
    rw [hlast]
    exact Utterance.dumped_notes _
  · refine .together (together_afterRequest fun state hanswer happart => ?_) fun s hs happart => ?_
    · exact hparts ⟨⟨state, hanswer⟩, happart⟩
    · obtain ⟨rfl, hanswer⟩ := eq_of_mem_dumped_afterRequest hs
      exact hparts ⟨hanswer, happart⟩

theorem compare_reply (h : d.format = .text ∨ d.format = e.format) (m : Machine)
    (question : Question) (answer : Reply) :
    Comparison o d e ((⟨o.showing d, m, question⟩ : Session).reply answer)
      ((⟨o.showing e, m, question⟩ : Session).reply answer) := by
  cases answer with
  | interrupt => exact .together (.done rfl _) fun s hs => by cases hs
  | line text =>
    obtain ⟨turn, hreply, hreaction⟩ := exists_reaction m question text
    rw [hreply, hreply]
    cases hreaction with
    | requested => exact compare_afterRequest h _
    | refused => exact .together (together_askCommand rfl m) fun s hs => by cases hs
    | left =>
      have hsilent := Utterance.dumped_farewell (o.showing d) m
      exact .together (together_leave rfl m _) fun s hs => absurd hs (not_mem_of_silent hsilent s)

/-! ### Sessions under two displays -/

/-- A session under two displays, to its end.  Either it says and comes to the same, but for the
texts of dumps, and nothing is dumped that parts the displays, or the first dumps a snapshot that
parts them, and more snapshots than the second. -/
inductive AgreeOrPart (d e : Display) (first second : Turn Ending) : Prop
  | agree (same : first.SameButDumps second) (clear : ∀ s ∈ dumped first.said, ¬ s.Parts d e)
  | part {s : Snapshot} (mem : s ∈ dumped first.said) (parts : s.Parts d e)
      (fewer : (dumped second.said).length < (dumped first.said).length)

theorem AgreeOrPart.prepend {said other : List Utterance} {first second : Turn Ending}
    (h : AgreeOrPart d e first second) (same : said.map bare = other.map bare)
    (clear : ∀ s ∈ dumped said, ¬ s.Parts d e) :
    AgreeOrPart d e ⟨said ++ first.said, first.next⟩ ⟨other ++ second.said, second.next⟩ := by
  cases h with
  | agree hsame hclear =>
    refine .agree ⟨?_, hsame.next⟩ fun s hs => ?_
    · rw [List.map_append, List.map_append, same, hsame.said]
    · rw [Utterance.dumped_append] at hs
      exact (List.mem_append.1 hs).elim (clear s) (hclear s)
  | part mem parts fewer =>
    refine .part ?_ parts ?_
    · rw [Utterance.dumped_append]
      exact List.mem_append_right _ mem
    · rw [Utterance.dumped_append, Utterance.dumped_append, List.length_append,
        List.length_append, dumped_eq same]
      exact Nat.add_lt_add_left fewer _

/-- What was dumped before is among what is dumped to the end. -/
theorem mem_dumped_play {turn : Turn Next} {s : Snapshot} (h : s ∈ dumped turn.said)
    (answers : List Reply) : s ∈ dumped (play turn answers).said := by
  have hplay := play_append turn.said [] turn.next answers
  rw [List.append_nil] at hplay
  rw [hplay, Utterance.dumped_append]
  exact List.mem_append_left _ h

theorem agreeOrPart_of_apart {first second : Turn Next} {s : Snapshot} {ending : Ending}
    (mem : s ∈ dumped first.said) (parts : s.Parts d e) (silent : dumped second.said = [])
    (ended : second.next = .done ending) (answers : List Reply) :
    AgreeOrPart d e (play first answers) (play second answers) := by
  have hmem := mem_dumped_play mem answers
  refine .part hmem parts ?_
  obtain ⟨said, next⟩ := second
  obtain rfl : next = .done ending := ended
  rw [play_done, silent]
  exact List.length_pos_of_mem hmem

theorem agreeOrPart_leave (d e : Display) (m : Machine) :
    AgreeOrPart d e (Session.close ⟨o.showing d, m, .command⟩)
      (Session.close ⟨o.showing e, m, .command⟩) := by
  have hsilent := Utterance.dumped_farewell (o.showing d) m
  exact .agree ⟨rfl, rfl⟩ fun s hs => absurd hs (not_mem_of_silent hsilent s)

/-- After a run that is not continued the next command is asked for. -/
theorem question_stopRun {s : Session} (h : (afterRequest o m.stopRun).next = .wait s) :
    s.question = .command := by
  unfold afterRequest at h
  dsimp only [Machine.stopRun] at h
  split at h
  · cases h
  · cases h
  · next hanswer _ =>
    obtain rfl := Except.ok.inj hanswer
    obtain rfl := Next.wait.inj h
    rfl

/-- The end of input under two displays. -/
theorem agreeOrPart_close (h : d.format = .text ∨ d.format = e.format) (m : Machine)
    (question : Question) :
    AgreeOrPart d e (Session.close ⟨o.showing d, m, question⟩)
      (Session.close ⟨o.showing e, m, question⟩) := by
  cases question with
  | command => exact agreeOrPart_leave d e m
  | continuation =>
    rw [close_continuation, close_continuation]
    have hquestion : ∀ s, (afterRequest (o.showing d) m.stopRun).next = .wait s →
        s.question = .command := fun _ hs => question_stopRun hs
    have hcompare := compare_afterRequest (o := o) h m.stopRun
    generalize afterRequest (o.showing d) m.stopRun = first,
      afterRequest (o.showing e) m.stopRun = second at hcompare hquestion
    cases hcompare with
    | apart mem parts silent ended => exact agreeOrPart_of_apart mem parts silent ended _
    | together same clear =>
      cases same with
      | done same ending =>
        rw [play_done, play_done]
        exact .agree ⟨same, rfl⟩ clear
      | wait same m question =>
        obtain rfl : question = .command := hquestion _ rfl
        rw [play_nil, play_nil]
        exact (agreeOrPart_leave d e m).prepend same clear

/-- **A session dumps what parts two displays, or comes to the same under both.** -/
theorem agreeOrPart_play (h : d.format = .text ∨ d.format = e.format) {first second : Turn Next}
    (hcompare : Comparison o d e first second) (answers : List Reply) :
    AgreeOrPart d e (play first answers) (play second answers) := by
  cases hcompare with
  | apart mem parts silent ended => exact agreeOrPart_of_apart mem parts silent ended answers
  | together same clear =>
    cases same with
    | done same ending =>
      rw [play_done, play_done]
      exact .agree ⟨same, rfl⟩ clear
    | wait same m question =>
      -- turns that stay together put the same question about the same machine
      cases answers with
      | nil =>
        rw [play_nil, play_nil]
        exact (agreeOrPart_close h m question).prepend same clear
      | cons answer answers =>
        rw [play_cons, play_cons]
        exact (agreeOrPart_play h (compare_reply h m question answer) answers).prepend same clear

theorem proceed_cons (said : List Utterance) (s : Session) (answer : Reply)
    (answers : List Reply) : proceed ⟨said, .wait s⟩ (answer :: answers) =
      ⟨said ++ (proceed (s.reply answer) answers).said, (proceed (s.reply answer) answers).next⟩ :=
  rfl

/-- A session that dumps nothing that parts two displays stands at the same question under both,
whatever portion of its answers it has taken. -/
theorem together_proceed (h : d.format = .text ∨ d.format = e.format) {first second : Turn Next}
    (hcompare : Comparison o d e first second) (before after : List Reply)
    (hclear : ∀ s ∈ dumped (play first (before ++ after)).said, ¬ s.Parts d e) :
    Together o d e (proceed first before) (proceed second before) := by
  cases hcompare with
  | apart mem parts => exact absurd parts (hclear _ (mem_dumped_play mem _))
  | together same =>
    cases same with
    | done same ending =>
      cases before with
      | nil => exact .done same ending
      | cons => exact .done same ending
    | wait same m question =>
      cases before with
      | nil => exact .wait same m question
      | cons answer before =>
        rw [proceed_cons, proceed_cons]
        refine (together_proceed h (compare_reply h m question answer) before after ?_).prepend same
        -- what is dumped from here on is among what is dumped to the end
        intro s hs
        rw [List.cons_append, play_cons, Utterance.dumped_append] at hclear
        exact hclear s (List.mem_append_right _ hs)

end Session

end Accumulator
