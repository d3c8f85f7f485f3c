import FtpGateway.Session.Rfc959

/-!
# Replies reach the command they belong to

With an orderly backend a session reads, for every command, exactly the replies
to it, and passes exactly these on, as long as each command gets as many lines
as the code expects. It expects one line for every command but an upload's
`STOR`, and two for that. Where a backend sends another number, the session
falls out of step: a `STOR` refused without TLS leaves it waiting for a reply
that is not coming, and a `STOR` accepted without a port, or a multi-line reply,
leaves lines behind that answer the next command.
-/

namespace FtpGateway

open Str Interact

/-! ## In step at every point -/

/-- Between two commands: the client is read from, or the backend gets one. -/
def Event.betweenCommands : Event → Bool
  | ⟨.read .client, _⟩ => true
  | ⟨.line .client _, _⟩ => true
  | ⟨.write (.backend _) _, _⟩ => true
  | _ => false

def Event.isFromClient : Event → Bool
  | ⟨.read .client, _⟩ => true
  | ⟨.line .client _, _⟩ => true
  | _ => false

def Event.isBackendRead : Event → Bool
  | ⟨.read (.backend _), _⟩ => true
  | _ => false

/-- The client could not be written to. -/
def Event.isClientGone : Event → Bool
  | ⟨.write .client _, .error _⟩ => true
  | _ => false

section InStep

variable {cfg : SessionConfig} {b : Backend} {P : Prop} {h u : History Io} {s s₁ s₂ : Ctl}
  {e : Event}

/-- The client is read from between commands only. -/
theorem idle_of_isFromClient {s' : Ctl} (he : Event.isFromClient e = true)
    (ht : Trans cfg s e s') : s.phase = .idle := by
  cases ht with
  | clientRead a hph => exact hph
  | clientLine a hph hnext => exact hph
  | @read c a hc hno hlen hstop =>
      have hback := reads_isBackend hc
      cases c with
      | client => simp at hback
      | backend tls => cases he
  | @line c r rest ph a hc hr hnext =>
      have hback := reads_isBackend hc
      cases c with
      | client => simp at hback
      | backend tls => cases he
  | book he' => cases he' <;> cases he
  | _ => cases he

theorem isFromClient_of_isClientLine (he : Event.isClientLine e = true) :
    Event.isFromClient e = true := by
  unfold Event.isClientLine at he
  split at he
  · rfl
  · cases he

theorem due_nil_of_betweenCommands {s' : Ctl} {due : List Text}
    (he : Event.betweenCommands e = true) (ht : Trans cfg s e s') (hdue : Due cfg P due s.phase) :
    due = [] := by
  cases hfrom : Event.isFromClient e with
  | true =>
      rw [idle_of_isFromClient hfrom ht] at hdue
      exact hdue
  | false =>
  cases ht with
  | @read c a hc hno hlen hstop =>
      cases c with
      | client => cases hfrom
      | backend tls => cases he
  | @line c r rest ph a hc hr hnext =>
      cases c with
      | client => cases hfrom
      | backend tls => cases he
  | clientRead a hph => cases hfrom
  | clientLine a hph hnext => cases hfrom
  | write a hw =>
      generalize hph : s.phase = ph at hw hdue
      cases hw with
      | negotiate k banner => exact hdue
      | passive hstor hheld hb => exact hdue
      | forward hfwd hstor => exact hdue
      | stor hstor hheld => exact hdue
      | _ => cases he
  | book he' => cases he' <;> cases he
  | _ => cases he

theorem not_isOver_of_betweenCommands {s' : Ctl} (he : Event.betweenCommands e = true)
    (ht : Trans cfg s e s') : s.phase.isOver = false := by
  cases ht with
  | read a hc hno hlen hstop => exact not_isOver_of_reads hc
  | line a hc hr hnext => exact not_isOver_of_reads hc
  | clientRead a hph => rw [hph]; rfl
  | clientLine a hph hnext => rw [hph]; rfl
  | write a hw =>
      generalize hph : s.phase = ph at hw
      cases hw <;> first | rfl | cases he
  | book he' => cases he' <;> cases he
  | _ => cases he

/-- Between two commands, everything that was owed has been read. -/
theorem consumed_of_inStep {s' : Ctl} (hs : InStep cfg b P h s)
    (he : Event.betweenCommands e = true) (ht : Trans cfg s e s') :
    linesFrom Conn.isBackend h = b.owed h := by
  obtain ⟨due, hb⟩ := hs.agree (not_isOver_of_betweenCommands he ht)
  rw [hb.owed, due_nil_of_betweenCommands he ht hb.waits, List.append_nil]

/-- The session reads only while something is on its way, if no reply is
missing. -/
theorem waits_of_inStep {s' : Ctl} (hs : InStep cfg b False h s)
    (he : Event.isBackendRead e = true) (ht : Trans cfg s e s') :
    received Conn.isBackend h ≠ said (b.owed h) := by
  cases ht with
  | read a hc hno hlen hstop =>
      obtain ⟨due, hb⟩ := hs.agree (not_isOver_of_reads hc)
      rcases hb.waits.reads hc with ⟨l, rest, rfl, hl⟩ | ⟨-, hfalse, -⟩
      · intro hall
        rw [hb.heard, hb.owed, said_append] at hall
        have hsaid := List.append_cancel_left hall
        exact hno (hsaid ▸ List.mem_append_left _ (lf_mem_of_wholeLine hl))
      · exact hfalse.elim
  | book he' => cases he' <;> cases he
  | _ => cases he

/-! ## From a command to its answer -/

/-- Where passing a command on leaves the machine. -/
theorem forwarded_of_write {tls : Bool} {bytes : Bytes} {a : Except IoKind Unit}
    (hown : bytes ∉ ownCommands) (hA : b.answers h ⟨.write (.backend tls) bytes, a⟩ = true)
    (ht : Trans cfg s₁ ⟨.write (.backend tls) bytes, a⟩ s₂) :
    ∃ t, bytes = utf8 t ∧ ((s₂.phase = .forwarded t ∧ (isStor t = true → s₁.held = none))
      ∨ (s₂.phase = .storSent t ∧ isStor t = true ∧ s₁.held ≠ none)) := by
  obtain ⟨u, rfl⟩ : ∃ u, a = .ok u := by
    cases a with
    | ok u => exact ⟨u, rfl⟩
    | error k => cases hA
  cases ht with
  | write _ hw =>
      generalize hph : s₁.phase = ph at hw
      generalize hc : Conn.backend tls = c at hw
      cases hw with
      | negotiate k banner => exact absurd (by cases k <;> decide) hown
      | passive hstor hheld hb => exact absurd (by rcases hb with rfl | rfl <;> decide) hown
      | @forward t hfwd hstor => exact ⟨t, rfl, Or.inl ⟨rfl, hstor⟩⟩
      | @stor t hstor hheld => exact ⟨t, rfl, Or.inr ⟨rfl, hstor, hheld⟩⟩
      | _ => cases hc
  | book he => cases he

/-- With nothing left over from before and no further command, the lines since
the command are its replies. -/
theorem lines_eq_next {tls : Bool} {bytes : Bytes} {a : Except IoKind Unit}
    (hbefore : linesFrom Conn.isBackend h = b.owed h) (hquiet : writesTo Conn.isBackend u = [])
    {due : List Text} (howed : b.owed (h ++ ⟨.write (.backend tls) bytes, a⟩ :: u)
      = linesFrom Conn.isBackend (h ++ ⟨.write (.backend tls) bytes, a⟩ :: u) ++ due) :
    b.next h = linesFrom Conn.isBackend u ++ due := by
  have hsame : b.owed (h ++ ⟨.write (.backend tls) bytes, a⟩ :: u) = b.owed h ++ b.next h := by
    rw [← b.owed_write h tls bytes a]
    simp [Backend.owed, hquiet]
  rw [hsame, linesFrom_append, linesFrom_cons, hbefore] at howed
  simpa using howed

/-- A run of a session with an orderly backend, up to and with a command it
passes on. -/
structure AtCommand (cfg : SessionConfig) (b : Backend) (P : Prop) (h : History Io)
    (command : Event) (s₂ : Ctl) : Prop where
  path : Reaches cfg (h ++ [command]) s₂
  clean : linesFrom Conn.isBackend h = b.owed h
  sent : ∃ tls bytes a, command = ⟨.write (.backend tls) bytes, a⟩
  phase : ∃ t, s₂.phase = .forwarded t ∨ s₂.phase = .storSent t

theorem AtCommand.passing {command : Event} (hcmd : AtCommand cfg b P h command s₂) :
    Passing [] s₂.phase := by
  obtain ⟨t, hph | hph⟩ := hcmd.phase <;> rw [hph] <;> exact ⟨rfl, rfl⟩

/-- While a command is being answered, the session ends because the client is
gone, with the reply to `QUIT`, or for want of an upload's last reply. -/
theorem over_of_step {s' : Ctl} (hs : InStep cfg b P h s) (hpass : Passing u s.phase)
    (hline : Event.isClientLine e = false) (ht : Trans cfg s e s')
    (hgo : s.phase.isOver = false) (hover : s'.phase.isOver = true) :
    Event.isClientGone e = true
      ∨ (∃ t l, s.phase = .replying t l ∧ s'.phase = .ended ∧ e.writeOut Conn.isClient = some (utf8 l))
      ∨ (P ∧ ∃ t, s.phase = .finalReply t) := by
  have hstay : s'.phase = s.phase → False := fun heq => by
    rw [heq, hgo] at hover
    cases hover
  cases ht with
  | read a hc hno hlen hstop => exact (hstay (by cases a <;> rfl)).elim
  | @line c r rest ph a hc hr hnext =>
      obtain ⟨due, hb⟩ := hs.agree hgo
      rcases hb.next_line hc hr with ⟨l, due', -, hl, htext, -⟩ | ⟨hP, hlost, -⟩
      · exfalso
        rw [htext] at hnext
        have htold := hpass.told
        have hne := hl.ne_nil
        generalize s.phase = ph at hnext htold
        cases hnext <;> first | exact htold.elim | exact hne rfl | cases hover
      · exact Or.inr (Or.inr ⟨hP, hlost⟩)
  | clientRead a hph => exact (hstay rfl).elim
  | clientLine a hph hnext => cases hline
  | write a hw =>
      have htold := hpass.told
      cases a with
      | error k =>
          generalize hph : s.phase = ph at hw htold hgo
          cases hw <;> first | exact Or.inl rfl | exact htold.elim
      | ok x =>
          refine Or.inr (Or.inl ?_)
          generalize hph : s.phase = ph at hw htold hgo
          cases hw with
          | unconnected => exact htold.elim
          | closing b => cases hgo
          | negotiate k banner => exact htold.elim
          | greet banner => exact htold.elim
          | own hb => exact htold.elim
          | passive hstor hheld hb => exact htold.elim
          | forward hfwd hstor => exact htold.elim
          | stor hstor hheld => exact htold.elim
          | @reply t l =>
              refine ⟨t, l, rfl, ?_, rfl⟩
              simp only [onOk] at hover ⊢
              split at hover
              · rename_i hquit
                rw [if_pos hquit]
              · cases hover
          | storReply =>
              simp only [onOk] at hover
              repeat' split at hover
              all_goals cases hover
          | complete => cases hover
  | connected source hph => cases hover
  | startTls a hph hpend =>
      have htold := hpass.told
      rw [hph] at htold
      exact htold.elim
  | startDataTls a hph => cases a <;> cases hover
  | relay client run hph => cases hover
  | succeeded a hph hl => exact (hstay rfl).elim
  | allocate a hph hstor hheld => exact (hstay rfl).elim
  | release port a hph => exact (hstay rfl).elim
  | book he => exact (hstay rfl).elim

/-- By the client's next line, the client has been sent the replies to its
command, and all of them. -/
theorem AtCommand.answered {command : Event} (hcmd : AtCommand cfg b P h command s₂)
    (hbanner : OneLine cfg.maxBytes b.banner) (hp : Path (Trans cfg) s₂ u s)
    (hu : ∀ e ∈ u, Event.isClientLine e = false)
    (hall : Always (b.Orderly cfg P) (h ++ command :: u)) (hidle : s.phase = .idle) :
    writesTo Conn.isClient u = (b.next h).map utf8 := by
  obtain ⟨tls, bytes, a, rfl⟩ := hcmd.sent
  have hpass := passing_of_path hp hcmd.passing hu
  have hreach : Reaches cfg (h ++ ⟨.write (.backend tls) bytes, a⟩ :: u) s := by
    simpa using hcmd.path.append hp
  obtain ⟨due, hb⟩ := (inStep_of_path hbanner hreach hall).agree (by rw [hidle]; rfl)
  have hnil := hb.waits
  rw [hidle] at hnil
  obtain rfl : due = [] := hnil
  have hlines := lines_eq_next hcmd.clean hpass.quiet hb.owed
  have htold := hpass.told
  rw [hidle] at htold
  rw [hlines, List.append_nil]
  exact htold

/-- The last command of a session is answered too, unless the client is gone.
`hfed` keeps out the case of a reply that never comes. -/
theorem AtCommand.answered_at_end {command : Event} (hcmd : AtCommand cfg b P h command s₂)
    (hbanner : OneLine cfg.maxBytes b.banner) (hp : Path (Trans cfg) s₂ u s)
    (hu : ∀ e ∈ u, Event.isClientLine e = false)
    (hall : Always (b.Orderly cfg P) (h ++ command :: u))
    (hfed : ∀ u' s' t, Path (Trans cfg) s₂ u' s' → (∀ e ∈ u', Event.isClientLine e = false) →
      s'.phase = .finalReply t → ¬P)
    (hover : s.phase.isOver = true) :
    u.any Event.isClientGone = true
      ∨ (s.phase = .ended ∧ writesTo Conn.isClient u = (b.next h).map utf8) := by
  induction hp with
  | nil =>
      obtain ⟨t, hph | hph⟩ := hcmd.phase <;> rw [hph] at hover <;> cases hover
  | @snoc u s s' e hp ht ih =>
      have hu' : ∀ e ∈ u, Event.isClientLine e = false :=
        fun e he => hu e (List.mem_append_left _ he)
      have hall' : Always (b.Orderly cfg P) (h ++ command :: u) := by
        rw [← List.cons_append, ← List.append_assoc] at hall
        exact hall.of_append
      rw [List.any_append, writesTo_append, writesTo_cons, writesTo_nil]
      cases hgo : s.phase.isOver with
      | true =>
          rcases ih hu' hall' hgo with hgone | ⟨hended, htold⟩
          · exact Or.inl (by simp [hgone])
          · rcases step_of_isOver hgo ht with ⟨hsame, hsilent, -⟩ | ⟨l, a, hph, -, -⟩
            · exact Or.inr ⟨hsame.trans hended, by simp [hsilent, htold]⟩
            · rw [hended] at hph
              cases hph
      | false =>
          obtain ⟨tls, bytes, a, rfl⟩ := hcmd.sent
          have hreach : Reaches cfg (h ++ ⟨.write (.backend tls) bytes, a⟩ :: u) s := by
            simpa using hcmd.path.append hp
          have hstep := inStep_of_path hbanner hreach hall'
          have hpass := passing_of_path hp hcmd.passing hu'
          rcases over_of_step hstep hpass (hu e (by simp)) ht hgo hover with
            hgone | ⟨t, l, hph, hended, hsent⟩ | ⟨hP, t, hph⟩
          · exact Or.inl (by simp [hgone])
          · obtain ⟨due, hb⟩ := hstep.agree hgo
            have hnil := hb.waits
            have htold := hpass.told
            rw [hph] at hnil htold
            obtain rfl : due = [] := hnil
            have hlines : b.next h = linesFrom Conn.isBackend u := by
              simpa using lines_eq_next hcmd.clean hpass.quiet hb.owed
            refine Or.inr ⟨hended, ?_⟩
            rw [hlines, hsent]
            exact htold
          · exact absurd hP (hfed u s t hp hu' hph)

/-- The phases of a command that is passed on without a data path. -/
def Phase.isPlain : Phase → Bool
  | .forwarded _ | .replying _ _ | .idle | .closing _ | .ended => true
  | _ => false

theorem isPlain_step {s' : Ctl} (hplain : s.phase.isPlain = true)
    (hline : Event.isClientLine e = false) (ht : Trans cfg s e s') : s'.phase.isPlain = true := by
  cases ht with
  | read a hc hno hlen hstop => cases a <;> exact hplain
  | @line c r rest ph a hc hr hnext =>
      generalize s.phase.handed cfg r = r at hnext
      generalize s.phase = ph at hnext hplain
      cases hnext with
      | replyErr hany => rfl
      | replyElapsed hany => rfl
      | _ => first | rfl | cases hplain
  | clientRead a hph => exact hplain
  | clientLine a hph hnext => cases hline
  | write a hw =>
      generalize hph : s.phase = ph at hw hplain
      cases hw with
      | closing b => cases a <;> rfl
      | reply =>
          cases a with
          | error k => rfl
          | ok x =>
              simp only [onOk]
              split <;> rfl
      | _ => cases hplain
  | connected source hph => rw [hph] at hplain; cases hplain
  | startTls a hph hpend => rw [hph] at hplain; cases hplain
  | startDataTls a hph => rw [hph] at hplain; cases hplain
  | relay client run hph => rw [hph] at hplain; cases hplain
  | succeeded a hph hl => exact hplain
  | allocate a hph hstor hheld => exact hplain
  | release port a hph => exact hplain
  | book he => exact hplain

/-- A command that is passed on without a data path is answered without one. -/
theorem isPlain_of_path (hplain : s₂.phase.isPlain = true) (hp : Path (Trans cfg) s₂ u s)
    (hu : ∀ e ∈ u, Event.isClientLine e = false) : s.phase.isPlain = true := by
  induction hp with
  | nil => exact hplain
  | snoc hp ht ih =>
      exact isPlain_step (ih fun e he => hu e (List.mem_append_left _ he)) (hu _ (by simp)) ht

end InStep

/-! ## Whole runs -/

/-- By the end of `t` a command sent before it has been dealt with: the client
has sent its next line, or the session has ended with the client still there. -/
def Concluded (out : Outcome Leave Unit) (t : History Io) : Prop :=
  t.any Event.isClientLine = true
    ∨ ((∃ e, out = .exit e) ∧ t.any Event.isClientGone = false)

section Runs

variable {w : World} {cfg : SessionConfig} {n : Nat} {b : Backend} {P : Prop}

theorem consumed_of_orderly (hbanner : OneLine cfg.maxBytes b.banner)
    (hall : Always (b.Orderly cfg P) (history w cfg n)) {h t : History Io} {e : Event}
    (heq : history w cfg n = h ++ e :: t) (he : Event.betweenCommands e = true) :
    linesFrom Conn.isBackend h = b.owed h := by
  obtain ⟨s₁, s₂, s, hs₁, hstep, -⟩ := session_at heq
  rw [heq] at hall
  exact consumed_of_inStep (inStep_of_path hbanner hs₁ hall.of_append) he hstep

theorem waits_of_orderly (hbanner : OneLine cfg.maxBytes b.banner)
    (hall : Always (b.Orderly cfg False) (history w cfg n)) {h t : History Io} {e : Event}
    (heq : history w cfg n = h ++ e :: t) (he : Event.isBackendRead e = true) :
    received Conn.isBackend h ≠ said (b.owed h) := by
  obtain ⟨s₁, s₂, s, hs₁, hstep, -⟩ := session_at heq
  rw [heq] at hall
  exact waits_of_inStep (inStep_of_path hbanner hs₁ hall.of_append) he hstep

/-- What the client is sent for a command are the replies to it. At the end of a
session, `hfed` keeps out an upload whose last reply is missing. -/
theorem answered_of_orderly (hbanner : OneLine cfg.maxBytes b.banner)
    (hall : Always (b.Orderly cfg P) (history w cfg n)) {h t : History Io} {e : Event}
    {bytes : Bytes} (heq : history w cfg n = h ++ e :: t)
    (he : e.writeOut Conn.isBackend = some bytes) (hown : bytes ∉ ownCommands)
    (hsettled : Concluded (sessionRun w cfg n).1 t)
    (hfed : t.any Event.isClientLine = false → P →
      ¬(isStorCommand bytes = true ∧ heldPort h ≠ none)) :
    writesTo Conn.isClient (untilNextLine t) = (b.next h).map utf8 := by
  obtain ⟨c, a, hc, rfl⟩ := Event.eq_write he
  obtain ⟨tls, rfl⟩ := Conn.eq_backend hc
  obtain ⟨s₁, s₂, s, hs₁, hstep, hrest, hended⟩ := session_at heq
  have hclean := consumed_of_orderly hbanner hall heq rfl
  rw [heq] at hall
  have hA : b.answers h ⟨.write (.backend tls) bytes, a⟩ = true :=
    (hall h ⟨.write (.backend tls) bytes, a⟩ t rfl).1
  obtain ⟨line, rfl, hphase⟩ := forwarded_of_write hown hA hstep
  have hcmd : AtCommand cfg b P h ⟨.write (.backend tls) (utf8 line), a⟩ s₂ :=
    ⟨hs₁.snoc hstep, hclean, ⟨tls, utf8 line, a, rfl⟩, line,
      hphase.imp (fun hf => hf.1) fun hf => hf.1⟩
  have hu : ∀ e ∈ untilNextLine t, Event.isClientLine e = false :=
    fun e he => not_isClientLine_of_mem he
  have hsplit := untilNextLine_append_dropWhile t
  rw [← hsplit] at hrest hall
  obtain ⟨s₃, hstretch, hafter⟩ := hrest.split
  rw [← List.cons_append, ← List.append_assoc] at hall
  cases hnext : t.dropWhile (fun e => !Event.isClientLine e) with
  | cons x v =>
      have hx := isClientLine_of_dropWhile hnext
      rw [hnext] at hafter
      obtain ⟨s₄, s₅, hnil, hread, -⟩ := (Path.at (h := []) hafter)
      obtain rfl := hnil.eq_of_nil
      have hidle : s₄.phase = .idle :=
        idle_of_isFromClient (isFromClient_of_isClientLine hx) hread
      exact hcmd.answered hbanner hstretch hu hall.of_append hidle
  | nil =>
      have hnone := any_isClientLine_of_dropWhile hnext
      rw [hnext] at hafter
      obtain rfl := hafter.eq_of_nil
      have hsame : untilNextLine t = t := by simpa [hnext] using hsplit
      obtain ⟨⟨leave, hexit⟩, hhere⟩ : (∃ e, (sessionRun w cfg n).1 = .exit e)
          ∧ t.any Event.isClientGone = false := by
        rcases hsettled with hline | hexit
        · rw [hnone] at hline
          cases hline
        · exact hexit
      have hcomes : ∀ u' s' t', Path (Trans cfg) s₂ u' s' →
          (∀ e ∈ u', Event.isClientLine e = false) → s'.phase = .finalReply t' → ¬P := by
        intro u' s' t' hp hu' hfinal hP
        rcases hphase with ⟨hfwd, -⟩ | ⟨-, hstor, hheld⟩
        · have hplain := isPlain_of_path (by rw [hfwd]; rfl) hp hu'
          rw [hfinal] at hplain
          cases hplain
        · exact hfed hnone hP ⟨by rwa [isStorCommand_utf8], held_eq_heldPort hs₁ ▸ hheld⟩
      have hph : s.phase = .ended := hended _ hexit
      rcases hcmd.answered_at_end hbanner hstretch hu hall.of_append hcomes (by rw [hph]; rfl) with
        hgone | ⟨-, htold⟩
      · rw [hsame, hhere] at hgone
        cases hgone
      · exact htold

end Runs

/-! ## Backends with single-line replies -/

/-- A backend that answers in order, each command with single-line replies. -/
structure Backend.SpeaksSingleLines (b : Backend) (H : History Io) : Prop where
  banner : isSingleReply b.banner = true
  answers : Always (fun h e => b.answers h e = true) H
  replies : Always (fun h e => b.singleReplies h e = true) H

/-- No line of the backend is longer than `max_command_line_bytes`. -/
structure Backend.WithinLimit (b : Backend) (cfg : SessionConfig) (H : History Io) : Prop where
  banner : b.banner.all (fun l => (utf8 l).length ≤ cfg.maxBytes) = true
  replies : Always (fun h e => b.fits cfg h e = true) H

theorem Backend.SpeaksSingleLines.oneLine {b : Backend} {cfg : SessionConfig} {H : History Io}
    (hb : b.SpeaksSingleLines H) (hfit : b.WithinLimit cfg H) :
    OneLine cfg.maxBytes b.banner := by
  obtain ⟨t, ht, -, hwhole⟩ := oneLine_of_isSingleReply hb.banner hfit.banner
  exact ⟨t, ht, hwhole⟩

theorem Backend.SpeaksSingleLines.orderly {b : Backend} {cfg : SessionConfig} {P : Prop}
    {H : History Io} (hb : b.SpeaksSingleLines H) (hfit : b.WithinLimit cfg H)
    (hportless : Always (fun h e => b.refusesPortless h e = true) H)
    (hrefused : cfg.backendTls = true ∨ P ∨ Always (fun h e => b.acceptsStor h e = true) H) :
    Always (b.Orderly cfg P) H := by
  intro h e t heq
  have hsingle := hb.replies h e t heq
  have hfits := hfit.replies h e t heq
  have hneg : b.Negotiates cfg h e :=
    Backend.negotiates_of_brief (Backend.negotiatesBriefly_of_single hsingle) hfits
  refine ⟨hb.answers h e t heq,
    Backend.shape_of_single hneg (fun _ => hsingle) hfits (hportless h e t heq) ?_⟩
  exact hrefused.imp_right fun hor => hor.imp_right fun haccepts => haccepts h e t heq

/-! ## Uploads with a port -/

/-- The client sends a `STOR` only while it has a port. -/
def storHasPort (h : History Io) : Event → Bool
  | ⟨.line .client (.text t), _⟩ => !isStor t || (heldPort h).isSome
  | _ => true

/-- The client's command, while it has not been passed on. -/
def Phase.unsent : Phase → Option Text
  | .command t => some t
  | .ownReply t => some t
  | _ => none

/-- Until a `STOR` is passed on, nothing happens to its port. -/
theorem unsent_step {cfg : SessionConfig} {s s' : Ctl} {e : Event} {t : Text}
    (ht : Trans cfg s e s') (hline : Event.isClientLine e = false)
    (hun : s'.phase.unsent = some t) (hstor : isStor t = true) :
    s.phase.unsent = some t ∧ s'.held = s.held := by
  cases ht with
  | read a hc hno hlen hstop => cases a <;> exact ⟨hun, rfl⟩
  | @line c r rest ph a hc hr hnext =>
      generalize s.phase.handed cfg r = r at hnext
      refine ⟨?_, rfl⟩
      generalize s.phase = ph₀ at hnext
      cases hnext with
      | ownReply hne hend => exact hun
      | banner hne =>
          simp only at hun
          split at hun <;> cases hun
      | @negotiated k banner _ _ rest hends =>
          cases k with
          | auth =>
              simp only [Phase.negotiated] at hun
              split at hun <;> cases hun
          | pbsz => cases hun
          | prot => cases hun
      | _ => cases hun
  | clientRead a hph => exact ⟨hun, rfl⟩
  | clientLine a hph hnext => cases hline
  | write a hw =>
      refine ⟨?_, rfl⟩
      generalize s.phase = ph₀ at hw
      cases a with
      | error k => cases hw <;> cases hun
      | ok x =>
          cases hw with
          | passive hstor hheld hb => exact hun
          | reply =>
              simp only [onOk] at hun
              split at hun <;> cases hun
          | storReply =>
              simp only [onOk] at hun
              repeat' split at hun
              all_goals cases hun
          | _ => cases hun
  | connected source hph => cases hun
  | startTls a hph hpend => cases a <;> cases hun
  | startDataTls a hph => cases a <;> cases hun
  | relay client run hph => cases hun
  | succeeded a hph hl => exact ⟨hun, rfl⟩
  | allocate a hph hno hheld =>
      rw [hph] at hun
      obtain rfl := Option.some.inj hun
      rw [hstor] at hno
      cases hno
  | release port a hph =>
      rcases hph with hph | hph | ⟨t', hph, hno⟩ <;> rw [hph] at hun <;>
        simp only [Phase.unsent, reduceCtorEq, Option.some.injEq] at hun
      subst hun
      rw [hstor] at hno
      cases hno
  | book he => exact ⟨hun, rfl⟩

/-- With a port at every `STOR`, each `STOR` still has it when its turn comes. -/
theorem held_of_unsent {cfg : SessionConfig} {h : History Io} {s : Ctl} {t : Text}
    (hp : Reaches cfg h s) (hport : Always (fun h e => storHasPort h e = true) h)
    (hun : s.phase.unsent = some t) (hstor : isStor t = true) : s.held ≠ none := by
  induction hp with
  | nil => cases hun
  | @snoc h s s' e hp ht ih =>
      obtain ⟨hport, hnow⟩ := always_append_single.mp hport
      cases hline : Event.isClientLine e with
      | false =>
          obtain ⟨hbefore, hsame⟩ := unsent_step ht hline hun hstor
          rw [hsame]
          exact ih hport hbefore
      | true =>
          have hidle := idle_of_isFromClient (isFromClient_of_isClientLine hline) ht
          cases ht with
          | clientLine a hph hnext =>
              cases hnext with
              | line hne =>
                  obtain rfl := Option.some.inj hun
                  simp only [storHasPort, hstor, Bool.not_true, Bool.false_or] at hnow
                  rw [← held_eq_heldPort hp] at hnow
                  exact Option.isSome_iff_ne_none.mp hnow
              | _ => cases hun
          | line a hc hr hnext => rw [hidle] at hc; cases hc
          | book he => cases he <;> cases hline
          | _ => cases hline

/-- With a port at every `STOR`, no `STOR` is passed on without one. -/
theorem refusesPortless_of_storHasPort {w : World} {cfg : SessionConfig} {n : Nat} {b : Backend}
    (hport : Always (fun h e => storHasPort h e = true) (history w cfg n)) :
    Always (fun h e => b.refusesPortless h e = true) (history w cfg n) := by
  intro h e t heq
  obtain ⟨s₁, s₂, s, hs₁, hstep, -⟩ := session_at heq
  rw [heq] at hport
  unfold Backend.refusesPortless
  split
  · rename_i tls bytes a
    cases hstor : isStorCommand bytes with
    | false => rfl
    | true =>
        cases hstep with
        | write _ hw =>
            generalize hph : s₁.phase = ph at hw
            generalize hc : Conn.backend tls = c at hw
            cases hw with
            | negotiate k banner => cases k <;> exact absurd hstor (by decide)
            | passive _ _ hb =>
                rw [withCrLf, isStorCommand_utf8] at hstor
                rcases hb with rfl | rfl <;> exact absurd hstor (by decide)
            | @forward t hfwd hnone =>
                rw [isStorCommand_utf8] at hstor
                exact absurd (hnone hstor)
                  (held_of_unsent hs₁ hport.of_append (by rw [hph]; rfl) hstor)
            | stor _ hheld =>
                rw [held_eq_heldPort hs₁] at hheld
                simp [Option.isSome_iff_ne_none.mpr hheld]
            | _ => cases hc
        | book he => cases he
  · rfl

/-- Replies consumed are replies owed, at every point of a run: after each command
everything the backend sent for it has been read, a read of the backend waits for
something that is on its way, and a command is answered with the replies to it. -/
structure StaysInStep (b : Backend) (run : Outcome Leave Unit × History Io) : Prop where
  consumed : ∀ h e t, run.2 = h ++ e :: t → Event.betweenCommands e = true →
    linesFrom Conn.isBackend h = b.owed h
  waits : ∀ h e t, run.2 = h ++ e :: t → Event.isBackendRead e = true →
    received Conn.isBackend h ≠ said (b.owed h)
  answered : ∀ h (e : Event) t bytes, run.2 = h ++ e :: t → e.writeOut Conn.isBackend = some bytes →
    bytes ∉ ownCommands → Concluded run.1 t →
    writesTo Conn.isClient (untilNextLine t) = (b.next h).map utf8

/-- **The control connection stays in step across uploads**, whatever commands
the client sends, with TLS; and without TLS too, as long as no upload is
refused. -/
theorem control_stays_in_step (w : World) (cfg : SessionConfig) (n : Nat) (b : Backend)
    (hb : b.SpeaksSingleLines (history w cfg n))
    (hport : Always (fun h e => storHasPort h e = true) (history w cfg n))
    (hfit : b.WithinLimit cfg (history w cfg n))
    (haccepts : cfg.backendTls = true
      ∨ Always (fun h e => b.acceptsStor h e = true) (history w cfg n)) :
    StaysInStep b (sessionRun w cfg n) := by
  have hall : Always (b.Orderly cfg False) (history w cfg n) :=
    hb.orderly hfit (refusesPortless_of_storHasPort hport) (haccepts.imp_right Or.inr)
  have hone := hb.oneLine hfit
  exact {
    consumed := fun h e t heq he => consumed_of_orderly hone hall heq he
    waits := fun h e t heq he => waits_of_orderly hone hall heq he
    answered := fun h e t bytes heq he hown hsettled =>
      answered_of_orderly hone hall heq he hown hsettled fun _ hfalse => hfalse.elim }

/-- A backend that says `lines` in order, one reply to a command. -/
def Backend.saying (banner : String) (replies : List (List String)) : Backend where
  banner := [banner.toList]
  replies := fun k => (replies.getD k []).map String.toList

theorem Backend.speaksSingleLines_of_check {b : Backend} {H : History Io}
    (hcheck : (isSingleReply b.banner && checkFrom b.answers [] H
      && checkFrom b.singleReplies [] H) = true) : b.SpeaksSingleLines H := by
  obtain ⟨hfirst, hreplies⟩ := Bool.and_eq_true_iff.mp hcheck
  obtain ⟨hbanner, hanswers⟩ := Bool.and_eq_true_iff.mp hfirst
  exact ⟨hbanner, always_of_check hanswers, always_of_check hreplies⟩

/-- A refused upload and one more command, over TLS. -/
def refusedUploadTls : Script where
  client := [Script.chunk "PASV\r\nSTOR a\r\nNOOP\r\n".toList]
  backend := ["220 hi\r\n", "234 go\r\n", "200 ok\r\n", "200 ok\r\n",
    "227 ok (10,0,0,2,8,8)\r\n", "550 no\r\n", "200 noop\r\n"].map
    fun reply => Script.chunk reply.toList
  data := sampleArrival
  relay := ⟨0, []⟩

def refusingTls : Backend := .saying "220 hi\r\n" [["234 go\r\n"], ["200 ok\r\n"],
  ["200 ok\r\n"], ["227 ok (10,0,0,2,8,8)\r\n"], ["550 no\r\n"], ["200 noop\r\n"]]

theorem control_stays_in_step_tls :
    refusingTls.SpeaksSingleLines (history refusedUploadTls.world (sampleSession true) 4)
      ∧ StaysInStep refusingTls (sessionRun refusedUploadTls.world (sampleSession true) 4) := by
  have hb : refusingTls.SpeaksSingleLines
      (history refusedUploadTls.world (sampleSession true) 4) :=
    Backend.speaksSingleLines_of_check (by decide +kernel)
  have hfit : refusingTls.WithinLimit (sampleSession true)
      (history refusedUploadTls.world (sampleSession true) 4) :=
    ⟨by decide +kernel, always_of_check (by decide +kernel)⟩
  exact ⟨hb, control_stays_in_step _ _ _ _ hb (always_of_check (by decide +kernel)) hfit
    (Or.inl rfl)⟩

/-- The same without TLS. Nothing comes after the refusal. -/
def refusedUpload : Script where
  client := [Script.chunk "PASV\r\nSTOR a\r\nNOOP\r\n".toList]
  backend := ["220 hi\r\n", "227 ok (10,0,0,2,8,8)\r\n", "550 no\r\n"].map
    fun reply => Script.chunk reply.toList
  data := sampleArrival
  relay := ⟨0, [⟨1, .up, [.read [], .shut], [.read [], .shut]⟩]⟩

def refusing : Backend :=
  .saying "220 hi\r\n" [["227 ok (10,0,0,2,8,8)\r\n"], ["550 no\r\n"], ["200 noop\r\n"]]

theorem split_at {H : History Io} {k : Nat} (hk : k < H.length) :
    H = H.take k ++ H.get ⟨k, hk⟩ :: H.drop (k + 1) := by
  simp

/-- **A refused upload without TLS leaves the session waiting** for a reply that
is not owed. -/
theorem refused_upload_out_of_step :
    refusing.SpeaksSingleLines (history refusedUpload.world (sampleSession false) 2)
      ∧ Always (fun h e => storHasPort h e = true)
        (history refusedUpload.world (sampleSession false) 2)
      ∧ ¬StaysInStep refusing (sessionRun refusedUpload.world (sampleSession false) 2) := by
  refine ⟨Backend.speaksSingleLines_of_check (by decide +kernel),
    always_of_check (by decide +kernel), fun hstays => ?_⟩
  have hwaits := hstays.waits _ _ _ (split_at (k := 28) (by decide +kernel)) (by decide +kernel)
  exact absurd (by decide +kernel) hwaits

/-! ## `STOR` without a port -/

/-- Between two commands nothing is written. -/
theorem silent_of_resting {cfg : SessionConfig} {s s' : Ctl} {e : Event}
    (hrest : s.phase = .idle ∨ s.phase = .ended) (hline : Event.isClientLine e = false)
    (ht : Trans cfg s e s') :
    (∀ on, e.writeOut on = none) ∧ (s'.phase = .idle ∨ s'.phase = .ended) := by
  have habsurd : ∀ {ph}, s.phase = ph → ph ≠ .idle → ph ≠ .ended → False := by
    rintro ph hph hidle hended
    rcases hrest with hat | hat
    · exact hidle (hph ▸ hat)
    · exact hended (hph ▸ hat)
  cases ht with
  | clientRead a hph => exact ⟨fun _ => rfl, hrest⟩
  | clientLine a hph hnext => cases hline
  | release port a hrel => exact ⟨fun _ => rfl, hrest⟩
  | book hbook => exact ⟨fun on => (hbook.silent on).1, hrest⟩
  | read a hc hno hlen hstop => rcases hrest with hat | hat <;> rw [hat] at hc <;> cases hc
  | line a hc hr hnext => rcases hrest with hat | hat <;> rw [hat] at hc <;> cases hc
  | write a hw =>
      generalize s.phase = ph at hw hrest
      rcases hrest with rfl | rfl <;> cases hw
  | connected source hph => exact (habsurd hph (by simp) (by simp)).elim
  | startTls a hph hpend => exact (habsurd hph (by simp) (by simp)).elim
  | startDataTls a hph => exact (habsurd hph (by simp) (by simp)).elim
  | relay client run hph => exact (habsurd hph (by simp) (by simp)).elim
  | succeeded a hph hl => exact (habsurd hph (by simp) (by simp)).elim
  | allocate a hph hstor hheld => exact (habsurd hph (by simp) (by simp)).elim

/-- Where a line of the client, for which nothing is to be opened, has got by the
end of the stretch `u` after it: it is in hand, the gateway has answered it, or
it has been passed on. -/
inductive Handled (cfg : SessionConfig) (h : History Io) (line : Text) (s : Ctl) :
    History Io → Prop where
  | inHand {u : History Io} (hph : s.phase = .command line)
      (hheld : isStor line = true → s.held = none) (hclient : writesTo Conn.isClient u = [])
      (hbackend : writesTo Conn.isBackend u = []) : Handled cfg h line s u
  | own {u : History Io} {b : Bytes} (hown : IsOwnReply cfg b)
      (hwhy : isForwardable line = true →
        b = syntaxError ∧ hasEmbeddedLineBreak (stripped line) = true)
      (hph : s.phase = .idle ∨ s.phase = .ended) (hclient : writesTo Conn.isClient u = [b])
      (hbackend : writesTo Conn.isBackend u = []) : Handled cfg h line s u
  | sent {u₁ u₂ : History Io} {e : Event} (he : e.writeOut Conn.isBackend = some (utf8 line))
      (hfwd : isForwardable line = true) (hclient : writesTo Conn.isClient u₁ = [])
      (hbackend : writesTo Conn.isBackend u₁ = [])
      (hheld : isStor line = true → heldPort (h ++ u₁) = none) :
      Handled cfg h line s (u₁ ++ e :: u₂)

theorem Handled.step {cfg : SessionConfig} {h u : History Io} {line : Text} {s s' : Ctl}
    {e : Event} (hhandled : Handled cfg h line s u) (hp : Reaches cfg (h ++ u) s)
    (hline : Event.isClientLine e = false) (ht : Trans cfg s e s') :
    Handled cfg h line s' (u ++ [e]) := by
  cases hhandled with
  | sent he hfwd hclient hbackend hheld =>
      rw [List.append_assoc, List.cons_append]
      exact .sent he hfwd hclient hbackend hheld
  | own hown hwhy hph hclient hbackend =>
      obtain ⟨hsilent, hph'⟩ := silent_of_resting hph hline ht
      exact .own hown hwhy hph' (by simp [hsilent, hclient]) (by simp [hsilent, hbackend])
  | inHand hph hheld hclient hbackend =>
      have hstay : (∀ on, e.writeOut on = none) → s'.phase = s.phase →
          (isStor line = true → s'.held = none) → Handled cfg h line s' (u ++ [e]) :=
        fun hsilent hsame hheld =>
          .inHand (hsame.trans hph) hheld (by simp [hsilent, hclient]) (by simp [hsilent, hbackend])
      cases ht with
      | write a hw =>
          generalize hat : s.phase = ph at hw
          rw [hph] at hat
          subst hat
          cases hw with
          | own hown hwhy =>
              refine .own hown (fun hfwd => hwhy hfwd hheld) ?_ (by simp [hclient])
                (by simp [hbackend])
              cases a with
              | ok _ => exact Or.inl rfl
              | error k => exact Or.inr rfl
          | passive hstor hport hb => exact absurd (hheld hstor) hport
          | stor hstor hport => exact absurd (hheld hstor) hport
          | forward hfwd _ =>
              refine .sent (by simp [SessionConfig.control]) hfwd hclient hbackend fun hstor => ?_
              rw [← held_eq_heldPort hp, hheld hstor]
      | clientLine a hat hnext => cases hline
      | clientRead a hat => exact hstay (fun _ => rfl) rfl hheld
      | allocate a hat hno hnone =>
          rw [hph] at hat
          obtain rfl := Phase.command.inj hat
          exact hstay (fun _ => rfl) rfl fun hstor => absurd hstor (by simp [hno])
      | release port a hrel => exact hstay (fun _ => rfl) rfl fun _ => rfl
      | book hbook => exact hstay (fun on => (hbook.silent on).1) rfl hheld
      | read a hc hno hlen hstop => rw [hph] at hc; cases hc
      | line a hc hr hnext => rw [hph] at hc; cases hc
      | connected source hat => rw [hph] at hat; cases hat
      | startTls a hat hpend => rw [hph] at hat; cases hat
      | startDataTls a hat => rw [hph] at hat; cases hat
      | relay client run hat => rw [hph] at hat; cases hat
      | succeeded a hat hl => rw [hph] at hat; cases hat

/-- The run lemma, up to the client's next line. -/
theorem handled_of_path {cfg : SessionConfig} {h u : History Io} {line : Text} {s₀ s : Ctl}
    (hreach : Reaches cfg h s₀) (hph : s₀.phase = .command line)
    (hheld : isStor line = true → s₀.held = none) (hp : Path (Trans cfg) s₀ u s)
    (hu : ∀ e ∈ u, Event.isClientLine e = false) : Handled cfg h line s u := by
  induction hp with
  | nil => exact .inHand hph hheld rfl rfl
  | snoc hp ht ih =>
      exact (ih fun e he => hu e (List.mem_append_left _ he)).step (hreach.append hp)
        (hu _ (by simp)) ht

theorem untilNextLine_append {u t : History Io} (hu : ∀ e ∈ u, Event.isClientLine e = false) :
    untilNextLine (u ++ t) = u ++ untilNextLine t :=
  List.takeWhile_append_of_pos fun e he => by simp [hu e he]

/-- A line of the client's is taken in hand. -/
theorem command_of_clientLine {cfg : SessionConfig} {s s' : Ctl} {u : Unit} {line : Text}
    (hne : line ≠ []) (ht : Trans cfg s ⟨.line .client (.text line), u⟩ s') :
    s'.phase = .command line ∧ s'.held = s.held := by
  have hidle := idle_of_isFromClient rfl ht
  generalize he : (⟨.line .client (.text line), u⟩ : Event) = e at ht
  cases ht with
  | clientLine a hph hnext =>
      cases he
      cases hnext with
      | line hne' => exact ⟨rfl, rfl⟩
      | eof => exact absurd rfl hne
  | line a hc hr hnext => rw [hidle] at hc; cases hc
  | book hbook => cases hbook <;> cases he
  | _ => cases he

/-- Once it has been dealt with, such a line was answered or passed on. -/
theorem handled_of_concluded {w : World} {cfg : SessionConfig} {n : Nat} {h t : History Io}
    {u : Unit} {line : Text} (heq : history w cfg n = h ++ ⟨.line .client (.text line), u⟩ :: t)
    (hne : line ≠ []) (hheld : isStor line = true → heldPort h = none)
    (hdone : Concluded (sessionRun w cfg n).1 t) :
    ∃ s, Handled cfg (h ++ [⟨.line .client (.text line), u⟩]) line s (untilNextLine t)
      ∧ s.phase ≠ .command line := by
  obtain ⟨s₁, s₂, s, hs₁, hstep, hrest, hended⟩ := session_at heq
  obtain ⟨hph, hsame⟩ := command_of_clientLine hne hstep
  have hnone : isStor line = true → s₂.held = none := fun hstor => by
    rw [hsame, held_eq_heldPort hs₁, hheld hstor]
  have hu : ∀ e ∈ untilNextLine t, Event.isClientLine e = false :=
    fun e he => not_isClientLine_of_mem he
  rw [← untilNextLine_append_dropWhile t] at hrest
  obtain ⟨s₃, hstretch, hafter⟩ := hrest.split
  refine ⟨s₃, handled_of_path (hs₁.snoc hstep) hph hnone hstretch hu, ?_⟩
  cases hnext : t.dropWhile (fun e => !Event.isClientLine e) with
  | cons x v =>
      have hx := isClientLine_of_dropWhile hnext
      rw [hnext] at hafter
      obtain ⟨s₄, s₅, hnil, hread, -⟩ := (Path.at (h := []) hafter)
      obtain rfl := hnil.eq_of_nil
      rw [idle_of_isFromClient (isFromClient_of_isClientLine hx) hread]
      simp
  | nil =>
      rw [hnext] at hafter
      obtain rfl := hafter.eq_of_nil
      have hnone := any_isClientLine_of_dropWhile hnext
      rcases hdone with hline | ⟨⟨leave, hexit⟩, -⟩
      · rw [hnone] at hline
        cases hline
      · rw [hended _ hexit]
        simp

theorem Concluded.tail {out : Outcome Leave Unit} {u t : History Io} {e : Event}
    (hdone : Concluded out (u ++ e :: t)) (hu : ∀ x ∈ u, Event.isClientLine x = false)
    (he : Event.isClientLine e = false) : Concluded out t := by
  have hquiet : u.any Event.isClientLine = false :=
    List.any_eq_false.mpr fun x hx => by simp [hu x hx]
  rcases hdone with hline | ⟨hexit, hhere⟩
  · simp only [List.any_append, List.any_cons, hquiet, he, Bool.false_or] at hline
    exact Or.inl hline
  · simp only [List.any_append, List.any_cons, Bool.or_eq_false_iff] at hhere
    exact Or.inr ⟨hexit, hhere.2.2⟩

/-- A `STOR` without a port gets one final reply. It is passed on, as is every other
command that is the backend's to answer, and gets what the backend says to it (`answered`);
the gateway answers any other command itself (`own`); and by the client's next line an
upload through a port has been answered too (`told`). -/
structure PortlessStorInStep (cfg : SessionConfig) (b : Backend)
    (run : Outcome Leave Unit × History Io) : Prop where
  final : ∀ h t u line, run.2 = h ++ ⟨.line .client (.text line), u⟩ :: t →
    isStor line = true → heldPort h = none → Concluded run.1 t →
    ∃ reply, writesTo Conn.isClient (untilNextLine t) = [reply]
      ∧ (reply.head? = some '4'.toUInt8 ∨ reply.head? = some '5'.toUInt8)
  answered : ∀ h t u line, run.2 = h ++ ⟨.line .client (.text line), u⟩ :: t →
    isForwardable line = true → hasEmbeddedLineBreak (stripped line) = false →
    (isStor line = true → heldPort h = none) → Concluded run.1 t →
    writesTo Conn.isBackend (untilNextLine t) = [utf8 line]
      ∧ writesTo Conn.isClient (untilNextLine t) = (b.next h).map utf8
  own : ∀ h t u line, run.2 = h ++ ⟨.line .client (.text line), u⟩ :: t → line ≠ [] →
    isForwardable line = false → Concluded run.1 t →
    writesTo Conn.isBackend (untilNextLine t) = []
      ∧ ∃ reply, IsOwnReply cfg reply ∧ writesTo Conn.isClient (untilNextLine t) = [reply]
  told : ∀ h (e : Event) t bytes, run.2 = h ++ e :: t →
    e.writeOut Conn.isBackend = some bytes → bytes ∉ ownCommands →
    t.any Event.isClientLine = true →
    writesTo Conn.isClient (untilNextLine t) = (b.next h).map utf8

/-- After a command that was passed on, the backend gets nothing more before the
client's next line. -/
theorem quiet_of_orderly {w : World} {cfg : SessionConfig} {n : Nat} {b : Backend} {P : Prop}
    (hall : Always (b.Orderly cfg P) (history w cfg n)) {h t : History Io} {e : Event}
    {bytes : Bytes} (heq : history w cfg n = h ++ e :: t)
    (he : e.writeOut Conn.isBackend = some bytes) (hown : bytes ∉ ownCommands) :
    writesTo Conn.isBackend (untilNextLine t) = [] := by
  obtain ⟨c, a, hc, rfl⟩ := Event.eq_write he
  obtain ⟨tls, rfl⟩ := Conn.eq_backend hc
  obtain ⟨s₁, s₂, s, hs₁, hstep, hrest, -⟩ := session_at heq
  rw [heq] at hall
  have hA : b.answers h ⟨.write (.backend tls) bytes, a⟩ = true :=
    (hall h ⟨.write (.backend tls) bytes, a⟩ t rfl).1
  obtain ⟨line, rfl, hphase⟩ := forwarded_of_write hown hA hstep
  have hpass : Passing [] s₂.phase := by
    rcases hphase with ⟨hph, -⟩ | ⟨hph, -⟩ <;> rw [hph] <;> exact ⟨rfl, rfl⟩
  rw [← untilNextLine_append_dropWhile t] at hrest
  obtain ⟨s₃, hstretch, -⟩ := hrest.split
  exact (passing_of_path hstretch hpass fun e he => not_isClientLine_of_mem he).quiet

theorem exists_of_untilNextLine {t u₁ u₂ : History Io} {e : Event}
    (hsplit : untilNextLine t = u₁ ++ e :: u₂) : ∃ t', t = u₁ ++ e :: t' := by
  refine ⟨u₂ ++ t.dropWhile (fun e => !Event.isClientLine e), ?_⟩
  rw [← List.cons_append, ← List.append_assoc, ← hsplit, untilNextLine_append_dropWhile]

/-- The reply that is next does not change until something is passed on. -/
theorem Backend.next_of_quiet (b : Backend) (h : History Io) {t : History Io} {e : Event}
    (he : e.writeOut Conn.isBackend = none) (ht : writesTo Conn.isBackend t = []) :
    b.next (h ++ [e] ++ t) = b.next h := by
  simp [Backend.next, he, ht]

/-- What follows a line that is passed on. -/
theorem sent_of_orderly {w : World} {cfg : SessionConfig} {n : Nat} {b : Backend}
    (hbanner : OneLine cfg.maxBytes b.banner)
    (hall : Always (b.Orderly cfg True) (history w cfg n)) {h t u₁ u₂ : History Io} {u : Unit}
    {line : Text} {e : Event} (heq : history w cfg n = h ++ ⟨.line .client (.text line), u⟩ :: t)
    (hsplit : untilNextLine t = u₁ ++ e :: u₂) (he : e.writeOut Conn.isBackend = some (utf8 line))
    (hfwd : isForwardable line = true) (hclient : writesTo Conn.isClient u₁ = [])
    (hbackend : writesTo Conn.isBackend u₁ = [])
    (hheld : isStor line = true →
      heldPort (h ++ [⟨.line .client (.text line), u⟩] ++ u₁) = none)
    (hdone : Concluded (sessionRun w cfg n).1 t) :
    writesTo Conn.isBackend (untilNextLine t) = [utf8 line]
      ∧ writesTo Conn.isClient (untilNextLine t) = (b.next h).map utf8 := by
  obtain ⟨t', rfl⟩ := exists_of_untilNextLine hsplit
  have hmem : ∀ x ∈ u₁ ++ [e], Event.isClientLine x = false := by
    intro x hx
    refine not_isClientLine_of_mem (t := u₁ ++ e :: t') ?_
    rw [hsplit, ← List.singleton_append, ← List.append_assoc]
    exact List.mem_append_left _ hx
  have hstretch : untilNextLine (u₁ ++ e :: t') = u₁ ++ [e] ++ untilNextLine t' := by
    rw [← List.singleton_append, ← List.append_assoc, untilNextLine_append hmem]
  have hhere : history w cfg n
      = (h ++ [⟨.line .client (.text line), u⟩] ++ u₁) ++ e :: t' := by
    rw [heq]
    simp
  have hown : utf8 line ∉ ownCommands := not_mem_ownCommands_of_isForwardable hfwd
  have hsettled : Concluded (sessionRun w cfg n).1 t' :=
    hdone.tail (fun x hx => hmem x (List.mem_append_left _ hx)) (hmem e (by simp))
  have htold := answered_of_orderly hbanner hall hhere he hown hsettled
    fun _ _ hboth => hboth.2 (hheld (by simpa using hboth.1))
  have hquiet := quiet_of_orderly hall hhere he hown
  have hout : e.writeOut Conn.isClient = none := by
    obtain ⟨c, a, hc, rfl⟩ := Event.eq_write he
    obtain ⟨tls, rfl⟩ := Conn.eq_backend hc
    rfl
  rw [b.next_of_quiet h rfl hbackend] at htold
  rw [hstretch]
  constructor
  · simp [hbackend, he, hquiet]
  · simp [hclient, hout, htold]

theorem not_mem_ownCommands_of_isStorCommand {bytes : Bytes} (h : isStorCommand bytes = true) :
    bytes ∉ ownCommands := by
  intro hmem
  have hall : ownCommands.all (fun c => !isStorCommand c) = true := by decide
  have hnot := List.all_eq_true.mp hall bytes hmem
  simp [h] at hnot

theorem head_utf8 {t : Text} {c : Char} {x : UInt8} (hc : String.utf8EncodeChar c = [x])
    (ht : t.head? = some c) : (utf8 t).head? = some x := by
  cases t with
  | nil => cases ht
  | cons c' rest =>
      obtain rfl := Option.some.inj ht
      simp [utf8, hc]

/-- The reply to a `STOR` that is refused is a final one. -/
theorem Backend.SpeaksSingleLines.refusal {b : Backend} {H h t : History Io} {e : Event}
    {bytes : Bytes} (hb : b.SpeaksSingleLines H)
    (hrefuses : Always (fun h e => b.refusesPortless h e = true) H) (heq : H = h ++ e :: t)
    (he : e.writeOut Conn.isBackend = some bytes) (hstor : isStorCommand bytes = true)
    (hheld : heldPort h = none) : ∃ f, b.next h = [f]
      ∧ ((utf8 f).head? = some '4'.toUInt8 ∨ (utf8 f).head? = some '5'.toUInt8) := by
  obtain ⟨c, a, hc, rfl⟩ := Event.eq_write he
  obtain ⟨tls, rfl⟩ := Conn.eq_backend hc
  have hshape : isStorDialogue (b.next h) = true := by
    simpa [Backend.singleReplies, hstor] using hb.replies h _ t heq
  have hlen : (b.next h).length = 1 := by
    simpa [Backend.refusesPortless, hstor, hheld] using hrefuses h _ t heq
  obtain ⟨f, hf⟩ := List.length_eq_one_iff.mp hlen
  rw [hf] at hshape
  simp only [isStorDialogue, Bool.and_eq_true, Bool.or_eq_true, decide_eq_true_eq] at hshape
  refine ⟨f, hf, hshape.2.imp (fun hfour => ?_) fun hfive => ?_⟩
  · exact head_utf8 (by decide) hfour
  · exact head_utf8 (by decide) hfive

/-- **`STOR` without a port keeps the session in step**, if the backend refuses
it. -/
theorem portless_stor_in_step (w : World) (cfg : SessionConfig) (n : Nat) (b : Backend)
    (hb : b.SpeaksSingleLines (history w cfg n)) (hfit : b.WithinLimit cfg (history w cfg n))
    (hrefuses : Always (fun h e => b.refusesPortless h e = true) (history w cfg n)) :
    PortlessStorInStep cfg b (sessionRun w cfg n) := by
  have hall : Always (b.Orderly cfg True) (history w cfg n) :=
    hb.orderly hfit hrefuses (Or.inr (Or.inl trivial))
  have hone := hb.oneLine hfit
  refine ⟨fun h t u line heq hstor hheld hdone => ?_,
    fun h t u line heq hfwd hclean hheld hdone => ?_, fun h t u line heq hne hfwd hdone => ?_,
    fun h e t bytes heq he hown hline => ?_⟩
  · have hfwd := isForwardable_of_isStor hstor
    have hne : line ≠ [] := by
      rintro rfl
      cases hstor
    obtain ⟨s, hhandled, hph⟩ := handled_of_concluded heq hne (fun _ => hheld) hdone
    generalize hsplit : untilNextLine t = v at hhandled
    cases hhandled with
    | inHand hat _ _ _ => exact absurd hat hph
    | own hown hwhy hat hclient hbackend =>
        obtain ⟨rfl, -⟩ := hwhy hfwd
        exact ⟨_, hclient, Or.inr (by decide)⟩
    | @sent u₁ u₂ e he _ hclient hbackend hnone =>
        have htold := sent_of_orderly hone hall heq hsplit he hfwd hclient hbackend hnone hdone
        obtain ⟨t', rfl⟩ := exists_of_untilNextLine hsplit
        have hhere : history w cfg n
            = (h ++ [⟨.line .client (.text line), u⟩] ++ u₁) ++ e :: t' :=
          heq.trans (by simp)
        obtain ⟨f, hf, hhead⟩ := hb.refusal hrefuses hhere he
          ((isStorCommand_utf8 line).trans hstor) (hnone hstor)
        have hnext := b.next_of_quiet h (e := ⟨.line .client (.text line), u⟩) rfl hbackend
        rw [hsplit, ← hnext, hf] at htold
        exact ⟨utf8 f, htold.2, hhead⟩
  · have hne : line ≠ [] := by
      rintro rfl
      cases hfwd
    obtain ⟨s, hhandled, hph⟩ := handled_of_concluded heq hne hheld hdone
    generalize hsplit : untilNextLine t = v at hhandled
    cases hhandled with
    | inHand hat _ _ _ => exact absurd hat hph
    | own hown hwhy hat hclient hbackend =>
        rw [(hwhy hfwd).2] at hclean
        cases hclean
    | sent he _ hclient hbackend hnone =>
        rw [← hsplit]
        exact sent_of_orderly hone hall heq hsplit he hfwd hclient hbackend hnone hdone
  · have hstor : isStor line = true → heldPort h = none := fun hstor => by
      rw [isForwardable_of_isStor hstor] at hfwd
      cases hfwd
    obtain ⟨s, hhandled, hph⟩ := handled_of_concluded heq hne hstor hdone
    generalize hsplit : untilNextLine t = v at hhandled
    cases hhandled with
    | inHand hat _ _ _ => exact absurd hat hph
    | own hown _ _ hclient hbackend => exact ⟨hbackend, _, hown, hclient⟩
    | sent _ hfwd' _ _ _ =>
        rw [hfwd] at hfwd'
        cases hfwd'
  · exact answered_of_orderly hone hall heq he hown (Or.inl hline) fun hno _ => by
      rw [hno] at hline
      cases hline

/-- A `STOR` without a port and one more command. -/
def portlessUpload (replies : List String) : Script where
  client := [Script.chunk "STOR a\r\nNOOP\r\n".toList]
  backend := replies.map fun reply => Script.chunk reply.toList
  data := sampleArrival
  relay := ⟨0, []⟩

def refusedPortless : Script :=
  portlessUpload ["220 hi\r\n", "425 use PASV first\r\n", "200 noop\r\n"]

def refusingPortless : Backend :=
  .saying "220 hi\r\n" [["425 use PASV first\r\n"], ["200 noop\r\n"]]

theorem portless_stor_in_step_refused :
    refusingPortless.SpeaksSingleLines (history refusedPortless.world (sampleSession false) 3)
      ∧ PortlessStorInStep (sampleSession false) refusingPortless
        (sessionRun refusedPortless.world (sampleSession false) 3) := by
  have hb : refusingPortless.SpeaksSingleLines
      (history refusedPortless.world (sampleSession false) 3) :=
    Backend.speaksSingleLines_of_check (by decide +kernel)
  have hfit : refusingPortless.WithinLimit (sampleSession false)
      (history refusedPortless.world (sampleSession false) 3) :=
    ⟨by decide +kernel, always_of_check (by decide +kernel)⟩
  exact ⟨hb, portless_stor_in_step _ _ _ _ hb hfit (always_of_check (by decide +kernel))⟩

/-- The backend has a data connection of its own to use and goes through with
the `STOR`. -/
def acceptedPortless : Script :=
  portlessUpload ["220 hi\r\n", "150 go\r\n226 done\r\n", "200 noop\r\n"]

def acceptingPortless : Backend :=
  .saying "220 hi\r\n" [["150 go\r\n", "226 done\r\n"], ["200 noop\r\n"]]

/-- **A `STOR` accepted without a port answers the next command**: `NOOP` gets
the `226`. -/
theorem accepted_portless_out_of_step :
    acceptingPortless.SpeaksSingleLines (history acceptedPortless.world (sampleSession false) 3)
      ∧ ¬PortlessStorInStep (sampleSession false) acceptingPortless
        (sessionRun acceptedPortless.world (sampleSession false) 3) := by
  refine ⟨Backend.speaksSingleLines_of_check (by decide +kernel),
    fun hstays => ?_⟩
  have hnoop := hstays.told _ _ _ (utf8 "NOOP\r\n".toList)
    (split_at (k := 14) (by decide +kernel)) (by decide +kernel) (by decide) (by decide +kernel)
  exact absurd hnoop (by decide +kernel)

end FtpGateway
