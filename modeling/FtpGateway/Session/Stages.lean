import FtpGateway.Session.Machine

/-!
# Stages of a session

A session has a beginning, up to the banner, and an end, and it goes through
them in one direction only. These are the facts about the control machine that
hold whatever the backend does: which phases come early, what can still happen
when the session is over, and what a line that is handed over was made of.
-/

namespace FtpGateway

open Str Interact

/-- The bytes of some lines. -/
def said (ls : List Text) : Bytes := ls.flatMap utf8

@[simp] theorem said_nil : said [] = [] := rfl

@[simp] theorem said_cons (l : Text) (ls : List Text) : said (l :: ls) = utf8 l ++ said ls := rfl

@[simp] theorem said_append (ls ls' : List Text) : said (ls ++ ls') = said ls ++ said ls' := by
  simp [said]

/-! ## Exchanges that say nothing -/

section Stages

variable {cfg : SessionConfig} {s s' : Ctl} {e : Event}

theorem Bookkeeping.silent {ph : Phase} {e : Event} (he : Bookkeeping ph e) (on : Conn → Bool) :
    e.writeOut on = none ∧ e.lineIn on = none ∧ e.bytesIn on = [] := by
  cases he <;> exact ⟨rfl, rfl, rfl⟩

theorem reads_isBackend {ph : Phase} {c : Conn} (hc : ph.reads cfg = some c) :
    Conn.isBackend c = true := by
  cases ph <;> simp only [Phase.reads, reduceCtorEq, Option.some.injEq] at hc <;> subst hc <;>
    first | rfl | skip
  rename_i k b code
  cases k <;> rfl

/-- A line that is handed over is the first of what was pending. -/
theorem pending_of_handed {limit : Nat} {ph : Phase} {stop : Option ReadAns} {p rest : Bytes}
    {r : LineRead} {t : Text} (hr : Handed limit stop p r rest)
    (ht : ph.handed cfg r = .text t) : p = utf8 t ++ rest := by
  have htext : r = .text t := by
    unfold Phase.handed at ht
    split at ht
    · exact ht
    · exact (checkBound_text ht).1
  cases hr with
  | line hno hlen => rw [← decodeLine_text htext]; simp
  | full hno hlen => rw [← decodeLine_text htext]
  | eof hno hlen => rw [← decodeLine_text htext, List.append_nil]
  | err k => cases htext
  | elapsed => cases htext

/-! ## The beginning -/

/-- Before the banner is passed on. -/
def Phase.isEarly : Phase → Bool
  | .connecting | .banner | .sending _ _ | .awaiting _ _ _ | .authOk _ | .greeting _ => true
  | _ => false

/-- A session does not go back to its beginning. -/
theorem isEarly_step (hlate : s.phase.isEarly = false) (ht : Trans cfg s e s') :
    s'.phase.isEarly = false := by
  cases ht with
  | read a hc hno hlen hstop => cases a <;> exact hlate
  | @line c r rest ph a hc hr hnext =>
      generalize s.phase.handed cfg r = r at hnext
      generalize s.phase = ph₀ at hnext hlate
      cases hnext <;> first | rfl | cases hlate
  | clientRead a hph => exact hlate
  | clientLine a hph hnext => cases hnext <;> rfl
  | write a hw =>
      generalize s.phase = ph₀ at hw hlate
      cases a with
      | error k => cases hw <;> rfl
      | ok x =>
          cases hw with
          | reply =>
              simp only [onOk]
              split <;> rfl
          | storReply =>
              simp only [onOk]
              repeat' split
              all_goals rfl
          | _ => first | rfl | cases hlate
  | connected source hph => rw [hph] at hlate; cases hlate
  | startTls a hph hpend => rw [hph] at hlate; cases hlate
  | startDataTls a hph => cases a <;> rfl
  | relay client run hph => rfl
  | succeeded a hph hl => exact hlate
  | allocate a hph hstor hheld => exact hlate
  | release port a hph => exact hlate
  | book he => exact hlate

/-! ## The end -/

/-- The session is over, or about to be. -/
def Phase.isOver : Phase → Bool
  | .closing _ => true
  | .ended => true
  | _ => false

theorem not_isOver_of_reads {ph : Phase} {c : Conn} (hc : ph.reads cfg = some c) :
    ph.isOver = false := by
  cases ph <;> first | rfl | cases hc

/-- A session that is over says nothing more than its last line. -/
theorem step_of_isOver (hover : s.phase.isOver = true) (ht : Trans cfg s e s') :
    (s'.phase = s.phase ∧ (∀ on, e.writeOut on = none) ∧ ∀ on, e.lineIn on = none)
      ∨ ∃ l a, s.phase = .closing l ∧ e = ⟨.write .client l, a⟩ ∧ s'.phase = .ended := by
  cases ht with
  | read a hc hno hlen hstop => exact absurd (not_isOver_of_reads hc) (by simp [hover])
  | line a hc hr hnext => exact absurd (not_isOver_of_reads hc) (by simp [hover])
  | write a hw =>
      generalize s.phase = ph₀ at hw hover
      cases hw with
      | closing => exact Or.inr ⟨_, a, rfl, rfl, by cases a <;> rfl⟩
      | _ => cases hover
  | succeeded a hph hl => rw [hph] at hover; cases hover
  | release port a hrel => exact Or.inl ⟨rfl, fun _ => rfl, fun _ => rfl⟩
  | book he => exact Or.inl ⟨rfl, fun on => (he.silent on).1, fun on => (he.silent on).2.1⟩
  | clientRead a hph => rw [hph] at hover; cases hover
  | clientLine a hph hnext => rw [hph] at hover; cases hover
  | connected source hph => rw [hph] at hover; cases hover
  | startTls a hph hpend => rw [hph] at hover; cases hover
  | startDataTls a hph => rw [hph] at hover; cases hover
  | relay client run hph => rw [hph] at hover; cases hover
  | allocate a hph hstor hheld => rw [hph] at hover; cases hover

/-- The client is sent no more than one of these when a backend is lost. -/
def IsLastWord (b : Bytes) : Prop := b = serviceNotAvailable ∨ b = transferAborted

/-- The last line to a client is about a lost backend or about the client itself. -/
theorem closing_of_step {b : Bytes} (ht : Trans cfg s e s') (hclosing : s'.phase = .closing b) :
    s.phase = .closing b ∨ IsLastWord b
      ∨ (s.phase = .idle ∧ (b = commandLineTooLong ∨ b = idleTimeoutReply)) := by
  cases ht with
  | read a hc hno hlen hstop =>
      have hph := s.take_phase a
      exact Or.inl (hph ▸ hclosing)
  | @line c r rest ph u hc hr hnext =>
      generalize s.phase.handed cfg r = r at hnext
      generalize s.phase = ph₀ at hnext
      refine Or.inr (Or.inl ?_)
      cases hnext with
      | banner hne => split at hclosing <;> cases hclosing
      | @negotiated k =>
          cases k with
          | auth =>
              simp only [Phase.negotiated] at hclosing
              split at hclosing <;> cases hclosing
              exact Or.inl rfl
          | pbsz => cases hclosing
          | prot => cases hclosing
      | bannerEof => cases hclosing; exact Or.inl rfl
      | negotiationFailed hbad => cases hclosing; exact Or.inl rfl
      | ownReplyLost hlost => cases hclosing; exact Or.inl rfl
      | forwardedEof => cases hclosing; exact Or.inl rfl
      | storSentEof => cases hclosing; exact Or.inl rfl
      | finalReplyEof => cases hclosing; exact Or.inr rfl
      | _ => cases hclosing
  | clientRead a hph => exact Or.inl hclosing
  | clientLine u hph hnext =>
      refine Or.inr (Or.inr ⟨hph, ?_⟩)
      cases hnext with
      | tooLong => cases hclosing; exact Or.inl rfl
      | idle => cases hclosing; exact Or.inr rfl
      | _ => cases hclosing
  | write a hw =>
      generalize s.phase = ph₀ at hw
      refine Or.inr (Or.inl ?_)
      cases a with
      | error k => cases hw <;> cases hclosing <;> exact Or.inl rfl
      | ok x =>
          cases hw with
          | reply =>
              simp only [onOk] at hclosing
              split at hclosing <;> cases hclosing
          | storReply =>
              simp only [onOk] at hclosing
              repeat' split at hclosing
              all_goals cases hclosing
          | _ => cases hclosing
  | connected source hph => cases hclosing
  | startTls a hph hpend =>
      refine Or.inr (Or.inl ?_)
      cases a <;> cases hclosing
      exact Or.inl rfl
  | startDataTls a hph => cases a <;> cases hclosing
  | relay client run hph => cases hclosing
  | succeeded u hph hl => exact Or.inl hclosing
  | allocate a hph hstor hheld => exact Or.inl hclosing
  | release port u hph => exact Or.inl hclosing
  | book he => exact Or.inl hclosing

end Stages

end FtpGateway
