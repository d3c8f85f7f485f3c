import FtpGateway.Session.Outcome

/-!
# What a client hears of a lost backend

A backend that is lost leaves the client waiting for a reply, so the gateway
owes it one last line, a 421 or a 426. There are two ways a failure takes
through `handle`: where the code looks for it, it sends that line and ends
(`Phase.closing`); where `backend_io!` does, the session just ends. Which way it
is depends on whose command the backend was answering and on the form of the
failure (`reportable`).

The failures that are reported put the line on its way, and a session with a
line on its way does not end without it (`write_of_closing`).
-/

namespace FtpGateway

open Str Interact

/-! ## Failures -/

/-- The backend fails: a reply that does not come or is not a line, a command
that cannot be sent, a handshake that does not succeed. -/
def Event.isBackendFailure : Event → Bool
  | ⟨.line (.backend _) (.text t), _⟩ => !endsWithNewline t
  | ⟨.line (.backend _) _, _⟩ => true
  | ⟨.write (.backend _) _, .error _⟩ => true
  | ⟨.startTls, .error _⟩ => true
  | _ => false

/-- The command the backend has to answer is one of the gateway's own. -/
def answersOwn (h : History Io) : Bool :=
  (writesTo Conn.isBackend h).getLast?.any fun b => b ∈ ownCommands

/-- The failures the session looks for: the end of the stream where a line
should start, and whatever goes wrong with a command of the gateway's own. -/
def reportable (h : History Io) : Event → Bool
  | ⟨.line (.backend _) r, _⟩ => r = .text [] || answersOwn h
  | ⟨.write (.backend _) b, _⟩ => b ∈ ownCommands
  | _ => true

def Event.isConnected : Event → Bool
  | ⟨.connect _, .ok ()⟩ => true
  | _ => false

/-! ## The command in progress -/

/-- The command the backend was sent last. -/
def LastCommand (h : History Io) : Phase → Prop
  | .connecting | .banner => writesTo Conn.isBackend h = []
  | .forwarded t | .storSent t | .storReplying t _ | .shaking t | .relaying t | .finalReply t =>
      isForwardable t = true ∧ (writesTo Conn.isBackend h).getLast? = some (utf8 t)
  | _ => True

section LastCommand

variable {cfg : SessionConfig} {h t : History Io} {s s' : Ctl} {e : Event} {ph : Phase}

/-- An exchange that writes nothing. -/
theorem LastCommand.skip {p : Phase} (hlast : LastCommand h p)
    (hw : e.writeOut Conn.isBackend = none) : LastCommand (h ++ [e]) p := by
  have hsame : writesTo Conn.isBackend (h ++ [e]) = writesTo Conn.isBackend h := by simp [hw]
  unfold LastCommand at hlast ⊢
  rw [hsame]
  exact hlast

theorem LastCommand.line {r : LineRead} {rest : Bytes} {ph' : Phase} (hlast : LastCommand h ph)
    (hw : e.writeOut Conn.isBackend = none) (hnext : AfterLine cfg ph r rest ph') :
    LastCommand (h ++ [e]) ph' := by
  cases hnext with
  | banner hne => split <;> trivial
  | @negotiated k =>
      cases k with
      | auth =>
          simp only [Phase.negotiated]
          split <;> trivial
      | pbsz => trivial
      | prot => trivial
  | storSent hne => exact hlast.skip (p := .storReplying _ _) hw
  | _ => trivial

theorem LastCommand.write {c : Conn} {b : Bytes} {held : Option UInt16} {ok err : Phase}
    {a : Except IoKind Unit} (hlast : LastCommand h ph) (hw : Writes cfg held ph c b ok err) :
    LastCommand (h ++ [⟨.write c b, a⟩]) (onOk a ok err) := by
  cases a with
  | error k => cases hw <;> trivial
  | ok x =>
      cases hw with
      | forward hfwd hstor => exact ⟨hfwd, by simp [SessionConfig.control]⟩
      | stor hstor hheld =>
          exact ⟨isForwardable_of_isStor hstor, by simp [SessionConfig.control]⟩
      | reply =>
          simp only [onOk]
          split <;> trivial
      | @storReply t l =>
          have hsame : LastCommand (h ++ [⟨.write .client (utf8 l), .ok x⟩]) (.storReplying t l) :=
            hlast.skip (by simp)
          simp only [onOk]
          repeat' split
          all_goals first | exact hsame | trivial
      | _ => trivial

theorem LastCommand.step (hlast : LastCommand h s.phase) (ht : Trans cfg s e s') :
    LastCommand (h ++ [e]) s'.phase := by
  cases ht with
  | read a hc hno hlen hstop =>
      rw [s.take_phase a]
      exact hlast.skip rfl
  | line u hc hr hnext => exact hlast.line rfl hnext
  | write a hw => exact hlast.write hw
  | clientRead a hph => exact hlast.skip rfl
  | clientLine u hph hnext => cases hnext <;> trivial
  | connected source hph =>
      rw [hph] at hlast
      exact hlast.skip (p := .banner) rfl
  | startTls a hph hpend => cases a <;> trivial
  | @startDataTls t a hph =>
      rw [hph] at hlast
      cases a with
      | ok u => exact hlast.skip (p := .relaying t) rfl
      | error k => exact hlast.skip (p := .finalReply t) rfl
  | @relay t client run hph =>
      rw [hph] at hlast
      exact hlast.skip (p := .finalReply t) rfl
  | succeeded u hph hl => exact hlast.skip rfl
  | allocate a hph hstor hheld => exact hlast.skip rfl
  | release port u hph => exact hlast.skip rfl
  | book he => exact hlast.skip (he.silent _).1

theorem lastCommand_of_path (hp : Reaches cfg h s) : LastCommand h s.phase := by
  induction hp with
  | nil => exact rfl
  | snoc hp ht ih => exact ih.step ht

end LastCommand

/-! ## The last line -/

section LastLine

variable {cfg : SessionConfig} {h t : History Io} {s s' m : Ctl} {e : Event}

/-- A session with a last line on its way does not end without it. -/
theorem write_of_closing {b : Bytes} (hp : Path (Trans cfg) m t s) (hclosing : m.phase = .closing b) :
    s.phase = .closing b ∨ (s.phase = .ended ∧ b ∈ writesTo Conn.isClient t) := by
  induction hp with
  | nil => exact Or.inl hclosing
  | @snoc t s s' e hp ht ih =>
      rcases ih with hwas | ⟨hwas, hmem⟩
      · rcases step_of_isOver (by rw [hwas]; rfl) ht with ⟨hsame, -⟩ | ⟨l, a, hph, rfl, hended⟩
        · exact Or.inl (hsame.trans hwas)
        · rw [hwas] at hph
          cases hph
          exact Or.inr ⟨hended, by simp⟩
      · rcases step_of_isOver (by rw [hwas]; rfl) ht with ⟨hsame, -⟩ | ⟨l, a, hph, -, -⟩
        · exact Or.inr ⟨hsame.trans hwas, by simp [hmem]⟩
        · rw [hwas] at hph
          cases hph

/-- A failure that is reported puts the last line on its way. -/
theorem closing_of_line {c : Conn} {r : LineRead} {rest : Bytes} {u : Unit} {ph ph' : Phase}
    (hlast : LastCommand h ph) (hc : ph.reads cfg = some c)
    (hfails : Event.isBackendFailure ⟨.line c r, u⟩ = true)
    (hrep : reportable h ⟨.line c r, u⟩ = true) (hnext : AfterLine cfg ph r rest ph') :
    ∃ b, ph' = .closing b ∧ IsLastWord b := by
  obtain ⟨tls, rfl⟩ := Conn.eq_backend (reads_isBackend hc)
  simp only [reportable, Bool.or_eq_true, decide_eq_true_eq] at hrep
  have hbanner : ph = .banner → r = .text [] := by
    rintro rfl
    refine hrep.resolve_right ?_
    have hnone : writesTo Conn.isBackend h = [] := hlast
    simp [answersOwn, hnone]
  have hcommand : ∀ t, isForwardable t = true →
      (writesTo Conn.isBackend h).getLast? = some (utf8 t) → r = .text [] := by
    intro t hfwd hsent
    refine hrep.resolve_right ?_
    simp [answersOwn, hsent, not_mem_ownCommands_of_isForwardable hfwd]
  cases hnext with
  | banner hne => exact absurd (LineRead.text.inj (hbanner rfl)) hne
  | bannerErr k => cases hbanner rfl
  | bannerElapsed => cases hbanner rfl
  | negotiationMore hmore =>
      obtain ⟨-, hend, -⟩ := hmore
      simp [Event.isBackendFailure, hend] at hfails
  | negotiated hends =>
      obtain ⟨-, hend, -⟩ := hends
      simp [Event.isBackendFailure, hend] at hfails
  | ownReply hne hend => simp [Event.isBackendFailure, hend] at hfails
  | forwarded hne => exact absurd (LineRead.text.inj (hcommand _ hlast.1 hlast.2)) hne
  | storSent hne => exact absurd (LineRead.text.inj (hcommand _ hlast.1 hlast.2)) hne
  | finalReply hne => exact absurd (LineRead.text.inj (hcommand _ hlast.1 hlast.2)) hne
  | replyErr hph =>
      rcases hph with ⟨t, rfl⟩ | ⟨t, rfl⟩ | ⟨t, rfl⟩ <;> cases hcommand t hlast.1 hlast.2
  | replyElapsed hph =>
      rcases hph with ⟨t, rfl⟩ | ⟨t, rfl⟩ | ⟨t, rfl⟩ <;> cases hcommand t hlast.1 hlast.2
  | finalReplyEof => exact ⟨_, rfl, Or.inr rfl⟩
  | _ => exact ⟨_, rfl, Or.inl rfl⟩

theorem closing_of_failure (hlast : LastCommand h s.phase) (ht : Trans cfg s e s')
    (hfails : Event.isBackendFailure e = true) (hrep : reportable h e = true) :
    ∃ b, s'.phase = .closing b ∧ IsLastWord b := by
  cases ht with
  | line u hc hr hnext => exact closing_of_line hlast hc hfails hrep hnext
  | @write c b ok err a hw =>
      generalize s.phase = ph at hw
      have hforward : ∀ t, isForwardable t = true → b = utf8 t → c = cfg.control → False := by
        rintro t hfwd rfl rfl
        exact not_mem_ownCommands_of_isForwardable hfwd (of_decide_eq_true hrep)
      cases a with
      | ok x => cases c <;> cases hfails
      | error k =>
          cases hw with
          | negotiate k banner => exact ⟨_, rfl, Or.inl rfl⟩
          | passive hstor hheld hb => exact ⟨_, rfl, Or.inl rfl⟩
          | forward hfwd hstor => exact (hforward _ hfwd rfl rfl).elim
          | stor hstor hheld => exact (hforward _ (isForwardable_of_isStor hstor) rfl rfl).elim
          | _ => cases hfails
  | startTls a hph hpend =>
      cases a with
      | ok u => cases hfails
      | error k => exact ⟨_, rfl, Or.inl rfl⟩
  | read a hc hno hlen hstop => cases hfails
  | clientRead a hph => cases hfails
  | clientLine u hph hnext => cases hfails
  | book he => cases he <;> cases hfails
  | _ => cases hfails

/-- Without a backend there is nothing but the 421. -/
theorem unreachable_of_path (hp : Reaches cfg h s) (hno : h.any Event.isConnected = false) :
    s.phase = .connecting
      ∨ (s.phase = .ended ∧ serviceNotAvailable ∈ writesTo Conn.isClient h) := by
  induction hp with
  | nil => exact Or.inl rfl
  | @snoc h s s' e hp ht ih =>
      rw [List.any_append, Bool.or_eq_false_iff] at hno
      rcases ih hno.1 with hph | ⟨hph, hmem⟩
      · cases ht with
        | read a hc _ _ _ => rw [hph] at hc; cases hc
        | line u hc hr hnext => rw [hph] at hc; cases hc
        | write a hw =>
            generalize s.phase = ph at hw hph
            subst hph
            cases hw with
            | unconnected => exact Or.inr ⟨by cases a <;> rfl, by simp⟩
        | connected source _ => cases hno.2
        | release port u hrel =>
            rcases hrel with hrel | hrel | ⟨t, hrel, -⟩ <;> rw [hph] at hrel <;> cases hrel
        | book he => exact Or.inl hph
        | clientRead a hph' => exact Or.inl hph
        | succeeded u hph' hl => exact Or.inl hph
        | allocate a hph' hstor hheld => exact Or.inl hph
        | clientLine u hph' hnext => rw [hph] at hph'; cases hph'
        | startTls a hph' hpend => rw [hph] at hph'; cases hph'
        | startDataTls a hph' => rw [hph] at hph'; cases hph'
        | relay client run hph' => rw [hph] at hph'; cases hph'
      · rcases step_of_isOver (by rw [hph]; rfl) ht with ⟨hsame, -⟩ | ⟨l, a, hph', -, -⟩
        · exact Or.inr ⟨hsame.trans hph, by simp [hmem]⟩
        · rw [hph] at hph'
          cases hph'

end LastLine

/-! ## Whole sessions -/

/-- A backend that is lost while the client waits for it is reported with a 421 or a 426,
and so is one that could not be reached at all. -/
structure FailureReported (run : Outcome Leave Unit × History Io) : Prop where
  lost : ∀ h e t x, run.2 = h ++ e :: t → Event.isBackendFailure e = true → run.1 = .exit x →
    ∃ b ∈ writesTo Conn.isClient t, IsLastWord b
  unreachable : ∀ x, run.1 = .exit x → run.2.any Event.isConnected = false →
    ∃ b ∈ writesTo Conn.isClient run.2, IsLastWord b

/-- **A lost backend is reported to the client**, if it is lost where a line
should start or over a command of the gateway's own. -/
theorem backend_failure_reported (w : World) (cfg : SessionConfig) (n : Nat)
    (hfail : Always (fun h e => !Event.isBackendFailure e || reportable h e)
      (history w cfg n)) :
    FailureReported (sessionRun w cfg n) := by
  refine ⟨fun h e t x heq hfails hexit => ?_, fun x hexit hno => ?_⟩
  · have hrep : reportable h e = true := by simpa [hfails] using hfail h e t heq
    obtain ⟨s₁, s₂, s, hs₁, hstep, hrest, hended⟩ := session_at heq
    obtain ⟨b, hclosing, hlast⟩ :=
      closing_of_failure (lastCommand_of_path hs₁) hstep hfails hrep
    have hph := hended x hexit
    rcases write_of_closing hrest hclosing with hwaits | ⟨-, hmem⟩
    · rw [hph] at hwaits
      cases hwaits
    · exact ⟨b, hmem, hlast⟩
  · obtain ⟨s, hs, hended⟩ := session_on_machine w cfg n
    have hph := hended x hexit
    rcases unreachable_of_path hs hno with hwaits | ⟨-, hmem⟩
    · rw [hph] at hwaits
      cases hwaits
    · exact ⟨_, hmem, Or.inl rfl⟩

/-- One command, and the answers of the backend from the banner on. -/
def noopScript (backend : List ReadAns) : Script where
  client := [Script.chunk "NOOP\r\n".toList]
  backend := backend
  data := sampleArrival
  relay := ⟨0, []⟩

/-- The backend is gone when it should answer. -/
def goneBackend : Script := noopScript [Script.chunk "220 hi\r\n".toList, .eof]

theorem backend_failure_reported_gone :
    (history goneBackend.world (sampleSession false) 2).any Event.isBackendFailure = true
      ∧ FailureReported (sessionRun goneBackend.world (sampleSession false) 2) :=
  ⟨by decide +kernel, backend_failure_reported _ _ _ (always_of_check (by decide +kernel))⟩

/-- The backend is there but does not answer in time. -/
def slowBackend : Script := noopScript [Script.chunk "220 hi\r\n".toList, .elapsed]

/-- **A reply that times out is not reported**: the session ends and all the
client has been sent is the banner. -/
theorem timed_out_reply_not_reported :
    ¬FailureReported (sessionRun slowBackend.world (sampleSession false) 2) := by
  intro hreports
  have hany : (history slowBackend.world (sampleSession false) 2).any Event.isBackendFailure
      = true := by decide +kernel
  obtain ⟨e, he, hfails⟩ := List.any_eq_true.mp hany
  obtain ⟨h, t, heq⟩ := List.append_of_mem he
  obtain ⟨b, hmem, hlast⟩ := hreports.lost h e t .ret heq hfails (by decide +kernel)
  have hsent : writesTo Conn.isClient (history slowBackend.world (sampleSession false) 2)
      = [utf8 "220 hi\r\n".toList] := by decide +kernel
  have hall : b ∈ writesTo Conn.isClient (history slowBackend.world (sampleSession false) 2) := by
    rw [heq]
    simp [hmem]
  rw [hsent] at hall
  obtain rfl := List.mem_singleton.mp hall
  rcases hlast with hlast | hlast <;> exact absurd hlast (by decide)

end FtpGateway
