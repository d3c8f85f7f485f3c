import FtpGateway.Session.Outcome

/-!
# Backend FTPS fails closed

With backend TLS the session secures its control connection before it says
anything to the client and every data connection before it moves a byte. The
backend is adversarial here: any bytes at any time, in whatever chunks, and any
refusal.

The invariants are about what happened before: `Phase.achieved` lists the steps
of the negotiation a phase has behind it, `Reported` what the client can have
been told by then, `TlsAccount` that the lines of the secured connection are
made of bytes that came over it, so that plaintext sent ahead of the handshake
is never taken for one of them, and `DataSecured` that the data connection in
use had its handshake.
-/

namespace FtpGateway

open Str Interact

/-! ## The negotiation -/

def Event.begins (code : Option Bytes) : Event → Option Bytes
  | ⟨.write (.backend _) _, _⟩ => none
  | ⟨.line (.backend _) (.text t), _⟩ => code.or ((replyCode? t).map Prod.fst)
  | _ => code

/-- The code of the reply that is coming in, once its first line is there. -/
def replyBegun (h : History Io) : Option Bytes := h.foldl Event.begins none

theorem replyBegun_append (h : History Io) (e : Event) :
    replyBegun (h ++ [e]) = Event.begins (replyBegun h) e := by
  simp [replyBegun]

def Handshake (_ : History Io) (e : Event) : Prop := e = ⟨.startTls, .ok ()⟩

namespace Negotiation

def Sent (k : Negotiation) (_ : History Io) (e : Event) : Prop :=
  e = ⟨.write k.conn (withCrLf k.command), .ok ()⟩

/-- The last line of a reply with the expected code. -/
def Agreed (k : Negotiation) (h : History Io) (e : Event) : Prop :=
  ∃ t u, e = ⟨.line k.conn (.text t), u⟩ ∧ EndsReply (utf8 k.code) (replyBegun h) t

/-- What comes before a step of the negotiation. -/
def before : Negotiation → List (History Io → Event → Prop)
  | .auth => []
  | .pbsz => [Sent .auth, Agreed .auth, Handshake]
  | .prot => [Sent .auth, Agreed .auth, Handshake, Sent .pbsz, Agreed .pbsz]

end Negotiation

/-- 234, the handshake, 200 to `PBSZ 0` and 200 to `PROT P`, in this order. -/
def Negotiated (h : History Io) : Prop :=
  InOrder (Negotiation.prot.before ++ [Negotiation.prot.Sent, Negotiation.prot.Agreed]) h

/-- The steps of the negotiation that a phase has behind it. -/
def Phase.achieved : Phase → List (History Io → Event → Prop)
  | .connecting | .banner | .closing _ | .ended => []
  | .sending k _ => k.before
  | .awaiting k _ _ => k.before ++ [k.Sent]
  | .authOk _ => Negotiation.auth.before ++ [Negotiation.auth.Sent, Negotiation.auth.Agreed]
  | _ => Negotiation.prot.before ++ [Negotiation.prot.Sent, Negotiation.prot.Agreed]

/-- The machine knows the code of the reply it is reading. -/
def Begun (h : History Io) : Phase → Prop
  | .awaiting _ _ code => replyBegun h = code
  | _ => True

section Achieved

variable {cfg : SessionConfig} {h : History Io} {s s' : Ctl} {e : Event} {ph : Phase}

theorem negotiated_of_achieved (hlate : ph.isEarly = false) (hgo : ph.isOver = false)
    (hach : InOrder ph.achieved h) : Negotiated h := by
  cases ph with
  | closing b => cases hgo
  | ended => cases hgo
  | connecting | banner | sending | awaiting | authOk | greeting => cases hlate
  | _ => exact hach

theorem achieved_of_negotiated (hlate : ph.isEarly = false) (hneg : Negotiated h) :
    InOrder ph.achieved h := by
  cases ph with
  | closing b => exact .nil h
  | ended => exact .nil h
  | connecting | banner | sending | awaiting | authOk | greeting => cases hlate
  | _ => exact hneg

theorem achieved_of_isOver (hover : ph.isOver = true) : InOrder ph.achieved h := by
  cases ph with
  | closing b => exact .nil h
  | ended => exact .nil h
  | _ => cases hover

theorem begun_line {c : Conn} {r : LineRead} {rest : Bytes} {u : Unit} {ph' : Phase}
    (hbegun : Begun h ph) (hc : ph.reads cfg = some c) (hnext : AfterLine cfg ph r rest ph') :
    Begun (h ++ [⟨.line c r, u⟩]) ph' := by
  cases hnext with
  | banner hne => split <;> trivial
  | @negotiationMore k banner t code code' rest hmore =>
      have hcode : replyBegun h = code := hbegun
      obtain ⟨tls, rfl⟩ : ∃ tls, c = .backend tls := by
        cases k <;> exact ⟨_, (Option.some.inj hc).symm⟩
      obtain ⟨-, -, hmore⟩ := hmore
      show replyBegun _ = some code'
      rw [replyBegun_append, hcode]
      cases code with
      | none => simp [Event.begins, hmore]
      | some first =>
          obtain ⟨rfl, -⟩ := hmore
          rfl
  | @negotiated k =>
      cases k with
      | auth =>
          simp only [Phase.negotiated]
          split <;> trivial
      | pbsz => trivial
      | prot => trivial
  | _ => trivial

theorem begun_write {c : Conn} {b : Bytes} {held : Option UInt16} {ok err : Phase}
    {a : Except IoKind Unit} (hw : Writes cfg held ph c b ok err) :
    Begun (h ++ [⟨.write c b, a⟩]) (onOk a ok err) := by
  cases a with
  | error k => cases hw <;> trivial
  | ok x =>
      cases hw with
      | negotiate k banner =>
          show replyBegun _ = none
          rw [replyBegun_append]
          cases k <;> rfl
      | reply =>
          simp only [onOk]
          split <;> trivial
      | storReply =>
          simp only [onOk]
          repeat' split
          all_goals trivial
      | _ => trivial

theorem begun_step (hbegun : Begun h s.phase) (ht : Trans cfg s e s') :
    Begun (h ++ [e]) s'.phase := by
  have hkeep : Event.begins (replyBegun h) e = replyBegun h → Begun (h ++ [e]) s.phase := by
    intro hsame
    unfold Begun at hbegun ⊢
    rw [replyBegun_append, hsame]
    exact hbegun
  cases ht with
  | read a hc hno hlen hstop => cases a <;> exact hkeep rfl
  | line u hc hr hnext => exact begun_line hbegun hc hnext
  | write a hw => exact begun_write hw
  | clientRead a hph => exact hkeep rfl
  | clientLine u hph hnext => cases hnext <;> trivial
  | connected source hph => trivial
  | startTls a hph hpend => cases a <;> trivial
  | startDataTls a hph => cases a <;> trivial
  | relay client run hph => trivial
  | succeeded u hph hl => exact hkeep rfl
  | allocate a hph hstor hheld => exact hkeep rfl
  | release port u hph => exact hkeep rfl
  | book he => exact hkeep (by cases he <;> rfl)

theorem achieved_line {c : Conn} {r : LineRead} {rest : Bytes} {u : Unit} {ph' : Phase}
    (htls : cfg.backendTls = true) (hach : InOrder ph.achieved h) (hbegun : Begun h ph)
    (hearly : ph.isEarly = true) (hc : ph.reads cfg = some c) (hnext : AfterLine cfg ph r rest ph') :
    InOrder ph'.achieved (h ++ [⟨.line c r, u⟩]) := by
  cases hnext with
  | banner hne =>
      rw [if_pos htls]
      exact .nil _
  | bannerEof => exact .nil _
  | bannerErr k => exact .nil _
  | bannerElapsed => exact .nil _
  | negotiationFailed hbad => exact .nil _
  | negotiationMore hmore => exact hach.skip _
  | @negotiated k banner t code rest hends =>
      obtain rfl : k.conn = c := Option.some.inj hc
      obtain rfl : replyBegun h = code := hbegun
      have hagreed : k.Agreed h ⟨.line k.conn (.text t), u⟩ := ⟨t, u, rfl, hends⟩
      have hdone := hach.snoc hagreed
      cases k with
      | auth =>
          simp only [Phase.negotiated]
          split
          · exact hdone
          · exact .nil _
      | pbsz => exact hdone
      | prot => exact hdone
  | replyErr hph => exact .nil _
  | replyElapsed hph => exact .nil _
  | _ => cases hearly

theorem achieved_write {c : Conn} {b : Bytes} {held : Option UInt16} {ok err : Phase}
    {a : Except IoKind Unit} (hach : InOrder ph.achieved h) (hearly : ph.isEarly = true)
    (hw : Writes cfg held ph c b ok err) :
    InOrder (onOk a ok err).achieved (h ++ [⟨.write c b, a⟩]) := by
  cases hw with
  | unconnected => cases a <;> exact .nil _
  | negotiate k banner =>
      cases a with
      | ok u => exact hach.snoc (p := k.Sent) rfl
      | error x => exact .nil _
  | greet banner =>
      cases a with
      | ok u => exact hach.skip _
      | error x => exact .nil _
  | _ => cases hearly

theorem achieved_step (htls : cfg.backendTls = true) (hach : InOrder s.phase.achieved h)
    (hbegun : Begun h s.phase) (ht : Trans cfg s e s') : InOrder s'.phase.achieved (h ++ [e]) := by
  cases hover : s.phase.isOver with
  | true =>
      rcases step_of_isOver hover ht with ⟨hsame, -⟩ | ⟨l, a, -, -, hended⟩
      · exact achieved_of_isOver (by rw [hsame, hover])
      · exact achieved_of_isOver (by rw [hended]; rfl)
  | false =>
      cases hearly : s.phase.isEarly with
      | false =>
          exact achieved_of_negotiated (isEarly_step hearly ht)
            ((negotiated_of_achieved hearly hover hach).skip e)
      | true =>
          cases ht with
          | read a hc hno hlen hstop => cases a <;> exact hach.skip _
          | line u hc hr hnext => exact achieved_line htls hach hbegun hearly hc hnext
          | write a hw => exact achieved_write hach hearly hw
          | connected source hph => exact .nil _
          | startTls a hph hpend =>
              rw [hph] at hach
              cases a with
              | ok u => exact hach.snoc (p := Handshake) rfl
              | error k => exact .nil _
          | succeeded u hph hl => exact hach.skip _
          | allocate a hph hstor hheld => exact hach.skip _
          | release port u hph => exact hach.skip _
          | book he => exact hach.skip _
          | clientRead a hph => exact hach.skip _
          | clientLine u hph hnext => rw [hph] at hearly; cases hearly
          | startDataTls a hph => rw [hph] at hearly; cases hearly
          | relay client run hph => rw [hph] at hearly; cases hearly

end Achieved

/-! ## What the client is told -/

/-- The backend's banner is not lost to an I/O error, a timeout, an overlong
line or one that is not UTF-8. -/
def bannerArrives (h : History Io) : Event → Bool
  | ⟨.line (.backend _) (.text _), _⟩ => true
  | ⟨.line (.backend _) _, _⟩ => !(writesTo Conn.isBackend h).isEmpty
  | _ => true

/-- What the client has been sent. `F` allows the banner to be lost. -/
def Reported (F : Prop) (h : History Io) : Phase → Prop
  | .connecting | .banner => writesTo Conn.isClient h = [] ∧ writesTo Conn.isBackend h = []
  | .sending _ _ | .awaiting _ _ _ | .authOk _ | .greeting _ => writesTo Conn.isClient h = []
  | .closing b => Negotiated h ∨ (b = serviceNotAvailable ∧ writesTo Conn.isClient h = [])
  | .ended => Negotiated h ∨ writesTo Conn.isClient h = [serviceNotAvailable] ∨ F
  | _ => Negotiated h

section Reported

variable {cfg : SessionConfig} {F : Prop} {h : History Io} {s s' : Ctl} {e : Event} {ph : Phase}

theorem reported_of_negotiated (hlate : ph.isEarly = false) (hneg : Negotiated h) :
    Reported F h ph := by
  cases ph with
  | closing b => exact Or.inl hneg
  | ended => exact Or.inl hneg
  | connecting | banner | sending | awaiting | authOk | greeting => cases hlate
  | _ => exact hneg

/-- Nothing is said to the client before the session is secured. -/
theorem Reported.unsaid (hrep : Reported F h ph) (hearly : ph.isEarly = true) :
    writesTo Conn.isClient h = [] := by
  cases ph with
  | connecting | banner => exact hrep.1
  | sending | awaiting | authOk | greeting => exact hrep
  | _ => cases hearly

/-- An exchange that writes nothing. -/
theorem Reported.skip {p : Phase} (hrep : Reported F h p) (hw : ∀ on, e.writeOut on = none) :
    Reported F (h ++ [e]) p := by
  have hsame : ∀ on, writesTo on (h ++ [e]) = writesTo on h := fun on => by simp [hw]
  have hneg : Negotiated h → Negotiated (h ++ [e]) := fun hneg => hneg.skip e
  cases p with
  | connecting | banner => exact ⟨(hsame _).trans hrep.1, (hsame _).trans hrep.2⟩
  | sending | awaiting | authOk | greeting => exact (hsame _).trans hrep
  | closing b => exact hrep.imp hneg fun hlast => ⟨hlast.1, (hsame _).trans hlast.2⟩
  | ended => exact hrep.imp hneg fun hlast => hlast.imp_left fun htold => (hsame _).trans htold
  | _ => exact hneg hrep

theorem Reported.line {c : Conn} {r : LineRead} {rest : Bytes} {u : Unit} {ph' : Phase}
    (htls : cfg.backendTls = true) (hrep : Reported F h ph) (hearly : ph.isEarly = true)
    (hc : ph.reads cfg = some c) (hF : F ∨ bannerArrives h ⟨.line c r, u⟩ = true)
    (hnext : AfterLine cfg ph r rest ph') : Reported F (h ++ [⟨.line c r, u⟩]) ph' := by
  have hnone : writesTo Conn.isClient (h ++ [⟨.line c r, u⟩]) = [] := by
    simp [hrep.unsaid hearly]
  have hlost : ph = .banner → (∀ t, r ≠ .text t) →
      Reported F (h ++ [⟨.line c r, u⟩]) .ended := by
    rintro rfl hr
    obtain rfl : Conn.backend false = c := Option.some.inj hc
    refine Or.inr (Or.inr (hF.resolve_right ?_))
    cases r with
    | text t => exact absurd rfl (hr t)
    | err k => simp [bannerArrives, hrep.2]
    | elapsed => simp [bannerArrives, hrep.2]
  cases hnext with
  | banner hne =>
      rw [if_pos htls]
      exact hnone
  | bannerEof => exact Or.inr ⟨rfl, hnone⟩
  | bannerErr k => exact hlost rfl (by simp)
  | bannerElapsed => exact hlost rfl (by simp)
  | negotiationFailed hbad => exact Or.inr ⟨rfl, hnone⟩
  | negotiationMore hmore => exact hnone
  | @negotiated k banner t code rest hends =>
      cases k with
      | auth =>
          simp only [Phase.negotiated]
          split
          · exact hnone
          · exact Or.inr ⟨rfl, hnone⟩
      | pbsz => exact hnone
      | prot => exact hnone
  | replyErr hph => rcases hph with ⟨t, rfl⟩ | ⟨t, rfl⟩ | ⟨t, rfl⟩ <;> cases hearly
  | replyElapsed hph => rcases hph with ⟨t, rfl⟩ | ⟨t, rfl⟩ | ⟨t, rfl⟩ <;> cases hearly
  | _ => cases hearly

theorem Reported.write {c : Conn} {b : Bytes} {held : Option UInt16} {ok err : Phase}
    {a : Except IoKind Unit} (hrep : Reported F h ph) (hach : InOrder ph.achieved h)
    (hearly : ph.isEarly = true) (hw : Writes cfg held ph c b ok err) :
    Reported F (h ++ [⟨.write c b, a⟩]) (onOk a ok err) := by
  have hnone := hrep.unsaid hearly
  cases hw with
  | unconnected =>
      have hover : Reported F (h ++ [⟨.write .client serviceNotAvailable, a⟩]) .ended :=
        Or.inr (Or.inl (by simp [hnone]))
      cases a <;> exact hover
  | negotiate k banner =>
      have hsame : writesTo Conn.isClient (h ++ [⟨.write k.conn (withCrLf k.command), a⟩]) = [] := by
        cases k <;> simp [Negotiation.conn, hnone]
      cases a with
      | ok u => exact hsame
      | error x => exact Or.inr ⟨rfl, hsame⟩
  | greet banner =>
      have hneg : Negotiated (h ++ [⟨.write .client (utf8 banner), a⟩]) := InOrder.skip _ hach
      exact reported_of_negotiated (by cases a <;> rfl) hneg
  | _ => cases hearly

theorem Reported.step (htls : cfg.backendTls = true) (hrep : Reported F h s.phase)
    (hach : InOrder s.phase.achieved h) (hF : F ∨ bannerArrives h e = true)
    (ht : Trans cfg s e s') : Reported F (h ++ [e]) s'.phase := by
  cases hover : s.phase.isOver with
  | true =>
      rcases step_of_isOver hover ht with ⟨hsame, hsilent, -⟩ | ⟨l, a, hph, rfl, hended⟩
      · rw [hsame]
        exact hrep.skip hsilent
      · rw [hph] at hrep
        rw [hended]
        rcases hrep with hneg | ⟨rfl, hnone⟩
        · exact Or.inl (hneg.skip _)
        · exact Or.inr (Or.inl (by simp [hnone]))
  | false =>
      cases hearly : s.phase.isEarly with
      | false =>
          exact reported_of_negotiated (isEarly_step hearly ht)
            ((negotiated_of_achieved hearly hover hach).skip e)
      | true =>
          cases ht with
          | read a hc hno hlen hstop =>
              rw [s.take_phase a]
              exact hrep.skip fun _ => rfl
          | line u hc hr hnext => exact hrep.line htls hearly hc hF hnext
          | write a hw => exact hrep.write hach hearly hw
          | connected source hph =>
              rw [hph] at hrep
              exact hrep.skip (p := .banner) fun _ => rfl
          | startTls a hph hpend =>
              rw [hph] at hrep
              cases a with
              | ok u => exact hrep.skip (p := .sending .pbsz _) fun _ => rfl
              | error k =>
                  have hnone : writesTo Conn.isClient (h ++ [⟨.startTls, .error k⟩]) = [] := by
                    simp [hrep.unsaid rfl]
                  exact Or.inr ⟨rfl, hnone⟩
          | succeeded u hph hl => exact hrep.skip fun _ => rfl
          | allocate a hph hstor hheld => exact hrep.skip fun _ => rfl
          | release port u hph => exact hrep.skip fun _ => rfl
          | book he => exact hrep.skip fun on => (he.silent on).1
          | clientRead a hph => rw [hph] at hearly; cases hearly
          | clientLine u hph hnext => rw [hph] at hearly; cases hearly
          | startDataTls a hph => rw [hph] at hearly; cases hearly
          | relay client run hph => rw [hph] at hearly; cases hearly

end Reported

/-! ## What is used as a reply -/

/-- Before the handshake. -/
def Phase.isClear : Phase → Bool
  | .connecting | .banner | .sending .auth _ | .awaiting .auth _ _ | .authOk _ => true
  | _ => false

/-- The line that a phase is about to pass on. -/
def Phase.toPass : Phase → Option Text
  | .replying _ l | .storReplying _ l | .completing _ l => some l
  | _ => none

/-- Lines of the secured connection are made of what came over it. -/
structure TlsAccount (h : History Io) (s : Ctl) : Prop where
  clear : s.phase.isClear = true → received Conn.isTls h = [] ∧ linesFrom Conn.isTls h = []
    ∧ writesTo Conn.isTls h = []
  heard : s.phase.isClear = false → s.phase.isOver = false →
    received Conn.isTls h = said (linesFrom Conn.isTls h) ++ s.pending
  used : said (linesFrom Conn.isTls h) <+: received Conn.isTls h
  passed : ∀ l, s.phase.toPass = some l → l ∈ linesFrom Conn.isTls h

section TlsAccount

variable {cfg : SessionConfig} {h : History Io} {s s' : Ctl} {e : Event} {ph : Phase}

/-- The session reads in the clear exactly before the handshake. -/
theorem conn_of_reads (htls : cfg.backendTls = true) {c : Conn} (hc : ph.reads cfg = some c) :
    c = .backend (!ph.isClear) := by
  have hcontrol : cfg.control = .backend true := by rw [SessionConfig.control, htls]
  cases ph with
  | banner => exact (Option.some.inj hc).symm
  | awaiting k b code => cases k <;> exact (Option.some.inj hc).symm
  | ownReply t | forwarded t | storSent t | finalReply t =>
      exact (Option.some.inj hc).symm.trans hcontrol
  | _ => cases hc

/-- What is in the clear has always been. -/
theorem clear_of_step (htls : cfg.backendTls = true) (ht : Trans cfg s e s')
    (hclear : s'.phase.isClear = true) :
    s.phase.isClear = true ∧ e.bytesIn Conn.isTls = [] ∧ e.lineIn Conn.isTls = none
      ∧ e.writeOut Conn.isTls = none := by
  cases ht with
  | read a hc hno hlen hstop =>
      rw [s.take_phase a] at hclear
      refine ⟨hclear, ?_⟩
      rw [conn_of_reads htls hc, hclear]
      exact ⟨Event.bytesIn_off rfl a, rfl, rfl⟩
  | @line c r rest ph u hc hr hnext =>
      have hconn := conn_of_reads htls hc
      generalize s.phase.handed cfg r = r at hnext
      generalize s.phase = ph₀ at hconn hnext
      have hsilent : ph₀.isClear = true → ph₀.isClear = true
          ∧ Event.bytesIn Conn.isTls ⟨.line c r, u⟩ = []
          ∧ Event.lineIn Conn.isTls ⟨.line c r, u⟩ = none
          ∧ Event.writeOut Conn.isTls ⟨.line c r, u⟩ = none := by
        intro hwas
        rw [hwas] at hconn
        subst hconn
        exact ⟨hwas, rfl, by cases r <;> rfl, rfl⟩
      cases hnext with
      | banner hne => exact hsilent rfl
      | @negotiationMore k => cases k <;> first | exact hsilent rfl | cases hclear
      | @negotiated k =>
          cases k with
          | auth => exact hsilent rfl
          | pbsz => cases hclear
          | prot => cases hclear
      | _ => cases hclear
  | clientRead a hph => rw [hph] at hclear; cases hclear
  | clientLine u hph hnext => cases hnext <;> cases hclear
  | @write c b ok err a hw =>
      generalize s.phase = ph₀ at hw
      cases a with
      | error k => cases hw <;> cases hclear
      | ok x =>
          cases hw with
          | negotiate k banner => cases k <;> first | exact ⟨rfl, rfl, rfl, rfl⟩ | cases hclear
          | reply =>
              simp only [onOk] at hclear
              split at hclear <;> cases hclear
          | storReply =>
              simp only [onOk] at hclear
              repeat' split at hclear
              all_goals cases hclear
          | _ => cases hclear
  | connected source hph => rw [hph]; exact ⟨rfl, rfl, rfl, rfl⟩
  | startTls a hph hpend => cases a <;> cases hclear
  | startDataTls a hph => cases a <;> cases hclear
  | relay client run hph => cases hclear
  | succeeded u hph hl => exact ⟨hclear, rfl, rfl, rfl⟩
  | allocate a hph hstor hheld => exact ⟨hclear, rfl, rfl, rfl⟩
  | release port u hph => exact ⟨hclear, rfl, rfl, rfl⟩
  | book he => exact ⟨hclear, (he.silent _).2.2, (he.silent _).2.1, (he.silent _).1⟩

/-- An exchange in which nothing is read. -/
theorem TlsAccount.skip (hacc : TlsAccount h s) (htls : cfg.backendTls = true)
    (ht : Trans cfg s e s') (hb : e.bytesIn Conn.isTls = []) (hl : e.lineIn Conn.isTls = none)
    (hheard : s'.phase.isClear = false → s'.phase.isOver = false →
      received Conn.isTls h = said (linesFrom Conn.isTls h) ++ s'.pending)
    (hpass : ∀ l, s'.phase.toPass = some l → s.phase.toPass = some l) :
    TlsAccount (h ++ [e]) s' := by
  have hrec : received Conn.isTls (h ++ [e]) = received Conn.isTls h := by simp [hb]
  have hlines : linesFrom Conn.isTls (h ++ [e]) = linesFrom Conn.isTls h := by simp [hl]
  refine ⟨fun hclear => ?_, by rwa [hrec, hlines], by rw [hrec, hlines]; exact hacc.used,
    fun l hl => by rw [hlines]; exact hacc.passed l (hpass l hl)⟩
  obtain ⟨hwas, -, -, hw⟩ := clear_of_step htls ht hclear
  obtain ⟨hnone, hno, hsent⟩ := hacc.clear hwas
  exact ⟨by rw [hrec, hnone], by rw [hlines, hno], by simp [hw, hsent]⟩

theorem TlsAccount.read {c : Conn} (hacc : TlsAccount h s) (htls : cfg.backendTls = true)
    (a : ReadAns) (hc : s.phase.reads cfg = some c) (ht : Trans cfg s ⟨.read c, a⟩ (s.take a)) :
    TlsAccount (h ++ [⟨.read c, a⟩]) (s.take a) := by
  have hph := s.take_phase a
  have hlines : linesFrom Conn.isTls (h ++ [⟨.read c, a⟩]) = linesFrom Conn.isTls h := by simp
  have hrec : received Conn.isTls (h ++ [⟨.read c, a⟩])
      = received Conn.isTls h ++ Event.bytesIn Conn.isTls ⟨.read c, a⟩ := by simp
  constructor
  · intro hclear
    obtain ⟨hwas, hb, -, -⟩ := clear_of_step htls ht hclear
    obtain ⟨hnone, hno, hsent⟩ := hacc.clear hwas
    exact ⟨by rw [hrec, hnone, hb]; rfl, by rw [hlines, hno], by simp [hsent]⟩
  · intro hclear hover
    rw [hph] at hclear hover
    have hconn := conn_of_reads htls hc
    rw [hclear] at hconn
    subst hconn
    rw [hrec, hlines, hacc.heard hclear hover]
    cases a <;> simp [Ctl.take]
  · rw [hrec, hlines]
    exact hacc.used.trans (List.prefix_append _ _)
  · intro l hl
    rw [hph] at hl
    rw [hlines]
    exact hacc.passed l hl

/-- A line with something in it, or nothing more is read. -/
theorem over_of_no_text {r : LineRead} {rest : Bytes} {ph' : Phase}
    (hnext : AfterLine cfg ph r rest ph') (hr : ∀ t, r ≠ .text t) : ph'.isOver = true := by
  cases hnext with
  | banner hne => exact absurd rfl (hr _)
  | negotiationMore hmore => exact absurd rfl (hr _)
  | negotiated hends => exact absurd rfl (hr _)
  | ownReply hne hend => exact absurd rfl (hr _)
  | forwarded hne => exact absurd rfl (hr _)
  | storSent hne => exact absurd rfl (hr _)
  | finalReply hne => exact absurd rfl (hr _)
  | _ => rfl

/-- A line leads out of the clear only to the end of the session. -/
theorem clear_of_line {r : LineRead} {rest : Bytes} {ph' : Phase} (htls : cfg.backendTls = true)
    (hnext : AfterLine cfg ph r rest ph') (hclear : ph'.isClear = false)
    (hover : ph'.isOver = false) : ph.isClear = false := by
  cases hnext with
  | banner hne =>
      rw [if_pos htls] at hclear
      cases hclear
  | @negotiationMore k => cases k <;> first | rfl | cases hclear
  | @negotiated k =>
      cases k with
      | auth =>
          by_cases hnil : rest = []
          · simp only [Phase.negotiated, hnil, if_true] at hclear
            cases hclear
          · simp only [Phase.negotiated, hnil, if_false] at hover
            cases hover
      | pbsz => rfl
      | prot => rfl
  | replyErr hph => rcases hph with ⟨t, rfl⟩ | ⟨t, rfl⟩ | ⟨t, rfl⟩ <;> rfl
  | replyElapsed hph => rcases hph with ⟨t, rfl⟩ | ⟨t, rfl⟩ | ⟨t, rfl⟩ <;> rfl
  | _ => first | rfl | cases hover

theorem said_line (t : Text) (u : Unit) :
    said (linesFrom Conn.isTls (h ++ [⟨.line (.backend true) (.text t), u⟩]))
      = said (linesFrom Conn.isTls h) ++ utf8 t := by
  cases t <;> simp

/-- The phase a line leads to passes on that line or nothing. -/
theorem toPass_of_line {r : LineRead} {rest : Bytes} {ph' : Phase} {l : Text}
    (hnext : AfterLine cfg ph r rest ph') (hpass : ph'.toPass = some l) :
    r = .text l ∧ l ≠ [] ∧ ph.isClear = false := by
  cases hnext with
  | banner hne => split at hpass <;> cases hpass
  | @negotiated k =>
      cases k with
      | auth =>
          simp only [Phase.negotiated] at hpass
          split at hpass <;> cases hpass
      | pbsz => cases hpass
      | prot => cases hpass
  | forwarded hne => obtain rfl := Option.some.inj hpass; exact ⟨rfl, hne, rfl⟩
  | storSent hne => obtain rfl := Option.some.inj hpass; exact ⟨rfl, hne, rfl⟩
  | finalReply hne => obtain rfl := Option.some.inj hpass; exact ⟨rfl, hne, rfl⟩
  | _ => cases hpass

theorem TlsAccount.line {c : Conn} {r : LineRead} {rest : Bytes} {u : Unit} {ph' : Phase}
    (hacc : TlsAccount h s) (htls : cfg.backendTls = true) (hc : s.phase.reads cfg = some c)
    (hr : Handed cfg.maxBytes s.stop s.pending r rest)
    (hnext : AfterLine cfg s.phase (s.phase.handed cfg r) rest ph') :
    TlsAccount (h ++ [⟨.line c (s.phase.handed cfg r), u⟩]) ⟨ph', rest, none, s.held⟩ := by
  have hgo := not_isOver_of_reads hc
  have hconn := conn_of_reads htls hc
  have hrec : received Conn.isTls (h ++ [⟨.line c (s.phase.handed cfg r), u⟩])
      = received Conn.isTls h := by simp
  constructor
  · intro hclear
    obtain ⟨hwas, -, hl, -⟩ := clear_of_step htls (.line u hc hr hnext) hclear
    obtain ⟨hnone, hno, hsent⟩ := hacc.clear hwas
    exact ⟨by rw [hrec, hnone], by simp [hno, hl], by simp [hsent]⟩
  · intro hclear hover
    have hwas := clear_of_line htls hnext hclear hover
    rw [hwas, Bool.not_false] at hconn
    rw [hrec, hacc.heard hwas hgo, hconn]
    cases htext : s.phase.handed cfg r with
    | text t => rw [said_line, pending_of_handed hr htext, List.append_assoc]
    | err k =>
        rw [over_of_no_text hnext (by simp [htext])] at hover
        cases hover
    | elapsed =>
        rw [over_of_no_text hnext (by simp [htext])] at hover
        cases hover
  · rw [hrec]
    cases hwas : s.phase.isClear with
    | true =>
        rw [hwas, Bool.not_true] at hconn
        rw [hconn]
        have hsame : linesFrom Conn.isTls
            (h ++ [⟨.line (.backend false) (s.phase.handed cfg r), u⟩])
            = linesFrom Conn.isTls h := by
          cases s.phase.handed cfg r <;> simp
        rw [hsame]
        exact hacc.used
    | false =>
        rw [hwas, Bool.not_false] at hconn
        rw [hconn]
        cases htext : s.phase.handed cfg r with
        | text t =>
            rw [said_line, hacc.heard hwas hgo, pending_of_handed hr htext]
            exact ⟨rest, by simp⟩
        | err k => simpa using hacc.used
        | elapsed => simpa using hacc.used
  · intro l hl
    obtain ⟨htext, hne, hwas⟩ := toPass_of_line hnext hl
    rw [hwas, Bool.not_false] at hconn
    rw [hconn, htext]
    simp [hne]

theorem TlsAccount.step (hacc : TlsAccount h s) (htls : cfg.backendTls = true)
    (ht : Trans cfg s e s') : TlsAccount (h ++ [e]) s' := by
  cases ht with
  | read a hc hno hlen hstop => exact hacc.read htls a hc (.read a hc hno hlen hstop)
  | line u hc hr hnext => exact hacc.line htls hc hr hnext
  | clientRead a hph =>
      exact hacc.skip htls (.clientRead a hph) (Event.bytesIn_off rfl a) rfl hacc.heard
        fun _ => id
  | clientLine u hph hnext =>
      refine hacc.skip htls (.clientLine u hph hnext) rfl (by cases hnext <;> rfl) (fun _ _ => ?_) ?_
      · exact hacc.heard (by rw [hph]; rfl) (by rw [hph]; rfl)
      · intro l hl
        cases hnext <;> cases hl
  | @write c b ok err a hw =>
      refine hacc.skip htls (.write a hw) rfl rfl (fun hclear hover => ?_) ?_
      · refine hacc.heard ?_ ?_
        · generalize s.phase = ph₀ at hw
          cases hw with
          | unconnected => cases a <;> cases hover
          | negotiate k banner =>
              cases k with
              | auth =>
                  cases a with
                  | ok x => cases hclear
                  | error x => cases hover
              | pbsz => rfl
              | prot => rfl
          | _ => rfl
        · generalize s.phase = ph₀ at hw
          cases hw with
          | closing b => cases a <;> cases hover
          | _ => rfl
      · intro l hl
        generalize s.phase = ph₀ at hw
        cases a with
        | error k => cases hw <;> cases hl
        | ok x =>
            cases hw with
            | reply =>
                simp only [onOk] at hl
                split at hl <;> cases hl
            | storReply =>
                simp only [onOk] at hl
                repeat' split at hl
                all_goals cases hl
            | _ => cases hl
  | connected source hph =>
      exact hacc.skip htls (.connected source hph) rfl rfl (fun hclear => by cases hclear)
        fun _ hl => by cases hl
  | startTls a hph hpend =>
      refine hacc.skip htls (.startTls a hph hpend) rfl rfl (fun _ _ => ?_) ?_
      · obtain ⟨hnone, hno, -⟩ := hacc.clear (by rw [hph]; rfl)
        rw [hnone, hno, hpend]
        rfl
      · intro l hl
        cases a <;> cases hl
  | startDataTls a hph =>
      refine hacc.skip htls (.startDataTls a hph) rfl rfl (fun _ _ => ?_) ?_
      · exact hacc.heard (by rw [hph]; rfl) (by rw [hph]; rfl)
      · intro l hl
        cases a <;> cases hl
  | relay client run hph =>
      refine hacc.skip htls (.relay client run hph) rfl rfl (fun _ _ => ?_) fun _ hl => by cases hl
      exact hacc.heard (by rw [hph]; rfl) (by rw [hph]; rfl)
  | succeeded u hph hl => exact hacc.skip htls (.succeeded u hph hl) rfl rfl hacc.heard fun _ => id
  | allocate a hph hstor hheld =>
      exact hacc.skip htls (.allocate a hph hstor hheld) rfl rfl hacc.heard fun _ => id
  | release port u hph => exact hacc.skip htls (.release port u hph) rfl rfl hacc.heard fun _ => id
  | book he =>
      exact hacc.skip htls (.book he) (he.silent _).2.2 (he.silent _).2.1 hacc.heard fun _ => id

end TlsAccount

/-! ## Data connections -/

def Event.isConnectData : Event → Bool
  | ⟨.connectData _ _, _⟩ => true
  | _ => false

/-- The latest data connection to the backend has had its handshake. -/
def DataSecured (h : History Io) : Prop :=
  ∃ pre post, h = pre ++ ⟨.startDataTls, .ok ()⟩ :: post
    ∧ ∀ e ∈ post, Event.isConnectData e = false

theorem DataSecured.append {h : History Io} {e : Event} (hsec : DataSecured h)
    (he : Event.isConnectData e = false) : DataSecured (h ++ [e]) := by
  obtain ⟨pre, post, rfl, hpost⟩ := hsec
  refine ⟨pre, post ++ [e], by simp, ?_⟩
  intro x hx
  rcases List.mem_append.mp hx with hx | hx
  · exact hpost x hx
  · obtain rfl := List.mem_singleton.mp hx
    exact he

theorem dataSecured_step {cfg : SessionConfig} {h : History Io} {s s' : Ctl} {e : Event}
    (htls : cfg.backendTls = true) (hsec : ∀ t, s.phase = .relaying t → DataSecured h)
    (ht : Trans cfg s e s') : ∀ t, s'.phase = .relaying t → DataSecured (h ++ [e]) := by
  intro t hph'
  have hkeep : s.phase = .relaying t → Event.isConnectData e = false → DataSecured (h ++ [e]) :=
    fun hph he => (hsec t hph).append he
  cases ht with
  | read a hc hno hlen hstop =>
      have hph := s.take_phase a
      exact hkeep (hph ▸ hph') rfl
  | @line c r rest ph u hc hr hnext =>
      generalize s.phase.handed cfg r = r at hnext
      generalize s.phase = ph₀ at hnext
      cases hnext with
      | banner hne => rw [if_pos htls] at hph'; cases hph'
      | @negotiated k =>
          cases k with
          | auth =>
              simp only [Phase.negotiated] at hph'
              split at hph' <;> cases hph'
          | pbsz => cases hph'
          | prot => cases hph'
      | _ => cases hph'
  | clientRead a hph => exact hkeep hph' rfl
  | clientLine u hph hnext => cases hnext <;> cases hph'
  | write a hw =>
      generalize s.phase = ph₀ at hw
      cases a with
      | error k => cases hw <;> cases hph'
      | ok x =>
          cases hw with
          | reply =>
              simp only [onOk] at hph'
              split at hph' <;> cases hph'
          | storReply =>
              simp only [onOk, htls, if_true] at hph'
              split at hph' <;> cases hph'
          | _ => cases hph'
  | connected source hph => cases hph'
  | startTls a hph hpend => cases a <;> cases hph'
  | startDataTls a hph =>
      cases a with
      | ok u => exact ⟨h, [], rfl, by simp⟩
      | error k => cases hph'
  | relay client run hph => cases hph'
  | succeeded u hph hl => exact hkeep hph' rfl
  | allocate a hph hstor hheld => exact hkeep hph' rfl
  | release port u hph => exact hkeep hph' rfl
  | book he =>
      refine hkeep hph' ?_
      cases he with
      | connectData hcmd => rw [hph'] at hcmd; cases hcmd
      | _ => rfl

/-! ## Whole sessions -/

/-- Everything that is known about a session with TLS. -/
structure Guarded (F : Prop) (h : History Io) (s : Ctl) : Prop where
  begun : Begun h s.phase
  achieved : InOrder s.phase.achieved h
  reported : Reported F h s.phase
  account : TlsAccount h s
  data : ∀ t, s.phase = .relaying t → DataSecured h

theorem guarded_of_path {cfg : SessionConfig} {F : Prop} {h : History Io} {s : Ctl}
    (htls : cfg.backendTls = true) (hp : Reaches cfg h s)
    (hF : Always (fun h e => F ∨ bannerArrives h e = true) h) : Guarded F h s := by
  refine Path.invariant ?_ (fun h s e s' _ hg hF ht => ?_) hp hF
  · exact {
      begun := trivial
      achieved := .nil _
      reported := ⟨rfl, rfl⟩
      account := ⟨fun _ => ⟨rfl, rfl, rfl⟩, nofun, List.nil_prefix, nofun⟩
      data := nofun }
  · exact {
      begun := begun_step hg.begun ht
      achieved := achieved_step htls hg.achieved hg.begun ht
      reported := hg.reported.step htls hg.achieved hF ht
      account := hg.account.step htls ht
      data := dataSecured_step htls hg.data ht }

/-- What the gateway itself says to a client. -/
def IsGatewayReply (cfg : SessionConfig) (b : Bytes) : Prop :=
  IsOwnReply cfg b ∨ IsLastWord b ∨ b = commandLineTooLong ∨ b = idleTimeoutReply

theorem isGatewayReply_of_closing {cfg : SessionConfig} {h : History Io} {s : Ctl} {b : Bytes}
    (hp : Reaches cfg h s) (hclosing : s.phase = .closing b) : IsGatewayReply cfg b := by
  induction hp with
  | nil => cases hclosing
  | snoc hp ht ih =>
      rcases closing_of_step ht hclosing with hwas | hlast | ⟨-, hown⟩
      · exact ih hwas
      · exact Or.inr (Or.inl hlast)
      · exact Or.inr (Or.inr hown)

/-- A session with TLS that gives nothing away: in the clear the backend is sent
`AUTH TLS` and nothing else, and file bytes move only after the handshake on the data
connection. A line in the clear comes before anything that is sent over TLS, so before
anything it could be taken to answer, and the lines of the secured connection are bytes
that came over it. Before the negotiation is through the client is sent nothing but a
421, which does come; later, what the gateway itself has to say or such a line. -/
structure FailsClosed (cfg : SessionConfig) (run : Outcome Leave Unit × History Io) : Prop where
  plain : ∀ b ∈ writesTo Conn.isPlain run.2, b = withCrLf "AUTH TLS".toList
  data : ∀ h client tls x t, run.2 = h ++ ⟨.relay client tls, x⟩ :: t →
    tls = true ∧ DataSecured h
  clear : ∀ h r u t, run.2 = h ++ ⟨.line (.backend false) r, u⟩ :: t → writesTo Conn.isTls h = []
  sealed : ∀ h t, run.2 = h ++ t → said (linesFrom Conn.isTls h) <+: received Conn.isTls h
  banner : ∀ h b a t, run.2 = h ++ ⟨.write .client b, a⟩ :: t →
    Negotiated h ∨ (b = serviceNotAvailable ∧ writesTo Conn.isClient h = [])
  replies : ∀ h b a t, run.2 = h ++ ⟨.write .client b, a⟩ :: t → writesTo Conn.isClient h ≠ [] →
    IsGatewayReply cfg b ∨ ∃ l ∈ linesFrom Conn.isTls h, b = utf8 l
  closed : ∀ e, run.1 = .exit e → ¬Negotiated run.2 →
    writesTo Conn.isClient run.2 = [serviceNotAvailable]

section FailsClosed

variable {cfg : SessionConfig} {h : History Io} {s s' : Ctl} {b : Bytes} {a : Except IoKind Unit}

theorem auth_of_plain_write (htls : cfg.backendTls = true)
    (ht : Trans cfg s ⟨.write (.backend false) b, a⟩ s') : b = withCrLf "AUTH TLS".toList := by
  have hcontrol : cfg.control = .backend true := by rw [SessionConfig.control, htls]
  cases ht with
  | write _ hw =>
      generalize s.phase = ph at hw
      generalize hc : Conn.backend false = c at hw
      cases hw with
      | negotiate k banner => cases k <;> first | rfl | cases hc
      | passive hstor hheld hb => rw [hcontrol] at hc; cases hc
      | forward hfwd hstor => rw [hcontrol] at hc; cases hc
      | stor hstor hheld => rw [hcontrol] at hc; cases hc
      | _ => cases hc
  | book he => cases he

theorem Guarded.relay {client : Arrival} {tls : Bool} {x : RelayRun} (hg : Guarded True h s)
    (htls : cfg.backendTls = true) (ht : Trans cfg s ⟨.relay client tls, x⟩ s') :
    tls = true ∧ DataSecured h := by
  cases ht with
  | relay _ _ hph => exact ⟨htls, hg.data _ hph⟩
  | book he => cases he

theorem isClear_of_plain_line {r : LineRead} {u : Unit} (htls : cfg.backendTls = true)
    (ht : Trans cfg s ⟨.line (.backend false) r, u⟩ s') : s.phase.isClear = true := by
  generalize he : (⟨.line (.backend false) r, u⟩ : Event) = e at ht
  cases ht with
  | line _ hc hr hnext =>
      have hconn := conn_of_reads htls hc
      cases he
      simpa using hconn.symm
  | book he' => subst he; cases he'
  | _ => cases he

theorem Guarded.clientWrite (hg : Guarded True h s)
    (ht : Trans cfg s ⟨.write .client b, a⟩ s') :
    Negotiated h ∨ (b = serviceNotAvailable ∧ writesTo Conn.isClient h = []) := by
  have hrep := hg.reported
  have hach := hg.achieved
  cases ht with
  | write _ hw =>
      generalize s.phase = ph at hw hrep hach
      generalize hc : Conn.client = c at hw
      cases hw with
      | unconnected => exact Or.inr ⟨rfl, hrep.1⟩
      | closing b => exact hrep
      | negotiate k banner => cases k <;> cases hc
      | greet banner => exact Or.inl hach
      | own hb => exact Or.inl hrep
      | reply => exact Or.inl hrep
      | storReply => exact Or.inl hrep
      | complete => exact Or.inl hrep
      | _ => cases hc
  | book he => cases he

theorem Guarded.clientReply (hg : Guarded True h s) (hp : Reaches cfg h s)
    (ht : Trans cfg s ⟨.write .client b, a⟩ s') (hlate : writesTo Conn.isClient h ≠ []) :
    IsGatewayReply cfg b ∨ ∃ l ∈ linesFrom Conn.isTls h, b = utf8 l := by
  have hrep := hg.reported
  have hpassed := hg.account.passed
  cases ht with
  | write _ hw =>
      generalize hph : s.phase = ph at hw hrep hpassed
      generalize hc : Conn.client = c at hw
      cases hw with
      | unconnected => exact absurd hrep.1 hlate
      | closing b => exact Or.inl (isGatewayReply_of_closing hp hph)
      | negotiate k banner => cases k <;> cases hc
      | greet banner => exact absurd hrep hlate
      | own hb => exact Or.inl (Or.inl hb)
      | @reply t l => exact Or.inr ⟨l, hpassed l rfl, rfl⟩
      | @storReply t l => exact Or.inr ⟨l, hpassed l rfl, rfl⟩
      | @complete t l => exact Or.inr ⟨l, hpassed l rfl, rfl⟩
      | _ => cases hc
  | book he => cases he

end FailsClosed

/-- **Backend FTPS fails closed**, whatever the client and the backend send, as
long as the banner is not lost to an error. -/
theorem backend_ftps_fails_closed (w : World) (cfg : SessionConfig) (n : Nat)
    (htls : cfg.backendTls = true)
    (hbanner : Always (fun h e => bannerArrives h e = true) (history w cfg n)) :
    FailsClosed cfg (sessionRun w cfg n) := by
  have hguard : ∀ {h : History Io} {s : Ctl}, Reaches cfg h s → Guarded True h s :=
    fun hp => guarded_of_path htls hp fun _ _ _ _ => Or.inl trivial
  constructor
  · intro b hb
    obtain ⟨h, c, a, t, heq, hc⟩ := exists_of_mem_writesTo hb
    obtain ⟨s₁, s₂, s, -, hstep, -⟩ := session_at heq
    obtain rfl : c = .backend false := by simpa using hc
    exact auth_of_plain_write htls hstep
  · intro h client tls x t heq
    obtain ⟨s₁, s₂, s, hs₁, hstep, -⟩ := session_at heq
    exact (hguard hs₁).relay htls hstep
  · intro h r u t heq
    obtain ⟨s₁, s₂, s, hs₁, hstep, -⟩ := session_at heq
    exact ((hguard hs₁).account.clear (isClear_of_plain_line htls hstep)).2.2
  · intro h t heq
    obtain ⟨s, hs, -⟩ := session_on_machine w cfg n
    rw [show history w cfg n = h ++ t from heq] at hs
    obtain ⟨m, hm, -⟩ := hs.split
    exact (hguard hm).account.used
  · intro h b a t heq
    obtain ⟨s₁, s₂, s, hs₁, hstep, -⟩ := session_at heq
    exact (hguard hs₁).clientWrite hstep
  · intro h b a t heq hlate
    obtain ⟨s₁, s₂, s, hs₁, hstep, -⟩ := session_at heq
    exact (hguard hs₁).clientReply hs₁ hstep hlate
  · intro e hexit hnot
    obtain ⟨s, hs, hended⟩ := session_on_machine w cfg n
    have hrep := (guarded_of_path (F := False) htls hs
      (hbanner.mono fun _ _ hb => Or.inr hb)).reported
    rw [hended e hexit] at hrep
    rcases hrep with hneg | htold | hfalse
    · exact absurd hneg hnot
    · exact htold
    · exact hfalse.elim

/-- An upload over TLS. -/
def securedUpload : Script where
  client := [Script.chunk "PASV\r\nSTOR a\r\n".toList]
  backend := ["220 hi\r\n", "234 go\r\n", "200 ok\r\n", "200 ok\r\n",
    "227 ok (10,0,0,2,8,8)\r\n", "150 go\r\n", "226 done\r\n"].map
    fun reply => Script.chunk reply.toList
  data := sampleArrival
  relay := ⟨0, [⟨1, .up, [.read [1, 2], .wrote 2, .read [], .shut], [.read [], .shut]⟩]⟩

theorem backend_ftps_fails_closed_upload :
    writesTo Conn.isPlain (history securedUpload.world (sampleSession true) 2)
        = [withCrLf "AUTH TLS".toList]
      ∧ FailsClosed (sampleSession true) (sessionRun securedUpload.world (sampleSession true) 2) :=
  ⟨by decide +kernel, backend_ftps_fails_closed _ _ _ rfl (always_of_check (by decide +kernel))⟩

/-- The banner does not come in time. -/
def lateBanner : Script where
  client := []
  backend := [.elapsed]
  data := sampleArrival
  relay := ⟨0, []⟩

def Event.isHandshake : Event → Bool
  | ⟨.startTls, .ok ()⟩ => true
  | _ => false

theorem isHandshake_of_negotiated {h : History Io} (hneg : Negotiated h) :
    h.any Event.isHandshake = true := by
  obtain ⟨pre, e, t, rfl, rfl⟩ := InOrder.exists_of_mem hneg (p := Handshake) (by
    simp [Negotiation.before])
  simp [Event.isHandshake]

/-- **A banner that is lost is not reported**: the session ends and the client is
sent nothing. -/
theorem lost_banner_not_reported :
    ¬FailsClosed (sampleSession true) (sessionRun lateBanner.world (sampleSession true) 1) := by
  intro hcloses
  have hneg : ¬Negotiated (sessionRun lateBanner.world (sampleSession true) 1).2 := by
    intro hneg
    exact absurd (isHandshake_of_negotiated hneg) (by decide +kernel)
  exact absurd (hcloses.closed .ret (by decide +kernel) hneg) (by decide +kernel)

end FtpGateway
