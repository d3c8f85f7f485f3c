import FtpGateway.Session.Handle

/-!
# The control machine of a session

What a session does on its control connections, as a machine: the phase it is
in, the bytes of the backend that have arrived and are not used yet, and the
PASV port it holds. Timeouts, metrics, slots and the log leave the machine where
it is (`Bookkeeping`).

A phase that reads from the backend takes bytes in until there is a line and
then hands it over; `AfterLine` says what the session makes of it, `Writes` what
may be written in which phase and what follows.
-/

namespace FtpGateway

open Str Interact

/-! ## Phases -/

/-- The three commands that secure a control connection. -/
inductive Negotiation where
  | auth
  | pbsz
  | prot
deriving Repr, DecidableEq

namespace Negotiation

def conn : Negotiation → Conn
  | .auth => .backend false
  | .pbsz => .backend true
  | .prot => .backend true

def command : Negotiation → Text
  | .auth => "AUTH TLS".toList
  | .pbsz => "PBSZ 0".toList
  | .prot => "PROT P".toList

def code : Negotiation → Text
  | .auth => "234".toList
  | .pbsz => "200".toList
  | .prot => "200".toList

end Negotiation

/-- What the session is waiting for or doing: `banner` for the backend's first line,
`idle` for the client's next command, `ownReply` for the answer to `EPSV` or `PASV`,
`awaiting` for the rest of a reply, with its code once its first line was read. A
`command` has not been passed on yet, `storSent` is a `STOR` with both data
connections up, and `closing` has one more line for the client. -/
inductive Phase where
  | connecting
  | banner
  | sending (k : Negotiation) (banner : Text)
  | awaiting (k : Negotiation) (banner : Text) (code : Option Bytes)
  | authOk (banner : Text)
  | greeting (banner : Text)
  | idle
  | command (t : Text)
  | ownReply (t : Text)
  | forwarded (t : Text)
  | replying (t reply : Text)
  | storSent (t : Text)
  | storReplying (t reply : Text)
  | shaking (t : Text)
  | relaying (t : Text)
  | finalReply (t : Text)
  | completing (t completion : Text)
  | closing (b : Bytes)
  | ended
deriving Repr, DecidableEq

def isStor (t : Text) : Bool :=
  match FtpCommand.parse (stripped t) with
  | .stor _ => true
  | _ => false

theorem not_isStor_of_isPassive {t : Text}
    (h : (FtpCommand.parse (stripped t)).isPassive = true) : isStor t = false := by
  unfold isStor
  split
  · rename_i path hparse
    rw [hparse] at h
    cases h
  · rfl

/-- A command that is the backend's to answer. -/
def isForwardable (t : Text) : Bool :=
  !(FtpCommand.parse (stripped t)).isUnknown && !(FtpCommand.parse (stripped t)).isPassive

theorem isForwardable_of_isStor {t : Text} (h : isStor t = true) : isForwardable t = true := by
  unfold isStor at h
  split at h
  · rename_i path hparse
    rw [isForwardable, hparse]
    rfl
  · cases h

namespace Phase

/-- The connection a phase reads lines from. -/
def reads (cfg : SessionConfig) : Phase → Option Conn
  | .banner => some (.backend false)
  | .awaiting k _ _ => some k.conn
  | .ownReply _ => some cfg.control
  | .forwarded _ => some cfg.control
  | .storSent _ => some cfg.control
  | .finalReply _ => some cfg.control
  | _ => none

/-- The gateway's own commands are read without the cap as an error of its own. -/
def isOwn : Phase → Bool
  | .awaiting _ _ _ => true
  | .ownReply _ => true
  | _ => false

/-- What `read_line` hands to the session in this phase. -/
def handed (cfg : SessionConfig) (ph : Phase) (r : LineRead) : LineRead :=
  if ph.isOwn then r else checkBound cfg.maxBytes r

/-- After the last line of the reply to a command of the negotiation, with
`rest` still buffered. -/
def negotiated (k : Negotiation) (banner : Text) (rest : Bytes) : Phase :=
  match k with
  | .auth => if rest = [] then .authOk banner else .closing serviceNotAvailable
  | .pbsz => .sending .prot banner
  | .prot => .greeting banner

end Phase

/-- `pending` has been received from the backend and not been used yet; `stop` is the
answer that ended the current read of the backend, if one did. -/
structure Ctl where
  phase : Phase
  pending : Bytes
  stop : Option ReadAns
  held : Option UInt16
deriving Repr, DecidableEq

def Ctl.start : Ctl := ⟨.connecting, [], none, none⟩

/-! ## Lines -/

/-- What `take(limit).read_line` can come to, and what it leaves. -/
inductive Handed (limit : Nat) : Option ReadAns → Bytes → LineRead → Bytes → Prop where
  | line {body rest : Bytes} (hno : lf ∉ body) (hlen : body.length < limit) :
      Handed limit none (body ++ lf :: rest) (decodeLine (body ++ [lf])) rest
  | full {body rest : Bytes} (hno : lf ∉ body) (hlen : body.length = limit) :
      Handed limit none (body ++ rest) (decodeLine body) rest
  | eof {p : Bytes} (hno : lf ∉ p) (hlen : p.length < limit) :
      Handed limit (some .eof) p (decodeLine p) []
  | err {p : Bytes} (k : IoKind) : Handed limit (some (.err k)) p (.err k) []
  | elapsed {p : Bytes} : Handed limit (some .elapsed) p .elapsed []

/-- A line that may be the last one of the expected reply. -/
def EndsReply (expected : Bytes) (code : Option Bytes) (t : Text) : Prop :=
  t ≠ [] ∧ endsWithNewline t = true ∧ ∃ sep, replyCode? t = some (expected, sep)
    ∧ match code with
      | none => sep ≠ '-'.toUInt8
      | some first => first = expected ∧ sep = ' '.toUInt8

/-- A line after which the reply goes on. -/
def ContinuesReply (code : Option Bytes) (t : Text) (code' : Bytes) : Prop :=
  t ≠ [] ∧ endsWithNewline t = true
    ∧ match code with
      | none => replyCode? t = some (code', '-'.toUInt8)
      | some first => first = code' ∧ ∃ digits sep, replyCode? t = some (digits, sep)
          ∧ ¬(digits = first ∧ sep = ' '.toUInt8)

/-- What the session makes of a backend line, with `rest` still buffered. -/
inductive AfterLine (cfg : SessionConfig) : Phase → LineRead → Bytes → Phase → Prop where
  | banner {t : Text} {rest : Bytes} (hne : t ≠ []) : AfterLine cfg .banner (.text t) rest
      (if cfg.backendTls then .sending .auth t else .greeting t)
  | bannerEof {rest : Bytes} :
      AfterLine cfg .banner (.text []) rest (.closing serviceNotAvailable)
  | bannerErr {rest : Bytes} (k : IoKind) : AfterLine cfg .banner (.err k) rest .ended
  | bannerElapsed {rest : Bytes} : AfterLine cfg .banner .elapsed rest .ended
  | negotiationFailed {k : Negotiation} {b : Text} {code : Option Bytes} {r : LineRead}
      {rest : Bytes} (hbad : ∀ t, r = .text t → ¬EndsReply (utf8 k.code) code t) :
      AfterLine cfg (.awaiting k b code) r rest (.closing serviceNotAvailable)
  | negotiationMore {k : Negotiation} {b t : Text} {code : Option Bytes} {code' rest : Bytes}
      (hmore : ContinuesReply code t code') :
      AfterLine cfg (.awaiting k b code) (.text t) rest (.awaiting k b (some code'))
  | negotiated {k : Negotiation} {b t : Text} {code : Option Bytes} {rest : Bytes}
      (hends : EndsReply (utf8 k.code) code t) :
      AfterLine cfg (.awaiting k b code) (.text t) rest (Phase.negotiated k b rest)
  | ownReply {t l : Text} {rest : Bytes} (hne : l ≠ []) (hend : endsWithNewline l = true) :
      AfterLine cfg (.ownReply t) (.text l) rest (.command t)
  | ownReplyLost {t : Text} {r : LineRead} {rest : Bytes}
      (hlost : ∀ l, r = .text l → l = [] ∨ endsWithNewline l = false) :
      AfterLine cfg (.ownReply t) r rest (.closing serviceNotAvailable)
  | forwarded {t l : Text} {rest : Bytes} (hne : l ≠ []) :
      AfterLine cfg (.forwarded t) (.text l) rest (.replying t l)
  | forwardedEof {t : Text} {rest : Bytes} :
      AfterLine cfg (.forwarded t) (.text []) rest (.closing serviceNotAvailable)
  | storSent {t l : Text} {rest : Bytes} (hne : l ≠ []) :
      AfterLine cfg (.storSent t) (.text l) rest (.storReplying t l)
  | storSentEof {t : Text} {rest : Bytes} :
      AfterLine cfg (.storSent t) (.text []) rest (.closing serviceNotAvailable)
  | finalReply {t l : Text} {rest : Bytes} (hne : l ≠ []) :
      AfterLine cfg (.finalReply t) (.text l) rest (.completing t l)
  | finalReplyEof {t : Text} {rest : Bytes} :
      AfterLine cfg (.finalReply t) (.text []) rest (.closing transferAborted)
  | replyErr {ph : Phase} {k : IoKind} {rest : Bytes}
      (hph : (∃ t, ph = .forwarded t) ∨ (∃ t, ph = .storSent t) ∨ ∃ t, ph = .finalReply t) :
      AfterLine cfg ph (.err k) rest .ended
  | replyElapsed {ph : Phase} {rest : Bytes}
      (hph : (∃ t, ph = .forwarded t) ∨ (∃ t, ph = .storSent t) ∨ ∃ t, ph = .finalReply t) :
      AfterLine cfg ph .elapsed rest .ended

/-- What the session makes of a read from the client. -/
inductive AfterClientLine : LineRead → Phase → Prop where
  | line {t : Text} (hne : t ≠ []) : AfterClientLine (.text t) (.command t)
  | eof : AfterClientLine (.text []) .ended
  | tooLong : AfterClientLine (.err .invalidData) (.closing commandLineTooLong)
  | err {k : IoKind} : AfterClientLine (.err k) .ended
  | idle : AfterClientLine .elapsed (.closing idleTimeoutReply)

/-! ## Writes -/

/-- A reply that comes from the gateway itself and does not end the session. -/
def IsOwnReply (cfg : SessionConfig) (b : Bytes) : Prop :=
  b = syntaxError ∨ b = notImplemented ∨ b = cantOpenDataConnection
    ∨ ∃ port, b = utf8 (epsvReply port) ∨ b = utf8 (pasvReply cfg.passive.address port)

/-- `Writes cfg held ph c b ok err`: in phase `ph` the session may write `b` to
`c`; it goes on in `ok` if that succeeds and in `err` if it fails. -/
inductive Writes (cfg : SessionConfig) (held : Option UInt16) :
    Phase → Conn → Bytes → Phase → Phase → Prop where
  | unconnected : Writes cfg held .connecting .client serviceNotAvailable .ended .ended
  | closing (b : Bytes) : Writes cfg held (.closing b) .client b .ended .ended
  | negotiate (k : Negotiation) (banner : Text) :
      Writes cfg held (.sending k banner) k.conn (withCrLf k.command) (.awaiting k banner none)
        (.closing serviceNotAvailable)
  | greet (banner : Text) : Writes cfg held (.greeting banner) .client (utf8 banner) .idle .ended
  | own {t : Text} {b : Bytes} (hb : IsOwnReply cfg b)
      (hwhy : isForwardable t = true → (isStor t = true → held = none) →
        b = syntaxError ∧ hasEmbeddedLineBreak (stripped t) = true) :
      Writes cfg held (.command t) .client b .idle .ended
  | passive {t b : Text} (hstor : isStor t = true) (hheld : held ≠ none)
      (hb : b = "EPSV".toList ∨ b = "PASV".toList) :
      Writes cfg held (.command t) cfg.control (withCrLf b) (.ownReply t)
        (.closing serviceNotAvailable)
  | forward {t : Text} (hfwd : isForwardable t = true)
      (hstor : isStor t = true → held = none) :
      Writes cfg held (.command t) cfg.control (utf8 t) (.forwarded t) .ended
  | stor {t : Text} (hstor : isStor t = true) (hheld : held ≠ none) :
      Writes cfg held (.command t) cfg.control (utf8 t) (.storSent t) .ended
  | reply {t l : Text} :
      Writes cfg held (.replying t l) .client (utf8 l)
        (if FtpCommand.parse (stripped t) = .quit then .ended else .idle) .ended
  | storReply {t l : Text} :
      Writes cfg held (.storReplying t l) .client (utf8 l)
        (if cfg.backendTls then (if l.head? = some '1' then .shaking t else .idle)
          else .relaying t) .ended
  | complete {t l : Text} : Writes cfg held (.completing t l) .client (utf8 l) .idle .ended

/-! ## The machine -/

/-- Exchanges that do not concern the control connections. -/
inductive Bookkeeping (ph : Phase) : Event → Prop where
  | candidates (a : List Ipv4Addr) : Bookkeeping ph ⟨.candidates, a⟩
  | connect (source : Option Ipv4Addr) (k : IoKind) :
      Bookkeeping ph ⟨.connect source, .error k⟩
  | report (source : Ipv4Addr) (k : IoKind) (u : Unit) :
      Bookkeeping ph ⟨.reportConnectFailure source k, u⟩
  | backendPeer (a : Option IpAddr) : Bookkeeping ph ⟨.backendPeer, a⟩
  | awaitClientData (port : UInt16) (a : AcceptRun) : Bookkeeping ph ⟨.awaitClientData port, a⟩
  | acquireSlot (source : Ipv4Addr) (a : Bool) : Bookkeeping ph ⟨.acquireSlot source, a⟩
  | releaseSlot (u : Unit) : Bookkeeping ph ⟨.releaseSlot, u⟩
  | connectData {t : Text} (hph : ph = .command t) (addr : SocketAddr)
      (source : Option Ipv4Addr) (a : Except IoKind Unit) :
      Bookkeeping ph ⟨.connectData addr source, a⟩
  | metric {m : Metric} (hm : m ≠ .uploadSucceeded) (u : Unit) : Bookkeeping ph ⟨.metric m, u⟩
  | log (l : LogLine) (u : Unit) : Bookkeeping ph ⟨.log l, u⟩

def Ctl.take (s : Ctl) : ReadAns → Ctl
  | .data b rest => { s with pending := s.pending ++ b :: rest }
  | a => { s with stop := some a }

@[simp] theorem Ctl.take_phase (s : Ctl) (a : ReadAns) : (s.take a).phase = s.phase := by
  cases a <;> rfl

def onOk (a : Except IoKind Unit) (ok err : Phase) : Phase :=
  match a with
  | .ok () => ok
  | .error _ => err

inductive Trans (cfg : SessionConfig) : Ctl → Event → Ctl → Prop where
  | read {s : Ctl} {c : Conn} (a : ReadAns) (hc : s.phase.reads cfg = some c)
      (hno : lf ∉ s.pending) (hlen : s.pending.length < cfg.maxBytes) (hstop : s.stop = none) :
      Trans cfg s ⟨.read c, a⟩ (s.take a)
  | line {s : Ctl} {c : Conn} {r : LineRead} {rest : Bytes} {ph : Phase} (u : Unit)
      (hc : s.phase.reads cfg = some c)
      (hr : Handed cfg.maxBytes s.stop s.pending r rest)
      (hnext : AfterLine cfg s.phase (s.phase.handed cfg r) rest ph) :
      Trans cfg s ⟨.line c (s.phase.handed cfg r), u⟩ ⟨ph, rest, none, s.held⟩
  | clientRead {s : Ctl} (a : ReadAns) (hph : s.phase = .idle) :
      Trans cfg s ⟨.read .client, a⟩ s
  | clientLine {s : Ctl} {r : LineRead} {ph : Phase} (u : Unit) (hph : s.phase = .idle)
      (hnext : AfterClientLine r ph) : Trans cfg s ⟨.line .client r, u⟩ { s with phase := ph }
  | write {s : Ctl} {c : Conn} {b : Bytes} {ok err : Phase} (a : Except IoKind Unit)
      (hw : Writes cfg s.held s.phase c b ok err) :
      Trans cfg s ⟨.write c b, a⟩ { s with phase := onOk a ok err }
  | connected {s : Ctl} (source : Option Ipv4Addr) (hph : s.phase = .connecting) :
      Trans cfg s ⟨.connect source, .ok ()⟩ { s with phase := .banner }
  | startTls {s : Ctl} {banner : Text} (a : Except IoKind Unit)
      (hph : s.phase = .authOk banner) (hpend : s.pending = []) :
      Trans cfg s ⟨.startTls, a⟩
        { s with phase := onOk a (.sending .pbsz banner) (.closing serviceNotAvailable) }
  | startDataTls {s : Ctl} {t : Text} (a : Except IoKind Unit) (hph : s.phase = .shaking t) :
      Trans cfg s ⟨.startDataTls, a⟩ { s with phase := onOk a (.relaying t) (.finalReply t) }
  | relay {s : Ctl} {t : Text} (client : Arrival) (run : RelayRun)
      (hph : s.phase = .relaying t) :
      Trans cfg s ⟨.relay client cfg.backendTls, run⟩ { s with phase := .finalReply t }
  | succeeded {s : Ctl} {t l : Text} (u : Unit) (hph : s.phase = .completing t l)
      (hl : (stripped l).head? = some '2') : Trans cfg s ⟨.metric .uploadSucceeded, u⟩ s
  | allocate {s : Ctl} {t : Text} (a : Option UInt16) (hph : s.phase = .command t)
      (hstor : isStor t = false) (hheld : s.held = none) :
      Trans cfg s ⟨.allocate, a⟩ { s with held := a }
  | release {s : Ctl} (port : UInt16) (u : Unit)
      (hph : s.phase = .idle ∨ s.phase = .ended ∨ ∃ t, s.phase = .command t ∧ isStor t = false) :
      Trans cfg s ⟨.release port, u⟩ { s with held := none }
  | book {s : Ctl} {e : Event} (he : Bookkeeping s.phase e) : Trans cfg s e s

/-- The machine can get to `s` by the history `h`. -/
abbrev Reaches (cfg : SessionConfig) (h : History Io) (s : Ctl) : Prop :=
  Path (Trans cfg) Ctl.start h s

end FtpGateway
