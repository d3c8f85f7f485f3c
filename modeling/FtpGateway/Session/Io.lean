import FtpGateway.Accept
import FtpGateway.Command
import FtpGateway.Interact
import FtpGateway.Relay
import FtpGateway.Reply

/-!
# What a session asks of its surroundings

A session is one task: it awaits one thing at a time, so its run is the list of
the requests it has made with the answers it got. `Io` lists the requests:
reads and writes on the two control connections (a read answers with whatever
chunk arrived), connecting and handshaking, the PASV port pool and the source
slots, the two waits that have a model of their own (`acceptClientData`,
`relayBidirectional`: the answer is the list of polls), the counters and the
log lines. `line` marks the moment a `read_line` hands its result to the session,
so a history shows which bytes were used and which are still buffered.

Timeouts need no clock: that the timer around an operation fired is one of the
answers the operation can get.
-/

namespace FtpGateway

open Str Interact

/-! ## Requests and answers -/

/-- A control connection; the one to a backend with whether it is under TLS. -/
inductive Conn where
  | client
  | backend (tls : Bool)
deriving Repr, DecidableEq

/-- The outcome of a read of the underlying stream, which is never empty
handed: a chunk has a first byte. `elapsed` is the timer around it. -/
inductive ReadAns where
  | data (b : UInt8) (rest : Bytes)
  | eof
  | err (k : IoKind)
  | elapsed
deriving Repr, DecidableEq

/-- What a call of `read_line` comes to. The text is empty at end of file. -/
inductive LineRead where
  | text (t : Text)
  | err (k : IoKind)
  | elapsed
deriving Repr, DecidableEq

structure AcceptRun where
  start : Nat
  polls : List AcceptPoll
deriving Repr, DecidableEq

structure RelayRun where
  start : Nat
  polls : List Poll
deriving Repr, DecidableEq

/-- The updates of the counters in `metrics.rs`, guard drops included. -/
inductive Metric where
  | sessionStarted
  | sessionEnded
  | uploadAttempted
  | uploadSucceeded
  | uploadFailed
  | uploadStarted
  | uploadEnded
  | uploadBytes (n : Nat)
  | backendPasvFailed
  | backendDataConnectionFailed
  | dataConnectionRejected
  | sessionIdleTimedOut
  | backendTimedOut
deriving Repr, DecidableEq

/-- The log lines about a command or a PASV port. -/
inductive LogLine where
  | embeddedLineBreak
  | receivedCommand (command : Text)
  | rejectedCommand (command : Text)
  | portAllocated (port : UInt16)
  | portReplaced (port : UInt16)
  | portReleased (port : UInt16)
deriving Repr, DecidableEq

inductive Req where
  | candidates
  | connect (source : Option Ipv4Addr)
  | reportConnectFailure (source : Ipv4Addr) (k : IoKind)
  | read (c : Conn)
  | write (c : Conn) (b : Bytes)
  | line (c : Conn) (r : LineRead)
  | startTls
  | backendPeer
  | allocate
  | release (port : UInt16)
  | awaitClientData (port : UInt16)
  | acquireSlot (source : Ipv4Addr)
  | releaseSlot
  | connectData (addr : SocketAddr) (source : Option Ipv4Addr)
  | startDataTls
  | relay (client : Arrival) (tls : Bool)
  | metric (m : Metric)
  | log (l : LogLine)
deriving Repr, DecidableEq

@[reducible] def Req.Ans : Req → Type
  | .candidates => List Ipv4Addr
  | .connect _ => Except IoKind Unit
  | .reportConnectFailure _ _ => Unit
  | .read _ => ReadAns
  | .write _ _ => Except IoKind Unit
  | .line _ _ => Unit
  | .startTls => Except IoKind Unit
  | .backendPeer => Option IpAddr
  | .allocate => Option UInt16
  | .release _ => Unit
  | .awaitClientData _ => AcceptRun
  | .acquireSlot _ => Bool
  | .releaseSlot => Unit
  | .connectData _ _ => Except IoKind Unit
  | .startDataTls => Except IoKind Unit
  | .relay _ _ => RelayRun
  | .metric _ => Unit
  | .log _ => Unit

abbrev Io : Sig := ⟨Req, Req.Ans⟩

abbrev Event := Exchange Io

/-- How `handle` is left: by `return Ok(())` or by `break` out of the loop. -/
inductive Leave where
  | ret
  | brk
deriving Repr, DecidableEq

abbrev Sess := Prog Io Leave

/-! ## Reading a history -/

namespace Conn

@[simp] def isClient (c : Conn) : Bool := c = .client

@[simp] def isBackend (c : Conn) : Bool := c ≠ .client

@[simp] def isPlain (c : Conn) : Bool := c = .backend false

@[simp] def isTls (c : Conn) : Bool := c = .backend true

theorem eq_backend {c : Conn} (hc : isBackend c = true) : ∃ tls, c = .backend tls := by
  cases c with
  | client => cases hc
  | backend tls => exact ⟨tls, rfl⟩

end Conn

namespace Event

def bytesIn (on : Conn → Bool) : Event → Bytes
  | ⟨.read c, .data b rest⟩ => if on c then b :: rest else []
  | _ => []

def lineIn (on : Conn → Bool) : Event → Option Text
  | ⟨.line c (.text t), _⟩ => if on c && !t.isEmpty then some t else none
  | _ => none

def writeOut (on : Conn → Bool) : Event → Option Bytes
  | ⟨.write c b, _⟩ => if on c then some b else none
  | _ => none

section Simp

variable {on : Conn → Bool} {c : Conn}

@[simp] theorem bytesIn_data (b : UInt8) (rest : Bytes) :
    bytesIn on ⟨.read c, .data b rest⟩ = if on c then b :: rest else [] := rfl

@[simp] theorem bytesIn_eof : bytesIn on ⟨.read c, .eof⟩ = [] := rfl

@[simp] theorem bytesIn_err (k : IoKind) : bytesIn on ⟨.read c, .err k⟩ = [] := rfl

@[simp] theorem bytesIn_elapsed : bytesIn on ⟨.read c, .elapsed⟩ = [] := rfl

theorem bytesIn_off (hc : on c = false) (a : ReadAns) : bytesIn on ⟨.read c, a⟩ = [] := by
  cases a <;> simp [hc]

@[simp] theorem bytesIn_other {e : Event} (he : ∀ c, e.req ≠ .read c) : bytesIn on e = [] := by
  obtain ⟨r, a⟩ := e
  cases r with
  | read c => exact absurd rfl (he c)
  | _ => rfl

@[simp] theorem lineIn_text (t : Text) (a : Unit) :
    lineIn on ⟨.line c (.text t), a⟩ = if on c && !t.isEmpty then some t else none := rfl

@[simp] theorem lineIn_err (k : IoKind) (a : Unit) :
    lineIn on ⟨.line c (.err k), a⟩ = none := rfl

@[simp] theorem lineIn_elapsed (a : Unit) : lineIn on ⟨.line c .elapsed, a⟩ = none := rfl

@[simp] theorem lineIn_other {e : Event} (he : ∀ c x, e.req ≠ .line c x) :
    lineIn on e = none := by
  obtain ⟨r, a⟩ := e
  cases r with
  | line c x => exact absurd rfl (he c x)
  | _ => rfl

@[simp] theorem writeOut_write (b : Bytes) (a : Except IoKind Unit) :
    writeOut on ⟨.write c b, a⟩ = if on c then some b else none := rfl

@[simp] theorem writeOut_other {e : Event} (he : ∀ c b, e.req ≠ .write c b) :
    writeOut on e = none := by
  obtain ⟨r, a⟩ := e
  cases r with
  | write c b => exact absurd rfl (he c b)
  | _ => rfl

end Simp

theorem eq_write {on : Conn → Bool} {e : Event} {b : Bytes} (h : e.writeOut on = some b) :
    ∃ c a, on c = true ∧ e = ⟨.write c b, a⟩ := by
  obtain ⟨r, a⟩ := e
  cases r with
  | write c b' =>
      rw [writeOut_write] at h
      cases hc : on c with
      | true =>
          rw [hc] at h
          obtain rfl := Option.some.inj h
          exact ⟨c, a, hc, rfl⟩
      | false =>
          rw [hc] at h
          cases h
  | _ => cases h

end Event

/-- The bytes that arrived on a connection. -/
def received (on : Conn → Bool) (h : History Io) : Bytes := h.flatMap (Event.bytesIn on)

/-- The lines a connection has handed to the session. -/
def linesFrom (on : Conn → Bool) (h : History Io) : List Text := h.filterMap (Event.lineIn on)

/-- What the session wrote to a connection, one entry for each `write_all`. -/
def writesTo (on : Conn → Bool) (h : History Io) : List Bytes := h.filterMap (Event.writeOut on)

theorem exists_of_mem_writesTo {on : Conn → Bool} {H : History Io} {b : Bytes}
    (hb : b ∈ writesTo on H) : ∃ h c a t, H = h ++ ⟨.write c b, a⟩ :: t ∧ on c = true := by
  obtain ⟨e, he, hout⟩ := List.mem_filterMap.mp hb
  obtain ⟨h, t, rfl⟩ := List.append_of_mem he
  obtain ⟨c, a, hc, rfl⟩ := Event.eq_write hout
  exact ⟨h, c, a, t, rfl, hc⟩

/-- The client has closed its side. -/
def ClientClosed (h : History Io) : Prop := ⟨.read .client, .eof⟩ ∈ h

/-- The surroundings of a session. A stream that has ended stays ended. -/
structure World where
  answer : Env Io
  client_eof : ∀ h a, ClientClosed h → answer h (.read .client) = some a → a = .eof

section Append

variable (on : Conn → Bool) (e : Event) (h t : History Io)

@[simp] theorem received_nil : received on [] = [] := rfl

@[simp] theorem linesFrom_nil : linesFrom on [] = [] := rfl

@[simp] theorem writesTo_nil : writesTo on [] = [] := rfl

@[simp] theorem received_cons : received on (e :: h) = e.bytesIn on ++ received on h := rfl

@[simp] theorem linesFrom_cons :
    linesFrom on (e :: h) = (e.lineIn on).toList ++ linesFrom on h := by
  rw [linesFrom, List.filterMap_cons]
  cases e.lineIn on <;> rfl

@[simp] theorem writesTo_cons :
    writesTo on (e :: h) = (e.writeOut on).toList ++ writesTo on h := by
  rw [writesTo, List.filterMap_cons]
  cases e.writeOut on <;> rfl

@[simp] theorem received_append : received on (h ++ t) = received on h ++ received on t := by
  simp [received]

@[simp] theorem linesFrom_append :
    linesFrom on (h ++ t) = linesFrom on h ++ linesFrom on t := by
  simp [linesFrom]

@[simp] theorem writesTo_append : writesTo on (h ++ t) = writesTo on h ++ writesTo on t := by
  simp [writesTo]

end Append

end FtpGateway
