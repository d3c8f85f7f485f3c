import Mathlib.Algebra.GroupWithZero.Nat
import FtpGateway.RelayPipe
import FtpGateway.Session.Footprint

/-!
# Whose bytes an upload carries

The PASV port is open to the whole network. With `require_data_ip_match` only a
connection from the client's own address can feed an upload: what is relayed to
a backend comes from the first one of the latest wait that is from the client's
address, and is there in time (`upload_fed_by_own_address`). Every connection
from another address before it is turned away and counted, once.
-/

namespace FtpGateway

open Str Interact

/-! ## Waits and rejections -/

/-- What one wait for a client's data connection came to. -/
def waitOutcome (cfg : SessionConfig) (run : AcceptRun) : AcceptOutcome :=
  acceptClientData cfg.expectedDataIp (run.start + cfg.connectionTimeout) run.polls

def Event.turnedAway (cfg : SessionConfig) : Event → Nat
  | ⟨.awaitClientData _, run⟩ => (waitOutcome cfg run).rejected.length
  | _ => 0

def Event.isRejection : Event → Bool
  | ⟨.metric .dataConnectionRejected, _⟩ => true
  | _ => false

/-- The connections turned away in all the waits so far. -/
def turnedAway (cfg : SessionConfig) (h : History Io) : Nat :=
  (h.map (Event.turnedAway cfg)).sum

/-- How far `data_connections_rejected_total` has been counted up. -/
def rejectionsCounted (h : History Io) : Nat := h.countP Event.isRejection

/-- Neither waiting for data connections, nor counting them, nor relaying. -/
def Req.Ordinary : Req → Prop
  | .awaitClientData _ => False
  | .relay _ _ => False
  | .metric .dataConnectionRejected => False
  | _ => True

/-- Neither waiting for a data connection nor relaying. -/
def Req.OffData : Req → Prop
  | .awaitClientData _ => False
  | .relay _ _ => False
  | _ => True

/-- `run` is the latest wait, and nothing was relayed since. -/
def LatestWait (run : AcceptRun) (h : History Io) : Prop :=
  ∃ port pre post, h = pre ++ ⟨.awaitClientData port, run⟩ :: post
    ∧ ∀ e ∈ post, Req.OffData e.req

def DataStep (cfg : SessionConfig) (h : History Io) (e : Event) : Prop :=
  (if e.isRejection then rejectionsCounted h < turnedAway cfg h
    else rejectionsCounted h = turnedAway cfg h)
  ∧ match e with
    | ⟨.relay client _, _⟩ =>
        ∃ run, LatestWait run h ∧ (waitOutcome cfg run).result = .accepted client
    | _ => True

section Counting

variable (cfg : SessionConfig) (h t : History Io) (e : Event)

@[simp] theorem rejectionsCounted_append_single :
    rejectionsCounted (h ++ [e]) = rejectionsCounted h + if e.isRejection then 1 else 0 := by
  simp [rejectionsCounted, List.countP_append, List.countP_cons]

@[simp] theorem turnedAway_append_single :
    turnedAway cfg (h ++ [e]) = turnedAway cfg h + e.turnedAway cfg := by
  simp [turnedAway]

end Counting

/-- Outside of a wait, every rejection has been counted. -/
def Settled (cfg : SessionConfig) (h : History Io) : Prop :=
  rejectionsCounted h = turnedAway cfg h

section Steps

variable {cfg : SessionConfig} {h : History Io} {r : Req} {run : AcceptRun}

theorem isRejection_ordinary (hr : r.Ordinary) (a : r.Ans) :
    Event.isRejection ⟨r, a⟩ = false := by
  cases r with
  | metric m =>
      cases m with
      | dataConnectionRejected => exact hr.elim
      | _ => rfl
  | _ => rfl

theorem turnedAway_offData (hr : r.OffData) (a : r.Ans) : Event.turnedAway cfg ⟨r, a⟩ = 0 := by
  cases r with
  | awaitClientData port => exact hr.elim
  | _ => rfl

theorem Req.Ordinary.offData (hr : r.Ordinary) : r.OffData := by
  cases r with
  | awaitClientData port => exact hr.elim
  | relay client tls => exact hr.elim
  | _ => trivial

theorem LatestWait.offData (hw : LatestWait run h) (hr : r.OffData) (a : r.Ans) :
    LatestWait run (h ++ [⟨r, a⟩]) := by
  obtain ⟨port, pre, post, rfl, hpost⟩ := hw
  refine ⟨port, pre, post ++ [⟨r, a⟩], by simp, ?_⟩
  intro e he
  rcases List.mem_append.mp he with he | he
  · exact hpost e he
  · obtain rfl := List.mem_singleton.mp he
    exact hr

theorem Settled.ordinary (hs : Settled cfg h) (hr : r.Ordinary) (a : r.Ans) :
    DataStep cfg h ⟨r, a⟩ ∧ Settled cfg (h ++ [⟨r, a⟩]) := by
  have hrej := isRejection_ordinary hr a
  refine ⟨⟨by simpa [hrej, Settled] using hs, ?_⟩, ?_⟩
  · cases r with
    | relay client tls => exact hr.elim
    | _ => trivial
  · simpa [Settled, hrej, turnedAway_offData hr.offData a] using hs

end Steps

/-! ## The parts of a session -/

section Parts

variable {w : World} {cfg : SessionConfig}

/-- Anything that has nothing to do with data connections. -/
theorem wp_ordinary {α : Type} {p : Sess α} {h : History Io} (hp : p.Asks Req.Ordinary)
    (hs : Settled cfg h) :
    wp w.answer (DataStep cfg) (fun _ => Settled cfg) (fun _ => Settled cfg) p h :=
  wp_frame hp (fun _ _ a hr _ hs => hs.ordinary hr a) hs

theorem wp_ordinary_latest {α : Type} {p : Sess α} {h : History Io} {run : AcceptRun}
    (hp : p.Asks Req.Ordinary) (hs : Settled cfg h) (hw : LatestWait run h) :
    wp w.answer (DataStep cfg) (fun _ h' => Settled cfg h' ∧ LatestWait run h')
      (fun _ => Settled cfg) p h := by
  refine wp_post (wp_frame (I := fun h' => Settled cfg h' ∧ LatestWait run h') hp ?_ ⟨hs, hw⟩)
    (fun _ _ => id) fun _ _ hI => hI.1
  intro h' r a hr _ hI
  obtain ⟨hstep, hs'⟩ := hI.1.ordinary hr a
  exact ⟨hstep, hs', hI.2.offData hr.offData a⟩

/-- Scopes end with ordinary requests. -/
theorem wp_onExit_settled {α : Type} {p : Sess α} {Q : α → History Io → Prop} {h : History Io}
    {c : Leave → Sess Unit} (hc : ∀ e, (c e).Asks Req.Ordinary)
    (hp : wp w.answer (DataStep cfg) Q (fun _ => Settled cfg) p h) :
    wp w.answer (DataStep cfg) Q (fun _ => Settled cfg) (p.onExit c) h :=
  (wp_onExit c).mpr (wp_post hp (fun _ _ => id) fun e _ hs => wp_ordinary (hc e) hs)

theorem wp_finally_settled {α : Type} {p : Sess α} {h : History Io} {c : Sess Unit}
    (hc : c.Asks Req.Ordinary)
    (hp : wp w.answer (DataStep cfg) (fun _ => Settled cfg) (fun _ => Settled cfg) p h) :
    wp w.answer (DataStep cfg) (fun _ => Settled cfg) (fun _ => Settled cfg) (p.finally_ c) h :=
  (wp_finally c).mpr (wp_post hp (fun _ _ hs => wp_ordinary hc hs)
    fun _ _ hs => wp_ordinary hc hs)

theorem wp_countRejected {run : AcceptRun} (rejected : List Arrival) {h : History Io}
    (hcount : rejectionsCounted h + rejected.length = turnedAway cfg h)
    (hw : LatestWait run h) :
    wp w.answer (DataStep cfg) (fun _ h' => Settled cfg h' ∧ LatestWait run h')
      (fun _ => Settled cfg) (countRejected rejected) h := by
  induction rejected generalizing h with
  | nil => exact ⟨by simpa [Settled] using hcount, hw⟩
  | cons a rest ih =>
      refine (wp_request_bind _ _).mpr fun u _ => ⟨⟨?_, trivial⟩, ih ?_ ?_⟩
      · simp only [Event.isRejection, if_true]
        simp only [List.length_cons] at hcount
        omega
      · simp only [List.length_cons] at hcount
        simp [Event.isRejection, Event.turnedAway]
        omega
      · exact hw.offData (r := .metric .dataConnectionRejected) trivial u

theorem wp_awaitClientData {port : UInt16} {h : History Io} (hs : Settled cfg h) :
    wp w.answer (DataStep cfg) (fun found h' => Settled cfg h' ∧ ∀ client, found = some client →
        ∃ run, LatestWait run h' ∧ (waitOutcome cfg run).result = .accepted client)
      (fun _ => Settled cfg) (awaitClientData cfg port) h := by
  refine (wp_request_bind _ _).mpr fun run _ => 
    ⟨⟨by simpa [Event.isRejection, Settled] using hs, trivial⟩, ?_⟩
  have hw : LatestWait run (h ++ [⟨.awaitClientData port, run⟩]) :=
    ⟨port, h, [], rfl, by simp⟩
  have hcount : rejectionsCounted (h ++ [⟨.awaitClientData port, run⟩])
      + (waitOutcome cfg run).rejected.length
        = turnedAway cfg (h ++ [⟨.awaitClientData port, run⟩]) := by
    have hs' : rejectionsCounted h = turnedAway cfg h := hs
    simp [Event.isRejection, Event.turnedAway, hs']
  refine (wp_bind _).mpr (wp_post (wp_countRejected _ hcount hw) (fun _ h' hI => ?_) fun _ _ => id)
  obtain ⟨hs', hw'⟩ := hI
  split
  · rename_i client hres
    refine ⟨hs', fun client' heq => ⟨run, hw', ?_⟩⟩
    obtain rfl := Option.some.inj heq
    exact hres
  · exact ⟨hs', fun _ heq => by simp at heq⟩
  · exact ⟨hs', fun _ heq => by simp at heq⟩
  · trivial

theorem Req.Backstage.ordinary {r : Req} (hr : r.Backstage) : r.Ordinary := by
  cases r with
  | awaitClientData port => exact hr.elim
  | relay client tls => exact hr.elim
  | metric m => cases m <;> first | exact hr.elim | trivial
  | _ => trivial

theorem Req.ReadsClient.ordinary {r : Req} (hr : r.ReadsClient) : r.Ordinary := by
  cases r with
  | awaitClientData port => exact hr.elim
  | relay client tls => exact hr.elim
  | metric m => cases m <;> first | exact hr.elim | trivial
  | _ => trivial

theorem everyday_ordinary (c : Conn) : Everyday c Req.Ordinary where
  tell _ := trivial
  read := trivial
  line _ := trivial
  metric m hm := by cases m <;> first | exact absurd rfl hm | trivial
  log _ _ := trivial
  allocate := trivial
  release _ := trivial
  releaseSlot := trivial
  startDataTls := trivial

theorem wp_transfer_settled {client : Arrival} {buf : Bytes} {h : History Io}
    {run : AcceptRun} (hs : Settled cfg h) (hw : LatestWait run h)
    (hacc : (waitOutcome cfg run).result = .accepted client) :
    wp w.answer (DataStep cfg) (fun _ => Settled cfg) (fun _ => Settled cfg)
      (transfer cfg client buf) h := by
  have hday := everyday_ordinary cfg.control
  refine (wp_bind _).mpr (wp_post (wp_ordinary_latest (hday.routine.secureData cfg) hs hw)
    (fun secured h₁ hI => ?_) fun _ _ => id)
  obtain ⟨hs, hw⟩ := hI
  refine (wp_bind _).mpr (wp_post (wp_ordinary_latest (asks_request trivial) hs hw)
    (fun _ h₂ hI => ?_) fun _ _ => id)
  obtain ⟨hs, hw⟩ := hI
  have hrelay : wp w.answer (DataStep cfg) (fun _ => Settled cfg) (fun _ => Settled cfg)
      (relayIf secured cfg client) h₂ := by
    unfold relayIf
    split
    · refine (wp_request_bind _ _).mpr fun out _ => ⟨⟨?_, run, hw, hacc⟩, ?_⟩
      · simpa [Event.isRejection, Settled] using hs
      · have hs' : Settled cfg (h₂ ++ [⟨.relay client cfg.backendTls, out⟩]) := by
          simpa [Event.isRejection, Event.turnedAway, Settled] using hs
        split
        · exact wp_ordinary (asks_request trivial) hs'
        · exact hs'
        · trivial
    · exact hs
  refine (wp_bind _).mpr (wp_post hrelay (fun _ h₃ hs => ?_) fun _ _ => id)
  exact wp_ordinary (hday.routine.backendReply cfg _ _ _) hs

theorem wp_upload_settled {line : Text} {client : Arrival} {buf : Bytes} {h : History Io}
    {run : AcceptRun} (hs : Settled cfg h) (hw : LatestWait run h)
    (hacc : (waitOutcome cfg run).result = .accepted client) :
    wp w.answer (DataStep cfg) (fun _ => Settled cfg) (fun _ => Settled cfg)
      (upload cfg line client buf) h := by
  have hday := everyday_ordinary cfg.control
  refine (wp_bind _).mpr (wp_post (wp_ordinary_latest (asks_request trivial) hs hw)
    (fun _ h₁ hI => ?_) fun _ _ => id)
  obtain ⟨hs, hw⟩ := hI
  refine (wp_bind _).mpr (wp_post (wp_ordinary_latest (asks_onExit
    (hday.routine.storReply (fun _ => trivial) line buf) fun _ => asks_request trivial) hs hw)
    (fun x h₂ hI => ?_) fun _ _ => id)
  obtain ⟨hs, hw⟩ := hI
  dsimp only
  split
  · exact wp_ordinary (asks_bind (asks_request trivial) fun _ => trivial) hs
  · refine (wp_bind _).mpr (wp_post (wp_onExit_settled
      (fun _ => asks_dropUpload trivial trivial _) (wp_transfer_settled hs hw hacc))
      (fun y h₃ hs => ?_) fun _ _ => id)
    exact wp_ordinary (asks_bind (hday.finish _) fun _ => trivial) hs

theorem wp_stor_settled {source : Option Ipv4Addr} {line : Text} {port : UInt16}
    {s : SessState} {h : History Io} (hs : Settled cfg h) :
    wp w.answer (DataStep cfg) (fun _ => Settled cfg) (fun _ => Settled cfg)
      (stor cfg source line port s) h := by
  refine wp_finally_settled (asks_request trivial) ?_
  have hopen : wp w.answer (DataStep cfg) (fun x h' => Settled cfg h'
        ∧ ∀ client, x.1 = .ready client →
          ∃ run, LatestWait run h' ∧ (waitOutcome cfg run).result = .accepted client)
      (fun _ => Settled cfg) (openChannel cfg source port s.backendBuf) h := by
    refine (wp_bind _).mpr (wp_post (wp_awaitClientData hs) (fun found h₁ hI => ?_) fun _ _ => id)
    obtain ⟨hs, hfound⟩ := hI
    cases found with
    | none => exact ⟨hs, fun _ heq => by simp at heq⟩
    | some client =>
        obtain ⟨run, hw, hacc⟩ := hfound client rfl
        have hask := asks_mono (fun _ => Req.Backstage.ordinary)
          (asks_openBackend cfg source client s.backendBuf)
        refine wp_post (wp_returns (returns_openBackend _ _ _ _) (wp_ordinary_latest hask hs hw))
          (fun x h₂ hI => ?_) fun _ _ => id
        obtain ⟨hsame, hs, hw⟩ := hI
        exact ⟨hs, fun c hc => ⟨run, hw, hsame c hc ▸ hacc⟩⟩
  refine (wp_bind _).mpr (wp_post hopen (fun x h₁ hI => ?_) fun _ _ => id)
  obtain ⟨channel, buf⟩ := x
  obtain ⟨hs, hready⟩ := hI
  have hlog : ∀ {α : Type} {p : Sess α}, p.Asks Req.Ordinary →
      ((log (.portReleased port)).bind fun _ => p).Asks Req.Ordinary :=
    fun hp => asks_bind (asks_request trivial) fun _ => hp
  cases channel with
  | lost =>
      exact wp_ordinary (hlog (asks_bind (asks_tellClient (fun _ => trivial) _)
        fun _ => trivial)) hs
  | unavailable =>
      exact wp_ordinary (hlog (asks_bind (asks_clientIo (fun _ => trivial) _)
        fun _ => trivial)) hs
  | ready client =>
      obtain ⟨run, hw, hacc⟩ := hready client rfl
      refine (wp_bind _).mpr (wp_post (wp_ordinary_latest (asks_request trivial) hs hw)
        (fun _ h₂ hI => ?_) fun _ _ => id)
      exact (wp_bind _).mpr (wp_finally_settled (asks_dropDataSlot trivial source)
        (wp_upload_settled hI.1 hI.2 hacc))

theorem wp_serve_settled {source : Option Ipv4Addr} {line : Text} {s : SessState}
    {h : History Io} (hs : Settled cfg h) :
    wp w.answer (DataStep cfg) (fun _ => Settled cfg) (fun _ => Settled cfg)
      (serve cfg source line s) h := by
  have hday := everyday_ordinary cfg.control
  have hdrop : ∀ e, (dropActive s.activePasv e).Asks Req.Ordinary :=
    asks_dropActive (fun _ => trivial) (fun _ _ => trivial) s.activePasv
  have hrefuse : ∀ b, ((do clientIo b; pure s : Sess SessState).onExit
      (dropActive s.activePasv)).Asks Req.Ordinary :=
    fun b => asks_onExit (asks_bind (asks_clientIo (fun _ => trivial) b) fun _ => trivial) hdrop
  unfold serve
  dsimp only
  split
  · exact wp_ordinary (asks_bind (asks_request trivial) fun _ => hrefuse _) hs
  · refine (wp_bind _).mpr (wp_post (wp_ordinary (asks_request trivial) hs)
      (fun _ h₁ hs => ?_) fun _ _ => id)
    split
    · exact wp_ordinary (asks_bind (asks_request trivial) fun _ => hrefuse _) hs
    · split
      · exact wp_ordinary (hday.routine.passive cfg _ s) hs
      · split
        · exact wp_stor_settled hs
        · exact wp_ordinary (asks_onExit (hday.routine.forward (fun _ => trivial) _ _ s) hdrop) hs

end Parts

/-! ## Whole sessions -/

theorem always_dataStep (w : World) (cfg : SessionConfig) (n : Nat) :
    Always (DataStep cfg) (history w cfg n) := by
  have hgreet : wp w.answer (DataStep cfg) (fun _ => Settled cfg) (fun _ => Settled cfg)
      (greet cfg) [⟨.metric .sessionStarted, ()⟩] :=
    wp_ordinary (asks_greet (fun _ => Req.Backstage.ordinary) (fun _ => trivial) cfg) rfl
  have hround : ∀ source s h, Settled cfg h → wp w.answer (DataStep cfg)
      (fun _ => Settled cfg) (fun _ => Settled cfg) (round cfg source s) h := by
    intro source s h hs
    refine (wp_bind _).mpr (wp_post (wp_ordinary (asks_onExit (asks_nextLine
      (fun _ => Req.ReadsClient.ordinary) cfg _) (asks_dropActive (fun _ => trivial)
      (fun _ _ => trivial) s.activePasv)) hs) (fun x h₁ hs => ?_) fun _ _ => id)
    exact wp_serve_settled hs
  have hended : ∀ (e : Leave) h, Settled cfg h →
      DataStep cfg h ⟨.metric .sessionEnded, ()⟩
        ∧ Settled cfg (h ++ [⟨.metric .sessionEnded, ()⟩]) :=
    fun _ h hs => hs.ordinary (r := .metric .sessionEnded) trivial ()
  exact (run_of_wp (wp_handle ⟨rfl, trivial⟩ hgreet hround hended n) (always_nil _)).1

/-- Everyone who connects during a wait, from whatever address. -/
def connecting (cfg : SessionConfig) (wait : AcceptRun) : List Arrival :=
  comers (wait.start + cfg.connectionTimeout) wait.polls

/-- The first of them from the address of the control connection. -/
def firstOwn? (cfg : SessionConfig) (wait : AcceptRun) : Option Arrival :=
  (connecting cfg wait).find? fun a => a.peer.ip = cfg.peerAddr.ip

/-- Those from other addresses who were there before it. -/
def strangers (cfg : SessionConfig) (wait : AcceptRun) : List Arrival :=
  (connecting cfg wait).takeWhile fun a => a.peer.ip ≠ cfg.peerAddr.ip

def Event.strangersMet (cfg : SessionConfig) : Event → Nat
  | ⟨.awaitClientData _, wait⟩ => (strangers cfg wait).length
  | _ => 0

/-- The strangers of all the waits so far. -/
def strangersMet (cfg : SessionConfig) (h : History Io) : Nat :=
  (h.map (Event.strangersMet cfg)).sum

/-- What a session's history says about where its uploads came from. What is relayed is
the first connection from the client's own address in the latest wait (`source`), and
nothing but its bytes are written to the backend. A wait turns the strangers away and lets
in the first one who is not; a rejection is counted only for a stranger not counted yet,
and before anything else happens; and the first poll at or after the deadline ends a
wait. -/
structure OwnAddressOnly (cfg : SessionConfig) (H : History Io) : Prop where
  source : ∀ h client tls run t, H = h ++ ⟨.relay client tls, run⟩ :: t →
    client.peer.ip = cfg.peerAddr.ip
      ∧ ∃ wait, LatestWait wait h ∧ firstOwn? cfg wait = some client
  bytes : ∀ h client tls run t out, H = h ++ ⟨.relay client tls, run⟩ :: t →
    relayBidirectional cfg.dataIdleTimeout run.start run.polls = some out →
    out.final.up.output <+: dataRead (eventsOf .up run.polls)
  waits : ∀ h port wait t, H = h ++ ⟨.awaitClientData port, wait⟩ :: t →
    (waitOutcome cfg wait).rejected = strangers cfg wait
      ∧ ∀ a, (waitOutcome cfg wait).result = .accepted a ↔ firstOwn? cfg wait = some a
  counted : ∀ h e t, H = h ++ e :: t →
    if Event.isRejection e then rejectionsCounted h < strangersMet cfg h
    else rejectionsCounted h = strangersMet cfg h
  bounded : ∀ h port wait t pre p post, H = h ++ ⟨.awaitClientData port, wait⟩ :: t →
    wait.polls = pre ++ p :: post → wait.start + cfg.connectionTimeout ≤ p.now →
    waitOutcome cfg wait = waitOutcome cfg ⟨wait.start, pre ++ [p]⟩
      ∧ (waitOutcome cfg wait).result ≠ .pending

theorem waitOutcome_eq {cfg : SessionConfig} (hmatch : cfg.limits.requireDataIpMatch = true)
    (wait : AcceptRun) :
    (waitOutcome cfg wait).rejected = strangers cfg wait
      ∧ ∀ a, (waitOutcome cfg wait).result = .accepted a ↔ firstOwn? cfg wait = some a := by
  have hfits : fits cfg.expectedDataIp = fun a => decide (a.peer.ip = cfg.peerAddr.ip) := by
    funext a
    simp [SessionConfig.expectedDataIp, hmatch, fits]
  have hwait := acceptClientData_eq cfg.expectedDataIp (wait.start + cfg.connectionTimeout)
    wait.polls
  rw [hfits] at hwait
  simpa [strangers, firstOwn?, connecting, waitOutcome] using hwait

theorem turnedAway_eq {cfg : SessionConfig} (hmatch : cfg.limits.requireDataIpMatch = true)
    (h : History Io) : turnedAway cfg h = strangersMet cfg h := by
  have hevent : Event.turnedAway cfg = Event.strangersMet cfg := by
    funext e
    unfold Event.turnedAway Event.strangersMet
    split
    · rw [(waitOutcome_eq hmatch _).1]
    · rfl
  rw [turnedAway, strangersMet, hevent]

/-- **Only the client's own address can feed its upload.** In every session with
`require_data_ip_match`, whoever connects to its PASV ports and whenever. -/
theorem upload_fed_by_own_address (w : World) (cfg : SessionConfig) (n : Nat)
    (hmatch : cfg.limits.requireDataIpMatch = true) :
    OwnAddressOnly cfg (history w cfg n) where
  source h client tls run t heq := by
    obtain ⟨-, wait, hw, hacc⟩ := always_dataStep w cfg n h _ t heq
    have hfirst := ((waitOutcome_eq hmatch wait).2 client).mp hacc
    exact ⟨by simpa using List.find?_some hfirst, wait, hw, hfirst⟩
  bytes _ _ _ _ _ _ _ hout := isPrefix_relay_output hout .up
  waits _ _ wait _ _ := waitOutcome_eq hmatch wait
  counted h e t heq := by
    rw [← turnedAway_eq hmatch]
    exact (always_dataStep w cfg n h e t heq).1
  bounded h port wait t pre p post _ hpolls hdue := by
    obtain ⟨start, polls⟩ := wait
    obtain rfl : polls = pre ++ p :: post := hpolls
    obtain ⟨hsame, hpend⟩ := acceptClientData_deadline hdue
    exact ⟨hsame, fun hp => hpend (hsame ▸ hp)⟩

/-- An upload with a stranger at the port first. -/
def strangerScript : Script where
  client := [Script.chunk "PASV\r\nSTOR a\r\n".toList]
  backend := ["220 hi\r\n", "227 ok (10,0,0,2,8,8)\r\n", "150 go\r\n", "226 done\r\n"].map
    fun reply => Script.chunk reply.toList
  data := ⟨0, [⟨0, [⟨0, ⟨.v4 ⟨6, 6, 6, 6⟩, 666⟩⟩, ⟨1, ⟨.v4 ⟨10, 0, 0, 1⟩, 40001⟩⟩], none⟩]⟩
  relay := ⟨0, [⟨1, .up, [.read [1, 2], .wrote 2, .read [], .shut], [.read [], .shut]⟩]⟩

theorem upload_fed_by_own_address_stranger :
    rejectionsCounted (history strangerScript.world (sampleSession false) 2) = 1
      ∧ OwnAddressOnly (sampleSession false) (history strangerScript.world (sampleSession false) 2) :=
  ⟨by decide +kernel, upload_fed_by_own_address _ _ _ rfl⟩

end FtpGateway
