import FtpGateway.Session.Backend

/-!
# One client session

`session::handle`: connect to a backend, secure the connection if configured,
pass the banner on and then serve the client's commands one after another.
Port guards, data slots and upload counters are released where the source drops
them: `onExit` and `finally_` are the ends of the scopes that hold them.

`handle cfg n` follows a session for `n` commands; every finite part of a
session is a run of it for some `n`.
-/

namespace FtpGateway

open Str Interact

structure SessionConfig where
  peerAddr : SocketAddr
  passive : PassiveConfig
  timeouts : TimeoutConfig
  limits : LimitsConfig
  -- `Some(connector)`
  backendTls : Bool
  -- `Some(rotator)`
  sourceRotator : Bool
deriving Repr, DecidableEq

namespace SessionConfig

/-- The backend control connection, once negotiated. -/
def control (cfg : SessionConfig) : Conn := .backend cfg.backendTls

def maxBytes (cfg : SessionConfig) : Nat := cfg.limits.maxCommandLineBytes

def expectedDataIp (cfg : SessionConfig) : Option IpAddr :=
  if cfg.limits.requireDataIpMatch then some cfg.peerAddr.ip else none

/-- Instants and durations are in nanoseconds. -/
def nanos (secs : UInt64) : Nat := secs.toNat * 1000000000

def connectionTimeout (cfg : SessionConfig) : Nat := nanos cfg.timeouts.connectionTimeoutSecs

def dataIdleTimeout (cfg : SessionConfig) : Nat := nanos cfg.timeouts.dataIdleTimeoutSecs

end SessionConfig

/-! ## The gateway's own replies -/

def serviceNotAvailable : Bytes := withCrLf "421 Service not available".toList

def idleTimeoutReply : Bytes :=
  withCrLf "421 Idle timeout, closing control connection".toList

def cantOpenDataConnection : Bytes := withCrLf "425 Can't open data connection".toList

def transferAborted : Bytes := withCrLf "426 Connection closed; transfer aborted".toList

def commandLineTooLong : Bytes := withCrLf "500 Command line too long".toList

def syntaxError : Bytes := withCrLf "501 Syntax error in parameters or arguments".toList

def notImplemented : Bytes := withCrLf "502 Command not implemented".toList

/-! ## Talking to the two sides -/

/-- `client_io!` around a write: a client that is gone ends the session. -/
def clientIo (b : Bytes) : Sess Unit := do
  match ← write .client b with
  | .ok () => pure ()
  | .error _ => .exit .ret

/-- `let _ = client_conn.write_all(..)`. -/
def tellClient (b : Bytes) : Sess Unit := do
  let _ ← write .client b
  pure ()

/-- `backend_io!`. -/
def backendIo {α : Type} : Except IoKind α → Sess α
  | .ok a => pure a
  | .error k => do
      observeBackendIoError k
      .exit .ret

/-- Read one reply line. If the backend has closed the connection instead, the
client is sent `closed` and the session ends. -/
def backendReply (cfg : SessionConfig) (c : Conn) (closed : Bytes) (leave : Leave)
    (buf : Bytes) : Sess (Text × Bytes) := do
  let (r, buf) ← readLineWithTimeout c cfg.maxBytes buf
  let reply ← backendIo r
  if reply = [] then do
    tellClient closed
    .exit leave
  else pure (reply, buf)

/-! ## Commands -/

structure SessState where
  clientBuf : Bytes
  backendBuf : Bytes
  activePasv : Option UInt16
deriving Repr, DecidableEq

def release (port : UInt16) : Sess Unit := Prog.request (S := Io) (.release port)

/-- The session's own port guard, when the session ends. -/
def dropActive (active : Option UInt16) (leave : Leave) : Sess Unit :=
  match active with
  | none => pure ()
  | some port =>
      match leave with
      | .brk => do
          log (.portReleased port)
          release port
      | .ret => release port

/-- The next command line, or the end of the session. -/
def nextLine (cfg : SessionConfig) (buf : Bytes) : Sess (Text × Bytes) := do
  match ← readLineBounded .client cfg.maxBytes buf with
  | (.text t, buf) => if t = [] then .exit .brk else pure (t, buf)
  | (.err k, _) =>
      if k = .invalidData then do
        tellClient commandLineTooLong
        .exit .brk
      else .exit .ret
  | (.elapsed, _) => do
      metric .sessionIdleTimedOut
      tellClient idleTimeoutReply
      .exit .brk

/-- A new `PASV` gives up the port of the last one. -/
def replacePort : Option UInt16 → Sess Unit
  | none => pure ()
  | some old => do
      log (.portReplaced old)
      release old

/-- Tell the client about its new port, or that there is none. -/
def announce (cfg : SessionConfig) (command : FtpCommand) (s : SessState) :
    Option UInt16 → Sess SessState
  | some port => do
      log (.portAllocated port)
      let response :=
        if command = .epsv then epsvReply port else pasvReply cfg.passive.address port
      (clientIo (utf8 response)).onExit fun _ => release port
      pure { s with activePasv := some port }
  | none => do
      clientIo cantOpenDataConnection
      pure { s with activePasv := none }

/-- `PASV` and `EPSV`: a new port for the client's next upload. -/
def passive (cfg : SessionConfig) (command : FtpCommand) (s : SessState) :
    Sess SessState := do
  replacePort s.activePasv
  let port ← Prog.request (S := Io) .allocate
  announce cfg command s port

/-- A command the backend answers with one reply. -/
def forward (cfg : SessionConfig) (command : FtpCommand) (line : Text) (s : SessState) :
    Sess SessState := do
  let sent ← write cfg.control (utf8 line)
  backendIo sent
  let (reply, buf) ← backendReply cfg cfg.control serviceNotAvailable .brk s.backendBuf
  clientIo (utf8 reply)
  if command = .quit then .exit .brk
  else pure { s with backendBuf := buf }

/-! ## Uploads -/

/-- `data_connection_rejected`, once for each connection turned away. -/
def countRejected : List Arrival → Sess Unit
  | [] => pure ()
  | _ :: rest => do
      metric .dataConnectionRejected
      countRejected rest

/-- `accept_client_data` on the listener of `port`. -/
def awaitClientData (cfg : SessionConfig) (port : UInt16) : Sess (Option Arrival) := do
  let run ← Prog.request (S := Io) (.awaitClientData port)
  let out := acceptClientData cfg.expectedDataIp (run.start + cfg.connectionTimeout) run.polls
  countRejected out.rejected
  match out.result with
  | .accepted a => pure (some a)
  | .failed _ => pure none
  | .elapsed => pure none
  | .pending => .wait

inductive Channel where
  -- `backend_control_lost`
  | lost
  | unavailable
  | ready (client : Arrival)
deriving Repr, DecidableEq

/-- The transfer's slot on the session's source address, with source rotation. -/
def acquireDataSlot : Option Ipv4Addr → Sess Bool
  | none => pure true
  | some source => Prog.request (S := Io) (.acquireSlot source)

def dropDataSlot : Option Ipv4Addr → Sess Unit
  | none => pure ()
  | some _ => Prog.request (S := Io) .releaseSlot

/-- What a failed `open_backend_data_connection` is counted as. -/
def reportOpenFailure (source : Option Ipv4Addr) : DataConnectError → Sess Unit
  | .controlConnection k => do
      metric .backendPasvFailed
      observeBackendIoError k
  | .unusableReply => metric .backendPasvFailed
  | .connectFailed k => do
      metric .backendDataConnectionFailed
      observeBackendIoError k
      match source with
      | some source => Prog.request (S := Io) (.reportConnectFailure source k)
      | none => pure ()

/-- The gateway's own data connection, to a backend whose control connection
is still in step or lost. -/
def openBackend (cfg : SessionConfig) (source : Option Ipv4Addr) (client : Arrival)
    (buf : Bytes) : Sess (Channel × Bytes) := do
  if ← acquireDataSlot source then
    match ← openBackendDataConnection cfg.control source cfg.limits buf with
    | (.ok (), buf) => pure (.ready client, buf)
    | (.error e, buf) => do
        reportOpenFailure source e
        dropDataSlot source
        match e with
        | .controlConnection _ => pure (.lost, buf)
        | _ => pure (.unavailable, buf)
  else pure (.unavailable, buf)

/-- Both ends of the data path, the client's first. -/
def openChannel (cfg : SessionConfig) (source : Option Ipv4Addr) (port : UInt16)
    (buf : Bytes) : Sess (Channel × Bytes) := do
  match ← awaitClientData cfg port with
  | none => pure (.unavailable, buf)
  | some client => openBackend cfg source client buf

/-- The handshake on the data connection, which starts only after the transfer
command. `true` if there is a connection to relay to. -/
def secureData (cfg : SessionConfig) : Sess Bool :=
  if cfg.backendTls then do
    match ← Prog.request (S := Io) .startDataTls with
    | .ok () => pure true
    | .error k => do
        metric .backendDataConnectionFailed
        observeBackendIoError k
        pure false
  else pure true

/-- Move the file bytes. A failure is only logged, like a failed handshake. -/
def relayData (cfg : SessionConfig) (client : Arrival) : Sess Unit := do
  let run ← Prog.request (S := Io) (.relay client cfg.backendTls)
  match relayBidirectional cfg.dataIdleTimeout run.start run.polls with
  | some ⟨some (.ok (bytesUploaded, _)), _⟩ => metric (.uploadBytes bytesUploaded)
  | some ⟨some (.error _), _⟩ => pure ()
  | _ => .wait

def relayIf (secured : Bool) (cfg : SessionConfig) (client : Arrival) : Sess Unit :=
  if secured then relayData cfg client else pure ()

/-- The transfer proper, after the backend's first reply, up to its last. -/
def transfer (cfg : SessionConfig) (client : Arrival) (buf : Bytes) : Sess (Text × Bytes) := do
  let secured ← secureData cfg
  metric .uploadStarted
  relayIf secured cfg client
  backendReply cfg cfg.control transferAborted .brk buf

/-- `UploadAttempt::succeeded`, on a `2yz` reply. -/
def countSucceeded (succeeded : Bool) : Sess Unit :=
  if succeeded then metric .uploadSucceeded else pure ()

/-- `UploadGuard` and then `UploadAttempt` are dropped. -/
def dropUpload (succeeded : Bool) : Sess Unit := do
  metric .uploadEnded
  if succeeded then pure () else metric .uploadFailed

/-- Pass the `STOR` on and its first reply back. -/
def storReply (cfg : SessionConfig) (line : Text) (buf : Bytes) : Sess (Text × Bytes) := do
  let sent ← write cfg.control (utf8 line)
  backendIo sent
  let (reply, buf) ← backendReply cfg cfg.control serviceNotAvailable .brk buf
  clientIo (utf8 reply)
  pure (reply, buf)

/-- The last reply decides how the upload is counted. -/
def finish (completion : Text) : Sess Unit := do
  let succeeded := (stripped completion).head? = some '2'
  countSucceeded succeeded
  (clientIo (utf8 completion)).finally_ (dropUpload succeeded)

/-- The `STOR` itself, with both data connections up. -/
def upload (cfg : SessionConfig) (line : Text) (client : Arrival) (buf : Bytes) :
    Sess Bytes := do
  metric .uploadAttempted
  let (reply, buf) ← (storReply cfg line buf).onExit fun _ => metric .uploadFailed
  if cfg.backendTls && reply.head? ≠ some '1' then do
    metric .uploadFailed
    pure buf
  else do
    let (completion, buf) ← (transfer cfg client buf).onExit fun _ => dropUpload false
    finish completion
    pure buf

/-- `STOR` with the port the client was given. The guard is dropped at the end
of the block. -/
def stor (cfg : SessionConfig) (source : Option Ipv4Addr) (line : Text) (port : UInt16)
    (s : SessState) : Sess SessState :=
  (do
    let (channel, buf) ← openChannel cfg source port s.backendBuf
    log (.portReleased port)
    match channel with
    | .lost => do
        tellClient serviceNotAvailable
        .exit .brk
    | .ready client => do
        let buf ← (upload cfg line client buf).finally_ (dropDataSlot source)
        pure { s with backendBuf := buf, activePasv := none }
    | .unavailable => do
        clientIo cantOpenDataConnection
        pure { s with backendBuf := buf, activePasv := none }
    : Sess SessState).finally_ (release port)

/-! ## The session -/

/-- One round of the command loop, after a line has been read. -/
def serve (cfg : SessionConfig) (source : Option Ipv4Addr) (line : Text) (s : SessState) :
    Sess SessState := do
  let trimmed := stripped line
  let dropping := fun (p : Sess SessState) => p.onExit (dropActive s.activePasv)
  if hasEmbeddedLineBreak trimmed then do
    log .embeddedLineBreak
    dropping (do clientIo syntaxError; pure s)
  else do
    let command := FtpCommand.parse trimmed
    log (.receivedCommand command.asLogStr)
    if command.isUnknown then do
      log (.rejectedCommand command.asLogStr)
      dropping (do clientIo notImplemented; pure s)
    else if command.isPassive then passive cfg command s
    else
      match command, s.activePasv with
      | .stor _, some port => stor cfg source line port s
      | _, _ => dropping (forward cfg command line s)

def round (cfg : SessionConfig) (source : Option Ipv4Addr) (s : SessState) :
    Sess SessState := do
  let (line, clientBuf) ← (nextLine cfg s.clientBuf).onExit (dropActive s.activePasv)
  serve cfg source line { s with clientBuf := clientBuf }

/-- Explicit FTPS toward the backend, if configured. -/
def secureControl (cfg : SessionConfig) (buf : Bytes) : Sess Bytes :=
  if cfg.backendTls then do
    match ← negotiateExplicitFtps cfg.maxBytes buf with
    | .ok buf => pure buf
    | .error k => do
        observeBackendIoError k
        tellClient serviceNotAvailable
        .exit .ret
  else pure buf

/-- Everything before the command loop: the session's source address and the
backend's buffer. -/
def greet (cfg : SessionConfig) : Sess (Option Ipv4Addr × Bytes) := do
  match ← connectBackend cfg.sourceRotator with
  | none => do
      tellClient serviceNotAvailable
      .exit .ret
  | some source => do
      let (banner, buf) ← backendReply cfg (.backend false) serviceNotAvailable .ret []
      let buf ← secureControl cfg buf
      clientIo (utf8 banner)
      pure (source, buf)

/-- A session followed for `n` commands. -/
def handle (cfg : SessionConfig) (n : Nat) : Sess Unit := do
  metric .sessionStarted
  (do
    let (source, buf) ← greet cfg
    Prog.iterate n (round cfg source) ⟨[], buf, none⟩
    : Sess Unit).finally_ (metric .sessionEnded)

/-- Everything a session has done, in surroundings `w`, by the end of its `n`th
command (or earlier, if it is still waiting for something then). -/
def sessionRun (w : World) (cfg : SessionConfig) (n : Nat) : Outcome Leave Unit × History Io :=
  run w.answer (handle cfg n) []

def history (w : World) (cfg : SessionConfig) (n : Nat) : History Io := (sessionRun w cfg n).2

/-! ## Scripted surroundings -/

/-- The bytes of a session written down in advance: what each read of a control
connection answers, and how every upload goes. Everything else succeeds. -/
structure Script where
  client : List ReadAns
  backend : List ReadAns
  data : AcceptRun
  relay : RelayRun
deriving Repr, DecidableEq

namespace Script

def chunk : Text → ReadAns
  | [] => .eof
  | t => match utf8 t with
      | [] => .eof
      | b :: rest => .data b rest

def isRead (on : Conn → Bool) : Event → Bool
  | ⟨.read c, _⟩ => on c
  | _ => false

def isClientEof : Event → Bool
  | ⟨.read .client, .eof⟩ => true
  | _ => false

def answer (s : Script) (h : History Io) : (r : Req) → Option r.Ans
  | .candidates => some []
  | .connect _ => some (.ok ())
  | .reportConnectFailure _ _ => some ()
  | .read .client =>
      if h.any isClientEof then some .eof
      else some ((s.client[h.countP (isRead Conn.isClient)]?).getD .eof)
  -- a backend with nothing left to say keeps the gateway waiting until it gives up
  | .read (.backend _) => some ((s.backend[h.countP (isRead Conn.isBackend)]?).getD .elapsed)
  | .write _ _ => some (.ok ())
  | .line _ _ => some ()
  | .startTls => some (.ok ())
  | .backendPeer => some (some (.v4 ⟨10, 0, 0, 2⟩))
  | .allocate => some (some 50000)
  | .release _ => some ()
  | .awaitClientData _ => some s.data
  | .acquireSlot _ => some true
  | .releaseSlot => some ()
  | .connectData _ _ => some (.ok ())
  | .startDataTls => some (.ok ())
  | .relay _ _ => some s.relay
  | .metric _ => some ()
  | .log _ => some ()

def world (s : Script) : World where
  answer := s.answer
  client_eof := by
    intro h a hclosed ha
    have hany : h.any isClientEof = true := List.any_eq_true.mpr ⟨_, hclosed, rfl⟩
    simp only [answer, hany, if_true] at ha
    exact (Option.some.inj ha).symm

end Script

/-- A client on 10.0.0.1, uploads through 192.0.2.1, PASV toward the backend. -/
def sampleSession (backendTls : Bool) : SessionConfig where
  peerAddr := ⟨.v4 ⟨10, 0, 0, 1⟩, 40000⟩
  passive := ⟨⟨192, 0, 2, 1⟩, ⟨50000, 50010⟩⟩
  timeouts := ⟨10, 60, 30, 60⟩
  limits := ⟨512, true, false, .pasv⟩
  backendTls := backendTls
  sourceRotator := false

/-- The client's own data connection, which is there at once. -/
def sampleArrival : AcceptRun := ⟨0, [⟨0, [⟨0, ⟨.v4 ⟨10, 0, 0, 1⟩, 40001⟩⟩], none⟩]⟩

end FtpGateway
