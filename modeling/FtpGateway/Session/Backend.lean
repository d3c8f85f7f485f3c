import FtpGateway.Session.Lines

/-!
# The backend side of a session

Connecting to a backend (`session.rs`, the loop over source addresses), the
upgrade to explicit FTPS (`backend/tls.rs`) and the opening of a backend data
connection (`pasv/relay.rs`), each as the requests it makes. Where the source
writes `?`, the model writes `andThen`.
-/

namespace FtpGateway

open Str Interact

/-! ## Requests -/

def write (c : Conn) (b : Bytes) : Sess (Except IoKind Unit) :=
  Prog.request (S := Io) (.write c b)

def metric (m : Metric) : Sess Unit := Prog.request (S := Io) (.metric m)

def log (l : LogLine) : Sess Unit := Prog.request (S := Io) (.log l)

/-- The `?` operator. -/
def andThen {α β : Type} (p : Sess (Except IoKind α)) (f : α → Sess (Except IoKind β)) :
    Sess (Except IoKind β) := do
  match ← p with
  | .ok a => f a
  | .error k => pure (.error k)

/-- `Metrics::observe_backend_io_error`. -/
def observeBackendIoError (k : IoKind) : Sess Unit :=
  if k = .timedOut then metric .backendTimedOut else pure ()

def withCrLf (command : Text) : Bytes := utf8 (command ++ ['\r', '\n'])

/-! ## Connecting -/

/-- The first of the source addresses that connects. -/
def connectFrom : List Ipv4Addr → Sess (Option (Option Ipv4Addr))
  | [] => pure none
  | source :: rest => do
      match ← Prog.request (S := Io) (.connect (some source)) with
      | .ok () => pure (some (some source))
      | .error k => do
          observeBackendIoError k
          let () ← Prog.request (S := Io) (.reportConnectFailure source k)
          connectFrom rest

/-- The source address the session keeps, if it got a connection. -/
def connectBackend (sourceRotator : Bool) : Sess (Option (Option Ipv4Addr)) :=
  if sourceRotator then do
    let candidates ← Prog.request (S := Io) .candidates
    connectFrom candidates
  else do
    match ← Prog.request (S := Io) (.connect none) with
    | .ok () => pure (some none)
    | .error k => do
        observeBackendIoError k
        pure none

/-! ## Explicit FTPS -/

def maxReplyLines : Nat := 32

def isAsciiDigit (b : UInt8) : Bool := 48 ≤ b && b ≤ 57

/-- The code and the byte after it, of a line that starts with three digits. -/
def replyCode? (line : Text) : Option (Bytes × UInt8) :=
  match utf8 line with
  | d₁ :: d₂ :: d₃ :: sep :: _ =>
      if [d₁, d₂, d₃].all isAsciiDigit then some ([d₁, d₂, d₃], sep) else none
  | _ => none

/-- The loop of `read_reply_code`, with the code of a multi-line reply once its
first line has been read. -/
def replyLines (c : Conn) (maxLineBytes : Nat) :
    Nat → Option Bytes → Bytes → Sess (Except IoKind (Bytes × Bytes))
  | 0, _, _ => pure (.error .invalidData)
  | n + 1, code, buf => do
      match ← readLine c maxLineBytes buf with
      | (.err k, _) => pure (.error k)
      | (.elapsed, _) => pure (.error .timedOut)
      | (.text t, buf) =>
          if t = [] then pure (.error .unexpectedEof)
          else if !endsWithNewline t then pure (.error .invalidData)
          else
            match replyCode? t, code with
            | none, _ => pure (.error .invalidData)
            | some (digits, sep), none =>
                if sep ≠ '-'.toUInt8 then pure (.ok (digits, buf))
                else replyLines c maxLineBytes n (some digits) buf
            | some (digits, sep), some first =>
                if digits = first ∧ sep = ' '.toUInt8 then pure (.ok (first, buf))
                else replyLines c maxLineBytes n (some first) buf

def readReplyCode (c : Conn) (maxLineBytes : Nat) (buf : Bytes) :
    Sess (Except IoKind (Bytes × Bytes)) :=
  replyLines c maxLineBytes maxReplyLines none buf

/-- Send a command and insist on the code of its reply. Returns the buffer. -/
def commandExpecting (c : Conn) (command expectedCode : Text) (maxLineBytes : Nat)
    (buf : Bytes) : Sess (Except IoKind Bytes) :=
  andThen (write c (withCrLf command)) fun () =>
    andThen (readReplyCode c maxLineBytes buf) fun (code, buf) =>
      pure (if code = utf8 expectedCode then .ok buf else .error .permissionDenied)

def startTls : Sess (Except IoKind Unit) := Prog.request (S := Io) .startTls

def negotiateExplicitFtps (maxLineBytes : Nat) (buf : Bytes) : Sess (Except IoKind Bytes) :=
  andThen (commandExpecting (.backend false) "AUTH TLS".toList "234".toList maxLineBytes buf)
    fun buf =>
      -- anything the backend sent ahead of the handshake was sent in plaintext
      if buf ≠ [] then pure (.error .invalidData)
      else
        andThen startTls fun () =>
          andThen (commandExpecting (.backend true) "PBSZ 0".toList "200".toList maxLineBytes [])
            fun buf =>
              commandExpecting (.backend true) "PROT P".toList "200".toList maxLineBytes buf

/-! ## Data connections -/

inductive DataConnectError where
  -- the control connection is out of step from here on
  | controlConnection (k : IoKind)
  | unusableReply
  | connectFailed (k : IoKind)
deriving Repr, DecidableEq

def dataIp (announced : Ipv4Addr) (control : Option IpAddr) (fallback : Bool) : Ipv4Addr :=
  match control with
  | some (.v4 control) => if fallback && announced.isUnspecified then control else announced
  | _ => announced

/-- Send a command of the gateway's own and read its one-line reply. -/
def commandReply (c : Conn) (command : Text) (maxLineBytes : Nat) (buf : Bytes) :
    Sess (Except IoKind (Text × Bytes)) :=
  andThen (write c (withCrLf command)) fun () => do
    match ← readLine c maxLineBytes buf with
    | (.err k, _) => pure (.error k)
    | (.elapsed, _) => pure (.error .timedOut)
    | (.text t, buf) =>
        if t = [] then pure (.error .unexpectedEof)
        else if !endsWithNewline t then pure (.error .invalidData)
        else pure (.ok (t, buf))

/-- `EPSV`, and `PASV` if the backend rejects it, or `PASV` from the start: the
command that was answered, its reply and the buffer. -/
def passiveReply (c : Conn) (mode : BackendPassiveMode) (maxLineBytes : Nat) (buf : Bytes) :
    Sess (Except IoKind (BackendPassiveMode × Text × Bytes)) :=
  match mode with
  | .pasv =>
      andThen (commandReply c "PASV".toList maxLineBytes buf) fun (line, buf) =>
        pure (.ok (.pasv, line, buf))
  | .epsv =>
      andThen (commandReply c "EPSV".toList maxLineBytes buf) fun (line, buf) =>
        if line.head? = some '5' then
          andThen (commandReply c "PASV".toList maxLineBytes buf) fun (line, buf) =>
            pure (.ok (.pasv, line, buf))
        else pure (.ok (.epsv, line, buf))

/-- Where the data connection goes. An `EPSV` reply names no address. -/
def dataAddr (answered : BackendPassiveMode) (line : Text) (control : Option IpAddr)
    (fallback : Bool) : Option SocketAddr :=
  match answered with
  | .epsv => do
      let port ← parseEpsvReply line
      let peer ← control
      pure ⟨peer, port⟩
  | .pasv => do
      let (announced, port) ← parsePasvReply line
      pure ⟨.v4 (dataIp announced control fallback), port⟩

def openBackendDataConnection (c : Conn) (source : Option Ipv4Addr) (limits : LimitsConfig)
    (buf : Bytes) : Sess (Except DataConnectError Unit × Bytes) := do
  let control ← Prog.request (S := Io) .backendPeer
  match ← passiveReply c limits.backendPassiveMode limits.maxCommandLineBytes buf with
  | .error k => pure (.error (.controlConnection k), [])
  | .ok (answered, line, buf) =>
      match dataAddr answered line control limits.backendPasvFallbackToControlIp with
      | none => pure (.error .unusableReply, buf)
      | some addr =>
          match ← Prog.request (S := Io) (.connectData addr source) with
          | .ok () => pure (.ok (), buf)
          | .error k => pure (.error (.connectFailed k), buf)

/-! ## It comes to a result -/

theorem delivers_andThen {α β : Type} {p : Sess (Except IoKind α)}
    {f : α → Sess (Except IoKind β)} (hp : p.Delivers) (hf : ∀ a, (f a).Delivers) :
    (andThen p f).Delivers := by
  refine delivers_bind hp fun r => ?_
  cases r with
  | ok a => exact hf a
  | error k => trivial

theorem delivers_commandReply (c : Conn) (command : Text) (maxBytes : Nat) (buf : Bytes) :
    (commandReply c command maxBytes buf).Delivers := by
  refine delivers_andThen (delivers_request _) fun _ => ?_
  refine delivers_bind (delivers_readLine _ _ _) fun x => ?_
  obtain ⟨r, buf⟩ := x
  cases r with
  | err k => trivial
  | elapsed => trivial
  | text t =>
      dsimp only
      repeat' split
      all_goals trivial

theorem delivers_passiveReply (c : Conn) (mode : BackendPassiveMode) (maxBytes : Nat)
    (buf : Bytes) : (passiveReply c mode maxBytes buf).Delivers := by
  cases mode with
  | pasv => exact delivers_andThen (delivers_commandReply _ _ _ _) fun _ => trivial
  | epsv =>
      refine delivers_andThen (delivers_commandReply _ _ _ _) fun x => ?_
      dsimp only
      split
      · exact delivers_andThen (delivers_commandReply _ _ _ _) fun _ => trivial
      · trivial

theorem delivers_openBackendDataConnection (c : Conn) (source : Option Ipv4Addr)
    (limits : LimitsConfig) (buf : Bytes) :
    (openBackendDataConnection c source limits buf).Delivers := by
  refine delivers_bind (delivers_request _) fun control =>
    delivers_bind (delivers_passiveReply _ _ _ _) fun x => ?_
  cases x with
  | error k => trivial
  | ok x =>
      obtain ⟨answered, line, buf⟩ := x
      dsimp only
      split
      · trivial
      · refine delivers_bind (delivers_request _) fun a => ?_
        cases a <;> trivial

end FtpGateway
