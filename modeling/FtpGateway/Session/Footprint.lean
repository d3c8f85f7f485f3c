import FtpGateway.Session.Handle

/-!
# What each part of a session can touch

Most of a session's code is irrelevant to most properties. These lemmas say
which requests a part can make at all, so that a proof can pass over the part
with the frame rule (`wp_frame`) and only look into the ones that matter.
-/

namespace FtpGateway

open Str Interact

/-- The commands the gateway sends to a backend on its own account. -/
def ownCommands : List Bytes :=
  ["AUTH TLS", "PBSZ 0", "PROT P", "EPSV", "PASV"].map fun c => withCrLf c.toList

/-- Dealing with the backend only, with no command but the gateway's own. -/
def Req.Backstage : Req → Prop
  | .candidates => True
  | .connect _ => True
  | .reportConnectFailure _ _ => True
  | .read (.backend _) => True
  | .line (.backend _) _ => True
  | .write (.backend _) b => b ∈ ownCommands
  | .startTls => True
  | .backendPeer => True
  | .acquireSlot _ => True
  | .releaseSlot => True
  | .connectData _ _ => True
  | .startDataTls => True
  | .metric .backendTimedOut => True
  | .metric .backendPasvFailed => True
  | .metric .backendDataConnectionFailed => True
  | _ => False

/-- Reading a line from the client and, if that fails, telling it so. -/
def Req.ReadsClient : Req → Prop
  | .read .client => True
  | .line .client _ => True
  | .write .client _ => True
  | .metric .sessionIdleTimedOut => True
  | _ => False

/-! ## The backend side -/

section Backstage

variable {R : Req → Prop}

theorem asks_andThen {α β : Type} {p : Sess (Except IoKind α)} {f : α → Sess (Except IoKind β)}
    (hp : p.Asks R) (hf : ∀ a, (f a).Asks R) : (andThen p f).Asks R := by
  refine asks_bind hp fun r => ?_
  cases r with
  | ok a => exact hf a
  | error k => trivial

theorem asks_takeReadLine {c : Conn} (hread : R (.read c)) (n : Nat) (acc buf : Bytes) :
    (takeReadLine c n acc buf).Asks R := by
  induction n generalizing acc buf with
  | zero => trivial
  | succ n ih =>
      have hnext : ∀ b rest, (if b = lf then pure (decodeLine (acc ++ [b]), rest)
          else takeReadLine c n (acc ++ [b]) rest : Sess (LineRead × Bytes)).Asks R := by
        intro b rest
        split
        · trivial
        · exact ih _ _
      cases buf with
      | cons b buf => exact hnext b buf
      | nil =>
          refine ⟨hread, fun a => ?_⟩
          cases a with
          | data b rest => exact hnext b rest
          | eof => trivial
          | err k => trivial
          | elapsed => trivial

theorem asks_readLine {c : Conn} (hread : R (.read c)) (hline : ∀ r, R (.line c r))
    (n : Nat) (buf : Bytes) : (readLine c n buf).Asks R :=
  asks_bind (asks_takeReadLine hread n [] buf) fun x => ⟨hline x.1, fun _ => trivial⟩

theorem asks_readLineBounded {c : Conn} (hread : R (.read c)) (hline : ∀ r, R (.line c r))
    (n : Nat) (buf : Bytes) : (readLineBounded c n buf).Asks R :=
  asks_bind (asks_takeReadLine hread n [] buf) fun _ => ⟨hline _, fun _ => trivial⟩

theorem asks_readLineWithTimeout {c : Conn} (hread : R (.read c)) (hline : ∀ r, R (.line c r))
    (n : Nat) (buf : Bytes) : (readLineWithTimeout c n buf).Asks R := by
  refine asks_bind (asks_readLineBounded hread hline n buf) fun x => ?_
  obtain ⟨r, buf⟩ := x
  cases r <;> trivial

theorem asks_observeBackendIoError (hR : R (.metric .backendTimedOut)) (k : IoKind) :
    (observeBackendIoError k).Asks R := by
  unfold observeBackendIoError
  split
  · exact asks_request hR
  · trivial

theorem asks_connectBackend (rotate : Bool) : (connectBackend rotate).Asks Req.Backstage := by
  have hfrom : ∀ sources, (connectFrom sources).Asks Req.Backstage := by
    intro sources
    induction sources with
    | nil => trivial
    | cons source rest ih =>
        refine asks_bind (asks_request trivial) fun a => ?_
        cases a with
        | ok u => trivial
        | error k =>
            refine asks_bind (asks_observeBackendIoError trivial k) fun _ => ?_
            exact asks_bind (asks_request trivial) fun _ => ih
  unfold connectBackend
  split
  · exact asks_bind (asks_request trivial) hfrom
  · refine asks_bind (asks_request trivial) fun a => ?_
    cases a with
    | ok u => trivial
    | error k => exact asks_bind (asks_observeBackendIoError trivial k) fun _ => trivial

theorem asks_replyLines (tls : Bool) (maxBytes n : Nat) (code : Option Bytes) (buf : Bytes) :
    (replyLines (.backend tls) maxBytes n code buf).Asks Req.Backstage := by
  induction n generalizing code buf with
  | zero => trivial
  | succ n ih =>
      refine asks_bind (asks_readLine trivial (fun _ => trivial) _ _) fun x => ?_
      obtain ⟨r, buf⟩ := x
      cases r with
      | err k => trivial
      | elapsed => trivial
      | text t =>
          dsimp only
          repeat' split
          all_goals first | trivial | exact ih _ _

theorem asks_commandExpecting {tls : Bool} {command : Text}
    (hown : withCrLf command ∈ ownCommands) (expected : Text) (maxBytes : Nat) (buf : Bytes) :
    (commandExpecting (.backend tls) command expected maxBytes buf).Asks Req.Backstage := by
  refine asks_andThen (asks_request hown) fun _ => ?_
  exact asks_andThen (asks_replyLines _ _ _ _ _) fun _ => trivial

theorem asks_negotiateExplicitFtps (maxBytes : Nat) (buf : Bytes) :
    (negotiateExplicitFtps maxBytes buf).Asks Req.Backstage := by
  refine asks_andThen (asks_commandExpecting (by decide) _ _ _) fun buf => ?_
  split
  · trivial
  · refine asks_andThen (asks_request trivial) fun _ => ?_
    refine asks_andThen (asks_commandExpecting (by decide) _ _ _) fun buf => ?_
    exact asks_commandExpecting (by decide) _ _ _

theorem asks_commandReply {tls : Bool} {command : Text}
    (hown : withCrLf command ∈ ownCommands) (maxBytes : Nat) (buf : Bytes) :
    (commandReply (.backend tls) command maxBytes buf).Asks Req.Backstage := by
  refine asks_andThen (asks_request hown) fun _ => ?_
  refine asks_bind (asks_readLine trivial (fun _ => trivial) _ _) fun x => ?_
  obtain ⟨r, buf⟩ := x
  cases r with
  | err k => trivial
  | elapsed => trivial
  | text t =>
      dsimp only
      repeat' split
      all_goals trivial

theorem asks_passiveReply (tls : Bool) (mode : BackendPassiveMode) (maxBytes : Nat)
    (buf : Bytes) : (passiveReply (.backend tls) mode maxBytes buf).Asks Req.Backstage := by
  cases mode with
  | pasv => exact asks_andThen (asks_commandReply (by decide) _ _) fun _ => trivial
  | epsv =>
      refine asks_andThen (asks_commandReply (by decide) _ _) fun x => ?_
      dsimp only
      split
      · exact asks_andThen (asks_commandReply (by decide) _ _) fun _ => trivial
      · trivial

theorem asks_openBackendDataConnection (tls : Bool) (source : Option Ipv4Addr)
    (limits : LimitsConfig) (buf : Bytes) :
    (openBackendDataConnection (.backend tls) source limits buf).Asks Req.Backstage := by
  refine asks_bind (asks_request trivial) fun control => ?_
  refine asks_bind (asks_passiveReply _ _ _ _) fun x => ?_
  cases x with
  | error k => trivial
  | ok x =>
      obtain ⟨answered, line, buf⟩ := x
      dsimp only
      split
      · trivial
      · refine asks_bind (asks_request trivial) fun a => ?_
        cases a <;> trivial

end Backstage

/-! ## The client side -/

/-- The log lines that name a PASV port; the others are about a command. -/
def LogLine.onPort : LogLine → Bool
  | .portAllocated _ => true
  | .portReplaced _ => true
  | .portReleased _ => true
  | .embeddedLineBreak => false
  | .receivedCommand _ => false
  | .rejectedCommand _ => false

/-- What `serve` logs about the command on a line. -/
def commandLog (line : Text) : List LogLine :=
  if hasEmbeddedLineBreak (stripped line) then [.embeddedLineBreak]
  else
    let command := FtpCommand.parse (stripped line)
    .receivedCommand command.asLogStr ::
      if command.isUnknown then [.rejectedCommand command.asLogStr] else []

/-- Every request but logging a command, reading from the client, writing to the backend, accepting
and relaying data, with `c` the control connection to the backend. -/
structure Everyday (c : Conn) (R : Req → Prop) : Prop where
  tell : ∀ b, R (.write .client b)
  read : R (.read c)
  line : ∀ r, R (.line c r)
  metric : ∀ m, m ≠ .dataConnectionRejected → R (.metric m)
  log : ∀ l : LogLine, l.onPort = true → R (.log l)
  allocate : R .allocate
  release : ∀ port, R (.release port)
  releaseSlot : R .releaseSlot
  startDataTls : R .startDataTls

/-- The requests of a command that is no upload. -/
structure Routine (c : Conn) (R : Req → Prop) : Prop where
  tell : ∀ b, R (.write .client b)
  read : R (.read c)
  line : ∀ r, R (.line c r)
  timedOut : R (.metric .backendTimedOut)
  connectionFailed : R (.metric .backendDataConnectionFailed)
  log : ∀ l : LogLine, l.onPort = true → R (.log l)
  allocate : R .allocate
  release : ∀ port, R (.release port)
  startDataTls : R .startDataTls

theorem Everyday.routine {c : Conn} {R : Req → Prop} (hR : Everyday c R) : Routine c R where
  tell := hR.tell
  read := hR.read
  line := hR.line
  timedOut := hR.metric _ (by simp)
  connectionFailed := hR.metric _ (by simp)
  log := hR.log
  allocate := hR.allocate
  release := hR.release
  startDataTls := hR.startDataTls

section Everyday

variable {c : Conn} {R : Req → Prop}

theorem asks_clientIo (htell : ∀ b, R (.write .client b)) (b : Bytes) : (clientIo b).Asks R := by
  refine asks_bind (asks_request (htell b)) fun a => ?_
  cases a <;> trivial

theorem asks_tellClient (htell : ∀ b, R (.write .client b)) (b : Bytes) :
    (tellClient b).Asks R :=
  asks_bind (asks_request (htell b)) fun _ => trivial

theorem asks_backendIo {α : Type} (hR : R (.metric .backendTimedOut)) (r : Except IoKind α) :
    (backendIo r).Asks R := by
  cases r with
  | ok a => trivial
  | error k => exact asks_bind (asks_observeBackendIoError hR k) fun _ => trivial

theorem asks_backendReply (htell : ∀ b, R (.write .client b)) (hread : R (.read c))
    (hline : ∀ r, R (.line c r)) (hR : R (.metric .backendTimedOut)) (cfg : SessionConfig)
    (closed : Bytes) (leave : Leave) (buf : Bytes) :
    (backendReply cfg c closed leave buf).Asks R := by
  refine asks_bind (asks_readLineWithTimeout hread hline _ _) fun x => ?_
  refine asks_bind (asks_backendIo hR _) fun reply => ?_
  split
  · exact asks_bind (asks_tellClient htell _) fun _ => trivial
  · trivial

theorem Routine.backendReply (hR : Routine c R) (cfg : SessionConfig) (closed : Bytes)
    (leave : Leave) (buf : Bytes) : (FtpGateway.backendReply cfg c closed leave buf).Asks R :=
  asks_backendReply hR.tell hR.read hR.line hR.timedOut cfg closed leave buf

theorem asks_dropActive (hrel : ∀ port, R (.release port))
    (hlog : ∀ l : LogLine, l.onPort = true → R (.log l)) (active : Option UInt16) (leave : Leave) :
    (dropActive active leave).Asks R := by
  cases active with
  | none => trivial
  | some port =>
      cases leave with
      | ret => exact asks_request (hrel port)
      | brk => exact asks_bind (asks_request (hlog _ rfl)) fun _ => asks_request (hrel port)

theorem asks_dropUpload (hended : R (.metric .uploadEnded)) (hfailed : R (.metric .uploadFailed))
    (succeeded : Bool) : (dropUpload succeeded).Asks R := by
  refine asks_bind (asks_request hended) fun _ => ?_
  split
  · trivial
  · exact asks_request hfailed

theorem asks_dropDataSlot (hR : R .releaseSlot) (source : Option Ipv4Addr) :
    (dropDataSlot source).Asks R := by
  cases source with
  | none => trivial
  | some _ => exact asks_request hR

theorem Routine.replacePort (hR : Routine c R) (active : Option UInt16) :
    (FtpGateway.replacePort active).Asks R := by
  cases active with
  | none => trivial
  | some old => exact asks_bind (asks_request (hR.log _ rfl)) fun _ => asks_request (hR.release old)

theorem Routine.secureData (hR : Routine c R) (cfg : SessionConfig) :
    (FtpGateway.secureData cfg).Asks R := by
  unfold FtpGateway.secureData
  split
  · refine asks_bind (asks_request hR.startDataTls) fun a => ?_
    cases a with
    | ok u => trivial
    | error k =>
        refine asks_bind (asks_request hR.connectionFailed) fun _ => ?_
        exact asks_bind (asks_observeBackendIoError hR.timedOut k) fun _ => trivial
  · trivial

theorem Routine.passive (hR : Routine c R) (cfg : SessionConfig) (command : FtpCommand)
    (s : SessState) : (FtpGateway.passive cfg command s).Asks R := by
  refine asks_bind (hR.replacePort _) fun _ => asks_bind (asks_request hR.allocate) fun port => ?_
  cases port with
  | none => exact asks_bind (asks_clientIo hR.tell _) fun _ => trivial
  | some port =>
      refine asks_bind (asks_request (hR.log _ rfl)) fun _ => ?_
      exact asks_bind (asks_onExit (asks_clientIo hR.tell _) fun _ =>
        asks_request (hR.release port)) fun _ => trivial

theorem Everyday.finish (hR : Everyday c R) (completion : Text) :
    (FtpGateway.finish completion).Asks R := by
  have hcount : ∀ b, (countSucceeded b).Asks R := by
    intro b
    cases b with
    | true => exact asks_request (hR.metric _ (by simp))
    | false => trivial
  refine asks_bind (hcount _) fun _ => asks_finally (asks_clientIo hR.tell _) ?_
  exact asks_dropUpload (hR.metric _ (by simp)) (hR.metric _ (by simp)) _

end Everyday

section Forwarding

variable {R : Req → Prop} {cfg : SessionConfig}

theorem Routine.forward (hR : Routine cfg.control R) (hwrite : ∀ b, R (.write cfg.control b))
    (command : FtpCommand) (line : Text) (s : SessState) :
    (FtpGateway.forward cfg command line s).Asks R := by
  refine asks_bind (asks_request (hwrite _)) fun sent => ?_
  refine asks_bind (asks_backendIo hR.timedOut sent) fun _ => ?_
  refine asks_bind (hR.backendReply cfg _ _ _) fun x => ?_
  refine asks_bind (asks_clientIo hR.tell _) fun _ => ?_
  split <;> trivial

theorem Routine.storReply (hR : Routine cfg.control R)
    (hwrite : ∀ b, R (.write cfg.control b)) (line : Text) (buf : Bytes) :
    (FtpGateway.storReply cfg line buf).Asks R := by
  refine asks_bind (asks_request (hwrite _)) fun sent => ?_
  refine asks_bind (asks_backendIo hR.timedOut sent) fun _ => ?_
  refine asks_bind (hR.backendReply cfg _ _ _) fun x => ?_
  exact asks_bind (asks_clientIo hR.tell _) fun _ => trivial

end Forwarding

theorem asks_nextLine {R : Req → Prop} (hR : ∀ r : Req, r.ReadsClient → R r)
    (cfg : SessionConfig) (buf : Bytes) : (nextLine cfg buf).Asks R := by
  have htell : ∀ b, (tellClient b).Asks R := asks_tellClient fun _ => hR _ trivial
  have hline : (readLineBounded .client cfg.maxBytes buf).Asks R :=
    asks_readLineBounded (hR (.read .client) trivial) (fun r => hR (.line .client r) trivial) _ _
  refine asks_bind hline fun x => ?_
  obtain ⟨r, buf⟩ := x
  cases r with
  | text t =>
      dsimp only
      split <;> trivial
  | err k =>
      dsimp only
      split
      · exact asks_bind (htell _) fun _ => trivial
      · trivial
  | elapsed =>
      exact asks_bind (asks_request (hR _ trivial)) fun _ => asks_bind (htell _) fun _ => trivial

theorem asks_greet {R : Req → Prop} (hback : ∀ r : Req, r.Backstage → R r)
    (htell : ∀ b, R (.write .client b)) (cfg : SessionConfig) : (greet cfg).Asks R := by
  refine asks_bind (asks_mono hback (asks_connectBackend _)) fun source => ?_
  cases source with
  | none => exact asks_bind (asks_tellClient htell _) fun _ => trivial
  | some source =>
      refine asks_bind (asks_backendReply htell (hback (.read (.backend false)) trivial)
        (fun r => hback (.line (.backend false) r) trivial) (hback _ trivial) _ _ _ _) fun x => ?_
      refine asks_bind ?_ fun buf => asks_bind (asks_clientIo htell _) fun _ => trivial
      unfold secureControl
      split
      · refine asks_bind (asks_mono hback (asks_negotiateExplicitFtps _ _)) fun r => ?_
        cases r with
        | ok buf => trivial
        | error k =>
            refine asks_bind (asks_observeBackendIoError (hback _ trivial) k) fun _ => ?_
            exact asks_bind (asks_tellClient htell _) fun _ => trivial
      · trivial

/-! ## The data path -/

theorem asks_awaitClientData {R : Req → Prop} (hwait : ∀ port, R (.awaitClientData port))
    (hrej : R (.metric .dataConnectionRejected)) (cfg : SessionConfig) (port : UInt16) :
    (awaitClientData cfg port).Asks R := by
  have hcount : ∀ rejected, (countRejected rejected).Asks R := by
    intro rejected
    induction rejected with
    | nil => trivial
    | cons _ rest ih => exact asks_bind (asks_request hrej) fun _ => ih
  refine asks_bind (asks_request (hwait port)) fun run => asks_bind (hcount _) fun _ => ?_
  split <;> trivial

theorem asks_relayIf {R : Req → Prop} (hrelay : ∀ client tls, R (.relay client tls))
    (hbytes : ∀ n, R (.metric (.uploadBytes n))) (secured : Bool) (cfg : SessionConfig)
    (client : Arrival) : (relayIf secured cfg client).Asks R := by
  unfold relayIf
  split
  · refine asks_bind (asks_request (hrelay client _)) fun run => ?_
    split
    · exact asks_request (hbytes _)
    · trivial
    · trivial
  · trivial

theorem asks_reportOpenFailure (source : Option Ipv4Addr) (e : DataConnectError) :
    (reportOpenFailure source e).Asks Req.Backstage := by
  cases e with
  | controlConnection k =>
      exact asks_bind (asks_request trivial) fun _ => asks_observeBackendIoError trivial k
  | unusableReply => exact asks_request trivial
  | connectFailed k =>
      refine asks_bind (asks_request trivial) fun _ => ?_
      refine asks_bind (asks_observeBackendIoError trivial k) fun _ => ?_
      cases source with
      | none => trivial
      | some source => exact asks_request trivial

theorem asks_openBackend (cfg : SessionConfig) (source : Option Ipv4Addr) (client : Arrival)
    (buf : Bytes) : (openBackend cfg source client buf).Asks Req.Backstage := by
  have hslot : (acquireDataSlot source).Asks Req.Backstage := by
    cases source with
    | none => trivial
    | some source => exact asks_request trivial
  refine asks_bind hslot fun acquired => ?_
  split
  · refine asks_bind (asks_openBackendDataConnection _ _ _ _) fun x => ?_
    obtain ⟨r, buf⟩ := x
    cases r with
    | ok u => trivial
    | error e =>
        refine asks_bind (asks_reportOpenFailure source e) fun _ => ?_
        refine asks_bind (asks_dropDataSlot trivial source) fun _ => ?_
        cases e <;> trivial
  · trivial

/-- Only the client's accepted connection is ever paired with the backend's. -/
theorem returns_openBackend (cfg : SessionConfig) (source : Option Ipv4Addr)
    (client : Arrival) (buf : Bytes) :
    (openBackend cfg source client buf).Returns fun x => ∀ c, x.1 = .ready c → c = client := by
  refine returns_bind fun acquired => ?_
  split
  · refine returns_bind fun x => ?_
    obtain ⟨r, buf⟩ := x
    cases r with
    | ok u => exact fun c hc => (Channel.ready.inj hc).symm
    | error e =>
        refine returns_bind fun _ => returns_bind fun _ => ?_
        cases e <;> exact fun c hc => absurd hc (by simp)
  · exact fun c hc => absurd hc (by simp)

/-! ## Serving a command -/

/-- Every request that a command can lead to, once its line has been read. -/
structure Serving (cfg : SessionConfig) (R : Req → Prop) : Prop
    extends Everyday cfg.control R where
  backstage : ∀ r : Req, r.Backstage → R r
  forwards : ∀ b, R (.write cfg.control b)
  awaits : ∀ port, R (.awaitClientData port)
  rejects : R (.metric .dataConnectionRejected)
  relays : ∀ client tls, R (.relay client tls)

section Serving

variable {R : Req → Prop} {cfg : SessionConfig}

theorem Serving.upload (hR : Serving cfg R) (line : Text) (client : Arrival) (buf : Bytes) :
    (FtpGateway.upload cfg line client buf).Asks R := by
  have hmetric : ∀ m, m ≠ .dataConnectionRejected → (FtpGateway.metric m).Asks R :=
    fun m hm => asks_request (hR.metric m hm)
  refine asks_bind (hmetric _ (by simp)) fun _ => ?_
  refine asks_bind (asks_onExit (hR.routine.storReply hR.forwards line buf) fun _ =>
    hmetric _ (by simp)) fun x => ?_
  dsimp only
  split
  · exact asks_bind (hmetric _ (by simp)) fun _ => trivial
  · refine asks_bind (asks_onExit ?_ fun _ =>
      asks_dropUpload (hR.metric _ (by simp)) (hR.metric _ (by simp)) false) fun y => ?_
    · refine asks_bind (hR.routine.secureData cfg) fun secured => ?_
      refine asks_bind (hmetric _ (by simp)) fun _ => ?_
      refine asks_bind (asks_relayIf hR.relays (fun n => hR.metric _ (by simp)) _ _ _) fun _ => ?_
      exact hR.routine.backendReply cfg _ _ _
    · exact asks_bind (hR.finish _) fun _ => trivial

theorem Serving.stor (hR : Serving cfg R) (source : Option Ipv4Addr) (line : Text)
    (port : UInt16) (s : SessState) : (FtpGateway.stor cfg source line port s).Asks R := by
  refine asks_finally ?_ (asks_request (hR.release port))
  have hopen : (openChannel cfg source port s.backendBuf).Asks R := by
    refine asks_bind (asks_awaitClientData hR.awaits hR.rejects cfg port) fun client => ?_
    cases client with
    | none => trivial
    | some client => exact asks_mono hR.backstage (asks_openBackend _ _ _ _)
  refine asks_bind hopen fun x => ?_
  obtain ⟨channel, buf⟩ := x
  refine asks_bind (asks_request (hR.log _ rfl)) fun _ => ?_
  cases channel with
  | lost => exact asks_bind (asks_tellClient hR.tell _) fun _ => trivial
  | unavailable => exact asks_bind (asks_clientIo hR.tell _) fun _ => trivial
  | ready client =>
      exact asks_bind (asks_finally (hR.upload line client buf)
        (asks_dropDataSlot hR.releaseSlot source)) fun _ => trivial

theorem Serving.serve (hR : Serving cfg R) {line : Text}
    (hlog : ∀ l ∈ commandLog line, R (.log l)) (source : Option Ipv4Addr) (s : SessState) :
    (FtpGateway.serve cfg source line s).Asks R := by
  have hdrop : ∀ {p : Sess SessState}, p.Asks R → (p.onExit (dropActive s.activePasv)).Asks R :=
    fun hp => asks_onExit hp (asks_dropActive hR.release hR.log _)
  have hrefuse : ∀ b, (do clientIo b; pure s : Sess SessState).Asks R :=
    fun b => asks_bind (asks_clientIo hR.tell b) fun _ => trivial
  unfold FtpGateway.serve
  dsimp only
  split
  · rename_i hbreak
    rw [commandLog, if_pos hbreak] at hlog
    exact asks_bind (asks_request (hlog _ (by simp))) fun _ => hdrop (hrefuse _)
  · rename_i hclean
    rw [commandLog, if_neg hclean] at hlog
    refine asks_bind (asks_request (hlog _ (List.mem_cons_self ..))) fun _ => ?_
    split
    · rename_i hunknown
      simp only [hunknown, if_true] at hlog
      exact asks_bind (asks_request (hlog _ (by simp))) fun _ => hdrop (hrefuse _)
    · split
      · exact hR.routine.passive cfg _ s
      · split
        · exact hR.stor source line _ s
        · exact hdrop (hR.routine.forward hR.forwards _ line s)

end Serving

/-! ## The loop -/

/-- The rule for a whole session: `J` is the invariant between commands, `E`
what holds on the way out. A session never just falls out of its loop. -/
theorem wp_handle_from {env : Env Io} {Φ : History Io → Event → Prop} {cfg : SessionConfig}
    {J : Option Ipv4Addr → SessState → History Io → Prop} {E E' : Leave → History Io → Prop}
    (hstarted : Φ [] ⟨.metric .sessionStarted, ()⟩)
    (hgreet : wp env Φ (fun x h => J x.1 ⟨[], x.2, none⟩ h) E (greet cfg)
      [⟨.metric .sessionStarted, ()⟩])
    (hround : ∀ source s h, J source s h → wp env Φ (J source) E (round cfg source s) h)
    (hended : ∀ e h, E e h → Φ h ⟨.metric .sessionEnded, ()⟩
      ∧ E' e (h ++ [⟨.metric .sessionEnded, ()⟩])) (n : Nat) :
    wp env Φ (fun _ _ => False) E' (handle cfg n) [] := by
  intro _ _
  refine ⟨hstarted, ?_⟩
  refine (wp_finally _).mpr ((wp_bind _).mpr (wp_post hgreet ?_ ?_))
  · intro x h hJ
    refine wp_post (wp_iterate (hround x.1) n (Q := fun _ _ => False) hJ) ?_ ?_
    · exact fun _ _ hfalse => hfalse.elim
    · exact fun e h he _ _ => hended e h he
  · exact fun e h he _ _ => hended e h he

/-- For an invariant that does not look at the source address. -/
theorem wp_handle {env : Env Io} {Φ : History Io → Event → Prop} {cfg : SessionConfig}
    {J : SessState → History Io → Prop} {E E' : Leave → History Io → Prop}
    (hstarted : Φ [] ⟨.metric .sessionStarted, ()⟩)
    (hgreet : wp env Φ (fun x h => J ⟨[], x.2, none⟩ h) E (greet cfg)
      [⟨.metric .sessionStarted, ()⟩])
    (hround : ∀ source s h, J s h → wp env Φ J E (round cfg source s) h)
    (hended : ∀ e h, E e h → Φ h ⟨.metric .sessionEnded, ()⟩
      ∧ E' e (h ++ [⟨.metric .sessionEnded, ()⟩])) (n : Nat) :
    wp env Φ (fun _ _ => False) E' (handle cfg n) [] :=
  wp_handle_from (J := fun _ => J) hstarted hgreet hround hended n

/-! ## All but the uploads -/

/-- Requests outside of `upload`. -/
def Req.OffUpload : Req → Prop
  | .relay _ _ => False
  | .metric .uploadAttempted => False
  | .metric .uploadSucceeded => False
  | .metric .uploadFailed => False
  | .metric .uploadStarted => False
  | .metric .uploadEnded => False
  | .metric (.uploadBytes _) => False
  | _ => True

theorem Req.Backstage.offUpload {r : Req} (hr : r.Backstage) : r.OffUpload := by
  cases r with
  | relay client tls => exact hr.elim
  | metric m => cases m <;> first | exact hr.elim | trivial
  | _ => trivial

theorem Req.ReadsClient.offUpload {r : Req} (hr : r.ReadsClient) : r.OffUpload := by
  cases r with
  | relay client tls => exact hr.elim
  | metric m => cases m <;> first | exact hr.elim | trivial
  | _ => trivial

theorem routine_offUpload (c : Conn) : Routine c Req.OffUpload where
  tell _ := trivial
  read := trivial
  line _ := trivial
  timedOut := trivial
  connectionFailed := trivial
  log _ _ := trivial
  allocate := trivial
  release _ := trivial
  startDataTls := trivial

/-- A condition on exchanges and an invariant for it that no request outside of
`upload` disturbs, and that an upload restores. -/
structure UploadKeeps (env : Env Io) (cfg : SessionConfig) (Φ : History Io → Event → Prop)
    (I : History Io → Prop) : Prop where
  off : ∀ h r a, r.OffUpload → I h → Φ h ⟨r, a⟩ ∧ I (h ++ [⟨r, a⟩])
  upload : ∀ line client buf h, I h →
    wp env Φ (fun _ => I) (fun _ => I) (upload cfg line client buf) h

namespace UploadKeeps

variable {env : Env Io} {Φ : History Io → Event → Prop} {cfg : SessionConfig}
  {I : History Io → Prop} {h : History Io}

theorem pass (hkeeps : UploadKeeps env cfg Φ I) {α : Type} {p : Sess α}
    (hp : p.Asks Req.OffUpload) (hI : I h) : wp env Φ (fun _ => I) (fun _ => I) p h :=
  wp_frame hp (fun h r a hr _ hI => hkeeps.off h r a hr hI) hI

theorem stor (hkeeps : UploadKeeps env cfg Φ I) (source : Option Ipv4Addr) (line : Text)
    (port : UInt16) (s : SessState) (hI : I h) :
    wp env Φ (fun _ => I) (fun _ => I) (FtpGateway.stor cfg source line port s) h := by
  have hopen : (openChannel cfg source port s.backendBuf).Asks Req.OffUpload := by
    refine asks_bind (asks_awaitClientData (fun _ => trivial) trivial cfg port) fun client => ?_
    cases client with
    | none => trivial
    | some client => exact asks_mono (fun _ => Req.Backstage.offUpload) (asks_openBackend _ _ _ _)
  have hrelease : (release port).Asks Req.OffUpload := asks_request trivial
  refine (wp_finally _).mpr (wp_post (Q := fun _ => I) (E := fun _ => I) ?_
    (fun _ _ hI => hkeeps.pass hrelease hI) fun _ _ hI => hkeeps.pass hrelease hI)
  refine (wp_bind _).mpr (wp_post (hkeeps.pass hopen hI) (fun x h₁ hI => ?_) fun _ _ => id)
  obtain ⟨channel, buf⟩ := x
  refine (wp_bind _).mpr (wp_post (hkeeps.pass (asks_request trivial) hI) (fun _ h₂ hI => ?_)
    fun _ _ => id)
  cases channel with
  | lost =>
      exact hkeeps.pass (asks_bind (asks_tellClient (fun _ => trivial) _) fun _ => trivial) hI
  | unavailable =>
      exact hkeeps.pass (asks_bind (asks_clientIo (fun _ => trivial) _) fun _ => trivial) hI
  | ready client =>
      have hdrop := asks_dropDataSlot (R := Req.OffUpload) trivial source
      refine (wp_bind _).mpr ((wp_finally _).mpr (wp_post (hkeeps.upload line client buf h₂ hI)
        (fun _ _ hI => ?_) fun _ _ hI => hkeeps.pass hdrop hI))
      exact hkeeps.pass hdrop hI

theorem serve (hkeeps : UploadKeeps env cfg Φ I) (source : Option Ipv4Addr) (line : Text)
    (s : SessState) (hI : I h) :
    wp env Φ (fun _ => I) (fun _ => I) (FtpGateway.serve cfg source line s) h := by
  have hroutine := routine_offUpload cfg.control
  have hdrop : ∀ e, (dropActive s.activePasv e).Asks Req.OffUpload :=
    asks_dropActive (fun _ => trivial) (fun _ _ => trivial) s.activePasv
  have hrefuse : ∀ b, ((do clientIo b; pure s : Sess SessState).onExit
      (dropActive s.activePasv)).Asks Req.OffUpload :=
    fun b => asks_onExit (asks_bind (asks_clientIo (fun _ => trivial) b) fun _ => trivial) hdrop
  unfold FtpGateway.serve
  dsimp only
  split
  · exact hkeeps.pass (asks_bind (asks_request trivial) fun _ => hrefuse _) hI
  · refine (wp_bind _).mpr (wp_post (hkeeps.pass (asks_request trivial) hI)
      (fun _ h₁ hI => ?_) fun _ _ => id)
    split
    · exact hkeeps.pass (asks_bind (asks_request trivial) fun _ => hrefuse _) hI
    · split
      · exact hkeeps.pass (hroutine.passive cfg _ s) hI
      · split
        · exact hkeeps.stor source line _ s hI
        · exact hkeeps.pass (asks_onExit (hroutine.forward (fun _ => trivial) _ _ s) hdrop) hI

/-- The rule for a whole session. -/
theorem handle (hkeeps : UploadKeeps env cfg Φ I) (hI : I []) (n : Nat) :
    wp env Φ (fun _ _ => False) (fun _ => I) (FtpGateway.handle cfg n) [] := by
  obtain ⟨hstarted, hI⟩ := hkeeps.off [] (.metric .sessionStarted) () trivial hI
  refine wp_handle (J := fun _ => I) (E := fun _ => I) hstarted ?_ (fun source s h hI => ?_)
    (fun _ h hI => hkeeps.off h (.metric .sessionEnded) () trivial hI) n
  · exact hkeeps.pass (asks_greet (fun _ => Req.Backstage.offUpload) (fun _ => trivial) cfg) hI
  · have hline : ((nextLine cfg s.clientBuf).onExit (dropActive s.activePasv)).Asks Req.OffUpload :=
      asks_onExit (asks_nextLine (fun _ => Req.ReadsClient.offUpload) cfg _) fun e =>
        asks_dropActive (fun _ => trivial) (fun _ _ => trivial) s.activePasv e
    refine (wp_bind _).mpr (wp_post (hkeeps.pass hline hI) (fun x h₁ hI => ?_) fun _ _ => id)
    exact hkeeps.serve source x.1 _ hI

end UploadKeeps

end FtpGateway
