import FtpGateway.Session.Refine

/-!
# The data slot of a session

With source rotation a session goes out from one source address, and a transfer
claims a slot on that address before the backend is asked for a data port.
`rationAt h` is where the session stands after the exchanges `h`: the address its
backend connection goes out from, the slot it has, and the data connection to the
backend that is open. `Ration.Allows` says what may happen then: nothing goes out from
no source address with rotation, nor from one without; no data connection is opened, and
nothing relayed, but on a slot of the session's own address; no slot is claimed on top of
another; none is given back twice or left over.

Every session keeps to it, along every way out of a scope (`session_rationed`).
-/

namespace FtpGateway

open Str Interact

/-! ## What is claimed -/

/-- Where the backend connection goes out from, once it is up (`bound`); the slot; and the
address an open data connection to the backend goes out from (`conn`). -/
structure Ration where
  bound : Option (Option Ipv4Addr)
  slot : Option Ipv4Addr
  conn : Option Ipv4Addr
deriving Repr, DecidableEq

namespace Ration

def start : Ration := ⟨none, none, none⟩

/-- The fields of a `DataChannel` are dropped in order, the data connection before the
slot. -/
def after (g : Ration) : Event → Ration
  | ⟨.connect source, .ok ()⟩ => { g with bound := some source }
  | ⟨.acquireSlot source, true⟩ => { g with slot := some source }
  | ⟨.releaseSlot, _⟩ => { g with slot := none, conn := none }
  | ⟨.connectData _ source, .ok ()⟩ => { g with conn := source }
  | _ => g

/-- What may happen, with source rotation or without. -/
def Allows (rotate : Bool) (g : Ration) : Event → Prop
  | ⟨.connect source, _⟩ => source.isSome = rotate ∧ g = start
  | ⟨.acquireSlot source, _⟩ => rotate = true ∧ g = ⟨some (some source), none, none⟩
  | ⟨.releaseSlot, _⟩ => g.slot ≠ none
  | ⟨.connectData _ source, _⟩ => source.isSome = rotate ∧ g = ⟨some source, source, none⟩
  | ⟨.relay _ _, _⟩ => ∃ source, source.isSome = rotate ∧ g = ⟨some source, source, source⟩
  | ⟨.line .client _, _⟩ => g.slot = none
  | _ => True

end Ration

def rationAt (h : History Io) : Ration := h.foldl Ration.after Ration.start

def RationStep (rotate : Bool) (h : History Io) (e : Event) : Prop :=
  (rationAt h).Allows rotate e

@[simp] theorem rationAt_append_single (h : History Io) (e : Event) :
    rationAt (h ++ [e]) = (rationAt h).after e := by
  rw [rationAt, List.foldl_append]
  rfl

/-- An open data connection is on the slot. -/
theorem conn_on_slot {rotate : Bool} {h : History Io} (hall : Always (RationStep rotate) h) :
    (rationAt h).conn = none ∨ (rationAt h).conn = (rationAt h).slot := by
  induction h using List.reverseRecOn with
  | nil => exact Or.inl rfl
  | append_singleton h e ih =>
      obtain ⟨hbefore, hstep⟩ := always_append_single.mp hall
      rw [rationAt_append_single]
      obtain ⟨r, a⟩ := e
      cases r with
      | connect source =>
          rw [show rationAt h = .start from hstep.2]
          cases a <;> exact Or.inl rfl
      | acquireSlot source =>
          rw [show rationAt h = _ from hstep.2]
          cases a <;> exact Or.inl rfl
      | releaseSlot => exact Or.inl rfl
      | connectData addr source =>
          rw [show rationAt h = _ from hstep.2]
          cases a with
          | error k => exact Or.inl rfl
          | ok u => exact Or.inr rfl
      | _ => exact ih hbefore

/-! ## Requests that leave the slot alone -/

/-- Requests of a session that has no slot. -/
def Req.Slotless : Req → Prop
  | .connect _ => False
  | .acquireSlot _ => False
  | .releaseSlot => False
  | .connectData _ _ => False
  | .relay _ _ => False
  | _ => True

/-- Requests of a session with both data connections up. -/
def Req.OnSlot : Req → Prop
  | .connect _ => False
  | .acquireSlot _ => False
  | .releaseSlot => False
  | .connectData _ _ => False
  | .line .client _ => False
  | _ => True

/-- Requests that have nothing to do with slots. -/
def Req.Aside : Req → Prop
  | .connect _ => False
  | .acquireSlot _ => False
  | .releaseSlot => False
  | .connectData _ _ => False
  | .relay _ _ => False
  | .line .client _ => False
  | _ => True

section Frames

variable {env : Env Io} {rotate : Bool} {h : History Io} {g : Ration} {α β : Type}

theorem Ration.slotless {r : Req} (hr : r.Slotless) (hslot : g.slot = none) (a : r.Ans) :
    g.Allows rotate ⟨r, a⟩ ∧ g.after ⟨r, a⟩ = g := by
  cases r with
  | line c x => cases c <;> first | exact ⟨hslot, rfl⟩ | exact ⟨trivial, rfl⟩
  | connect | acquireSlot | releaseSlot | connectData | relay => exact hr.elim
  | _ => exact ⟨trivial, rfl⟩

theorem Ration.onSlot {r : Req} (hr : r.OnSlot) {source : Option Ipv4Addr}
    (hsource : source.isSome = rotate) (hg : g = ⟨some source, source, source⟩) (a : r.Ans) :
    g.Allows rotate ⟨r, a⟩ ∧ g.after ⟨r, a⟩ = g := by
  cases r with
  | line c x => cases c <;> first | exact hr.elim | exact ⟨trivial, rfl⟩
  | relay client tls => exact ⟨⟨source, hsource, hg⟩, rfl⟩
  | connect | acquireSlot | releaseSlot | connectData => exact hr.elim
  | _ => exact ⟨trivial, rfl⟩

theorem Ration.aside {r : Req} (hr : r.Aside) (a : r.Ans) :
    g.Allows rotate ⟨r, a⟩ ∧ g.after ⟨r, a⟩ = g := by
  cases r with
  | line c x => cases c <;> first | exact hr.elim | exact ⟨trivial, rfl⟩
  | connect | acquireSlot | releaseSlot | connectData | relay => exact hr.elim
  | _ => exact ⟨trivial, rfl⟩

theorem wp_aside {p : Sess α} (hp : p.Asks Req.Aside) (hg : rationAt h = g) :
    wp env (RationStep rotate) (fun _ h' => rationAt h' = g) (fun _ h' => rationAt h' = g) p h := by
  refine wp_frame hp (fun h r a hr _ hg => ?_) hg
  rw [RationStep, rationAt_append_single, hg]
  exact Ration.aside hr a

theorem wp_slotless {p : Sess α} (hp : p.Asks Req.Slotless) (hg : rationAt h = g)
    (hslot : g.slot = none) :
    wp env (RationStep rotate) (fun _ h' => rationAt h' = g) (fun _ h' => rationAt h' = g) p h := by
  refine wp_frame hp (fun h r a hr _ hg => ?_) hg
  rw [RationStep, rationAt_append_single, hg]
  exact Ration.slotless hr hslot a

theorem wp_onSlot {p : Sess α} (hp : p.Asks Req.OnSlot) {source : Option Ipv4Addr}
    (hsource : source.isSome = rotate) (hg : rationAt h = ⟨some source, source, source⟩) :
    wp env (RationStep rotate) (fun _ h' => rationAt h' = ⟨some source, source, source⟩)
      (fun _ h' => rationAt h' = ⟨some source, source, source⟩) p h := by
  refine wp_frame hp (fun h r a hr _ hg => ?_) hg
  rw [RationStep, rationAt_append_single, hg]
  exact Ration.onSlot hr hsource rfl a

/-- The next step of a program that leaves the slot alone. -/
theorem wp_then_slotless {p : Sess α} {f : α → Sess β} {Q : β → History Io → Prop}
    {E : Leave → History Io → Prop} (hp : p.Asks Req.Slotless) (hg : rationAt h = g)
    (hslot : g.slot = none)
    (hf : ∀ a h', rationAt h' = g → wp env (RationStep rotate) Q E (f a) h')
    (hE : ∀ e h', rationAt h' = g → E e h') : wp env (RationStep rotate) Q E (p.bind f) h :=
  (wp_bind f).mpr (wp_post (wp_slotless hp hg hslot) hf hE)

end Frames

/-! ## Dialogues with the backend -/

/-- Reading from the backend and writing to it. -/
structure Talks (R : Req → Prop) : Prop where
  read : ∀ tls, R (.read (.backend tls))
  line : ∀ tls r, R (.line (.backend tls) r)
  write : ∀ tls b, R (.write (.backend tls) b)

section Talks

variable {R : Req → Prop}

theorem Talks.commandReply (hR : Talks R) (tls : Bool) (command : Text) (maxBytes : Nat)
    (buf : Bytes) : (FtpGateway.commandReply (.backend tls) command maxBytes buf).Asks R := by
  refine asks_andThen (asks_request (hR.write _ _)) fun _ => ?_
  refine asks_bind (asks_readLine (hR.read _) (hR.line _) _ _) fun x => ?_
  obtain ⟨r, buf⟩ := x
  cases r with
  | err k => trivial
  | elapsed => trivial
  | text t =>
      dsimp only
      repeat' split
      all_goals trivial

theorem Talks.passiveReply (hR : Talks R) (tls : Bool) (mode : BackendPassiveMode)
    (maxBytes : Nat) (buf : Bytes) :
    (FtpGateway.passiveReply (.backend tls) mode maxBytes buf).Asks R := by
  cases mode with
  | pasv => exact asks_andThen (hR.commandReply _ _ _ _) fun _ => trivial
  | epsv =>
      refine asks_andThen (hR.commandReply _ _ _ _) fun x => ?_
      dsimp only
      split
      · exact asks_andThen (hR.commandReply _ _ _ _) fun _ => trivial
      · trivial

theorem Talks.replyLines (hR : Talks R) (tls : Bool) (maxBytes n : Nat) (code : Option Bytes)
    (buf : Bytes) : (FtpGateway.replyLines (.backend tls) maxBytes n code buf).Asks R := by
  induction n generalizing code buf with
  | zero => trivial
  | succ n ih =>
      refine asks_bind (asks_readLine (hR.read _) (hR.line _) _ _) fun x => ?_
      obtain ⟨r, buf⟩ := x
      cases r with
      | err k => trivial
      | elapsed => trivial
      | text t =>
          dsimp only
          repeat' split
          all_goals first | trivial | exact ih _ _

theorem Talks.commandExpecting (hR : Talks R) (tls : Bool) (command expected : Text)
    (maxBytes : Nat) (buf : Bytes) :
    (FtpGateway.commandExpecting (.backend tls) command expected maxBytes buf).Asks R := by
  refine asks_andThen (asks_request (hR.write _ _)) fun _ => ?_
  exact asks_andThen (hR.replyLines _ _ _ _ _) fun _ => trivial

theorem Talks.negotiateExplicitFtps (hR : Talks R) (htls : R .startTls) (maxBytes : Nat)
    (buf : Bytes) : (FtpGateway.negotiateExplicitFtps maxBytes buf).Asks R := by
  refine asks_andThen (hR.commandExpecting _ _ _ _ _) fun buf => ?_
  split
  · trivial
  · refine asks_andThen (asks_request htls) fun _ => ?_
    refine asks_andThen (hR.commandExpecting _ _ _ _ _) fun buf => ?_
    exact hR.commandExpecting _ _ _ _ _

theorem Talks.secureControl (hR : Talks R) (htls : R .startTls)
    (htimed : R (.metric .backendTimedOut)) (htell : ∀ b, R (.write .client b))
    (cfg : SessionConfig) (buf : Bytes) : (FtpGateway.secureControl cfg buf).Asks R := by
  unfold FtpGateway.secureControl
  split
  · refine asks_bind (hR.negotiateExplicitFtps htls _ _) fun r => ?_
    cases r with
    | ok buf => trivial
    | error k =>
        refine asks_bind (asks_observeBackendIoError htimed k) fun _ => ?_
        exact asks_bind (asks_tellClient htell _) fun _ => trivial
  · trivial

end Talks

/-! ## No way out in between -/

theorem noExit_observeBackendIoError (k : IoKind) : (observeBackendIoError k).NoExit := by
  unfold observeBackendIoError
  split
  · exact noExit_request _
  · trivial

theorem noExit_reportOpenFailure (source : Option Ipv4Addr) (e : DataConnectError) :
    (reportOpenFailure source e).NoExit := by
  cases e with
  | controlConnection k =>
      exact noExit_bind (noExit_request _) fun _ => noExit_observeBackendIoError k
  | unusableReply => exact noExit_request _
  | connectFailed k =>
      refine noExit_bind (noExit_request _) fun _ =>
        noExit_bind (noExit_observeBackendIoError k) fun _ => ?_
      cases source with
      | none => trivial
      | some source => exact noExit_request _

/-! ## Requests by where they are made -/

theorem talks_slotless : Talks Req.Slotless where
  read _ := trivial
  line _ _ := trivial
  write _ _ := trivial

theorem talks_aside : Talks Req.Aside where
  read _ := trivial
  line _ _ := trivial
  write _ _ := trivial

theorem routine_slotless (c : Conn) : Routine c Req.Slotless where
  tell _ := trivial
  read := trivial
  line _ := by cases c <;> trivial
  timedOut := trivial
  connectionFailed := trivial
  log _ _ := trivial
  allocate := trivial
  release _ := trivial
  startDataTls := trivial

theorem routine_onSlot (cfg : SessionConfig) : Routine cfg.control Req.OnSlot where
  tell _ := trivial
  read := trivial
  line _ := trivial
  timedOut := trivial
  connectionFailed := trivial
  log _ _ := trivial
  allocate := trivial
  release _ := trivial
  startDataTls := trivial

theorem asks_upload {R : Req → Prop} {cfg : SessionConfig} (hR : Routine cfg.control R)
    (hmetric : ∀ m, R (.metric m)) (hwrite : ∀ b, R (.write cfg.control b))
    (hrelay : ∀ client tls, R (.relay client tls)) (line : Text) (client : Arrival)
    (buf : Bytes) : (upload cfg line client buf).Asks R := by
  have hcounts : ∀ m, (metric m).Asks R := fun m => asks_request (hmetric m)
  have hdrop : ∀ succeeded, (dropUpload succeeded).Asks R :=
    asks_dropUpload (hmetric _) (hmetric _)
  have hfinish : ∀ completion, (finish completion).Asks R := by
    intro completion
    refine asks_bind ?_ fun _ => asks_finally (asks_clientIo hR.tell _) (hdrop _)
    unfold countSucceeded
    split
    · exact hcounts _
    · trivial
  refine asks_bind (hcounts _) fun _ => ?_
  refine asks_bind (asks_onExit (hR.storReply hwrite line buf) fun _ => hcounts _) fun x => ?_
  dsimp only
  split
  · exact asks_bind (hcounts _) fun _ => trivial
  · refine asks_bind (asks_onExit ?_ fun _ => hdrop false) fun y => ?_
    · refine asks_bind (hR.secureData cfg) fun secured => ?_
      refine asks_bind (hcounts _) fun _ => ?_
      refine asks_bind (asks_relayIf hrelay (fun _ => hmetric _) _ _ _) fun _ => ?_
      exact hR.backendReply cfg _ _ _
    · exact asks_bind (hfinish _) fun _ => trivial

/-! ## Rounds -/

/-- What every request outside of an upload keeps, and every upload, a round keeps. -/
theorem wp_round_of {env : Env Io} {Φ : History Io → Event → Prop} {I : History Io → Prop}
    {R : Req → Prop} {cfg : SessionConfig} {source : Option Ipv4Addr} {s : SessState}
    {h : History Io} (hR : Routine cfg.control R) (hwrite : ∀ b, R (.write cfg.control b))
    (hlog : ∀ l, R (.log l)) (hread : ∀ r : Req, r.ReadsClient → R r)
    (hkeep : ∀ {α : Type} {p : Sess α} {h}, p.Asks R → I h →
      wp env Φ (fun _ => I) (fun _ => I) p h)
    (hstor : ∀ {line port s h}, I h →
      wp env Φ (fun _ => I) (fun _ => I) (stor cfg source line port s) h)
    (hI : I h) : wp env Φ (fun _ => I) (fun _ => I) (round cfg source s) h := by
  have hactive : ∀ leave, (dropActive s.activePasv leave).Asks R :=
    asks_dropActive hR.release (fun l _ => hlog l) _
  have hrefuse : ∀ (s' : SessState) b,
      ((do clientIo b; pure s' : Sess SessState).onExit (dropActive s.activePasv)).Asks R :=
    fun s' b => asks_onExit (asks_bind (asks_clientIo hR.tell b) fun _ => trivial) hactive
  have hthen : ∀ {α : Type} {p : Sess α} {f : α → Sess SessState} {h}, p.Asks R → I h →
      (∀ a h', I h' → wp env Φ (fun _ => I) (fun _ => I) (f a) h') →
      wp env Φ (fun _ => I) (fun _ => I) (p.bind f) h :=
    fun hp hI hf => (wp_bind _).mpr (wp_post (hkeep hp hI) hf fun _ _ => id)
  refine hthen (asks_onExit (asks_nextLine hread cfg _) hactive) hI fun x h₁ hI => ?_
  unfold serve
  dsimp only
  split
  · exact hthen (asks_request (hlog _)) hI fun _ _ => hkeep (hrefuse _ _)
  · refine hthen (asks_request (hlog _)) hI fun _ h₂ hI => ?_
    split
    · exact hthen (asks_request (hlog _)) hI fun _ _ => hkeep (hrefuse _ _)
    · split
      · exact hkeep (hR.passive cfg _ _) hI
      · split
        · exact hstor hI
        · exact hkeep (asks_onExit (hR.forward hwrite _ _ _) hactive) hI

/-! ## The parts of a session -/

/-- A session between transfers that goes out from `source`. -/
def Unladen (source : Option Ipv4Addr) (h : History Io) : Prop :=
  rationAt h = ⟨some source, none, none⟩

section Parts

variable {env : Env Io} {rotate : Bool} {cfg : SessionConfig} {h : History Io}

/-- Nothing is claimed or open. -/
def Free (h : History Io) : Prop := (rationAt h).slot = none ∧ (rationAt h).conn = none

theorem Unladen.free {source : Option Ipv4Addr} (hg : Unladen source h) : Free h := by
  rw [Free, show rationAt h = _ from hg]
  exact ⟨rfl, rfl⟩

theorem free_start (hg : rationAt h = .start) : Free h := by
  rw [Free, hg]
  exact ⟨rfl, rfl⟩

theorem unladen_connect {source : Option Ipv4Addr} {a : Except IoKind Unit}
    (hg : rationAt h = .start) (hok : a = .ok ()) :
    Unladen source (h ++ [⟨.connect source, a⟩]) := by
  rw [Unladen, rationAt_append_single, hg, hok]
  rfl

theorem rationAt_connect_error {source : Option Ipv4Addr} {k : IoKind}
    (hg : rationAt h = .start) : rationAt (h ++ [⟨.connect source, .error k⟩]) = .start := by
  rw [rationAt_append_single, hg]
  rfl

/-- What connecting to the backend comes to. -/
def Connected (rotate : Bool) (x : Option (Option Ipv4Addr)) (h : History Io) : Prop :=
  (x = none → Free h) ∧ ∀ source, x = some source → source.isSome = rotate ∧ Unladen source h

theorem connected_none (hg : rationAt h = .start) : Connected rotate none h :=
  ⟨fun _ => free_start hg, nofun⟩

theorem connected_some {source : Option Ipv4Addr} (hsource : source.isSome = rotate)
    (hg : Unladen source h) : Connected rotate (some source) h :=
  ⟨nofun, fun _ heq => Option.some.inj heq ▸ ⟨hsource, hg⟩⟩

theorem wp_connectFrom (candidates : List Ipv4Addr) (hg : rationAt h = .start) :
    wp env (RationStep true) (Connected true) (fun _ => Free) (connectFrom candidates) h := by
  induction candidates generalizing h with
  | nil => exact connected_none hg
  | cons ip rest ih =>
      refine (wp_request_bind _ _).mpr fun a _ => ⟨⟨rfl, hg⟩, ?_⟩
      cases a with
      | ok u => exact connected_some rfl (unladen_connect hg rfl)
      | error k =>
          refine wp_then_slotless (asks_observeBackendIoError trivial k)
            (rationAt_connect_error hg) rfl (fun _ h₁ hg => ?_) fun _ _ => free_start
          exact wp_then_slotless (asks_request trivial) hg rfl (fun _ _ hg => ih hg)
            fun _ _ => free_start

theorem wp_connectBackend (rotate : Bool) (hg : rationAt h = .start) :
    wp env (RationStep rotate) (Connected rotate) (fun _ => Free) (connectBackend rotate) h := by
  cases rotate with
  | true =>
      exact wp_then_slotless (asks_request trivial) hg rfl (fun _ _ hg => wp_connectFrom _ hg)
        fun _ _ => free_start
  | false =>
      refine (wp_request_bind _ _).mpr fun a _ => ⟨⟨rfl, hg⟩, ?_⟩
      cases a with
      | ok u => exact connected_some rfl (unladen_connect hg rfl)
      | error k =>
          exact wp_then_slotless (asks_observeBackendIoError trivial k)
            (rationAt_connect_error hg) rfl (fun _ _ hg => connected_none hg)
            fun _ _ => free_start

theorem wp_greet_ration (hg : rationAt h = .start) :
    wp env (RationStep cfg.sourceRotator)
      (fun x h' => x.1.isSome = cfg.sourceRotator ∧ Unladen x.1 h') (fun _ => Free) (greet cfg)
      h := by
  refine (wp_bind _).mpr (wp_post (wp_connectBackend _ hg) (fun x h₁ hx => ?_) fun _ _ => id)
  cases x with
  | none =>
      have hfree : Free h₁ := hx.1 rfl
      have hsame : ∀ {h'}, rationAt h' = rationAt h₁ → Free h' := fun heq => by
        rw [Free, heq]
        exact hfree
      exact wp_then_slotless (asks_tellClient (fun _ => trivial) _) rfl hfree.1
        (fun _ _ => hsame) fun _ _ => hsame
  | some source =>
      obtain ⟨hsource, hg⟩ : source.isSome = cfg.sourceRotator ∧ Unladen source h₁ :=
        hx.2 source rfl
      refine wp_then_slotless ((routine_slotless _).backendReply cfg _ _ _) hg rfl
        (fun x h₂ hg => ?_) fun _ _ => Unladen.free
      refine wp_then_slotless (talks_slotless.secureControl trivial trivial (fun _ => trivial) _ _)
        hg rfl (fun buf h₃ hg => ?_) fun _ _ => Unladen.free
      exact wp_then_slotless (asks_clientIo (fun _ => trivial) _) hg rfl
        (fun _ _ hg => ⟨hsource, hg⟩) fun _ _ => Unladen.free

/-- The slot is given back, with the data connection if there is one. -/
theorem wp_dropDataSlot {source conn : Option Ipv4Addr}
    (hg : rationAt h = ⟨some source, source, conn⟩) (hconn : source = none → conn = none) :
    wp env (RationStep rotate) (fun _ => Unladen source) (fun _ => Unladen source)
      (dropDataSlot source) h := by
  cases source with
  | none =>
      rw [hconn rfl] at hg
      exact hg
  | some source =>
      intro u _
      refine ⟨?_, ?_⟩
      · rw [RationStep, hg]
        exact nofun
      · rw [wp_ret, Unladen, rationAt_append_single, hg]
        rfl

/-- The data connection of a transfer whose slot is claimed. -/
theorem wp_openBackendDataConnection_ration {source : Option Ipv4Addr} {buf : Bytes}
    (hsource : source.isSome = rotate) (hg : rationAt h = ⟨some source, source, none⟩) :
    wp env (RationStep rotate)
      (fun x h' => (x.1 = .ok () → rationAt h' = ⟨some source, source, source⟩) ∧
        (x.1 ≠ .ok () → rationAt h' = ⟨some source, source, none⟩))
      (fun _ h' => rationAt h' = ⟨some source, source, none⟩)
      (openBackendDataConnection cfg.control source cfg.limits buf) h := by
  refine (wp_bind _).mpr (wp_post (wp_aside (asks_request trivial) hg) (fun control h₁ hg => ?_)
    fun _ _ => id)
  refine (wp_bind _).mpr (wp_post (wp_aside (talks_aside.passiveReply _ _ _ _) hg)
    (fun x h₂ hg => ?_) fun _ _ => id)
  cases x with
  | error k => exact ⟨nofun, fun _ => hg⟩
  | ok x =>
      obtain ⟨answered, line, buf⟩ := x
      dsimp only
      split
      · exact ⟨nofun, fun _ => hg⟩
      · rename_i addr _
        refine (wp_request_bind _ _).mpr fun a _ => ⟨⟨hsource, hg⟩, ?_⟩
        cases a with
        | ok u =>
            refine ⟨fun _ => ?_, fun hne => absurd rfl hne⟩
            rw [rationAt_append_single, hg]
            rfl
        | error k =>
            refine ⟨nofun, fun _ => ?_⟩
            rw [rationAt_append_single, hg]
            rfl

/-- Both data connections are up on a slot, or the session is between transfers again. -/
def OpenedOnSlot (source : Option Ipv4Addr) (channel : Channel) (h : History Io) : Prop :=
  match channel with
  | .ready _ => rationAt h = ⟨some source, source, source⟩
  | _ => Unladen source h

theorem wp_openFailed {source : Option Ipv4Addr} {e : DataConnectError} {buf : Bytes}
    (hg : rationAt h = ⟨some source, source, none⟩) :
    wp env (RationStep rotate) (fun x => OpenedOnSlot source x.1) (fun _ => Unladen source)
      ((reportOpenFailure source e).bind fun _ => (dropDataSlot source).bind fun _ =>
        match e with
        | .controlConnection _ => pure (.lost, buf)
        | _ => pure (.unavailable, buf) : Sess (Channel × Bytes)) h := by
  have hreport : (reportOpenFailure source e).Asks Req.Aside := by
    cases e with
    | controlConnection k =>
        exact asks_bind (asks_request trivial) fun _ => asks_observeBackendIoError trivial k
    | unusableReply => exact asks_request trivial
    | connectFailed k =>
        refine asks_bind (asks_request trivial) fun _ =>
          asks_bind (asks_observeBackendIoError trivial k) fun _ => ?_
        cases source with
        | none => trivial
        | some source => exact asks_request trivial
  refine (wp_bind _).mpr (wp_noExit (noExit_reportOpenFailure source e) (wp_post
    (wp_aside hreport hg) (fun _ h₁ hg => ?_) fun _ _ => id))
  refine (wp_bind _).mpr (wp_post (wp_dropDataSlot hg fun _ => rfl) (fun _ h₂ hg => ?_)
    fun _ _ => id)
  cases e <;> exact hg

theorem wp_openBackend_ration {source : Option Ipv4Addr} {client : Arrival} {buf : Bytes}
    (hsource : source.isSome = rotate) (hg : Unladen source h) :
    wp env (RationStep rotate) (fun x => OpenedOnSlot source x.1) (fun _ => Unladen source)
      (openBackend cfg source client buf) h := by
  have hslot : wp env (RationStep rotate)
      (fun acquired h' => if acquired then rationAt h' = ⟨some source, source, none⟩
        else Unladen source h') (fun _ => Unladen source) (acquireDataSlot source) h := by
    cases source with
    | none => exact hg
    | some source =>
        intro a _
        refine ⟨⟨hsource.symm, hg⟩, ?_⟩
        rw [wp_ret, Unladen, rationAt_append_single, show rationAt h = _ from hg]
        cases a <;> rfl
  refine (wp_bind _).mpr (wp_post hslot (fun acquired h₁ hg => ?_) fun _ _ => id)
  cases acquired with
  | false => exact hg
  | true =>
      refine (wp_bind _).mpr (wp_noExit ((delivers_openBackendDataConnection _ _ _ _).noExit)
        (wp_post (wp_openBackendDataConnection_ration hsource hg) (fun x h₂ hx => ?_) fun _ _ => id))
      obtain ⟨r, buf'⟩ := x
      cases r with
      | ok u => exact hx.1 rfl
      | error e => exact wp_openFailed (hx.2 nofun)

theorem wp_openChannel_ration {source : Option Ipv4Addr} {port : UInt16} {buf : Bytes}
    (hsource : source.isSome = rotate) (hg : Unladen source h) :
    wp env (RationStep rotate) (fun x => OpenedOnSlot source x.1) (fun _ => Unladen source)
      (openChannel cfg source port buf) h := by
  refine wp_then_slotless (asks_awaitClientData (fun _ => trivial) trivial cfg port) hg rfl
    (fun client h₁ hg => ?_) fun _ _ => id
  cases client with
  | none => exact hg
  | some client => exact wp_openBackend_ration hsource hg

/-- Every way out of an upload gives the slot back. -/
theorem wp_stor_ration {source : Option Ipv4Addr} {line : Text} {port : UInt16} {s : SessState}
    (hsource : source.isSome = rotate) (hg : Unladen source h) :
    wp env (RationStep rotate) (fun _ => Unladen source) (fun _ => Unladen source)
      (stor cfg source line port s) h := by
  have hrelease : ∀ {h'}, Unladen source h' →
      wp env (RationStep rotate) (fun _ => Unladen source) (fun _ => Unladen source)
        (release port) h' :=
    fun hg => wp_slotless (asks_request trivial) hg rfl
  refine (wp_finally _).mpr (wp_post (Q := fun _ => Unladen source)
    (E := fun _ => Unladen source) ?_ (fun _ _ => hrelease) fun _ _ => hrelease)
  refine (wp_bind _).mpr (wp_post (wp_openChannel_ration hsource hg) (fun x h₁ hx => ?_) fun _ _ => id)
  obtain ⟨channel, buf⟩ := x
  have hlog : (log (.portReleased port)).Asks Req.Aside := asks_request trivial
  refine (wp_bind _).mpr (wp_noExit (noExit_request _) (wp_post (wp_aside hlog rfl)
    (fun _ h₂ hsame => ?_) fun _ _ => id))
  cases channel with
  | lost =>
      exact wp_then_slotless (asks_tellClient (fun _ => trivial) _) (hsame.trans hx) rfl
        (fun _ _ => id) fun _ _ => id
  | unavailable =>
      exact wp_then_slotless (asks_clientIo (fun _ => trivial) _) (hsame.trans hx) rfl
        (fun _ _ => id) fun _ _ => id
  | ready client =>
      have hdrop : ∀ {h'}, rationAt h' = ⟨some source, source, source⟩ →
          wp env (RationStep rotate) (fun _ => Unladen source) (fun _ => Unladen source)
            (dropDataSlot source) h' := fun hg => wp_dropDataSlot hg id
      refine (wp_bind _).mpr ((wp_finally _).mpr (wp_post
        (wp_onSlot (asks_upload (routine_onSlot cfg) (fun _ => trivial) (fun _ => trivial)
          (fun _ _ => trivial) line client buf) hsource (hsame.trans hx))
        (fun _ _ hg => ?_) fun _ _ => hdrop))
      exact hdrop hg

theorem Req.ReadsClient.slotless {r : Req} (hr : r.ReadsClient) : r.Slotless := by
  cases r with
  | connect | acquireSlot | releaseSlot | connectData | relay => exact hr.elim
  | _ => trivial

theorem wp_round_ration {source : Option Ipv4Addr} {s : SessState}
    (hsource : source.isSome = rotate) (hg : Unladen source h) :
    wp env (RationStep rotate) (fun _ => Unladen source) (fun _ => Unladen source)
      (round cfg source s) h :=
  wp_round_of (routine_slotless _) (fun _ => trivial) (fun _ => trivial)
    (fun _ => Req.ReadsClient.slotless) (fun hp hg => wp_slotless hp hg rfl)
    (wp_stor_ration hsource) hg

end Parts

/-! ## Whole sessions -/

theorem wp_handle_ration (env : Env Io) (cfg : SessionConfig) (n : Nat) :
    wp env (RationStep cfg.sourceRotator) (fun _ _ => False) (fun _ => Free) (handle cfg n)
      [] := by
  refine wp_handle_from
    (J := fun source _ h => source.isSome = cfg.sourceRotator ∧ Unladen source h)
    (E := fun _ => Free) trivial (wp_greet_ration (by rfl)) (fun source s h hJ => ?_)
    (fun _ h hfree => ⟨trivial, ?_⟩) n
  · exact wp_post (wp_round_ration hJ.1 hJ.2) (fun _ _ hg => ⟨hJ.1, hg⟩) fun _ _ => Unladen.free
  · rw [Free, rationAt_append_single]
    exact hfree

/-- **Every session keeps to its ration**: with source rotation its connections to the
backend go out from a source address, never from none, and it opens a data connection, and
relays, only on a slot of the address its backend connection goes out from; without rotation
there are no slots, and nothing goes out from an address of the list. It claims no second
slot, and has given the slot back whichever way it ends. -/
theorem session_rationed (w : World) (cfg : SessionConfig) (n : Nat) :
    Always (RationStep cfg.sourceRotator) (history w cfg n) ∧ ∀ e, (sessionRun w cfg n).1 = .exit e →
      (rationAt (history w cfg n)).slot = none ∧ (rationAt (history w cfg n)).conn = none := by
  obtain ⟨hall, -, hexit⟩ := run_of_wp (wp_handle_ration w.answer cfg n) (always_nil _)
  exact ⟨hall, hexit⟩

end FtpGateway
