import FtpGateway.Session.Dialogue
import FtpGateway.Session.Footprint

/-!
# The guards of a session

What a session holds on to is given back when a value goes out of scope: its
place among the running sessions, its PASV port, the record of the upload in
progress (`UploadAttempt`) and its place among the uploads that move bytes
(`UploadGuard`). `guardsAt h` is what is held after the exchanges `h`, and
`Guards.Allows` says which exchange is in order then: nothing is given back
twice, and nothing is left over when the session ends.

Every session keeps to it, along every way out of a scope (`session_guards`),
and so does the unwinding of a panic anywhere (`always_unwinding`).
-/

namespace FtpGateway

open Str Interact

/-! ## What is held -/

/-- The upload in progress: counted as started, and with its `STOR` written. -/
inductive UploadAttempt where
  | none
  | counted
  | sent
deriving Repr, DecidableEq

/-- `channel` says that both data connections are up, for the client's latest line. -/
structure Guards where
  session : Bool
  port : Option UInt16
  channel : Bool
  attempt : UploadAttempt
  upload : Bool
deriving Repr, DecidableEq

namespace Guards

def start : Guards := ⟨false, none, false, .none, false⟩

def count (g : Guards) : Metric → Guards
  | .sessionStarted => { g with session := true }
  | .sessionEnded => { g with session := false }
  | .uploadAttempted => { g with attempt := .counted }
  | .uploadSucceeded => { g with attempt := .none }
  | .uploadFailed => { g with attempt := .none }
  | .uploadStarted => { g with upload := true }
  | .uploadEnded => { g with upload := false }
  | _ => g

def after (g : Guards) : Event → Guards
  | ⟨.line .client _, _⟩ => { g with channel := false }
  | ⟨.connectData _ _, .ok ()⟩ => { g with channel := true }
  | ⟨.connectData _ _, .error _⟩ => { g with channel := false }
  | ⟨.write (.backend _) _, _⟩ =>
      if g.attempt = .counted then { g with attempt := .sent } else g
  | ⟨.allocate, a⟩ => { g with port := a }
  | ⟨.release _, _⟩ => { g with port := none }
  | ⟨.metric m, _⟩ => g.count m
  | _ => g

/-- Nothing but the session itself is held, and perhaps a port. -/
def Idle (g : Guards) : Prop := g.session = true ∧ g.attempt = .none ∧ g.upload = false

/-- The counters of guards, each in its place. -/
def Counts (g : Guards) : Metric → Prop
  | .sessionStarted => g = start
  | .sessionEnded => g.Idle ∧ g.port = none
  | .uploadAttempted => g.Idle ∧ g.channel = true
  | .uploadSucceeded => g.session = true ∧ g.attempt = .sent ∧ g.upload = true
  | .uploadFailed => g.session = true ∧ g.attempt ≠ .none ∧ g.upload = false
  | .uploadStarted => g.session = true ∧ g.attempt = .sent ∧ g.upload = false
  | .uploadEnded => g.session = true ∧ g.attempt ≠ .counted ∧ g.upload = true
  | _ => g.session = true ∧ g.attempt ≠ .counted

/-- What may happen next. -/
def Allows (g : Guards) : Event → Prop
  | ⟨.line .client _, _⟩ => g.Idle
  | ⟨.write (.backend _) b, _⟩ =>
      if isStorCommand b = true ∧ g.channel = true then
        g.session = true ∧ g.attempt = .counted ∧ g.upload = false
      else g.Idle
  | ⟨.allocate, _⟩ => g.Idle ∧ g.port = none
  | ⟨.release port, _⟩ => g.Idle ∧ g.port = some port
  | ⟨.awaitClientData port, _⟩ => g.Idle ∧ g.port = some port
  | ⟨.log (.portReleased port), _⟩ => g.Idle ∧ g.port = some port
  | ⟨.connectData _ _, _⟩ => g.Idle
  | ⟨.relay _ _, _⟩ => g.session = true ∧ g.attempt = .sent ∧ g.upload = true ∧ g.port ≠ none
  | ⟨.metric m, _⟩ => g.Counts m
  | _ => g.session = true ∧ g.attempt ≠ .counted

end Guards

def guardsAt (h : History Io) : Guards := h.foldl Guards.after Guards.start

/-- An exchange that is in order. -/
def GuardStep (h : History Io) (e : Event) : Prop := (guardsAt h).Allows e

@[simp] theorem guardsAt_append_single (h : History Io) (e : Event) :
    guardsAt (h ++ [e]) = (guardsAt h).after e := by
  rw [guardsAt, List.foldl_append]
  rfl

/-! ## Panics -/

/-- What is dropped while a panic unwinds a session that holds `g`, innermost
scope first (a data slot of the rotator is no guard here). -/
def Guards.unwinding (g : Guards) : History Io :=
  (if g.upload then [⟨.metric .uploadEnded, ()⟩] else []) ++
  (if g.attempt ≠ .none then [⟨.metric .uploadFailed, ()⟩] else []) ++
  (g.port.elim [] fun port => [⟨.release port, ()⟩]) ++
  (if g.session then [⟨.metric .sessionEnded, ()⟩] else [])

/-! ## The parts of a session -/

/-- Requests that have nothing to do with guards. -/
def Req.Unguarded : Req → Prop
  | .line .client _ => False
  | .write (.backend _) _ => False
  | .allocate => False
  | .release _ => False
  | .awaitClientData _ => False
  | .connectData _ _ => False
  | .relay _ _ => False
  | .log (.portReleased _) => False
  | .metric .sessionStarted => False
  | .metric .sessionEnded => False
  | .metric .uploadAttempted => False
  | .metric .uploadSucceeded => False
  | .metric .uploadFailed => False
  | .metric .uploadStarted => False
  | .metric .uploadEnded => False
  | _ => True

/-- Between uploads, with this port. -/
def Resting (port : Option UInt16) (h : History Io) : Prop :=
  ∃ ch, guardsAt h = ⟨true, port, ch, .none, false⟩

section Parts

variable {env : Env Io} {cfg : SessionConfig} {h : History Io} {g : Guards} {port : Option UInt16}

theorem Guards.unguarded {r : Req} (hr : r.Unguarded) (hs : g.session = true)
    (ha : g.attempt ≠ .counted) (a : r.Ans) : g.Allows ⟨r, a⟩ ∧ g.after ⟨r, a⟩ = g := by
  cases r with
  | line c x => cases c <;> first | exact hr.elim | exact ⟨⟨hs, ha⟩, rfl⟩
  | write c b => cases c <;> first | exact hr.elim | exact ⟨⟨hs, ha⟩, rfl⟩
  | log l => cases l <;> first | exact hr.elim | exact ⟨⟨hs, ha⟩, rfl⟩
  | metric m => cases m <;> first | exact hr.elim | exact ⟨⟨hs, ha⟩, rfl⟩
  | allocate | release | awaitClientData | connectData | relay => exact hr.elim
  | _ => exact ⟨⟨hs, ha⟩, rfl⟩

theorem wp_unguarded {α : Type} {p : Sess α} (hp : p.Asks Req.Unguarded) (hg : guardsAt h = g)
    (hs : g.session = true) (ha : g.attempt ≠ .counted) :
    wp env GuardStep (fun _ h' => guardsAt h' = g) (fun _ h' => guardsAt h' = g) p h := by
  refine wp_frame hp (fun h r a hr _ hg => ?_) hg
  obtain ⟨hallows, hafter⟩ := Guards.unguarded hr hs ha a
  rw [GuardStep, guardsAt_append_single, hg]
  exact ⟨hallows, hafter⟩

/-- The next step of a program, if it has nothing to do with guards. -/
theorem wp_then_unguarded {α β : Type} {p : Sess α} {f : α → Sess β} {Q : β → History Io → Prop}
    {E : Leave → History Io → Prop} (hp : p.Asks Req.Unguarded) (hg : guardsAt h = g)
    (hs : g.session = true) (ha : g.attempt ≠ .counted)
    (hf : ∀ a h', guardsAt h' = g → wp env GuardStep Q E (f a) h')
    (hE : ∀ e h', guardsAt h' = g → E e h') : wp env GuardStep Q E (p.bind f) h :=
  (wp_bind f).mpr (wp_post (wp_unguarded hp hg hs ha) hf hE)

/-- Counting something, in its place. -/
theorem wp_metric {m : Metric} {Q : Unit → History Io → Prop} {E : Leave → History Io → Prop}
    (hg : guardsAt h = g) (hm : g.Counts m)
    (hQ : guardsAt (h ++ [⟨.metric m, ()⟩]) = g.count m → Q () (h ++ [⟨.metric m, ()⟩])) :
    wp env GuardStep Q E (metric m) h := by
  intro u _
  refine ⟨?_, hQ ?_⟩
  · rw [GuardStep, hg]
    exact hm
  · rw [guardsAt_append_single, hg]
    rfl

theorem not_isStorCommand_of_mem {b : Bytes} (hb : b ∈ ownCommands) : isStorCommand b = false := by
  have hall : ∀ b ∈ ownCommands, isStorCommand b = false := by decide +kernel
  exact hall b hb

theorem Resting.backstage {r : Req} (hr : r.Backstage) (hrest : Resting port h) (a : r.Ans) :
    GuardStep h ⟨r, a⟩ ∧ Resting port (h ++ [⟨r, a⟩]) := by
  obtain ⟨ch, hg⟩ := hrest
  rw [GuardStep, Resting, guardsAt_append_single, hg]
  cases r with
  | connectData addr source => cases a <;> exact ⟨⟨rfl, rfl, rfl⟩, _, rfl⟩
  | write c b =>
      cases c with
      | client => exact hr.elim
      | backend tls =>
          refine ⟨?_, ch, rfl⟩
          simp only [Guards.Allows, not_isStorCommand_of_mem hr, Bool.false_eq_true, false_and,
            if_false]
          exact ⟨rfl, rfl, rfl⟩
  | read c => exact ⟨⟨rfl, by simp⟩, ch, rfl⟩
  | line c x => cases c <;> first | exact hr.elim | exact ⟨⟨rfl, by simp⟩, ch, rfl⟩
  | metric m => cases m <;> first | exact hr.elim | exact ⟨⟨rfl, by simp⟩, ch, rfl⟩
  | allocate | release | awaitClientData | relay | log => exact hr.elim
  | _ => exact ⟨⟨rfl, by simp⟩, ch, rfl⟩

/-- Requests that leave what is held alone between uploads. -/
def Req.Offhand (r : Req) : Prop := r.Backstage ∨ r.Unguarded

theorem Resting.offhand {r : Req} (hr : r.Offhand) (hrest : Resting port h) (a : r.Ans) :
    GuardStep h ⟨r, a⟩ ∧ Resting port (h ++ [⟨r, a⟩]) := by
  rcases hr with hr | hr
  · exact hrest.backstage hr a
  · obtain ⟨ch, hg⟩ := hrest
    obtain ⟨hallows, hafter⟩ := Guards.unguarded hr (g := ⟨true, port, ch, .none, false⟩) rfl
      (by simp) a
    rw [GuardStep, Resting, guardsAt_append_single, hg]
    exact ⟨hallows, ch, hafter⟩

theorem wp_resting {α : Type} {p : Sess α} (hp : p.Asks Req.Offhand) (hrest : Resting port h) :
    wp env GuardStep (fun _ => Resting port) (fun _ => Resting port) p h :=
  wp_frame hp (fun _ _ a hr _ hrest => hrest.offhand hr a) hrest

/-- The next step of a program, if it leaves what is held alone. -/
theorem wp_then_resting {α β : Type} {p : Sess α} {f : α → Sess β} {Q : β → History Io → Prop}
    {E : Leave → History Io → Prop} (hp : p.Asks Req.Offhand) (hrest : Resting port h)
    (hf : ∀ a h', Resting port h' → wp env GuardStep Q E (f a) h')
    (hE : ∀ e h', Resting port h' → E e h') : wp env GuardStep Q E (p.bind f) h :=
  (wp_bind f).mpr (wp_post (wp_resting hp hrest) hf hE)

theorem wp_then_request {β : Type} {r : Req} {f : r.Ans → Sess β} {Q : β → History Io → Prop}
    {E : Leave → History Io → Prop} (hr : r.Offhand) (hrest : Resting port h)
    (hf : ∀ a h', Resting port h' → wp env GuardStep Q E (f a) h') :
    wp env GuardStep Q E ((Prog.request (S := Io) r).bind f) h :=
  (wp_request_bind _ _).mpr fun a _ =>
    ⟨(hrest.offhand hr a).1, hf a _ (hrest.offhand hr a).2⟩

theorem asks_clientIo_offhand (b : Bytes) : (clientIo b).Asks Req.Offhand :=
  asks_clientIo (fun _ => .inr trivial) b

theorem asks_tellClient_offhand (b : Bytes) : (tellClient b).Asks Req.Offhand :=
  asks_tellClient (fun _ => .inr trivial) b

theorem asks_backendReply_unguarded (closed : Bytes) (leave : Leave) (buf : Bytes) :
    (backendReply cfg cfg.control closed leave buf).Asks Req.Unguarded :=
  asks_backendReply (fun _ => trivial) trivial (fun _ => trivial) trivial cfg closed leave buf

/-- Giving up a port. -/
theorem wp_release {p : UInt16} (hrest : Resting (some p) h) :
    wp env GuardStep (fun _ => Resting none) (fun _ => Resting none) (release p) h := by
  obtain ⟨ch, hg⟩ := hrest
  intro u _
  refine ⟨?_, ch, ?_⟩
  · rw [GuardStep, hg]
    exact ⟨⟨rfl, rfl, rfl⟩, rfl⟩
  · rw [guardsAt_append_single, hg]
    rfl

theorem wp_logReleased {p : UInt16} (hrest : Resting (some p) h) :
    wp env GuardStep (fun _ h' => guardsAt h' = guardsAt h) (fun _ => Resting none)
      (log (.portReleased p)) h := by
  obtain ⟨ch, hg⟩ := hrest
  intro u _
  refine ⟨?_, guardsAt_append_single h _⟩
  rw [GuardStep, hg]
  exact ⟨⟨rfl, rfl, rfl⟩, rfl⟩

theorem wp_dropActive {active : Option UInt16} {leave : Leave} (hrest : Resting active h) :
    wp env GuardStep (fun _ => Resting none) (fun _ => Resting none)
      (dropActive active leave) h := by
  cases active with
  | none => exact hrest
  | some p =>
      cases leave with
      | ret => exact wp_release hrest
      | brk =>
          refine (wp_bind _).mpr (wp_post (wp_logReleased hrest) (fun _ h' hsame => ?_) fun _ _ => id)
          obtain ⟨ch, hg⟩ := hrest
          exact wp_release ⟨ch, hsame.trans hg⟩

/-- The session's own guard is dropped on the way out. -/
theorem wp_dropping {α : Type} {p : Sess α} {Q : α → History Io → Prop}
    {active : Option UInt16} (hp : wp env GuardStep Q (fun _ => Resting active) p h) :
    wp env GuardStep Q (fun _ => Resting none) (p.onExit (dropActive active)) h :=
  (wp_onExit _).mpr (wp_post hp (fun _ _ => id) fun _ _ hrest => wp_dropActive hrest)

/-- After a line of the client's there are no data connections. -/
theorem wp_nextLine_guards {buf : Bytes} (hrest : Resting port h) :
    wp env GuardStep (fun _ h' => guardsAt h' = ⟨true, port, false, .none, false⟩)
      (fun _ => Resting port) (nextLine cfg buf) h := by
  have hline : wp env GuardStep (fun _ h' => guardsAt h' = ⟨true, port, false, .none, false⟩)
      (fun _ => Resting port) (readLineBounded .client cfg.maxBytes buf) h := by
    refine wp_then_resting (asks_takeReadLine (.inr trivial) _ _ _) hrest (fun x h₁ hrest => ?_)
      fun _ _ => id
    obtain ⟨ch, hg⟩ := hrest
    refine (wp_request_bind _ _).mpr fun u _ => ?_
    rw [GuardStep, hg]
    refine ⟨⟨rfl, rfl, rfl⟩, ?_⟩
    rw [Prog.pure_eq, wp_ret, guardsAt_append_single, hg]
    rfl
  refine (wp_bind _).mpr (wp_post hline (fun x h₁ hg => ?_) fun _ _ => id)
  have hrest : Resting port h₁ := ⟨false, hg⟩
  have htell : ∀ b {h₂}, Resting port h₂ → wp env GuardStep
      (fun _ h' => guardsAt h' = ⟨true, port, false, .none, false⟩) (fun _ => Resting port)
      ((tellClient b).bind fun _ => .exit .brk : Sess (Text × Bytes)) h₂ := fun b _ hrest =>
    wp_then_resting (asks_tellClient_offhand b) hrest (fun _ _ => id) fun _ _ => id
  obtain ⟨r, buf'⟩ := x
  cases r with
  | text t =>
      dsimp only
      split
      · exact hrest
      · exact hg
  | err k =>
      dsimp only
      split
      · exact htell _ hrest
      · exact hrest
  | elapsed => exact wp_then_request (.inr trivial) hrest fun _ _ => htell _

theorem wp_passive_guards {command : FtpCommand} {s : SessState}
    (hrest : Resting s.activePasv h) :
    wp env GuardStep (fun s' => Resting s'.activePasv) (fun _ => Resting none)
      (passive cfg command s) h := by
  have hreplace : wp env GuardStep (fun _ => Resting none) (fun _ => Resting none)
      (replacePort s.activePasv) h := by
    generalize s.activePasv = active at hrest
    cases active with
    | none => exact hrest
    | some old => exact wp_then_request (.inr trivial) hrest fun _ _ => wp_release
  refine (wp_bind _).mpr (wp_post hreplace (fun _ h₁ hrest => ?_) fun _ _ => id)
  obtain ⟨ch, hg⟩ := hrest
  refine (wp_request_bind _ _).mpr fun a _ => ?_
  have hrest : Resting a (h₁ ++ [⟨.allocate, a⟩]) :=
    ⟨ch, by rw [guardsAt_append_single, hg]; rfl⟩
  rw [GuardStep, hg]
  refine ⟨⟨⟨rfl, rfl, rfl⟩, rfl⟩, ?_⟩
  cases a with
  | none =>
      exact wp_then_resting (asks_clientIo_offhand _) hrest (fun _ _ => id) fun _ _ => id
  | some p =>
      refine wp_then_request (.inr trivial) hrest fun _ h₂ hrest => ?_
      refine (wp_bind _).mpr ((wp_onExit _).mpr ?_)
      exact wp_post (wp_resting (asks_clientIo_offhand _) hrest) (fun _ _ => id)
        fun _ _ => wp_release

/-- A command that is passed on with no data connections. -/
theorem wp_forward_guards {command : FtpCommand} {line : Text} {s : SessState}
    (hg : guardsAt h = ⟨true, s.activePasv, false, .none, false⟩) :
    wp env GuardStep (fun s' => Resting s'.activePasv) (fun _ => Resting s.activePasv)
      (forward cfg command line s) h := by
  refine (wp_request_bind _ _).mpr fun a _ => ?_
  have hrest : Resting s.activePasv (h ++ [⟨.write cfg.control (utf8 line), a⟩]) :=
    ⟨false, by rw [guardsAt_append_single, hg]; rfl⟩
  refine ⟨?_, ?_⟩
  · rw [GuardStep, hg]
    simp [Guards.Allows, SessionConfig.control, Guards.Idle]
  refine wp_then_resting (asks_backendIo (.inl trivial) a) hrest (fun _ h₁ hrest => ?_) fun _ _ => id
  refine wp_then_resting (asks_mono (fun _ => .inr) (asks_backendReply_unguarded _ _ _)) hrest
    (fun x h₂ hrest => ?_) fun _ _ => id
  refine wp_then_resting (asks_clientIo_offhand _) hrest (fun _ h₃ hrest => ?_) fun _ _ => id
  split
  · exact hrest
  · exact hrest

/-! ## Uploads -/

/-- Both data connections are up, and the port is held. -/
def Guards.ready (p : UInt16) : Guards := ⟨true, some p, true, .none, false⟩

theorem wp_openBackendDataConnection_guards {source : Option Ipv4Addr} {buf : Bytes} {p : UInt16}
    (hrest : Resting (some p) h) :
    wp env GuardStep (fun x h' => Resting (some p) h' ∧ (x.1 = .ok () → guardsAt h' = .ready p))
      (fun _ => Resting (some p)) (openBackendDataConnection cfg.control source cfg.limits buf)
      h := by
  refine wp_then_request (.inl trivial) hrest fun control h₁ hrest => ?_
  refine wp_then_resting (asks_mono (fun _ => .inl) (asks_passiveReply _ _ _ _)) hrest
    (fun x h₂ hrest => ?_) fun _ _ => id
  cases x with
  | error k => exact ⟨hrest, nofun⟩
  | ok x =>
      obtain ⟨answered, line, buf⟩ := x
      dsimp only
      split
      · exact ⟨hrest, nofun⟩
      · rename_i addr _
        refine (wp_request_bind _ _).mpr fun a _ =>
          ⟨(hrest.offhand (r := .connectData addr source) (.inl trivial) a).1, ?_⟩
        obtain ⟨ch, hg⟩ := hrest
        cases a with
        | ok u =>
            have hready : guardsAt (h₂ ++ [⟨.connectData addr source, .ok u⟩]) = .ready p := by
              rw [guardsAt_append_single, hg]
              rfl
            exact ⟨⟨true, hready⟩, fun _ => hready⟩
        | error k =>
            refine ⟨⟨false, ?_⟩, nofun⟩
            rw [guardsAt_append_single, hg]
            rfl

theorem wp_openChannel_guards {source : Option Ipv4Addr} {buf : Bytes} {p : UInt16}
    (hrest : Resting (some p) h) :
    wp env GuardStep
      (fun x h' => Resting (some p) h' ∧ ∀ client, x.1 = .ready client → guardsAt h' = .ready p)
      (fun _ => Resting (some p)) (openChannel cfg source p buf) h := by
  have hcount : ∀ rejected, (countRejected rejected).Asks Req.Offhand := by
    intro rejected
    induction rejected with
    | nil => trivial
    | cons _ rest ih => exact asks_bind (asks_request (.inr trivial)) fun _ => ih
  have hslot : (acquireDataSlot source).Asks Req.Offhand := by
    cases source with
    | none => trivial
    | some source => exact asks_request (.inl trivial)
  have hawait : wp env GuardStep (fun _ => Resting (some p)) (fun _ => Resting (some p))
      (awaitClientData cfg p) h := by
    obtain ⟨ch, hg⟩ := hrest
    refine (wp_request_bind _ _).mpr fun run _ => ⟨?_, ?_⟩
    · rw [GuardStep, hg]
      exact ⟨⟨rfl, rfl, rfl⟩, rfl⟩
    · have hrest : Resting (some p) (h ++ [⟨.awaitClientData p, run⟩]) :=
        ⟨ch, by rw [guardsAt_append_single, hg]; rfl⟩
      refine wp_then_resting (hcount _) hrest (fun _ h₁ hrest => ?_) fun _ _ => id
      split
      all_goals first | exact hrest | trivial
  refine (wp_bind _).mpr (wp_post hawait (fun client h₁ hrest => ?_) fun _ _ => id)
  cases client with
  | none => exact ⟨hrest, nofun⟩
  | some client =>
      refine wp_then_resting hslot hrest (fun acquired h₂ hrest => ?_) fun _ _ => id
      split
      · refine (wp_bind _).mpr (wp_post (wp_openBackendDataConnection_guards hrest)
          (fun x h₃ hx => ?_) fun _ _ => id)
        obtain ⟨r, buf'⟩ := x
        obtain ⟨hrest, hready⟩ := hx
        cases r with
        | ok u => exact ⟨hrest, fun _ _ => hready rfl⟩
        | error e =>
            refine wp_then_resting (asks_mono (fun _ => .inl) (asks_reportOpenFailure source e))
              hrest (fun _ h₄ hrest => ?_) fun _ _ => id
            refine wp_then_resting (asks_dropDataSlot (.inl trivial) source) hrest
              (fun _ h₅ hrest => ?_) fun _ _ => id
            cases e <;> exact ⟨hrest, nofun⟩
      · exact ⟨hrest, nofun⟩

/-- The `STOR` has been written; `moving` while bytes may be. -/
def Guards.sent (p : UInt16) (moving : Bool) : Guards := ⟨true, some p, true, .sent, moving⟩

/-- An upload that has failed is counted, and what it held given back. -/
theorem wp_uploadFailed {p : UInt16} {E : Leave → History Io → Prop}
    (hg : guardsAt h = .sent p false) :
    wp env GuardStep (fun _ => Resting (some p)) E (metric .uploadFailed) h :=
  wp_metric hg ⟨rfl, by simp [Guards.sent], rfl⟩ fun hafter => ⟨true, hafter⟩

theorem wp_dropUpload {p : UInt16} {E : Leave → History Io → Prop}
    (hg : guardsAt h = .sent p true) :
    wp env GuardStep (fun _ => Resting (some p)) E (dropUpload false) h :=
  (wp_bind _).mpr (wp_metric hg ⟨rfl, by simp [Guards.sent], rfl⟩ fun hg => wp_uploadFailed hg)

theorem wp_storReply_guards {line : Text} {buf : Bytes} {p : UInt16} (hstor : isStor line = true)
    (hg : guardsAt h = ⟨true, some p, true, .counted, false⟩) :
    wp env GuardStep (fun _ h' => guardsAt h' = .sent p false)
      (fun _ h' => guardsAt h' = .sent p false) (storReply cfg line buf) h := by
  refine (wp_request_bind _ _).mpr fun a _ => ?_
  have hsent : guardsAt (h ++ [⟨.write cfg.control (utf8 line), a⟩]) = .sent p false := by
    rw [guardsAt_append_single, hg]
    rfl
  refine ⟨?_, ?_⟩
  · rw [GuardStep, hg]
    simp [Guards.Allows, SessionConfig.control, hstor]
  have hlive : (Guards.sent p false).attempt ≠ .counted := by simp [Guards.sent]
  refine wp_then_unguarded (asks_backendIo trivial a) hsent rfl hlive (fun _ h₁ hg => ?_)
    fun _ _ => id
  refine wp_then_unguarded (asks_backendReply_unguarded _ _ _) hg rfl hlive (fun x h₂ hg => ?_)
    fun _ _ => id
  exact wp_then_unguarded (asks_clientIo (fun _ => trivial) _) hg rfl hlive (fun _ _ => id)
    fun _ _ => id

theorem wp_transfer_guards {client : Arrival} {buf : Bytes} {p : UInt16}
    (hg : guardsAt h = .sent p false) :
    wp env GuardStep (fun _ h' => guardsAt h' = .sent p true)
      (fun _ h' => guardsAt h' = .sent p true) (transfer cfg client buf) h := by
  have hlive : ∀ moving, (Guards.sent p moving).attempt ≠ .counted := by simp [Guards.sent]
  have hsecure : (secureData cfg).Asks Req.Unguarded ∧ (secureData cfg).NoExit := by
    unfold secureData
    split
    · refine ⟨asks_bind (asks_request trivial) fun a => ?_, noExit_bind (noExit_request _) fun a => ?_⟩
      · cases a with
        | ok u => trivial
        | error k =>
            refine asks_bind (asks_request trivial) fun _ => ?_
            exact asks_bind (asks_observeBackendIoError trivial k) fun _ => trivial
      · cases a with
        | ok u => trivial
        | error k =>
            refine noExit_bind (noExit_request _) fun _ => ?_
            refine noExit_bind ?_ fun _ => trivial
            unfold observeBackendIoError
            split
            · exact noExit_request _
            · trivial
    · exact ⟨trivial, trivial⟩
  refine (wp_bind _).mpr (wp_noExit hsecure.2 (wp_post (wp_unguarded hsecure.1 hg rfl (hlive _))
    (fun secured h₁ hg => ?_) fun _ _ => id))
  refine (wp_bind _).mpr (wp_metric hg ⟨rfl, rfl, rfl⟩ fun hg => ?_)
  replace hg : guardsAt (h₁ ++ [⟨.metric .uploadStarted, ()⟩]) = .sent p true := hg
  have hrelay : wp env GuardStep (fun _ h' => guardsAt h' = .sent p true)
      (fun _ h' => guardsAt h' = .sent p true) (relayIf secured cfg client)
      (h₁ ++ [⟨.metric .uploadStarted, ()⟩]) := by
    unfold relayIf
    split
    · refine (wp_request_bind _ _).mpr fun run _ => ⟨?_, ?_⟩
      · rw [GuardStep, hg]
        exact ⟨rfl, rfl, rfl, by simp [Guards.sent]⟩
      · have hsame : guardsAt (h₁ ++ [⟨.metric .uploadStarted, ()⟩] ++
            [⟨.relay client cfg.backendTls, run⟩]) = .sent p true := by
          rw [guardsAt_append_single, hg]
          rfl
        split
        · exact wp_unguarded (asks_request trivial) hsame rfl (hlive _)
        · exact hsame
        · trivial
    · exact hg
  refine (wp_bind _).mpr (wp_post hrelay (fun _ h₂ hg => ?_) fun _ _ => id)
  exact wp_unguarded (asks_backendReply_unguarded _ _ _) hg rfl (hlive _)

theorem wp_finish_guards {completion : Text} {p : UInt16} (hg : guardsAt h = .sent p true) :
    wp env GuardStep (fun _ => Resting (some p)) (fun _ => Resting (some p))
      (finish completion) h := by
  have hany : ∀ succeeded : Bool, wp env GuardStep (fun _ => Resting (some p))
      (fun _ => Resting (some p)) ((countSucceeded succeeded).bind fun _ =>
        (clientIo (utf8 completion)).finally_ (dropUpload succeeded)) h := by
    intro succeeded
    have htell := asks_clientIo (R := Req.Unguarded) (fun _ => trivial) (utf8 completion)
    cases succeeded with
    | true =>
        have hended : ∀ {h'}, guardsAt h' = (Guards.sent p true).count .uploadSucceeded →
            wp env GuardStep (fun _ => Resting (some p)) (fun _ => Resting (some p))
              (dropUpload true) h' := by
          intro h' hg
          refine (wp_bind _).mpr (wp_metric (m := .uploadEnded) hg
            ⟨rfl, by simp [Guards.count], rfl⟩ fun hafter => ?_)
          exact ⟨true, hafter⟩
        refine (wp_bind _).mpr (wp_metric (m := .uploadSucceeded) hg ⟨rfl, rfl, rfl⟩ fun hg => ?_)
        exact (wp_finally _).mpr (wp_post (wp_unguarded htell hg rfl (by simp [Guards.count]))
          (fun _ _ hg => hended hg) fun _ _ hg => hended hg)
    | false =>
        refine (wp_finally _).mpr (wp_post (wp_unguarded htell hg rfl (by simp [Guards.sent]))
          (fun _ _ hg => wp_dropUpload hg) fun _ _ hg => wp_dropUpload hg)
  exact hany _

theorem wp_upload_guards {line : Text} {client : Arrival} {buf : Bytes} {p : UInt16}
    (hstor : isStor line = true) (hg : guardsAt h = .ready p) :
    wp env GuardStep (fun _ => Resting (some p)) (fun _ => Resting (some p))
      (upload cfg line client buf) h := by
  refine (wp_bind _).mpr (wp_metric hg ⟨⟨rfl, rfl, rfl⟩, rfl⟩ fun hg => ?_)
  refine (wp_bind _).mpr ((wp_onExit _).mpr (wp_post (wp_storReply_guards hstor hg)
    (fun x h₁ hg => ?_) fun _ _ hg => wp_uploadFailed hg))
  dsimp only
  split
  · exact (wp_bind _).mpr (wp_uploadFailed hg)
  · refine (wp_bind _).mpr ((wp_onExit _).mpr (wp_post (wp_transfer_guards hg)
      (fun y h₂ hg => ?_) fun _ _ hg => wp_dropUpload hg))
    exact (wp_bind _).mpr (wp_finish_guards hg)

/-! ## Whole sessions -/

theorem wp_stor_guards {source : Option Ipv4Addr} {line : Text} {p : UInt16} {s : SessState}
    (hstor : isStor line = true) (hrest : Resting (some p) h) :
    wp env GuardStep (fun s' => Resting s'.activePasv) (fun _ => Resting none)
      (stor cfg source line p s) h := by
  refine (wp_finally _).mpr ?_
  refine wp_post (Q := fun s' h' => s'.activePasv = none ∧ Resting (some p) h')
    (E := fun _ => Resting (some p)) ?_ ?_ fun _ _ hrest => wp_release hrest
  · refine (wp_bind _).mpr (wp_post (wp_openChannel_guards hrest) (fun x h₁ hx => ?_) fun _ _ => id)
    obtain ⟨channel, buf⟩ := x
    obtain ⟨hrest, hready⟩ := hx
    refine (wp_bind _).mpr (wp_noExit (noExit_request _) (wp_post (wp_logReleased hrest)
      (fun _ h₂ hsame => ?_) fun _ _ => id))
    have hrest : Resting (some p) h₂ := by
      obtain ⟨ch, hg⟩ := hrest
      exact ⟨ch, hsame.trans hg⟩
    cases channel with
    | lost =>
        exact wp_then_resting (asks_tellClient_offhand _) hrest (fun _ _ => id) fun _ _ => id
    | unavailable =>
        exact wp_then_resting (asks_clientIo_offhand _) hrest (fun _ _ hrest => ⟨rfl, hrest⟩)
          fun _ _ => id
    | ready client =>
        have hdrop : ∀ {h'}, Resting (some p) h' → wp env GuardStep (fun _ => Resting (some p))
            (fun _ => Resting (some p)) (dropDataSlot source) h' :=
          wp_resting (asks_dropDataSlot (.inl trivial) source)
        refine (wp_bind _).mpr ((wp_finally _).mpr (wp_post
          (wp_upload_guards hstor (hsame.trans (hready client rfl)))
          (fun buf h₃ hrest => ?_) fun _ _ hrest => hdrop hrest))
        exact wp_post (hdrop hrest) (fun _ _ hrest => ⟨rfl, hrest⟩) fun _ _ => id
  · rintro s' h' ⟨hnone, hrest⟩
    rw [hnone]
    exact wp_release hrest

theorem wp_serve_guards {source : Option Ipv4Addr} {line : Text} {s : SessState}
    (hg : guardsAt h = ⟨true, s.activePasv, false, .none, false⟩) :
    wp env GuardStep (fun s' => Resting s'.activePasv) (fun _ => Resting none)
      (serve cfg source line s) h := by
  have hrefuse : ∀ b {h'}, Resting s.activePasv h' →
      wp env GuardStep (fun s' => Resting s'.activePasv) (fun _ => Resting none)
        ((do clientIo b; pure s : Sess SessState).onExit (dropActive s.activePasv)) h' :=
    fun b _ hrest => wp_dropping (wp_then_resting (asks_clientIo_offhand b) hrest
      (fun _ _ => id) fun _ _ => id)
  unfold serve
  dsimp only
  split
  · exact wp_then_request (.inr trivial) ⟨false, hg⟩ fun _ _ => hrefuse _
  · refine (wp_request_bind _ _).mpr fun u _ => ⟨?_, ?_⟩
    · rw [GuardStep, hg]
      exact ⟨rfl, by simp⟩
    generalize hh₁ : h ++ [_] = h₁
    have hg : guardsAt h₁ = ⟨true, s.activePasv, false, .none, false⟩ := by
      rw [← hh₁, guardsAt_append_single, hg]
      rfl
    split
    · exact wp_then_request (.inr trivial) ⟨false, hg⟩ fun _ _ => hrefuse _
    · split
      · exact wp_passive_guards ⟨false, hg⟩
      · split
        · rename_i path port hcommand hactive
          refine wp_stor_guards ?_ ⟨false, hactive ▸ hg⟩
          simp [isStor, hcommand]
        · exact wp_dropping (wp_forward_guards hg)

theorem wp_round_guards {source : Option Ipv4Addr} {s : SessState}
    (hrest : Resting s.activePasv h) :
    wp env GuardStep (fun s' => Resting s'.activePasv) (fun _ => Resting none)
      (round cfg source s) h := by
  refine (wp_bind _).mpr (wp_post (wp_dropping (wp_nextLine_guards hrest)) (fun x h₁ hg => ?_)
    fun _ _ => id)
  exact wp_serve_guards (s := { s with clientBuf := x.2 }) hg

end Parts

/-- **Every session keeps its guards in order**, and has given everything back
when it is over. -/
theorem session_guards (w : World) (cfg : SessionConfig) (n : Nat) :
    Always GuardStep (history w cfg n) ∧ ∀ e, (sessionRun w cfg n).1 = .exit e →
      ∃ ch, guardsAt (history w cfg n) = ⟨false, none, ch, .none, false⟩ := by
  have hgreet : wp w.answer GuardStep (fun _ => Resting none) (fun _ => Resting none) (greet cfg)
      [⟨.metric .sessionStarted, ()⟩] :=
    wp_resting (asks_greet (fun _ => .inl) (fun _ => .inr trivial) cfg) ⟨false, rfl⟩
  have hended : ∀ (e : Leave) h, Resting none h → GuardStep h ⟨.metric .sessionEnded, ()⟩ ∧
      ∃ ch, guardsAt (h ++ [⟨.metric .sessionEnded, ()⟩]) = ⟨false, none, ch, .none, false⟩ := by
    rintro _ h ⟨ch, hg⟩
    rw [GuardStep, guardsAt_append_single, hg]
    exact ⟨⟨⟨rfl, rfl, rfl⟩, rfl⟩, ch, rfl⟩
  have hwp : wp w.answer GuardStep (fun _ _ => False)
      (fun _ h => ∃ ch, guardsAt h = ⟨false, none, ch, .none, false⟩) (handle cfg n) [] :=
    wp_handle rfl hgreet (fun _ _ _ hrest => wp_round_guards hrest) hended n
  obtain ⟨hall, -, hexit⟩ := run_of_wp hwp (always_nil _)
  exact ⟨hall, hexit⟩

/-! ## Panics unwind in order -/

/-- What holds of the guards at any time: nothing outlives the session, and the
second of an upload's guards is only there once the `STOR` is sent. -/
structure Guards.Sound (g : Guards) : Prop where
  closed : g.session = false → g.port = none ∧ g.attempt = .none ∧ g.upload = false
  sent : g.upload = true → g.attempt ≠ .counted

theorem Guards.Sound.of_idle {g : Guards} (hidle : g.Idle) : g.Sound where
  closed hs := by rw [hidle.1] at hs; cases hs
  sent hu := by rw [hidle.2.2] at hu; cases hu

theorem Guards.Sound.count {g : Guards} {m : Metric} (hg : g.Sound) (hm : g.Counts m) :
    (g.count m).Sound := by
  cases m with
  | sessionStarted => exact ⟨nofun, hg.sent⟩
  | sessionEnded => exact ⟨fun _ => ⟨hm.2, hm.1.2⟩, hg.sent⟩
  | uploadAttempted => exact ⟨fun hs => absurd hs (by simp [Guards.count, hm.1.1]),
      fun hu => absurd hu (by simp [Guards.count, hm.1.2.2])⟩
  | uploadSucceeded => exact ⟨fun hs => ⟨(hg.closed hs).1, rfl, (hg.closed hs).2.2⟩, nofun⟩
  | uploadFailed => exact ⟨fun hs => ⟨(hg.closed hs).1, rfl, (hg.closed hs).2.2⟩, nofun⟩
  | uploadStarted => exact ⟨fun hs => absurd hs (by simp [Guards.count, hm.1]),
      fun _ => by simp [Guards.count, hm.2.1]⟩
  | uploadEnded => exact ⟨fun hs => ⟨(hg.closed hs).1, (hg.closed hs).2.1, rfl⟩, nofun⟩
  | _ => exact hg

theorem Guards.Sound.after {g : Guards} {e : Event} (hg : g.Sound) (he : g.Allows e) :
    (g.after e).Sound := by
  obtain ⟨r, a⟩ := e
  cases r with
  | line c x =>
      cases c with
      | client => exact .of_idle he
      | backend tls => exact hg
  | connectData addr source => cases a <;> exact .of_idle he
  | write c b =>
      cases c with
      | client => exact hg
      | backend tls =>
          simp only [Guards.after]
          split
          case isTrue ha =>
            refine ⟨fun hs => ?_, fun _ => nofun⟩
            rw [(hg.closed hs).2.1] at ha
            cases ha
          case isFalse => exact hg
  | allocate => exact .of_idle he.1
  | release p => exact .of_idle he.1
  | metric m => exact hg.count he
  | _ => exact hg

theorem sound_guardsAt {h : History Io} (hall : Always GuardStep h) : (guardsAt h).Sound := by
  induction h using List.reverseRecOn with
  | nil => exact ⟨fun _ => ⟨rfl, rfl, rfl⟩, nofun⟩
  | append_singleton h e ih =>
      obtain ⟨hall, hstep⟩ := always_append_single.mp hall
      rw [guardsAt_append_single]
      exact (ih hall).after hstep

theorem always_drop {h : History Io} {g : Guards} {e : Event} (hall : Always GuardStep h)
    (hg : guardsAt h = g) (he : g.Allows e) :
    Always GuardStep (h ++ [e]) ∧ guardsAt (h ++ [e]) = g.after e := by
  rw [always_append_single, guardsAt_append_single, GuardStep, hg]
  exact ⟨⟨hall, he⟩, rfl⟩

/-- **A panic gives everything back**, in order, wherever it happens. -/
theorem always_unwinding {h : History Io} (hall : Always GuardStep h) :
    Always GuardStep (h ++ (guardsAt h).unwinding) ∧
      ∃ ch, guardsAt (h ++ (guardsAt h).unwinding) = ⟨false, none, ch, .none, false⟩ := by
  have hsound := sound_guardsAt hall
  generalize hg : guardsAt h = g at hsound ⊢
  obtain ⟨session, port, ch, attempt, upload⟩ := g
  cases session with
  | false =>
      obtain ⟨rfl, rfl, rfl⟩ := hsound.closed rfl
      rw [show Guards.unwinding ⟨false, none, ch, .none, false⟩ = [] from rfl, List.append_nil]
      exact ⟨hall, ch, hg⟩
  | true =>
      simp only [Guards.unwinding, ← List.append_assoc]
      generalize hh₁ : h ++ (if upload = true then _ else _) = h₁
      have hupload : Always GuardStep h₁ ∧ guardsAt h₁ = ⟨true, port, ch, attempt, false⟩ := by
        subst hh₁
        cases upload with
        | false => simpa using ⟨hall, hg⟩
        | true => exact always_drop hall hg ⟨rfl, hsound.sent rfl, rfl⟩
      generalize hh₂ : h₁ ++ (if attempt ≠ .none then _ else _) = h₂
      have hattempt : Always GuardStep h₂ ∧ guardsAt h₂ = ⟨true, port, ch, .none, false⟩ := by
        subst hh₂
        by_cases hlive : attempt = .none
        · simpa [hlive] using hupload
        · rw [if_pos hlive]
          exact always_drop hupload.1 hupload.2 ⟨rfl, hlive, rfl⟩
      generalize hh₃ : h₂ ++ port.elim [] _ = h₃
      have hport : Always GuardStep h₃ ∧ guardsAt h₃ = ⟨true, none, ch, .none, false⟩ := by
        subst hh₃
        cases port with
        | none => simpa using hattempt
        | some p => exact always_drop hattempt.1 hattempt.2 ⟨⟨rfl, rfl, rfl⟩, rfl⟩
      obtain ⟨hall, hg⟩ := always_drop (e := ⟨.metric .sessionEnded, ()⟩) hport.1 hport.2
        ⟨⟨rfl, rfl, rfl⟩, rfl⟩
      exact ⟨hall, ch, hg⟩

theorem port_guardsAt (h : History Io) : (guardsAt h).port = heldPort h := by
  induction h using List.reverseRecOn with
  | nil => rfl
  | append_singleton h e ih =>
      rw [guardsAt_append_single, heldPort_append_single, ← ih]
      obtain ⟨r, a⟩ := e
      cases r with
      | line c x => cases c <;> rfl
      | connectData addr source => cases a <;> rfl
      | write c b =>
          cases c with
          | client => rfl
          | backend tls =>
              simp only [Guards.after]
              split <;> rfl
      | metric m => cases m <;> rfl
      | _ => rfl

end FtpGateway
