import FtpGateway.Session.Slots

/-!
# Which failures the rotator hears of

With source rotation a session asks once for the source addresses it may use and tries
them in order. `routeAt h` is what it has been offered, has tried and has seen fail after
the exchanges `h`, and what it has reported to the rotator. A session reports each failed
connection from a source, the control connection and the data connections alike, with its
source and its error, before it does anything else; it reports nothing else; and it gives
up only if every source it was offered has failed (`failures_reported`).
-/

namespace FtpGateway

open Str Interact

/-! ## Failures and reports -/

/-- `up` is about the control connection; `failures` are those of connections that go out
from a source address. -/
structure Route where
  offers : List (List Ipv4Addr)
  tried : List Ipv4Addr
  up : Bool
  failures : List (Ipv4Addr × IoKind)
  reports : List (Ipv4Addr × IoKind)
deriving Repr, DecidableEq

namespace Route

def start : Route := ⟨[], [], false, [], []⟩

/-- The failure of a connection, if it went out from a source address. -/
def failed : Option Ipv4Addr → Except IoKind Unit → List (Ipv4Addr × IoKind)
  | some source, .error k => [(source, k)]
  | _, _ => []

def after (g : Route) : Event → Route
  | ⟨.candidates, sources⟩ => { g with offers := g.offers ++ [sources] }
  | ⟨.connect source, r⟩ =>
      { g with
        tried := g.tried ++ source.toList
        up := r.toBool
        failures := g.failures ++ failed source r }
  | ⟨.connectData _ source, r⟩ => { g with failures := g.failures ++ failed source r }
  | ⟨.reportConnectFailure source k, _⟩ => { g with reports := g.reports ++ [(source, k)] }
  | _ => g

/-- Every failure has been reported. -/
def Settled (g : Route) : Prop := g.failures = g.reports

/-- The sources tried have all failed, and `rest` of what was offered is left. -/
def Searching (rest : List Ipv4Addr) (g : Route) : Prop :=
  g.Settled ∧ g.up = false ∧ g.failures.map Prod.fst = g.tried ∧ g.offers = [g.tried ++ rest]

/-- What may happen, with source rotation or without. -/
def Allows (rotate : Bool) (g : Route) : Event → Prop
  | ⟨.candidates, _⟩ => rotate = true ∧ g = start
  | ⟨.connect none, _⟩ => rotate = false ∧ g = start
  | ⟨.connect (some source), _⟩ => rotate = true ∧ ∃ rest, g.Searching (source :: rest)
  | ⟨.connectData _ source, _⟩ => source.isSome = rotate ∧ g.up = true ∧ g.Settled
  | ⟨.reportConnectFailure source k, _⟩ => g.failures = g.reports ++ [(source, k)]
  | ⟨.metric _, _⟩ => True
  | _ => g.Settled

end Route

def routeAt (h : History Io) : Route := h.foldl Route.after Route.start

def ReportStep (rotate : Bool) (h : History Io) (e : Event) : Prop :=
  (routeAt h).Allows rotate e

@[simp] theorem routeAt_append_single (h : History Io) (e : Event) :
    routeAt (h ++ [e]) = (routeAt h).after e := by
  rw [routeAt, List.foldl_append]
  rfl

/-! ## Requests that have nothing to do with sources -/

def Req.Apart : Req → Prop
  | .candidates => False
  | .connect _ => False
  | .connectData _ _ => False
  | .reportConnectFailure _ _ => False
  | _ => True

def Req.Counts : Req → Prop
  | .metric _ => True
  | _ => False

section Frames

variable {env : Env Io} {rotate : Bool} {h : History Io} {g : Route} {α β : Type}

theorem Route.apart {r : Req} (hr : r.Apart) (hg : g.Settled) (a : r.Ans) :
    g.Allows rotate ⟨r, a⟩ ∧ g.after ⟨r, a⟩ = g := by
  cases r with
  | candidates | connect | connectData | reportConnectFailure => exact hr.elim
  | metric m => exact ⟨trivial, rfl⟩
  | _ => exact ⟨hg, rfl⟩

theorem Route.counts {r : Req} (hr : r.Counts) (a : r.Ans) :
    g.Allows rotate ⟨r, a⟩ ∧ g.after ⟨r, a⟩ = g := by
  cases r with
  | metric m => exact ⟨trivial, rfl⟩
  | _ => exact hr.elim

theorem wp_apart {p : Sess α} (hp : p.Asks Req.Apart) (hg : routeAt h = g) (hs : g.Settled) :
    wp env (ReportStep rotate) (fun _ h' => routeAt h' = g) (fun _ h' => routeAt h' = g) p h := by
  refine wp_frame hp (fun h r a hr _ hg => ?_) hg
  rw [ReportStep, routeAt_append_single, hg]
  exact Route.apart hr hs a

theorem wp_counts {p : Sess α} (hp : p.Asks Req.Counts) (hg : routeAt h = g) :
    wp env (ReportStep rotate) (fun _ h' => routeAt h' = g) (fun _ h' => routeAt h' = g) p h := by
  refine wp_frame hp (fun h r a hr _ hg => ?_) hg
  rw [ReportStep, routeAt_append_single, hg]
  exact Route.counts hr a

end Frames

theorem talks_apart : Talks Req.Apart where
  read _ := trivial
  line _ _ := trivial
  write _ _ := trivial

theorem routine_apart (c : Conn) : Routine c Req.Apart where
  tell _ := trivial
  read := trivial
  line _ := trivial
  timedOut := trivial
  connectionFailed := trivial
  log _ _ := trivial
  allocate := trivial
  release _ := trivial
  startDataTls := trivial

theorem Req.ReadsClient.apart {r : Req} (hr : r.ReadsClient) : r.Apart := by
  cases r with
  | candidates | connect | connectData | reportConnectFailure => exact hr.elim
  | _ => trivial

/-! ## Finding a source -/

/-- The session has its backend connection, and owes no report. -/
def Underway (h : History Io) : Prop := (routeAt h).up = true ∧ (routeAt h).Settled

/-- What a session that is over leaves behind. -/
def Accounted (rotate : Bool) (h : History Io) : Prop :=
  (routeAt h).Settled ∧ ((routeAt h).up = false →
    (routeAt h).offers = (if rotate then [(routeAt h).tried] else []) ∧
      (routeAt h).failures.map Prod.fst = (routeAt h).tried)

theorem Underway.accounted {rotate : Bool} {h : History Io} (hg : Underway h) :
    Accounted rotate h :=
  ⟨hg.2, fun hdown => by rw [hg.1] at hdown; cases hdown⟩

section Parts

variable {env : Env Io} {rotate : Bool} {cfg : SessionConfig} {h : History Io}

/-- Requests apart from the sources keep what depends on the route alone. -/
theorem wp_keeps {α : Type} {p : Sess α} {P : Route → Prop} (hp : p.Asks Req.Apart)
    (hs : (routeAt h).Settled) (hP : P (routeAt h)) :
    wp env (ReportStep rotate) (fun _ h' => P (routeAt h')) (fun _ h' => P (routeAt h')) p h :=
  wp_post (wp_apart hp rfl hs) (fun _ _ heq => heq ▸ hP) fun _ _ heq => heq ▸ hP

theorem wp_underway {α : Type} {p : Sess α} (hp : p.Asks Req.Apart) (hg : Underway h) :
    wp env (ReportStep rotate) (fun _ => Underway) (fun _ => Underway) p h :=
  wp_keeps (P := fun g => g.up = true ∧ g.Settled) hp hg.2 hg

/-- What connecting to the backend comes to. -/
def Found (rotate : Bool) (x : Option (Option Ipv4Addr)) (h : History Io) : Prop :=
  (x = none → Accounted rotate h) ∧
    ∀ source, x = some source → source.isSome = rotate ∧ Underway h

theorem found_none (hg : Accounted rotate h) : Found rotate none h := ⟨fun _ => hg, nofun⟩

theorem found_some {source : Option Ipv4Addr} (hsource : source.isSome = rotate)
    (hg : Underway h) : Found rotate (some source) h :=
  ⟨nofun, fun _ heq => Option.some.inj heq ▸ ⟨hsource, hg⟩⟩

theorem wp_observe_route {g : Route} (k : IoKind) (hg : routeAt h = g) {β : Type}
    {f : Unit → Sess β} {Q : β → History Io → Prop} {E : Leave → History Io → Prop}
    (hf : ∀ h', routeAt h' = g → wp env (ReportStep rotate) Q E (f ()) h') :
    wp env (ReportStep rotate) Q E ((observeBackendIoError k).bind f) h :=
  (wp_bind _).mpr (wp_noExit (noExit_observeBackendIoError k)
    (wp_post (wp_counts (asks_observeBackendIoError trivial k) hg) (fun _ => hf) fun _ _ => id))

/-- Induction on the sources left: each failure is reported before the next is tried. -/
theorem wp_connectFrom_route (candidates : List Ipv4Addr)
    (hg : (routeAt h).Searching candidates) :
    wp env (ReportStep true) (Found true) (fun _ => Accounted true) (connectFrom candidates) h := by
  induction candidates generalizing h with
  | nil =>
      obtain ⟨hsettled, -, hfailed, hoffers⟩ := hg
      refine found_none ⟨hsettled, fun _ => ⟨?_, hfailed⟩⟩
      rw [hoffers, List.append_nil]
      rfl
  | cons source rest ih =>
      refine (wp_request_bind _ _).mpr fun a _ => ⟨⟨rfl, rest, hg⟩, ?_⟩
      obtain ⟨hsettled, hdown, hfailed, hoffers⟩ := hg
      cases a with
      | ok u =>
          refine found_some rfl ?_
          rw [Underway, routeAt_append_single]
          exact ⟨rfl, (List.append_nil _).trans hsettled⟩
      | error k =>
          refine wp_observe_route k (routeAt_append_single _ _) fun h₁ hg => ?_
          refine (wp_request_bind _ _).mpr fun u _ => ⟨?_, ih ?_⟩
          · rw [ReportStep, hg]
            exact congrArg (· ++ [(source, k)]) hsettled
          · rw [routeAt_append_single, hg]
            refine ⟨congrArg (· ++ [(source, k)]) hsettled, rfl, ?_, ?_⟩
            · exact (List.map_append ..).trans (congrArg (· ++ [source]) hfailed)
            · exact hoffers.trans (by simp [Route.after])

theorem wp_connectBackend_route (rotate : Bool) (hg : routeAt h = .start) :
    wp env (ReportStep rotate) (Found rotate) (fun _ => Accounted rotate) (connectBackend rotate)
      h := by
  cases rotate with
  | true =>
      refine (wp_request_bind _ _).mpr fun sources _ =>
        ⟨⟨rfl, hg⟩, wp_connectFrom_route sources ?_⟩
      rw [routeAt_append_single, hg]
      exact ⟨rfl, rfl, rfl, rfl⟩
  | false =>
      refine (wp_request_bind _ _).mpr fun a _ => ⟨⟨rfl, hg⟩, ?_⟩
      cases a with
      | ok u =>
          refine found_some rfl ?_
          rw [Underway, routeAt_append_single, hg]
          exact ⟨rfl, rfl⟩
      | error k =>
          refine wp_observe_route k (routeAt_append_single _ _) fun h₁ heq => found_none ?_
          rw [Accounted, heq, hg]
          exact ⟨rfl, fun _ => ⟨rfl, rfl⟩⟩

theorem wp_greet_route (hg : routeAt h = .start) :
    wp env (ReportStep cfg.sourceRotator)
      (fun x h' => x.1.isSome = cfg.sourceRotator ∧ Underway h')
      (fun _ => Accounted cfg.sourceRotator) (greet cfg) h := by
  refine (wp_bind _).mpr (wp_post (wp_connectBackend_route _ hg) (fun x h₁ hx => ?_) fun _ _ => id)
  cases x with
  | none =>
      have hend : Accounted cfg.sourceRotator h₁ := hx.1 rfl
      refine (wp_bind _).mpr (wp_post (wp_apart (asks_tellClient (fun _ => trivial) _) rfl hend.1)
        (fun _ h₂ heq => ?_) fun _ h₂ heq => ?_)
      all_goals
        show Accounted cfg.sourceRotator h₂
        rw [Accounted, heq]
        exact hend
  | some source =>
      obtain ⟨hsource, hg⟩ := hx.2 source rfl
      have hthen : ∀ {α β : Type} {p : Sess α} {f : α → Sess β} {Q : β → History Io → Prop} {h},
          p.Asks Req.Apart → Underway h →
          (∀ a h', Underway h' → wp env (ReportStep cfg.sourceRotator) Q
            (fun _ => Accounted cfg.sourceRotator) (f a) h') →
          wp env (ReportStep cfg.sourceRotator) Q (fun _ => Accounted cfg.sourceRotator)
            (p.bind f) h :=
        fun hp hg hf =>
          (wp_bind _).mpr (wp_post (wp_underway hp hg) hf fun _ _ => Underway.accounted)
      refine hthen ((routine_apart _).backendReply cfg _ _ _) hg fun x h₂ hg => ?_
      refine hthen (talks_apart.secureControl trivial trivial (fun _ => trivial) _ _) hg
        fun buf h₃ hg => ?_
      exact hthen (asks_clientIo (fun _ => trivial) _) hg fun _ _ hg => ⟨hsource, hg⟩

/-! ## Uploads -/

/-- A data connection from `source` has just failed. -/
def Owing (source : Option Ipv4Addr) (k : IoKind) (h : History Io) : Prop :=
  (routeAt h).up = true ∧
    (routeAt h).failures = (routeAt h).reports ++ Route.failed source (.error k)

/-- What is owed after `open_backend_data_connection`. -/
def AfterOpening (source : Option Ipv4Addr) (r : Except DataConnectError Unit) (h : History Io) :
    Prop :=
  match r with
  | .error (.connectFailed k) => Owing source k h
  | _ => Underway h

theorem wp_openBackendDataConnection_route {source : Option Ipv4Addr} {buf : Bytes}
    (hsource : source.isSome = rotate) (hg : Underway h) :
    wp env (ReportStep rotate) (fun x => AfterOpening source x.1) (fun _ _ => True)
      (openBackendDataConnection cfg.control source cfg.limits buf) h := by
  refine (wp_bind _).mpr (wp_post (wp_underway (asks_request trivial) hg) (fun control h₁ hg => ?_)
    fun _ _ _ => trivial)
  refine (wp_bind _).mpr (wp_post (wp_underway (talks_apart.passiveReply _ _ _ _) hg)
    (fun x h₂ hg => ?_) fun _ _ _ => trivial)
  cases x with
  | error k => exact hg
  | ok x =>
      obtain ⟨answered, line, buf⟩ := x
      dsimp only
      split
      · exact hg
      · refine (wp_request_bind _ _).mpr fun a _ => ⟨⟨hsource, hg⟩, ?_⟩
        cases a with
        | ok u =>
            show Underway _
            rw [Underway, routeAt_append_single]
            refine ⟨hg.1, ?_⟩
            cases source <;> exact (List.append_nil _).trans hg.2
        | error k =>
            show Owing source k _
            rw [Owing, routeAt_append_single]
            exact ⟨hg.1, congrArg (· ++ Route.failed source (.error k)) hg.2⟩

theorem wp_reportOpenFailure_route {source : Option Ipv4Addr} {e : DataConnectError}
    (hg : AfterOpening source (.error e) h) :
    wp env (ReportStep rotate) (fun _ => Underway) (fun _ _ => True) (reportOpenFailure source e) h := by
  cases e with
  | unusableReply =>
      have hcount : (metric .backendPasvFailed).Asks Req.Apart := asks_request trivial
      exact wp_post (wp_underway hcount hg) (fun _ _ => id) fun _ _ _ => trivial
  | controlConnection k =>
      exact wp_post (wp_underway (asks_bind (asks_request trivial) fun _ =>
        asks_observeBackendIoError trivial k) hg) (fun _ _ => id) fun _ _ _ => trivial
  | connectFailed k =>
      refine (wp_request_bind _ _).mpr fun u _ => ⟨trivial, ?_⟩
      refine wp_observe_route k (routeAt_append_single _ _) fun h₁ heq => ?_
      obtain ⟨hup, howed⟩ : Owing source k h := hg
      cases source with
      | none =>
          show Underway h₁
          rw [Underway, heq]
          exact ⟨hup, howed.trans (List.append_nil _)⟩
      | some source =>
          intro u _
          refine ⟨?_, ?_⟩
          · rw [ReportStep, heq]
            exact howed
          · show Underway _
            rw [Underway, routeAt_append_single, heq]
            exact ⟨hup, howed⟩

theorem wp_openBackend_route {source : Option Ipv4Addr} {client : Arrival} {buf : Bytes}
    (hsource : source.isSome = rotate) (hg : Underway h) :
    wp env (ReportStep rotate) (fun _ => Underway) (fun _ => Underway) (openBackend cfg source client buf)
      h := by
  have hslot : (acquireDataSlot source).Asks Req.Apart := by
    cases source with
    | none => trivial
    | some source => exact asks_request trivial
  refine (wp_bind _).mpr (wp_post (wp_underway hslot hg) (fun acquired h₁ hg => ?_) fun _ _ => id)
  cases acquired with
  | false => exact hg
  | true =>
      refine (wp_bind _).mpr (wp_noExit ((delivers_openBackendDataConnection _ _ _ _).noExit)
        (wp_post (wp_openBackendDataConnection_route hsource hg) (fun x h₂ hx => ?_) fun _ _ => id))
      obtain ⟨r, buf'⟩ := x
      cases r with
      | ok u => exact hx
      | error e =>
          refine (wp_bind _).mpr (wp_noExit (noExit_reportOpenFailure source e)
            (wp_post (wp_reportOpenFailure_route hx) (fun _ h₃ hg => ?_) fun _ _ => id))
          refine (wp_bind _).mpr (wp_post (wp_underway (asks_dropDataSlot trivial source) hg)
            (fun _ h₄ hg => ?_) fun _ _ => id)
          cases e <;> exact hg

theorem wp_stor_route {source : Option Ipv4Addr} {line : Text} {port : UInt16} {s : SessState}
    (hsource : source.isSome = rotate) (hg : Underway h) :
    wp env (ReportStep rotate) (fun _ => Underway) (fun _ => Underway) (stor cfg source line port s) h := by
  have hrelease : ∀ {h'}, Underway h' →
      wp env (ReportStep rotate) (fun _ => Underway) (fun _ => Underway) (release port) h' :=
    fun hg => wp_underway (asks_request trivial) hg
  have hopen : wp env (ReportStep rotate) (fun _ => Underway) (fun _ => Underway)
      (openChannel cfg source port s.backendBuf) h := by
    refine (wp_bind _).mpr (wp_post (wp_underway
      (asks_awaitClientData (fun _ => trivial) trivial cfg port) hg) (fun client h₁ hg => ?_)
      fun _ _ => id)
    cases client with
    | none => exact hg
    | some client => exact wp_openBackend_route hsource hg
  refine (wp_finally _).mpr (wp_post (Q := fun _ => Underway) (E := fun _ => Underway) ?_
    (fun _ _ => hrelease) fun _ _ => hrelease)
  refine (wp_bind _).mpr (wp_post hopen (fun x h₁ hg => ?_) fun _ _ => id)
  obtain ⟨channel, buf⟩ := x
  refine wp_underway (asks_bind (asks_request trivial) fun _ => ?_) hg
  cases channel with
  | lost => exact asks_bind (asks_tellClient (fun _ => trivial) _) fun _ => trivial
  | unavailable => exact asks_bind (asks_clientIo (fun _ => trivial) _) fun _ => trivial
  | ready client =>
      refine asks_bind (asks_finally ?_ (asks_dropDataSlot trivial source)) fun _ => trivial
      exact asks_upload (routine_apart _) (fun _ => trivial) (fun _ => trivial)
        (fun _ _ => trivial) line client buf

theorem wp_round_route {source : Option Ipv4Addr} {s : SessState}
    (hsource : source.isSome = rotate) (hg : Underway h) :
    wp env (ReportStep rotate) (fun _ => Underway) (fun _ => Underway) (round cfg source s) h :=
  wp_round_of (routine_apart _) (fun _ => trivial) (fun _ => trivial)
    (fun _ => Req.ReadsClient.apart) wp_underway (wp_stor_route hsource) hg

end Parts

/-! ## Whole sessions -/

/-- **The rotator hears of exactly the failures.** Whatever the surroundings do, along every
session with source rotation: the sources are asked for once and tried in the order they were
offered in, each only after all before it have failed, and no connection to the backend goes
out from no source; without rotation none goes out from a source. A connection from a source
that fails, control or data, is reported with its source and error before the session does
anything but count; nothing else is reported. A session that is over has reported every
failure, and if it never had a backend connection, all the sources it was offered have
failed. -/
theorem failures_reported (w : World) (cfg : SessionConfig) (n : Nat) :
    Always (ReportStep cfg.sourceRotator) (history w cfg n) ∧
    ∀ e, (sessionRun w cfg n).1 = .exit e → Accounted cfg.sourceRotator (history w cfg n) := by
  have hhandle : wp w.answer (ReportStep cfg.sourceRotator) (fun _ _ => False)
      (fun _ => Accounted cfg.sourceRotator) (handle cfg n) [] := by
    refine wp_handle_from
      (J := fun source _ h => source.isSome = cfg.sourceRotator ∧ Underway h)
      (E := fun _ => Accounted cfg.sourceRotator) trivial (wp_greet_route rfl)
      (fun source s h hJ => ?_) (fun _ h hg => ⟨trivial, ?_⟩) n
    · exact wp_post (wp_round_route hJ.1 hJ.2) (fun _ _ hg => ⟨hJ.1, hg⟩)
        fun _ _ => Underway.accounted
    · rw [Accounted, routeAt_append_single]
      exact hg
  obtain ⟨hall, -, hexit⟩ := run_of_wp hhandle (always_nil _)
  exact ⟨hall, hexit⟩

end FtpGateway
