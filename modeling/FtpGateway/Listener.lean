import FtpGateway.IpLimiter
import FtpGateway.Selector
import FtpGateway.Session.Counters

/-!
# The accept loop

`server/listener.rs`: the loop that accepts clients, the sessions it spawns and
the shutdown. A `Gateway` has everything the sessions share (the limiter of
connections per address, the backends' turns, the PASV ports, the counters) and
their tasks, each with what its session has done so far. A run is any order of
accepts, exchanges of sessions, ends of tasks, signals and the passing of time
(`Gateway.run`); `Turn` says what one step can do.

The loop never takes a finished task out of the `JoinSet`: that happens only in
the drain.
-/

namespace FtpGateway

open Str Interact Counting

/-- `SHUTDOWN_DRAIN_TIMEOUT`, in milliseconds. -/
def shutdownDrainTimeout : Nat := 30000

/-! ## State -/

/-- `ended` once the task is done and its guard dropped, `joined` once `join_next` has
returned it. -/
structure SessionTask where
  sessionId : UInt64
  peerAddr : SocketAddr
  backend : BackendConfig
  ipGuard : IpGuard
  trace : History Io
  ended : Bool
  joined : Bool

inductive LoopPhase where
  | accepting
  | draining (deadline : Nat)
  | exited (drained : Bool)
deriving Repr, DecidableEq

/-- `tasks` are all sessions ever spawned, in order; `events` is what has happened to the
counters. -/
structure Gateway where
  phase : LoopPhase
  signalled : Bool
  now : Nat
  ipLimiter : IpLimiter
  nextSessionId : UInt64
  selector : BackendSelector
  portRange : PortRange
  -- `PortManager::in_use`
  inUse : Finset UInt16
  metrics : Metrics
  tasks : List SessionTask
  events : List GatewayEvent

inductive GatewayAct where
  | wait (ms : Nat)
  | signal
  | accept (result : Except IoKind SocketAddr)
  | exchange (i : Nat) (e : Event)
  | finish (i : Nat)
  | breakLoop
  | joinNext (i : Nat)
  | drained
  | drainTimeout

namespace Gateway

def start (range : PortRange) (maxPerIp : Nat) (selector : BackendSelector) : Gateway where
  phase := .accepting
  signalled := false
  now := 0
  ipLimiter := .new maxPerIp
  nextSessionId := 1
  selector := selector
  portRange := range
  inUse := ∅
  metrics := .new
  tasks := []
  events := []

/-- The `JoinSet`. -/
def sessions (g : Gateway) : List SessionTask := g.tasks.filter (!·.joined)

/-- `connection limit reached for this IP`. -/
def refuse (g : Gateway) (ipLimiter : IpLimiter) : Gateway :=
  { g with
    ipLimiter := ipLimiter
    metrics := g.metrics.connectionRejected
    events := g.events ++ [.connectionRejected] }

def spawn (g : Gateway) (ipLimiter : IpLimiter) (ipGuard : IpGuard) (peerAddr : SocketAddr) :
    Gateway :=
  { g with
    ipLimiter := ipLimiter
    nextSessionId := g.nextSessionId + 1
    selector := g.selector.next.2
    tasks := g.tasks ++
      [⟨g.nextSessionId, peerAddr, g.selector.next.1, ipGuard, [], false, false⟩] }

/-- What an exchange of a session does to the pool. How `allocate` comes by a
port is in `Ports.lean`: one that was free, of the range. -/
def inUseAfter (range : PortRange) (inUse : Finset UInt16) : Event → Option (Finset UInt16)
  | ⟨.allocate, some port⟩ =>
      if port ∉ inUse ∧ range.contains port then some (insert port inUse) else none
  | ⟨.release port, _⟩ => some (inUse.erase port)
  | _ => some inUse

def exchange (g : Gateway) (i : Nat) (task : SessionTask) (e : Event) (inUse : Finset UInt16) :
    Gateway :=
  { g with
    inUse := inUse
    metrics := g.metrics.step (.exchange i e)
    events := g.events ++ [.exchange i e]
    tasks := g.tasks.set i { task with trace := task.trace ++ [e] } }

/-- The task of session `i` completes, well or by a panic. -/
def finish (g : Gateway) (i : Nat) (task : SessionTask) : Gateway :=
  { g with
    ipLimiter := g.ipLimiter.drop task.ipGuard
    tasks := g.tasks.set i { task with ended := true } }

/-- The way out of the loop. -/
def leaveLoop (g : Gateway) : Gateway :=
  if g.sessions.length = 0 then { g with phase := .exited true }
  else { g with phase := .draining (g.now + shutdownDrainTimeout) }

def step (g : Gateway) : GatewayAct → Option Gateway
  | .wait ms =>
      match g.phase with
      | .exited _ => none
      | _ => some { g with now := g.now + ms }
  | .signal =>
      match g.phase with
      | .exited _ => none
      | _ => some { g with signalled := true }
  | .accept result =>
      -- `biased`: the signal is looked at first
      if g.phase = .accepting ∧ g.signalled = false then
        match result with
        | .error _ => some g
        | .ok peerAddr =>
            match g.ipLimiter.tryAcquire peerAddr.ip with
            | (ipLimiter, none) => some (g.refuse ipLimiter)
            | (ipLimiter, some ipGuard) => some (g.spawn ipLimiter ipGuard peerAddr)
      else none
  | .exchange i e =>
      match g.phase, g.tasks[i]? with
      | .exited _, _ => none
      | _, none => none
      | _, some task =>
          if task.ended then none
          else (inUseAfter g.portRange g.inUse e).map (g.exchange i task e)
  | .finish i =>
      match g.phase, g.tasks[i]? with
      | .exited _, _ => none
      | _, none => none
      | _, some task => if task.ended then none else some (g.finish i task)
  | .breakLoop =>
      if g.phase = .accepting ∧ g.signalled = true then some g.leaveLoop else none
  | .joinNext i =>
      match g.phase, g.tasks[i]? with
      | .draining _, some task =>
          if task.ended && !task.joined then
            some { g with tasks := g.tasks.set i { task with joined := true } }
          else none
      | _, _ => none
  | .drained =>
      match g.phase with
      | .draining _ => if g.sessions = [] then some { g with phase := .exited true } else none
      | _ => none
  | .drainTimeout =>
      match g.phase with
      | .draining deadline =>
          if deadline ≤ g.now ∧ g.sessions ≠ [] then some { g with phase := .exited false }
          else none
      | _ => none

def run (g : Gateway) : List GatewayAct → Option Gateway
  | [] => some g
  | act :: rest => (g.step act).bind fun g' => g'.run rest

/-! ## One step -/

/-- Everything a step can do. -/
inductive Turn (g : Gateway) : Gateway → Prop where
  | wait (ms : Nat) (hup : ∀ b, g.phase ≠ .exited b) : Turn g { g with now := g.now + ms }
  | signal (hup : ∀ b, g.phase ≠ .exited b) : Turn g { g with signalled := true }
  | failedAccept (hopen : g.phase = .accepting ∧ g.signalled = false) : Turn g g
  | refuse (peerAddr : SocketAddr) (ipLimiter : IpLimiter)
      (hopen : g.phase = .accepting ∧ g.signalled = false)
      (hacquire : g.ipLimiter.tryAcquire peerAddr.ip = (ipLimiter, none)) :
      Turn g (g.refuse ipLimiter)
  | spawn (peerAddr : SocketAddr) (ipLimiter : IpLimiter) (ipGuard : IpGuard)
      (hopen : g.phase = .accepting ∧ g.signalled = false)
      (hacquire : g.ipLimiter.tryAcquire peerAddr.ip = (ipLimiter, some ipGuard)) :
      Turn g (g.spawn ipLimiter ipGuard peerAddr)
  | exchange (i : Nat) (task : SessionTask) (e : Event) (inUse : Finset UInt16)
      (hup : ∀ b, g.phase ≠ .exited b) (htask : g.tasks[i]? = some task)
      (hlive : task.ended = false)
      (hports : inUseAfter g.portRange g.inUse e = some inUse) :
      Turn g (g.exchange i task e inUse)
  | finish (i : Nat) (task : SessionTask) (hup : ∀ b, g.phase ≠ .exited b)
      (htask : g.tasks[i]? = some task) (hlive : task.ended = false) : Turn g (g.finish i task)
  | breakLoop (hphase : g.phase = .accepting) (hsignalled : g.signalled = true) :
      Turn g g.leaveLoop
  | join (i : Nat) (task : SessionTask) (deadline : Nat) (hphase : g.phase = .draining deadline)
      (htask : g.tasks[i]? = some task) (hended : task.ended = true)
      (hjoined : task.joined = false) :
      Turn g { g with tasks := g.tasks.set i { task with joined := true } }
  | drained (deadline : Nat) (hphase : g.phase = .draining deadline) (hnone : g.sessions = []) :
      Turn g { g with phase := .exited true }
  | drainTimeout (deadline : Nat) (hphase : g.phase = .draining deadline)
      (hlate : deadline ≤ g.now) (hsome : g.sessions ≠ []) :
      Turn g { g with phase := .exited false }

variable {g g' : Gateway} {act : GatewayAct}

theorem turn_of_step (h : g.step act = some g') : Turn g g' := by
  cases act with
  | wait ms =>
      simp only [step] at h
      split at h
      case h_1 => cases h
      case h_2 hup =>
        obtain rfl := Option.some.inj h
        exact .wait ms hup
  | signal =>
      simp only [step] at h
      split at h
      case h_1 => cases h
      case h_2 hup =>
        obtain rfl := Option.some.inj h
        exact .signal hup
  | accept result =>
      simp only [step] at h
      split at h
      case isFalse => cases h
      case isTrue hopen =>
        cases result with
        | error k =>
            obtain rfl := Option.some.inj h
            exact .failedAccept hopen
        | ok peerAddr =>
            dsimp only at h
            split at h
            case h_1 ipLimiter hacquire =>
              obtain rfl := Option.some.inj h
              exact .refuse peerAddr ipLimiter hopen hacquire
            case h_2 ipLimiter ipGuard hacquire =>
              obtain rfl := Option.some.inj h
              exact .spawn peerAddr ipLimiter ipGuard hopen hacquire
  | exchange i e =>
      simp only [step] at h
      split at h
      case h_1 => cases h
      case h_2 => cases h
      case h_3 task htask hup =>
        split at h
        case isTrue => cases h
        case isFalse hlive =>
          obtain ⟨inUse, hports, rfl⟩ := Option.map_eq_some_iff.mp h
          exact .exchange i task e inUse hup htask (Bool.not_eq_true _ ▸ hlive) hports
  | finish i =>
      simp only [step] at h
      split at h
      case h_1 => cases h
      case h_2 => cases h
      case h_3 task htask hup =>
        split at h
        case isTrue => cases h
        case isFalse hlive =>
          obtain rfl := Option.some.inj h
          exact .finish i task hup htask (Bool.not_eq_true _ ▸ hlive)
  | breakLoop =>
      simp only [step] at h
      split at h
      case isFalse => cases h
      case isTrue hsignal =>
        obtain rfl := Option.some.inj h
        exact .breakLoop hsignal.1 hsignal.2
  | joinNext i =>
      simp only [step] at h
      split at h
      case h_2 => cases h
      case h_1 deadline task hphase htask =>
        split at h
        case isFalse => cases h
        case isTrue hdone =>
          obtain rfl := Option.some.inj h
          rw [Bool.and_eq_true, Bool.not_eq_true'] at hdone
          exact .join i task deadline hphase htask hdone.1 hdone.2
  | drained =>
      simp only [step] at h
      split at h
      case h_2 => cases h
      case h_1 deadline hphase =>
        split at h
        case isFalse => cases h
        case isTrue hnone =>
          obtain rfl := Option.some.inj h
          exact .drained deadline hphase hnone
  | drainTimeout =>
      simp only [step] at h
      split at h
      case h_2 => cases h
      case h_1 deadline hphase =>
        split at h
        case isFalse => cases h
        case isTrue hlate =>
          obtain rfl := Option.some.inj h
          exact .drainTimeout deadline hphase hlate.1 hlate.2

/-- A property of every step holds along a run. -/
theorem run_induction {P : Gateway → Prop} {acts : List GatewayAct} (hg : P g)
    (hturn : ∀ g₁ g₂, P g₁ → Turn g₁ g₂ → P g₂) (hrun : g.run acts = some g') : P g' := by
  induction acts generalizing g with
  | nil =>
      obtain rfl := Option.some.inj hrun
      exact hg
  | cons act rest ih =>
      obtain ⟨g₁, hstep, hrest⟩ := Option.bind_eq_some_iff.mp hrun
      exact ih (hturn g g₁ hg (turn_of_step hstep)) hrest

/-! ## Who was spawned -/

/-- What a task is given and keeps. -/
def stub (task : SessionTask) : UInt64 × SocketAddr × BackendConfig × IpGuard :=
  (task.sessionId, task.peerAddr, task.backend, task.ipGuard)

def spawned (g : Gateway) : List (UInt64 × SocketAddr × BackendConfig × IpGuard) :=
  g.tasks.map stub

theorem map_set_of_eq {α β : Type} {l : List α} {i : Nat} {old new : α} {f : α → β}
    (h : l[i]? = some old) (hf : f new = f old) : (l.set i new).map f = l.map f := by
  obtain ⟨before, after, hl, hset⟩ := split_of_getElem h
  rw [hset, hl, List.map_append, List.map_append, List.map_cons, List.map_cons, hf]

/-- Ids and backends are dealt out in the order of the accepts. -/
structure Dealt (backends : List BackendConfig) (g : Gateway) : Prop where
  selector : g.selector.backends = backends
  nextIndex : g.selector.nextIndex = UInt64.ofNat g.spawned.length
  nextId : g.nextSessionId = UInt64.ofNat (g.spawned.length + 1)
  dealt : ∀ i s, g.spawned[i]? = some s → s.1 = UInt64.ofNat (i + 1) ∧
    backends[Cursor.slot (2 ^ 64) backends.length 0 i]? = some s.2.2.1 ∧ s.2.2.2.ip = s.2.1.ip

theorem ip_of_tryAcquire {l l' : IpLimiter} {ip : IpAddr} {guard : IpGuard}
    (h : l.tryAcquire ip = (l', some guard)) : guard.ip = ip := by
  have hsnd := (IpLimiter.tryAcquire_snd l ip).symm.trans (congrArg Prod.snd h)
  split_ifs at hsnd <;> cases hsnd <;> rfl

theorem Dealt.same {backends : List BackendConfig} (h : Dealt backends g)
    (hselector : g'.selector = g.selector) (hid : g'.nextSessionId = g.nextSessionId)
    (hspawned : g'.spawned = g.spawned) : Dealt backends g' := by
  refine ⟨?_, ?_, ?_, ?_⟩
  · rw [hselector]; exact h.selector
  · rw [hselector, hspawned]; exact h.nextIndex
  · rw [hid, hspawned]; exact h.nextId
  · rw [hspawned]; exact h.dealt

theorem Dealt.spawn {backends : List BackendConfig} (h : Dealt backends g)
    {ipLimiter : IpLimiter} {ipGuard : IpGuard} {peerAddr : SocketAddr}
    (hguard : ipGuard.ip = peerAddr.ip) :
    Dealt backends (g.spawn ipLimiter ipGuard peerAddr) := by
  have hspawned : (g.spawn ipLimiter ipGuard peerAddr).spawned =
      g.spawned ++ [(g.nextSessionId, peerAddr, g.selector.next.1, ipGuard)] := List.map_append
  refine ⟨h.selector, ?_, ?_, fun i s hs => ?_⟩
  · rw [hspawned, List.length_append]
    show g.selector.nextIndex + 1 = _
    rw [h.nextIndex, UInt64.ofNat_add]
    rfl
  · rw [hspawned, List.length_append]
    show g.nextSessionId + 1 = _
    rw [h.nextId, List.length_singleton, UInt64.ofNat_add (g.spawned.length + 1)]
    rfl
  · rw [hspawned] at hs
    rcases Nat.lt_trichotomy i g.spawned.length with hlt | heq | hgt
    · rw [List.getElem?_append_left hlt] at hs
      exact h.dealt i s hs
    · rw [heq, List.getElem?_concat_length] at hs
      obtain rfl := Option.some.inj hs
      rw [heq]
      refine ⟨h.nextId, ?_, hguard⟩
      rw [← h.selector]
      exact BackendSelector.next_fst h.nextIndex
    · rw [List.getElem?_eq_none (by simp; omega)] at hs
      cases hs

theorem Dealt.turn {backends : List BackendConfig} (h : Dealt backends g) (hturn : Turn g g') :
    Dealt backends g' := by
  cases hturn with
  | wait ms hup => exact h.same rfl rfl rfl
  | signal hup => exact h.same rfl rfl rfl
  | failedAccept hopen => exact h
  | refuse peerAddr ipLimiter hopen hacquire => exact h.same rfl rfl rfl
  | spawn peerAddr ipLimiter ipGuard hopen hacquire => exact h.spawn (ip_of_tryAcquire hacquire)
  | exchange i task e inUse hup htask hlive hports => exact h.same rfl rfl (map_set_of_eq htask rfl)
  | finish i task hup htask hlive => exact h.same rfl rfl (map_set_of_eq htask rfl)
  | breakLoop hphase hsignalled => unfold leaveLoop; split <;> exact h.same rfl rfl rfl
  | join i task deadline hphase htask hended hjoined =>
      exact h.same rfl rfl (map_set_of_eq htask rfl)
  | drained deadline hphase hnone => exact h.same rfl rfl rfl
  | drainTimeout deadline hphase hlate hsome => exact h.same rfl rfl rfl

theorem dealt_start (range : PortRange) (maxPerIp : Nat) {backends : List BackendConfig}
    {selector : BackendSelector} (hselector : BackendSelector.new backends = some selector) :
    Dealt backends (start range maxPerIp selector) := by
  rw [BackendSelector.new] at hselector
  split at hselector
  case isTrue =>
    obtain rfl := Option.some.inj hselector
    exact ⟨rfl, rfl, rfl, fun _ _ hs => (by cases hs)⟩
  case isFalse => cases hselector

section Results

variable {range : PortRange} {maxPerIp : Nat} {backends : List BackendConfig}
  {selector : BackendSelector} {acts : List GatewayAct}

/-- **Backends take turns.** In every state a run reaches, the `k`th session the
loop has started, counted from 0, has the id `k + 1` and the backend whose turn
`k` is, both modulo `2 ^ 64`: connections that failed or were refused take
neither. So no backend has been given more than one session more than another,
and one for each time the counter has wrapped. -/
theorem backends_take_turns (hselector : BackendSelector.new backends = some selector)
    (hrun : (start range maxPerIp selector).run acts = some g) :
    (∀ (k : Nat) (task : SessionTask), g.tasks[k]? = some task →
      task.sessionId.toNat = (k + 1) % 2 ^ 64 ∧
      backends[Cursor.slot (2 ^ 64) backends.length 0 k]? = some task.backend) ∧
    ∀ r r', r < backends.length → r' < backends.length →
      Cursor.times (2 ^ 64) backends.length 0 g.tasks.length r ≤
        Cursor.times (2 ^ 64) backends.length 0 g.tasks.length r' +
          g.tasks.length / 2 ^ 64 + 1 := by
  have h := run_induction (dealt_start range maxPerIp hselector) (fun _ _ => Dealt.turn) hrun
  refine ⟨fun k task htask => ?_, fun r r' hr hr' => Cursor.times_le (by decide) hr hr'⟩
  have hstub : g.spawned[k]? = some (stub task) := by rw [spawned, List.getElem?_map, htask]; rfl
  obtain ⟨hid, hbackend, -⟩ := h.dealt k _ hstub
  refine ⟨?_, hbackend⟩
  rw [show task.sessionId = _ from hid, UInt64.toNat_ofNat']

end Results

def firstPeer : SocketAddr := ⟨.v4 ⟨10, 0, 0, 1⟩, 40000⟩

/-- Two backends, and three clients, one of them turned away. -/
def twoServers : BackendSelector :=
  ⟨[⟨"a".toList, 21, defaultBackendPassivePorts⟩, ⟨"b".toList, 21, defaultBackendPassivePorts⟩],
    0, by simp⟩

def threeClients : List GatewayAct :=
  [.accept (.ok firstPeer), .accept (.ok firstPeer), .accept (.error .other),
    .accept (.ok ⟨.v4 ⟨10, 0, 0, 2⟩, 40000⟩)]

theorem backends_take_turns_three_clients :
    ∃ g, (start ⟨50000, 50010⟩ 1 twoServers).run threeClients = some g ∧ g.tasks.length = 2 ∧
      ∀ (k : Nat) (task : SessionTask), g.tasks[k]? = some task →
        task.sessionId.toNat = (k + 1) % 2 ^ 64 ∧
        twoServers.backends[Cursor.slot (2 ^ 64) 2 0 k]? = some task.backend := by
  have hnew : BackendSelector.new twoServers.backends = some twoServers := rfl
  have hrun : (start ⟨50000, 50010⟩ 1 twoServers).run threeClients = some _ := rfl
  exact ⟨_, hrun, rfl, (backends_take_turns hnew hrun).1⟩

end Gateway

end FtpGateway
