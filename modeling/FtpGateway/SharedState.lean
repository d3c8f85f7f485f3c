import FtpGateway.Listener
import FtpGateway.Holding

/-!
# What the sessions share

The limiter of connections, the PASV pool and the counters belong to all
sessions. What is taken from them at any moment is what the sessions hold: each
part is followed along the steps of the gateway (`LimSees`, `HoldsPorts`,
`Logged`) and read off the tasks in `shared_state_is_what_sessions_hold`.

The limiter is driven through runs of its own (`limSees_of_turn`), the counters
through interleavings of sessions (`Logged.gatewayRun`), so what is known of those
holds of the whole gateway.
-/

namespace FtpGateway

open Str Interact Counting

namespace Gateway

variable {g g' : Gateway} {act : GatewayAct}

/-! ## Connections per address -/

def liveGuard (task : SessionTask) : Option IpGuard :=
  if task.ended then none else some task.ipGuard

/-- The guards that are alive, as the limiter's own runs have them. -/
def limWorld (g : Gateway) : LimWorld := ⟨g.ipLimiter, g.tasks.filterMap liveGuard, []⟩

/-- What the limiter sees of a step: nothing, or a call of its own. -/
inductive LimSees (g g' : Gateway) : Prop where
  | nothing (h : g'.limWorld = g.limWorld)
  | call (w : LimWorld) (act : LimAct) (hstep : g.limWorld.step act = some w)
      (hlimiter : g'.ipLimiter = w.limiter)
      (hguards : List.Perm w.guards (g'.tasks.filterMap liveGuard))

theorem limSees_of_turn (hturn : Turn g g') : LimSees g g' := by
  cases hturn with
  | wait ms hup => exact .nothing rfl
  | signal hup => exact .nothing rfl
  | failedAccept hopen => exact .nothing rfl
  | refuse peerAddr ipLimiter hopen hacquire =>
      refine .call _ (.acquire peerAddr.ip) (LimWorld.step_acquire _ _) ?_ ?_
      · exact (congrArg Prod.fst hacquire).symm
      · have hnone : (g.limWorld.limiter.tryAcquire peerAddr.ip).2 = none :=
          congrArg Prod.snd hacquire
        rw [hnone]
        exact List.Perm.refl _
  | spawn peerAddr ipLimiter ipGuard hopen hacquire =>
      refine .call _ (.acquire peerAddr.ip) (LimWorld.step_acquire _ _) ?_ ?_
      · exact (congrArg Prod.fst hacquire).symm
      · have hsome : (g.limWorld.limiter.tryAcquire peerAddr.ip).2 = some ipGuard :=
          congrArg Prod.snd hacquire
        have hlive : (g.spawn ipLimiter ipGuard peerAddr).tasks.filterMap liveGuard =
            g.tasks.filterMap liveGuard ++ [ipGuard] := List.filterMap_append
        rw [hsome, hlive]
        exact (List.perm_append_singleton ipGuard _).symm
  | exchange i task e inUse hup htask hlive hports =>
      refine .nothing ?_
      have hsame : (g.exchange i task e inUse).tasks.filterMap liveGuard =
          g.tasks.filterMap liveGuard := filterMap_set htask rfl
      rw [limWorld, hsame]
      rfl
  | finish i task hup htask hlive =>
      have hguard : liveGuard task = some task.ipGuard := by rw [liveGuard, hlive]; rfl
      have hperm : List.Perm (g.tasks.filterMap liveGuard)
          (task.ipGuard :: (g.tasks.set i { task with ended := true }).filterMap liveGuard) :=
        perm_filterMap_set htask hguard rfl
      have hmem : task.ipGuard ∈ g.limWorld.guards := hperm.mem_iff.mpr List.mem_cons_self
      refine .call ⟨g.ipLimiter.drop task.ipGuard, g.limWorld.guards.erase task.ipGuard, []⟩
        (.drop task.ipGuard) ?_ rfl ?_
      · rw [LimWorld.step, if_pos hmem]
        rfl
      · have := hperm.erase task.ipGuard
        rwa [List.erase_cons_head] at this
  | breakLoop hphase hsignalled => unfold leaveLoop; split <;> exact .nothing rfl
  | join i task deadline hphase htask hended hjoined =>
      refine .nothing ?_
      have hsame : (g.tasks.set i { task with joined := true }).filterMap liveGuard =
          g.tasks.filterMap liveGuard := filterMap_set htask rfl
      rw [limWorld, limWorld, hsame]
  | drained deadline hphase hnone => exact .nothing rfl
  | drainTimeout deadline hphase hlate hsome => exact .nothing rfl

theorem limWorld_exact_of_perm {w : LimWorld} (h : w.Exact) (hlimiter : g.ipLimiter = w.limiter)
    (hguards : List.Perm w.guards (g.tasks.filterMap liveGuard)) : g.limWorld.Exact where
  counted guard hguard := h.counted guard (hguards.mem_iff.mpr hguard)
  census ip := by
    rw [LimWorld.live, limWorld, hlimiter, ← hguards.countP_eq]
    exact h.census ip
  le_max ip := by
    rw [LimWorld.live, limWorld, hlimiter, ← hguards.countP_eq]
    exact h.le_max ip

/-- With a limit, the limiter's map is the census of the sessions that run. -/
theorem limited_turn {maxPerIp : Nat} (hpos : 0 < maxPerIp)
    (h : g.limWorld.Exact ∧ g.ipLimiter.maxPerIp = maxPerIp) (hturn : Turn g g') :
    g'.limWorld.Exact ∧ g'.ipLimiter.maxPerIp = maxPerIp := by
  cases limSees_of_turn hturn with
  | nothing hsame =>
      have hlimiter : g'.ipLimiter = g.ipLimiter := congrArg LimWorld.limiter hsame
      rw [hsame, hlimiter]
      exact h
  | call w act hstep hlimiter hguards =>
      obtain ⟨hexact, hmax⟩ := h.1.step (h.2.symm ▸ hpos) hstep
      exact ⟨limWorld_exact_of_perm hexact hlimiter hguards, by rw [hlimiter, hmax]; exact h.2⟩

/-- Without one, nobody is counted. -/
theorem unlimited_turn (h : g.limWorld.Unlimited ∧ g.ipLimiter.maxPerIp = 0)
    (hturn : Turn g g') : g'.limWorld.Unlimited ∧ g'.ipLimiter.maxPerIp = 0 := by
  cases limSees_of_turn hturn with
  | nothing hsame =>
      have hlimiter : g'.ipLimiter = g.ipLimiter := congrArg LimWorld.limiter hsame
      rw [hsame, hlimiter]
      exact h
  | call w act hstep hlimiter hguards =>
      obtain ⟨hfree, hsame⟩ := h.1.step h.2 hstep
      refine ⟨⟨fun guard hguard => hfree.uncounted guard (hguards.mem_iff.mpr hguard), ?_⟩, ?_⟩
      · show g'.ipLimiter.counts = ∅
        rw [hlimiter]
        exact hfree.counts
      · rw [hlimiter, hsame]
        exact h.2

/-! ## What the sessions have done -/

/-- The sessions are sessions, and a task that is done has its session over. -/
def Conforms (g : Gateway) : Prop :=
  ∀ task ∈ g.tasks, SessionTrace task.trace ∧ (task.ended = true → Finished task.trace)

theorem sessionTrace_initial {t t' : History Io} (h : SessionTrace t) (ht : t' <+: t) :
    SessionTrace t' := by
  cases h with
  | running w cfg n hpart => exact .running w cfg n (ht.trans hpart)
  | panicked w cfg n hh hpart => exact .panicked w cfg n hh (ht.trans hpart)

/-- Nothing a session does undoes what it has done. -/
theorem conforms_of_turn (hturn : Turn g g') (h : g'.Conforms) : g.Conforms := by
  cases hturn with
  | wait ms hup => exact h
  | signal hup => exact h
  | failedAccept hopen => exact h
  | refuse peerAddr ipLimiter hopen hacquire => exact h
  | spawn peerAddr ipLimiter ipGuard hopen hacquire =>
      exact fun task htask => h task (List.mem_append_left _ htask)
  | exchange i task e inUse hup htask hlive hports =>
      refine forall_of_forall_set htask h fun hnew => ⟨?_, fun hended => ?_⟩
      · exact sessionTrace_initial hnew.1 (List.prefix_append _ _)
      · rw [hlive] at hended
        cases hended
  | finish i task hup htask hlive =>
      refine forall_of_forall_set htask h fun hnew => ⟨hnew.1, fun hended => ?_⟩
      rw [hlive] at hended
      cases hended
  | breakLoop hphase hsignalled =>
      unfold leaveLoop at h
      split at h <;> exact h
  | join i task deadline hphase htask hended hjoined =>
      exact forall_of_forall_set htask h fun hnew => hnew
  | drained deadline hphase hnone => exact h
  | drainTimeout deadline hphase hlate hsome => exact h

/-! ## Ports -/

def portOf (g : Gateway) (i : Nat) : Option UInt16 :=
  (g.tasks[i]?).bind fun task => (guardsAt task.trace).port

theorem portOf_set {i : Nat} {task new : SessionTask} (htask : g.tasks[i]? = some task)
    (htasks : g'.tasks = g.tasks.set i new) :
    g'.portOf = Function.update g.portOf i (guardsAt new.trace).port := by
  obtain ⟨hi, -⟩ := List.getElem?_eq_some_iff.mp htask
  funext j
  by_cases hj : j = i
  · rw [hj, Function.update_self, portOf, htasks, List.getElem?_set_self hi]
    rfl
  · rw [Function.update_of_ne hj, portOf, htasks, List.getElem?_set_ne (Ne.symm hj)]
    rfl

theorem portOf_set_same {i : Nat} {task : SessionTask} (new : SessionTask)
    (htask : g.tasks[i]? = some task) (htasks : g'.tasks = g.tasks.set i new)
    (hnew : new.trace = task.trace) :
    g'.portOf = g.portOf := by
  rw [portOf_set htask htasks, hnew]
  exact Function.update_eq_self_iff.mpr (by rw [portOf, htask]; rfl)

theorem portOf_spawn (g : Gateway) (ipLimiter : IpLimiter) (ipGuard : IpGuard)
    (peerAddr : SocketAddr) : (g.spawn ipLimiter ipGuard peerAddr).portOf = g.portOf := by
  funext i
  show ((g.tasks ++ [_])[i]?).bind _ = (g.tasks[i]?).bind _
  rcases Nat.lt_trichotomy i g.tasks.length with hlt | heq | hgt
  · rw [List.getElem?_append_left hlt]
  · rw [heq, List.getElem?_concat_length, List.getElem?_eq_none (Nat.le_refl _)]
    rfl
  · rw [List.getElem?_eq_none (by simp; omega), List.getElem?_eq_none (by omega)]

/-- What an exchange in order does to the pool and to the session's port. -/
inductive PortMove (g : Gateway) (held : Guards) (inUse : Finset UInt16) (e : Event) : Prop where
  | keep (hpool : inUse = g.inUse) (hport : (held.after e).port = held.port)
  | take (port : UInt16) (hfree : port ∉ g.inUse) (hnone : held.port = none)
      (hpool : inUse = insert port g.inUse) (hport : (held.after e).port = some port)
  | give (port : UInt16) (hheld : held.port = some port) (hpool : inUse = g.inUse.erase port)
      (hport : (held.after e).port = none)

theorem portMove {held : Guards} {e : Event} {inUse : Finset UInt16} (he : held.Allows e)
    (hpool : inUseAfter g.portRange g.inUse e = some inUse) : PortMove g held inUse e := by
  obtain ⟨r, a⟩ := e
  cases r with
  | allocate =>
      cases a with
      | none =>
          obtain rfl := Option.some.inj hpool
          exact .keep rfl he.2.symm
      | some port =>
          simp only [inUseAfter] at hpool
          split at hpool
          case isFalse => cases hpool
          case isTrue hfree =>
            obtain rfl := Option.some.inj hpool
            exact .take port hfree.1 he.2 rfl rfl
  | release port =>
      obtain rfl := Option.some.inj hpool
      exact .give port he.2 rfl rfl
  | line c r =>
      obtain rfl := Option.some.inj hpool
      cases c <;> exact .keep rfl rfl
  | write c b =>
      obtain rfl := Option.some.inj hpool
      cases c with
      | client => exact .keep rfl rfl
      | backend tls =>
          refine .keep rfl ?_
          simp only [Guards.after]
          split <;> rfl
  | connectData addr source =>
      obtain rfl := Option.some.inj hpool
      cases a <;> exact .keep rfl rfl
  | metric m =>
      obtain rfl := Option.some.inj hpool
      cases m <;> exact .keep rfl rfl
  | _ =>
      obtain rfl := Option.some.inj hpool
      exact .keep rfl rfl

/-- The pool is what the sessions hold, and no port is held twice. -/
def HoldsPorts (g : Gateway) : Prop := Holding.Exact g.inUse g.portOf

theorem holdsPorts_exchange {i : Nat} {task : SessionTask} {e : Event} {inUse : Finset UInt16}
    (h : g.HoldsPorts) (htask : g.tasks[i]? = some task) (he : GuardStep task.trace e)
    (hpool : inUseAfter g.portRange g.inUse e = some inUse) :
    (g.exchange i task e inUse).HoldsPorts := by
  have hi : g.portOf i = (guardsAt task.trace).port := by rw [portOf, htask]; rfl
  rw [HoldsPorts, portOf_set htask rfl, guardsAt_append_single]
  cases portMove he hpool with
  | keep hsame hport =>
      rw [hport, ← hi, Function.update_eq_self, show (g.exchange i task e inUse).inUse = inUse from
        rfl, hsame]
      exact h
  | take port hfree hnone hsame hport =>
      rw [hport, show (g.exchange i task e inUse).inUse = inUse from rfl, hsame]
      exact h.take hfree (hi.trans hnone)
  | give port hheld hsame hport =>
      rw [hport, show (g.exchange i task e inUse).inUse = inUse from rfl, hsame]
      exact h.release (hi.trans hheld)

theorem guardStep_of_conforms {i : Nat} {task : SessionTask} {e : Event} {inUse : Finset UInt16}
    (htask : g.tasks[i]? = some task) (h : (g.exchange i task e inUse).Conforms) :
    GuardStep task.trace e := by
  obtain ⟨hi, -⟩ := List.getElem?_eq_some_iff.mp htask
  have hguards := (h _ (List.mem_set hi _)).1.guards
  exact (always_append_single.mp hguards).2

theorem holdsPorts_turn (h : g.HoldsPorts) (hturn : Turn g g') (hsessions : g'.Conforms) :
    g'.HoldsPorts := by
  cases hturn with
  | wait ms hup => exact h
  | signal hup => exact h
  | failedAccept hopen => exact h
  | refuse peerAddr ipLimiter hopen hacquire => exact h
  | spawn peerAddr ipLimiter ipGuard hopen hacquire =>
      rw [HoldsPorts, portOf_spawn]
      exact h
  | exchange i task e inUse hup htask hlive hports =>
      exact holdsPorts_exchange h htask (guardStep_of_conforms htask hsessions) hports
  | finish i task hup htask hlive =>
      rw [HoldsPorts, portOf_set_same { task with ended := true } htask rfl rfl]
      exact h
  | breakLoop hphase hsignalled => unfold leaveLoop; split <;> exact h
  | join i task deadline hphase htask hended hjoined =>
      rw [HoldsPorts, portOf_set_same { task with joined := true } htask rfl rfl]
      exact h
  | drained deadline hphase hnone => exact h
  | drainTimeout deadline hphase hlate hsome => exact h

/-! ## Counters -/

def traceOf (g : Gateway) (i : Nat) : History Io := (g.tasks[i]?).elim [] (·.trace)

/-- `events` is what the sessions did, and the counters have counted it. -/
structure Logged (g : Gateway) : Prop where
  metrics : g.metrics = metricsAfter g.events
  traces : ∀ i, ofSession i g.events = g.traceOf i

theorem Logged.same (h : g.Logged) (hmetrics : g'.metrics = g.metrics)
    (hevents : g'.events = g.events) (htraces : ∀ i, g'.traceOf i = g.traceOf i) : g'.Logged := by
  refine ⟨?_, fun i => ?_⟩
  · rw [hmetrics, hevents]; exact h.metrics
  · rw [hevents, htraces]; exact h.traces i

theorem traceOf_set {i j : Nat} {task new : SessionTask} (htask : g.tasks[i]? = some task)
    (htasks : g'.tasks = g.tasks.set i new) :
    g'.traceOf j = if j = i then new.trace else g.traceOf j := by
  obtain ⟨hi, -⟩ := List.getElem?_eq_some_iff.mp htask
  split
  case isTrue hj =>
    rw [hj, traceOf, htasks, List.getElem?_set_self hi]
    rfl
  case isFalse hj =>
    rw [traceOf, htasks, List.getElem?_set_ne (Ne.symm hj)]
    rfl

theorem traceOf_set_same {i j : Nat} {task : SessionTask} (new : SessionTask)
    (htask : g.tasks[i]? = some task) (htasks : g'.tasks = g.tasks.set i new)
    (hnew : new.trace = task.trace) : g'.traceOf j = g.traceOf j := by
  rw [traceOf_set htask htasks, hnew]
  split
  case isTrue hj => rw [hj, traceOf, htask]; rfl
  case isFalse => rfl

theorem traceOf_spawn (g : Gateway) (ipLimiter : IpLimiter) (ipGuard : IpGuard)
    (peerAddr : SocketAddr) (i : Nat) :
    (g.spawn ipLimiter ipGuard peerAddr).traceOf i = g.traceOf i := by
  show ((g.tasks ++ [_])[i]?).elim [] _ = (g.tasks[i]?).elim [] _
  rcases Nat.lt_trichotomy i g.tasks.length with hlt | heq | hgt
  · rw [List.getElem?_append_left hlt]
  · rw [heq, List.getElem?_concat_length, List.getElem?_eq_none (Nat.le_refl _)]
    rfl
  · rw [List.getElem?_eq_none (by simp; omega), List.getElem?_eq_none (by omega)]

theorem Logged.turn (h : g.Logged) (hturn : Turn g g') : g'.Logged := by
  cases hturn with
  | wait ms hup => exact h.same rfl rfl fun _ => rfl
  | signal hup => exact h.same rfl rfl fun _ => rfl
  | failedAccept hopen => exact h
  | refuse peerAddr ipLimiter hopen hacquire =>
      refine ⟨?_, fun i => ?_⟩
      · show g.metrics.connectionRejected = metricsAfter (g.events ++ [.connectionRejected])
        rw [metricsAfter_append_single, ← h.metrics]
        rfl
      · show ofSession i (g.events ++ [.connectionRejected]) = g.traceOf i
        rw [ofSession_append, ← h.traces i]
        exact List.append_nil _
  | spawn peerAddr ipLimiter ipGuard hopen hacquire =>
      exact h.same rfl rfl fun i => g.traceOf_spawn ipLimiter ipGuard peerAddr i
  | exchange i task e inUse hup htask hlive hports =>
      refine ⟨?_, fun j => ?_⟩
      · show g.metrics.step (.exchange i e) = metricsAfter (g.events ++ [.exchange i e])
        rw [metricsAfter_append_single, ← h.metrics]
      · have hdone : ofSession j [.exchange i e] = if i = j then [e] else [] :=
          ofSession_doing j i [e]
        show ofSession j (g.events ++ [.exchange i e]) = _
        rw [traceOf_set htask rfl, ofSession_append, h.traces, hdone]
        by_cases hj : j = i
        · rw [if_pos hj, if_pos hj.symm, hj, traceOf, htask]
          rfl
        · rw [if_neg hj, if_neg (Ne.symm hj), List.append_nil]
  | finish i task hup htask hlive =>
      exact h.same rfl rfl fun j => traceOf_set_same { task with ended := true } htask rfl rfl
  | breakLoop hphase hsignalled => unfold leaveLoop; split <;> exact h.same rfl rfl fun _ => rfl
  | join i task deadline hphase htask hended hjoined =>
      exact h.same rfl rfl fun j => traceOf_set_same { task with joined := true } htask rfl rfl
  | drained deadline hphase hnone => exact h.same rfl rfl fun _ => rfl
  | drainTimeout deadline hphase hlate hsome => exact h.same rfl rfl fun _ => rfl

/-- Where the sessions conform, `events` is an interleaving of sessions. -/
theorem Logged.gatewayRun (h : g.Logged) (hsessions : g.Conforms) : GatewayRun g.events := by
  intro i
  rw [h.traces i, traceOf]
  cases htask : g.tasks[i]? with
  | none => exact .running wholeUpload.world (sampleSession false) 0 List.nil_prefix
  | some task => exact (hsessions task (List.mem_of_getElem? htask)).1

/-- A census of the sessions, by what they hold. -/
theorem Logged.census_eq (h : g.Logged) {p : History Io → Bool} (hp : p [] = false) :
    census p g.events = g.tasks.countP fun task => p task.trace := by
  have hany : ∀ i, ((g.tasks[i]?).any fun task => p task.trace) = p (g.traceOf i) := by
    intro i
    rw [traceOf]
    cases g.tasks[i]? with
    | none => exact hp.symm
    | some task => rfl
  rw [census, countP_eq_card]
  congr 1
  ext i
  simp only [Finset.mem_filter, Finset.mem_range, h.traces, hany]
  refine and_congr_left fun hi => ?_
  constructor
  · intro _
    by_contra hlen
    rw [traceOf, List.getElem?_eq_none (Nat.not_lt.mp hlen), Option.elim_none, hp] at hi
    cases hi
  · intro _
    have hne : ofSession i g.events ≠ [] := by
      rw [h.traces]
      intro hnil
      rw [hnil, hp] at hi
      cases hi
    obtain ⟨e, he⟩ := List.exists_mem_of_ne_nil _ hne
    obtain ⟨ev, hev, hof⟩ := List.mem_filterMap.mp he
    rw [sessionsOf, List.mem_toFinset, List.mem_filterMap]
    refine ⟨ev, hev, ?_⟩
    cases ev with
    | connectionRejected => cases hof
    | exchange j e' =>
        simp only [GatewayEvent.exchangeOf] at hof
        split at hof
        case isTrue hji => rw [GatewayEvent.session?, hji]
        case isFalse => cases hof

/-! ## Runs -/

/-- Everything above, of a run from the start. -/
structure Accounted (range : PortRange) (maxPerIp : Nat) (backends : List BackendConfig)
    (g : Gateway) : Prop where
  dealt : Dealt backends g
  limited : 0 < maxPerIp → g.limWorld.Exact ∧ g.ipLimiter.maxPerIp = maxPerIp
  unlimited : maxPerIp = 0 → g.limWorld.Unlimited ∧ g.ipLimiter.maxPerIp = 0
  ports : g.Conforms → g.HoldsPorts
  logged : g.Logged

theorem Accounted.turn {range : PortRange} {maxPerIp : Nat} {backends : List BackendConfig}
    (h : Accounted range maxPerIp backends g) (hturn : Turn g g') :
    Accounted range maxPerIp backends g' where
  dealt := h.dealt.turn hturn
  limited hpos := limited_turn hpos (h.limited hpos) hturn
  unlimited hzero := unlimited_turn (h.unlimited hzero) hturn
  ports hsessions := holdsPorts_turn (h.ports (conforms_of_turn hturn hsessions)) hturn hsessions
  logged := h.logged.turn hturn

theorem accounted_start (range : PortRange) (maxPerIp : Nat) {backends : List BackendConfig}
    {selector : BackendSelector} (hselector : BackendSelector.new backends = some selector) :
    Accounted range maxPerIp backends (start range maxPerIp selector) := by
  refine ⟨dealt_start range maxPerIp hselector, fun _ => ?_, fun hzero => ?_, fun _ => ?_,
    ⟨rfl, fun _ => rfl⟩⟩
  · exact ⟨LimWorld.exact_init maxPerIp, rfl⟩
  · exact ⟨⟨fun _ h => (by cases h), rfl⟩, hzero⟩
  · have hnone : (start range maxPerIp selector).portOf = fun _ => none := rfl
    rw [HoldsPorts, hnone]
    exact Holding.Exact.empty

theorem accounted_of_run {range : PortRange} {maxPerIp : Nat} {backends : List BackendConfig}
    {selector : BackendSelector} (hselector : BackendSelector.new backends = some selector)
    {acts : List GatewayAct} (hrun : (start range maxPerIp selector).run acts = some g) :
    Accounted range maxPerIp backends g :=
  run_induction (accounted_start range maxPerIp hselector) (fun _ _ => Accounted.turn) hrun

/-! ## What is held -/

/-- The sessions of an address that run. -/
def runningFrom (g : Gateway) (ip : IpAddr) : Nat :=
  g.tasks.countP fun task => !task.ended && task.peerAddr.ip = ip

theorem Dealt.live_eq {backends : List BackendConfig} (h : Dealt backends g) (ip : IpAddr) :
    g.limWorld.live ip = g.runningFrom ip := by
  rw [LimWorld.live, limWorld, List.countP_filterMap, runningFrom]
  refine List.countP_congr fun task htask => ?_
  obtain ⟨i, hi⟩ := List.mem_iff_getElem?.mp htask
  have hstub : g.spawned[i]? = some (stub task) := by rw [spawned, List.getElem?_map, hi]; rfl
  have hip : task.ipGuard.ip = task.peerAddr.ip := (h.dealt i _ hstub).2.2
  rw [liveGuard, ← hip]
  cases task.ended <;> simp

theorem finished_guards {t : History Io} (ht : Finished t) :
    ∃ ch, guardsAt t = ⟨false, none, ch, .none, false⟩ := by
  cases ht with
  | returned w cfg n e hexit => exact (session_guards w cfg n).2 e hexit
  | unwound w cfg n hh => exact (always_unwinding ((session_guards w cfg n).1.initial hh)).2

/-- A gauge is the number of guards it counts. -/
theorem gauge_eq {L : List GatewayEvent} {k k' : Metric} {gauge : UInt64} {n : Nat}
    (hgauge : gauge + UInt64.ofNat (timesCounted k' L) = UInt64.ofNat (timesCounted k L))
    (hcount : timesCounted k L = timesCounted k' L + n) : gauge = UInt64.ofNat n := by
  rw [hcount, UInt64.ofNat_add] at hgauge
  grind

theorem Logged.gauges (h : g.Logged) (hsessions : g.Conforms) :
    g.metrics.sessionsActive = UInt64.ofNat (g.tasks.countP fun task => isRunning task.trace) ∧
    g.metrics.uploadsActive =
      UInt64.ofNat (g.tasks.countP fun task => isUploading task.trace) := by
  obtain ⟨hstarted, -, huploads⟩ := timesCounted_eq (h.gatewayRun hsessions)
  rw [h.census_eq rfl] at hstarted huploads
  rw [h.metrics]
  exact ⟨gauge_eq (Metrics.sessionsActive_add _) hstarted,
    gauge_eq (Metrics.uploadsActive_add _) huploads⟩

/-- Only a session that runs holds a port. -/
theorem running_of_portOf (hsessions : g.Conforms) {i : Nat} {port : UInt16}
    (h : g.portOf i = some port) : ∃ task, g.tasks[i]? = some task ∧ task.ended = false ∧
      (guardsAt task.trace).port = some port := by
  obtain ⟨task, htask, hport⟩ := Option.bind_eq_some_iff.mp h
  refine ⟨task, htask, ?_, hport⟩
  by_contra hended
  obtain ⟨ch, hg⟩ := finished_guards
    ((hsessions task (List.mem_of_getElem? htask)).2 (Bool.eq_true_of_not_eq_false hended))
  rw [hg] at hport
  cases hport

section Results

variable {range : PortRange} {maxPerIp : Nat} {backends : List BackendConfig}
  {selector : BackendSelector} {acts : List GatewayAct}

/-- **What is taken is what the sessions hold.** However accepts, sessions,
panics and the shutdown interleave: the limiter, unless its limit is 0 (none), has
for each address the number of its sessions that run, at most the limit; a PASV port
is in use exactly while a running session holds it, and no two hold the same; and
the gauges are the numbers of sessions and uploads under way. -/
theorem shared_state_is_what_sessions_hold
    (hselector : BackendSelector.new backends = some selector)
    (hrun : (start range maxPerIp selector).run acts = some g) (hsessions : g.Conforms) :
    (0 < maxPerIp → ∀ ip, g.ipLimiter.counts.lookup ip =
      (if g.runningFrom ip = 0 then none else some (g.runningFrom ip)) ∧
      g.runningFrom ip ≤ maxPerIp) ∧
    (∀ port, port ∈ g.inUse ↔ ∃ (i : Nat) (task : SessionTask), g.tasks[i]? = some task ∧
      task.ended = false ∧ (guardsAt task.trace).port = some port) ∧
    (∀ i j port, g.portOf i = some port → g.portOf j = some port → i = j) ∧
    g.metrics.sessionsActive = UInt64.ofNat (g.tasks.countP fun task => isRunning task.trace) ∧
    g.metrics.uploadsActive =
      UInt64.ofNat (g.tasks.countP fun task => isUploading task.trace) := by
  have h := accounted_of_run hselector hrun
  have hports := h.ports hsessions
  refine ⟨fun hpos ip => ?_, fun port => ?_, fun i j port => hports.inj,
    h.logged.gauges hsessions⟩
  · obtain ⟨hexact, hmax⟩ := h.limited hpos
    have hlive := h.dealt.live_eq ip
    have hle := hexact.le_max ip
    rw [show g.limWorld.limiter = g.ipLimiter from rfl, hmax, hlive] at hle
    refine ⟨?_, hle⟩
    have hcensus := hexact.census ip
    rw [hlive] at hcensus
    exact hcensus
  · rw [hports.mem_iff]
    constructor
    · rintro ⟨i, hi⟩
      exact ⟨i, running_of_portOf hsessions hi⟩
    · rintro ⟨i, task, htask, -, hport⟩
      exact ⟨i, by rw [portOf, htask]; exact hport⟩

end Results

/-! ## A session on its own -/

theorem run_append (g : Gateway) (acts acts' : List GatewayAct) :
    g.run (acts ++ acts') = (g.run acts).bind fun g' => g'.run acts' := by
  induction acts generalizing g with
  | nil => rfl
  | cons act rest ih =>
      rw [List.cons_append, run, run, Option.bind_assoc]
      exact congrArg _ (funext fun g' => ih g')

/-- Session `i` has made the exchanges `t`. -/
def exchanges (g : Gateway) (i : Nat) (task : SessionTask) (t : History Io)
    (inUse : Finset UInt16) : Gateway :=
  { g with
    inUse := inUse
    metrics := (doing i t).foldl Metrics.step g.metrics
    events := g.events ++ doing i t
    tasks := g.tasks.set i { task with trace := task.trace ++ t } }

/-- What a session does while the others wait. -/
theorem run_exchanges {i : Nat} {task : SessionTask} {t : History Io} {inUse : Finset UInt16}
    (hup : ∀ b, g.phase ≠ .exited b) (htask : g.tasks[i]? = some task)
    (hlive : task.ended = false)
    (hpool : t.foldlM (inUseAfter g.portRange) g.inUse = some inUse) :
    g.run (t.map (.exchange i)) = some (g.exchanges i task t inUse) := by
  induction t generalizing g task with
  | nil =>
      obtain ⟨before, after, hl, hset⟩ := split_of_getElem htask
      obtain rfl := Option.some.inj hpool
      simp [run, exchanges, doing, hset, ← hl]
  | cons e t ih =>
      obtain ⟨hi, -⟩ := List.getElem?_eq_some_iff.mp htask
      obtain ⟨inUse₁, hpool₁, hrest⟩ := Option.bind_eq_some_iff.mp hpool
      have hstep : g.step (.exchange i e) = some (g.exchange i task e inUse₁) := by
        simp only [step, htask]
        cases hphase : g.phase with
        | exited b => exact absurd hphase (hup b)
        | accepting => simp [hlive, hpool₁]
        | draining deadline => simp [hlive, hpool₁]
      have hnext : (g.exchange i task e inUse₁).run (t.map (.exchange i)) =
          some ((g.exchange i task e inUse₁).exchanges i
            { task with trace := task.trace ++ [e] } t inUse) :=
        ih hup (List.getElem?_set_self hi) hlive hrest
      rw [List.map_cons, run, hstep, Option.bind_some, hnext]
      simp [exchanges, exchange, doing]

/-- The session of `wholeUpload`, until the client has gone. -/
def uploadTrace : History Io := history wholeUpload.world (sampleSession false) 3

theorem uploadTrace_finished : Finished uploadTrace := by
  have hexit : (sessionRun wholeUpload.world (sampleSession false) 3).1 = .exit .brk := by
    decide +kernel
  exact .returned wholeUpload.world (sampleSession false) 3 .brk hexit

def oneBackend : BackendSelector := ⟨[⟨"ftp".toList, 21, defaultBackendPassivePorts⟩], 0, by simp⟩

theorem new_oneBackend : BackendSelector.new oneBackend.backends = some oneBackend := rfl

def firstTask : SessionTask :=
  ⟨1, firstPeer, oneBackend.next.1, ⟨true, firstPeer.ip⟩, [], false, false⟩

/-- One session for each client at a time, and the first has come. -/
def accepted : Gateway :=
  (start ⟨50000, 50010⟩ 1 oneBackend).spawn ((IpLimiter.new 1).tryAcquire firstPeer.ip).1
    ⟨true, firstPeer.ip⟩ firstPeer

theorem run_serving {t : History Io} {inUse : Finset UInt16}
    (hpool : t.foldlM (inUseAfter ⟨50000, 50010⟩) ∅ = some inUse) :
    (start ⟨50000, 50010⟩ 1 oneBackend).run (.accept (.ok firstPeer) :: t.map (.exchange 0)) =
      some (accepted.exchanges 0 firstTask t inUse) := by
  have haccept : (start ⟨50000, 50010⟩ 1 oneBackend).step (.accept (.ok firstPeer)) =
      some accepted := rfl
  rw [run, haccept, Option.bind_some]
  exact run_exchanges (fun b h => by cases h) rfl rfl hpool

theorem uploadTrace_pool :
    uploadTrace.foldlM (inUseAfter ⟨50000, 50010⟩) ∅ = some ∅ ∧
    (upTo .uploadStarted).foldlM (inUseAfter ⟨50000, 50010⟩) ∅ = some {50000} := by
  decide +kernel

theorem shared_state_during_upload :
    ∃ g acts, (start ⟨50000, 50010⟩ 1 oneBackend).run acts = some g ∧ 50000 ∈ g.inUse ∧
      ∃ (i : Nat) (task : SessionTask), g.tasks[i]? = some task ∧ task.ended = false ∧
        (guardsAt task.trace).port = some 50000 := by
  have hrun := run_serving uploadTrace_pool.2
  have hsessions : (accepted.exchanges 0 firstTask (upTo .uploadStarted) {50000}).Conforms :=
    List.forall_mem_singleton.mpr ⟨.running _ _ 2 (isPrefix_upTo .uploadStarted), nofun⟩
  have hmem : 50000 ∈ (accepted.exchanges 0 firstTask (upTo .uploadStarted) {50000}).inUse :=
    Finset.mem_singleton_self _
  exact ⟨_, _, hrun, hmem,
    ((shared_state_is_what_sessions_hold new_oneBackend hrun hsessions).2.1 50000).mp hmem⟩

end Gateway

end FtpGateway
