import FtpGateway.SharedState

/-!
# Shutting down

A signal ends the accept loop, and the sessions that are left have 30 s. Tasks
leave the `JoinSet` only then: a task that was joined had ended, and a gateway
that exits drained has joined them all (`Phased`), so it holds nothing any more
(`drained_gateway_holds_nothing`).
-/

namespace FtpGateway

open Str Interact Counting

namespace Gateway

variable {g g' : Gateway} {act : GatewayAct}

/-! ## Phases -/

/-- Which tasks have been joined, and when. -/
structure Phased (g : Gateway) : Prop where
  signalled : g.phase ≠ .accepting → g.signalled = true
  ended : ∀ task ∈ g.tasks, task.joined = true → task.ended = true
  early : g.phase = .accepting → ∀ task ∈ g.tasks, task.joined = false
  drained : g.phase = .exited true → ∀ task ∈ g.tasks, task.joined = true

theorem joined_of_sessions_eq_nil (h : g.sessions = []) :
    ∀ task ∈ g.tasks, task.joined = true := by
  intro task htask
  have := List.filter_eq_nil_iff.mp h task htask
  simpa using this

/-- A member changes, and is joined only if it was. -/
theorem Phased.set (h : g.Phased) {i : Nat} {task new : SessionTask}
    (htask : g.tasks[i]? = some task) (htasks : g'.tasks = g.tasks.set i new)
    (hjoined : new.joined = task.joined) (hended : task.ended = true → new.ended = true)
    (hphase : g'.phase = g.phase) (hsignalled : g'.signalled = g.signalled) : g'.Phased := by
  have hmem := List.mem_of_getElem? htask
  refine ⟨?_, ?_, ?_, ?_⟩
  · rw [hphase, hsignalled]
    exact h.signalled
  · rw [htasks]
    refine forall_set h.ended fun hnew => hended (h.ended task hmem ?_)
    rw [← hjoined]
    exact hnew
  · rw [hphase, htasks]
    exact fun hearly => forall_set (h.early hearly) (hjoined.trans (h.early hearly task hmem))
  · rw [hphase, htasks]
    exact fun hdone => forall_set (h.drained hdone) (hjoined.trans (h.drained hdone task hmem))

theorem Phased.turn (h : g.Phased) (hturn : Turn g g') : g'.Phased := by
  cases hturn with
  | wait ms hup => exact ⟨h.signalled, h.ended, h.early, h.drained⟩
  | signal hup => exact ⟨fun _ => rfl, h.ended, h.early, h.drained⟩
  | failedAccept hopen => exact h
  | refuse peerAddr ipLimiter hopen hacquire => exact ⟨h.signalled, h.ended, h.early, h.drained⟩
  | spawn peerAddr ipLimiter ipGuard hopen hacquire =>
      refine ⟨h.signalled, ?_, fun hearly => ?_, fun hdone => ?_⟩
      · exact List.forall_mem_append.mpr ⟨h.ended, List.forall_mem_singleton.mpr nofun⟩
      · exact List.forall_mem_append.mpr ⟨h.early hearly, List.forall_mem_singleton.mpr rfl⟩
      · exact absurd (hopen.1.symm.trans hdone) (by simp)
  | exchange i task e inUse hup htask hlive hports => exact h.set htask rfl rfl id rfl rfl
  | finish i task hup htask hlive => exact h.set htask rfl rfl (fun _ => rfl) rfl rfl
  | breakLoop hphase hsignalled =>
      unfold leaveLoop
      split
      case isTrue hnone =>
        refine ⟨fun _ => hsignalled, h.ended, nofun, fun _ => ?_⟩
        exact joined_of_sessions_eq_nil (List.length_eq_zero_iff.mp hnone)
      case isFalse => exact ⟨fun _ => hsignalled, h.ended, nofun, nofun⟩
  | join i task deadline hphase htask hended hjoined =>
      have hsignalled := h.signalled (by rw [hphase]; nofun)
      refine ⟨fun _ => hsignalled, forall_set h.ended fun _ => hended, ?_, ?_⟩
      · rw [hphase]; nofun
      · rw [hphase]; nofun
  | drained deadline hphase hnone =>
      have hsignalled := h.signalled (by rw [hphase]; nofun)
      exact ⟨fun _ => hsignalled, h.ended, nofun, fun _ => joined_of_sessions_eq_nil hnone⟩
  | drainTimeout deadline hphase hlate hsome =>
      have hsignalled := h.signalled (by rw [hphase]; nofun)
      exact ⟨fun _ => hsignalled, h.ended, nofun, nofun⟩

theorem phased_start (range : PortRange) (maxPerIp : Nat) (selector : BackendSelector) :
    (start range maxPerIp selector).Phased :=
  ⟨fun h => absurd rfl h, fun _ h => (by cases h), fun _ _ h => (by cases h), nofun⟩

section Results

variable {range : PortRange} {maxPerIp : Nat} {backends : List BackendConfig}
  {selector : BackendSelector} {acts acts' : List GatewayAct}

/-- **A drained gateway has given everything back.** If the shutdown ends with
all sessions drained: every session it ever accepted is over, no address has a
connection counted, no PASV port is in use, the gauges stand at zero, and every
upload counted as started is counted as completed or failed. -/
theorem drained_gateway_holds_nothing
    (hselector : BackendSelector.new backends = some selector)
    (hrun : (start range maxPerIp selector).run acts = some g) (hsessions : g.Conforms)
    (hdrained : g.phase = .exited true) :
    (∀ task ∈ g.tasks, task.ended = true) ∧ (∀ ip, g.ipLimiter.counts.lookup ip = none) ∧
    g.inUse = ∅ ∧ g.metrics.sessionsActive = 0 ∧ g.metrics.uploadsActive = 0 ∧
    (g.metrics.uploadsStartedTotal.toNat < 2 ^ 64 - 1 → g.metrics.uploadsStartedTotal.toNat =
      g.metrics.uploadsCompletedTotal.toNat + g.metrics.uploadsFailedTotal.toNat) := by
  have h := accounted_of_run hselector hrun
  have hphased := run_induction (phased_start range maxPerIp selector) (fun _ _ => Phased.turn) hrun
  have hended : ∀ task ∈ g.tasks, task.ended = true := fun task htask =>
    hphased.ended task htask (hphased.drained hdrained task htask)
  have hguards : ∀ task ∈ g.tasks, ∃ ch, guardsAt task.trace = ⟨false, none, ch, .none, false⟩ :=
    fun task htask => finished_guards ((hsessions task htask).2 (hended task htask))
  have hzero : ∀ p : SessionTask → Bool, (∀ task ∈ g.tasks, p task = false) →
      g.tasks.countP p = 0 := by
    intro p hp
    rw [List.countP_eq_zero]
    exact fun task htask => by simp [hp task htask]
  obtain ⟨hactive, huploads⟩ := h.logged.gauges hsessions
  refine ⟨hended, fun ip => ?_, ?_, ?_, ?_, ?_⟩
  · rcases Nat.eq_zero_or_pos maxPerIp with hmax | hpos
    · show g.limWorld.limiter.counts.lookup ip = none
      rw [(h.unlimited hmax).1.counts, Finmap.lookup_empty]
    · have hnone : g.runningFrom ip = 0 := hzero _ fun task htask => by simp [hended task htask]
      have hcensus := (h.limited hpos).1.census ip
      rw [h.dealt.live_eq, hnone] at hcensus
      exact hcensus
  · rw [Finset.eq_empty_iff_forall_notMem]
    intro port hport
    obtain ⟨i, hi⟩ := ((h.ports hsessions).mem_iff port).mp hport
    obtain ⟨task, htask, hlive, -⟩ := running_of_portOf hsessions hi
    rw [hended task (List.mem_of_getElem? htask)] at hlive
    cases hlive
  · rw [hactive, hzero _ fun task htask => ?_]
    · rfl
    · obtain ⟨ch, hg⟩ := hguards task htask
      rw [isRunning, hg]
  · rw [huploads, hzero _ fun task htask => ?_]
    · rfl
    · obtain ⟨ch, hg⟩ := hguards task htask
      rw [isUploading, hg]
  · obtain ⟨-, hattempts, -⟩ := timesCounted_eq (h.logged.gatewayRun hsessions)
    have hnone : census isAttempting g.events = 0 := by
      rw [h.logged.census_eq rfl]
      refine hzero _ fun task htask => ?_
      obtain ⟨ch, hg⟩ := hguards task htask
      rw [isAttempting, hg]
      rfl
    rw [h.logged.metrics, Metrics.toNat_uploadsStartedTotal, Metrics.toNat_uploadsCompletedTotal,
      Metrics.toNat_uploadsFailedTotal]
    omega

/-! ## The drain -/

theorem spawned_of_turn (hsignalled : g.signalled = true) (hturn : Turn g g') :
    g'.spawned = g.spawned ∧ g'.signalled = true := by
  cases hturn with
  | wait ms hup => exact ⟨rfl, hsignalled⟩
  | signal hup => exact ⟨rfl, rfl⟩
  | failedAccept hopen => exact ⟨rfl, hsignalled⟩
  | refuse peerAddr ipLimiter hopen hacquire => exact ⟨rfl, hsignalled⟩
  | spawn peerAddr ipLimiter ipGuard hopen hacquire =>
      rw [hopen.2] at hsignalled
      cases hsignalled
  | exchange i task e inUse hup htask hlive hports => exact ⟨map_set_of_eq htask rfl, hsignalled⟩
  | finish i task hup htask hlive => exact ⟨map_set_of_eq htask rfl, hsignalled⟩
  | breakLoop hphase hsignalled' => unfold leaveLoop; split <;> exact ⟨rfl, hsignalled⟩
  | join i task deadline hphase htask hended hjoined =>
      exact ⟨map_set_of_eq htask rfl, hsignalled⟩
  | drained deadline hphase hnone => exact ⟨rfl, hsignalled⟩
  | drainTimeout deadline hphase hlate hsome => exact ⟨rfl, hsignalled⟩

theorem spawned_of_run (hsignalled : g.signalled = true) {acts : List GatewayAct} {last : Gateway}
    (hrun : g.run acts = some last) : last.spawned = g.spawned ∧ last.signalled = true :=
  run_induction (P := fun g₁ => g₁.spawned = g.spawned ∧ g₁.signalled = true) ⟨rfl, hsignalled⟩
    (fun _ _ h₁ h₂ =>
      ⟨(spawned_of_turn h₁.2 h₂).1.trans h₁.1, (spawned_of_turn h₁.2 h₂).2⟩) hrun

/-- After the loop: the drain goes on until its deadline, or it is over. -/
inductive Draining (deadline : Nat) (g : Gateway) : Prop where
  | going (hphase : g.phase = .draining deadline)
  | done (hphase : g.phase = .exited true)
  | cutOff (hphase : g.phase = .exited false) (hlate : deadline ≤ g.now) (hsome : g.sessions ≠ [])

theorem Draining.turn {deadline : Nat} (h : Draining deadline g) (hturn : Turn g g') :
    Draining deadline g' := by
  have hnot : g.phase ≠ .accepting := by
    cases h with
    | going hphase => rw [hphase]; nofun
    | done hphase => rw [hphase]; nofun
    | cutOff hphase hlate hsome => rw [hphase]; nofun
  have hgoing : (∀ b, g.phase ≠ .exited b) → g.phase = .draining deadline := by
    intro hup
    cases h with
    | going hphase => exact hphase
    | done hphase => exact absurd hphase (hup true)
    | cutOff hphase hlate hsome => exact absurd hphase (hup false)
  cases hturn with
  | wait ms hup => exact .going (hgoing hup)
  | signal hup => exact .going (hgoing hup)
  | failedAccept hopen => exact absurd hopen.1 hnot
  | refuse peerAddr ipLimiter hopen hacquire => exact absurd hopen.1 hnot
  | spawn peerAddr ipLimiter ipGuard hopen hacquire => exact absurd hopen.1 hnot
  | exchange i task e inUse hup htask hlive hports => exact .going (hgoing hup)
  | finish i task hup htask hlive => exact .going (hgoing hup)
  | breakLoop hphase hsignalled => exact absurd hphase hnot
  | join i task deadline' hphase htask hended hjoined =>
      exact .going (hgoing fun b => by rw [hphase]; nofun)
  | drained deadline' hphase hnone => exact .done rfl
  | drainTimeout deadline' hphase hlate hsome =>
      have hsame := (hgoing fun b => by rw [hphase]; nofun).symm.trans hphase
      obtain rfl := LoopPhase.draining.inj hsame
      exact .cutOff rfl hlate hsome

/-- **The shutdown.** From the first moment a signal is there, no session starts.
The loop is left only then, with every session ever started still in the
`JoinSet`, so that is the number reported as active; from then on the gateway
exits either when all of them are over or, with a session not joined, no sooner
than 30 s later. -/
theorem shutdown_bounded (hrun : (start range maxPerIp selector).run acts = some g) :
    (g.signalled = true → ∀ acts' last, g.run acts' = some last → last.spawned = g.spawned) ∧
    ∀ g', g.step .breakLoop = some g' → g.signalled = true ∧ g.sessions = g.tasks ∧
      ∀ acts' last, g'.run acts' = some last → last.spawned = g.spawned ∧
        (last.phase = .exited true → ∀ task ∈ last.tasks, task.ended = true) ∧
        (last.phase = .exited false →
          g.now + shutdownDrainTimeout ≤ last.now ∧ ∃ task ∈ last.tasks, task.joined = false) := by
  refine ⟨fun hsignalled _ _ hrest => (spawned_of_run hsignalled hrest).1, fun g' hleft => ?_⟩
  have h := run_induction (phased_start range maxPerIp selector) (fun _ _ => Phased.turn) hrun
  have hopen : g.phase = .accepting ∧ g.signalled = true := by
    simp only [step] at hleft
    split at hleft
    case isTrue hopen => exact hopen
    case isFalse => cases hleft
  have hturn := turn_of_step hleft
  obtain ⟨hspawned, hsignalled⟩ := spawned_of_turn hopen.2 hturn
  have hdrain : Draining (g.now + shutdownDrainTimeout) g' := by
    rw [step, if_pos hopen] at hleft
    obtain rfl := Option.some.inj hleft
    unfold leaveLoop
    split
    · exact .done rfl
    · exact .going rfl
  refine ⟨hopen.2, ?_, fun acts' last hlast => ?_⟩
  · refine List.filter_eq_self.mpr fun task htask => ?_
    rw [h.early hopen.1 task htask]
    rfl
  have hend := run_induction hdrain (fun _ _ => Draining.turn) hlast
  have hphased := run_induction (h.turn hturn) (fun _ _ => Phased.turn) hlast
  refine ⟨(spawned_of_run hsignalled hlast).1.trans hspawned, fun hdone task htask => ?_,
    fun hcut => ?_⟩
  · exact hphased.ended task htask (hphased.drained hdone task htask)
  · cases hend with
    | going hphase => rw [hphase] at hcut; cases hcut
    | done hphase => rw [hphase] at hcut; cases hcut
    | cutOff hphase hlate hsome =>
        obtain ⟨task, htask⟩ := List.exists_mem_of_ne_nil _ hsome
        obtain ⟨hmem, hjoined⟩ := List.mem_filter.mp htask
        exact ⟨hlate, task, hmem, by simpa using hjoined⟩

end Results

/-- The last session is over and the gateway shuts down. -/
def closing : List GatewayAct := [.finish 0, .signal, .breakLoop, .joinNext 0, .drained]

def closed (t : History Io) (inUse : Finset UInt16) : Gateway :=
  { accepted.exchanges 0 firstTask t inUse with
    phase := .exited true
    signalled := true
    ipLimiter := accepted.ipLimiter.drop firstTask.ipGuard
    tasks := [⟨1, firstPeer, oneBackend.next.1, ⟨true, firstPeer.ip⟩, t, true, true⟩] }

theorem run_closing (t : History Io) (inUse : Finset UInt16) :
    (accepted.exchanges 0 firstTask t inUse).run closing = some (closed t inUse) := rfl

theorem drained_gateway_after_upload :
    ∃ g acts, (start ⟨50000, 50010⟩ 1 oneBackend).run acts = some g ∧ g.phase = .exited true ∧
      g.tasks.length = 1 ∧ g.inUse = ∅ ∧ g.metrics.uploadsActive = 0 := by
  have hrun : (start ⟨50000, 50010⟩ 1 oneBackend).run
      ((.accept (.ok firstPeer) :: uploadTrace.map (.exchange 0)) ++ closing) =
        some (closed uploadTrace ∅) := by
    rw [run_append, run_serving uploadTrace_pool.1, Option.bind_some]
    exact run_closing uploadTrace ∅
  have hsessions : (closed uploadTrace ∅).Conforms :=
    List.forall_mem_singleton.mpr
      ⟨.running wholeUpload.world (sampleSession false) 3 (List.prefix_refl _),
        fun _ => uploadTrace_finished⟩
  obtain ⟨-, -, hports, -, huploads, -⟩ :=
    drained_gateway_holds_nothing new_oneBackend hrun hsessions rfl
  exact ⟨_, _, hrun, rfl, rfl, hports, huploads⟩

theorem shutdown_bounded_stuck_session :
    ∃ g g' last, (start ⟨50000, 50010⟩ 1 oneBackend).run [.accept (.ok firstPeer), .signal] =
      some g ∧ g.step .breakLoop = some g' ∧ g'.run [.wait 30000, .drainTimeout] = some last ∧
      last.phase = .exited false ∧ g.now + shutdownDrainTimeout ≤ last.now := by
  have hrun : (start ⟨50000, 50010⟩ 1 oneBackend).run [.accept (.ok firstPeer), .signal] =
      some { accepted with signalled := true } := rfl
  have hleft : Gateway.step { accepted with signalled := true } .breakLoop =
      some { accepted with signalled := true, phase := .draining shutdownDrainTimeout } := rfl
  have hlast : Gateway.run
      { accepted with signalled := true, phase := .draining shutdownDrainTimeout }
      [.wait 30000, .drainTimeout] =
        some { accepted with signalled := true, phase := .exited false, now := 30000 } := by
    simp [run, step, accepted, start, spawn, sessions, shutdownDrainTimeout]
  obtain ⟨-, -, hrest⟩ := (shutdown_bounded hrun).2 _ hleft
  exact ⟨_, _, _, hrun, hleft, hlast, rfl, ((hrest _ _ hlast).2.2 rfl).1⟩

end Gateway

end FtpGateway
