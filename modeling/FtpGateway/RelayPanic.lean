import FtpGateway.RelayPipe

/-!
# Deadlines that cannot be represented

An `Instant` holds a signed 64-bit number of seconds and `Instant + Duration`
panics where the sum has none. `tokio::time::sleep`, which builds the timer of a
copy loop, falls back to a deadline far in the future instead; the reset after
each chunk does not. `Config::validate` puts no bound on
`data_idle_timeout_secs`, so a relay can panic.

`relayChecked` is the relay of `Relay` with that panic. It goes wrong exactly
where a direction has written the end of a chunk at an instant whose deadline
does not fit (`relayRunChecked_panicked`), and is the relay without panics
otherwise (`relayRunChecked_ok`).
-/

namespace FtpGateway

/-! ## Instants -/

def nanosPerSec : Nat := 1000000000

/-- `i64::MAX`. -/
def maxInstantSecs : Nat := 9223372036854775807

/-- `Instant + Duration`, in nanoseconds: `none` is the panic. -/
def instantAdd (now duration : Nat) : Option Nat :=
  if (now + duration) / nanosPerSec ≤ maxInstantSecs then some (now + duration) else none

/-- The deadline `tokio::time::sleep` sets: thirty years from now where the sum
does not fit. -/
def sleepDeadline (duration now : Nat) : Nat :=
  (instantAdd now duration).getD (now + 86400 * 365 * 30 * nanosPerSec)

theorem instantAdd_secs_eq_none {now secs : Nat} :
    instantAdd now (secs * nanosPerSec) = none ↔ maxInstantSecs < now / nanosPerSec + secs := by
  have hdiv : (now + secs * nanosPerSec) / nanosPerSec = now / nanosPerSec + secs :=
    Nat.add_mul_div_right _ _ (by decide)
  rw [instantAdd, hdiv]
  split <;> simp <;> omega

/-! ## The relay with its panics -/

/-- Why a list of polls has no outcome: no execution goes that way, or the relay
panicked. -/
inductive Stop where
  | impossible
  | panicked
deriving Repr, DecidableEq

namespace Copy

def startSleeping (idleTimeout now : Nat) : Copy :=
  { Copy.start idleTimeout now with deadline := sleepDeadline idleTimeout now }

/-- The operation ends a chunk, after which the loop resets its timer. -/
def resets (c : Copy) : IoDone → Bool
  | .wrote n =>
      match c.pc with
      | .writing rest _ => n = rest.length
      | _ => false
  | _ => false

def completeChecked (idleTimeout now : Nat) (c : Copy) (e : IoDone) : Except Stop Copy :=
  match c.complete idleTimeout now e with
  | none => .error .impossible
  | some c' =>
      if c.resets e && (instantAdd now idleTimeout).isNone then .error .panicked else .ok c'

def pollChecked (idleTimeout now : Nat) (c : Copy) (done : List IoDone) : Except Stop Copy :=
  (done.foldlM (completeChecked idleTimeout now) c).map (checkTimer now)

def hasFailed (c : Copy) : Bool :=
  match c.pc with
  | .failed _ => true
  | _ => false

end Copy

/-- One poll of `try_join!`. The second loop is not polled once the first has
failed. -/
def pollBothChecked (idleTimeout : Nat) (p : Poll) (st : RelayState) : Except Stop RelayOutcome :=
  match (st.get p.first).pollChecked idleTimeout p.now (p.of p.first) with
  | .error stop => .error stop
  | .ok c₁ =>
      match if c₁.hasFailed then .ok c₁
        else (st.get p.first.other).pollChecked idleTimeout p.now (p.of p.first.other) with
      | .error stop => .error stop
      | .ok _ =>
          match pollBoth idleTimeout p st with
          | none => .error .impossible
          | some out => .ok out

def relayRunChecked (idleTimeout : Nat) : Nat → RelayState → List Poll → Except Stop RelayOutcome
  | _, st, [] => .ok ⟨none, st⟩
  | clock, st, p :: ps =>
      if p.now < clock then .error .impossible
      else
        match pollBothChecked idleTimeout p st with
        | .error stop => .error stop
        | .ok out =>
            match out.result with
            | none => relayRunChecked idleTimeout p.now out.final ps
            | some _ => if ps = [] then .ok out else .error .impossible

/-- `data_idle_timeout`, the `Duration::from_secs` of the setting. -/
def Config.dataIdleTimeout (config : Config) : Nat :=
  config.timeouts.dataIdleTimeoutSecs.toNat * nanosPerSec

/-- `relay_bidirectional` started at instant `now` under a configuration, in
nanoseconds. -/
def relayChecked (config : Config) (now : Nat) (polls : List Poll) : Except Stop RelayOutcome :=
  relayRunChecked config.dataIdleTimeout now
    ⟨.startSleeping config.dataIdleTimeout now, .startSleeping config.dataIdleTimeout now⟩ polls

/-! ## Ends of chunks in the raw record -/

/-- The operations `new` that completed after `es` write the end of a chunk: at
some point everything read has been written, with a write just done. -/
def ChunkEnds (es new : List IoDone) : Prop :=
  ∃ fs n gs, new = fs ++ .wrote n :: gs ∧ bytesWrote (es ++ fs) + n = bytesRead (es ++ fs)

theorem not_chunkEnds_nil (es : List IoDone) : ¬ChunkEnds es [] := by
  rintro ⟨fs, n, gs, h, -⟩
  cases fs <;> cases h

theorem chunkEnds_cons {es new : List IoDone} {e : IoDone} :
    ChunkEnds es (e :: new) ↔
      (∃ n, e = .wrote n ∧ bytesWrote es + n = bytesRead es) ∨ ChunkEnds (es ++ [e]) new := by
  constructor
  · rintro ⟨fs, n, gs, h, heq⟩
    cases fs with
    | nil =>
        obtain ⟨rfl, -⟩ := List.cons.inj h
        exact Or.inl ⟨n, rfl, by simpa using heq⟩
    | cons f fs =>
        obtain ⟨rfl, rfl⟩ := List.cons.inj h
        exact Or.inr ⟨fs, n, gs, rfl, by simpa using heq⟩
  · rintro (⟨n, rfl, heq⟩ | ⟨fs, n, gs, rfl, heq⟩)
    · exact ⟨[], n, new, rfl, by simpa using heq⟩
    · exact ⟨e :: fs, n, gs, rfl, by simpa using heq⟩

namespace Copy

variable {idleTimeout now : Nat} {es new : List IoDone} {c c' : Copy} {e : IoDone}

/-- Which operations reset the timer, told from the record alone. -/
theorem resets_iff (hl : c.Ledger es) (h : c.complete idleTimeout now e = some c') :
    c.resets e = true ↔ ∃ n, e = .wrote n ∧ bytesWrote es + n = bytesRead es := by
  have hread : c.input.length = bytesRead es := by rw [hl.input, length_dataRead]
  have hpass := hl.passed
  cases completes_of_complete h with
  | drained hpc =>
      rw [hpc] at hpass
      rename_i rest chunk
      refine ⟨fun _ => ⟨_, rfl, ?_⟩, fun _ => by simp [resets, hpc]⟩
      rw [← hl.output_length, ← hread, ← show c.output ++ rest = c.input from hpass,
        List.length_append]
  | partly hpc hpos hlt =>
      rw [hpc] at hpass
      rename_i rest chunk n
      have hlen : c.output.length + rest.length = c.input.length := by
        rw [← List.length_append, show c.output ++ rest = c.input from hpass]
      rw [hl.output_length, hread] at hlen
      constructor
      · intro hr
        simp only [resets, hpc, decide_eq_true_eq] at hr
        omega
      · rintro ⟨m, heq, hsum⟩
        cases heq
        omega
  | _ => exact ⟨fun hr => (by cases hr), fun ⟨n, heq, _⟩ => (by cases heq)⟩

theorem completeChecked_ok (h : c.completeChecked idleTimeout now e = .ok c') :
    c.complete idleTimeout now e = some c' ∧
      ¬(c.resets e = true ∧ instantAdd now idleTimeout = none) := by
  rw [completeChecked] at h
  split at h
  · cases h
  · rename_i c₁ hc₁
    split at h
    · cases h
    · rename_i hfits
      obtain rfl := Except.ok.inj h
      exact ⟨hc₁, by simpa using hfits⟩

theorem completeChecked_panicked (h : c.completeChecked idleTimeout now e = .error .panicked) :
    (∃ c', c.complete idleTimeout now e = some c') ∧ c.resets e = true ∧
      instantAdd now idleTimeout = none := by
  rw [completeChecked] at h
  split at h
  · cases h
  · rename_i c₁ hc₁
    split at h
    · rename_i hover
      exact ⟨⟨c₁, hc₁⟩, by simpa using hover⟩
    · cases h

theorem completesChecked_ok (hl : c.Ledger es)
    (h : new.foldlM (completeChecked idleTimeout now) c = .ok c') :
    new.foldlM (complete idleTimeout now) c = some c' ∧
      ¬(ChunkEnds es new ∧ instantAdd now idleTimeout = none) := by
  induction new generalizing es c with
  | nil =>
      obtain rfl := Except.ok.inj h
      exact ⟨rfl, fun hover => not_chunkEnds_nil es hover.1⟩
  | cons e new ih =>
      rw [List.foldlM_cons] at h ⊢
      cases hstep : c.completeChecked idleTimeout now e with
      | error stop =>
          rw [hstep] at h
          cases h
      | ok c₁ =>
          rw [hstep] at h
          obtain ⟨hc₁, hfits⟩ := completeChecked_ok hstep
          obtain ⟨hrest, hnone⟩ := ih (completes_ledger hl (completes_of_complete hc₁)) h
          rw [hc₁]
          refine ⟨hrest, ?_⟩
          rintro ⟨hends, hover⟩
          rcases chunkEnds_cons.mp hends with hnow | hlater
          · exact hfits ⟨(resets_iff hl hc₁).mpr hnow, hover⟩
          · exact hnone ⟨hlater, hover⟩

theorem completesChecked_panicked (hl : c.Ledger es)
    (h : new.foldlM (completeChecked idleTimeout now) c = .error .panicked) :
    ChunkEnds es new ∧ instantAdd now idleTimeout = none := by
  induction new generalizing es c with
  | nil => cases h
  | cons e new ih =>
      rw [List.foldlM_cons] at h
      cases hstep : c.completeChecked idleTimeout now e with
      | error stop =>
          rw [hstep] at h
          obtain rfl := Except.error.inj h
          obtain ⟨⟨c₁, hc₁⟩, hreset, hover⟩ := completeChecked_panicked hstep
          exact ⟨chunkEnds_cons.mpr (Or.inl ((resets_iff hl hc₁).mp hreset)), hover⟩
      | ok c₁ =>
          rw [hstep] at h
          have hl₁ := completes_ledger hl (completes_of_complete (completeChecked_ok hstep).1)
          obtain ⟨hends, hover⟩ := ih hl₁ h
          exact ⟨chunkEnds_cons.mpr (Or.inr hends), hover⟩

theorem pollChecked_ok (hl : c.Ledger es) (h : c.pollChecked idleTimeout now new = .ok c') :
    c.poll idleTimeout now new = some c' ∧
      ¬(ChunkEnds es new ∧ instantAdd now idleTimeout = none) := by
  rw [pollChecked] at h
  cases hfold : new.foldlM (completeChecked idleTimeout now) c with
  | error stop =>
      rw [hfold] at h
      cases h
  | ok c₁ =>
      rw [hfold] at h
      obtain rfl := Except.ok.inj h
      obtain ⟨hrun, hfits⟩ := completesChecked_ok hl hfold
      exact ⟨by rw [poll, hrun]; rfl, hfits⟩

theorem pollChecked_panicked (hl : c.Ledger es)
    (h : c.pollChecked idleTimeout now new = .error .panicked) :
    ChunkEnds es new ∧ instantAdd now idleTimeout = none := by
  rw [pollChecked] at h
  cases hfold : new.foldlM (completeChecked idleTimeout now) c with
  | ok c₁ =>
      rw [hfold] at h
      cases h
  | error stop =>
      rw [hfold] at h
      obtain rfl := Except.error.inj h
      exact completesChecked_panicked hl hfold

end Copy

/-! ## Both directions, over whole relays -/

/-- Direction `d` writes the end of a chunk during the poll `p` after `pre`. -/
def ChunkMoved (d : Dir) (pre : List Poll) (p : Poll) : Prop :=
  ChunkEnds (eventsOf d pre) (p.of d)

/-- A chunk is moved at an instant whose deadline does not fit. -/
def Overflows (idleTimeout : Nat) (pre : List Poll) (p : Poll) : Prop :=
  (∃ d, ChunkMoved d pre p) ∧ instantAdd p.now idleTimeout = none

variable {idleTimeout : Nat} {pre polls : List Poll} {p : Poll} {st : RelayState}
  {out : RelayOutcome}

theorem not_overflows (hfirst : ¬(ChunkMoved p.first pre p ∧ instantAdd p.now idleTimeout = none))
    (hother : ¬(ChunkMoved p.first.other pre p ∧ instantAdd p.now idleTimeout = none)) :
    ¬Overflows idleTimeout pre p := by
  rintro ⟨⟨d, hmoved⟩, hover⟩
  have hnot : ∀ e, ¬ChunkMoved e pre p :=
    (forall_dir p.first).mpr ⟨fun h => hfirst ⟨h, hover⟩, fun h => hother ⟨h, hover⟩⟩
  exact hnot d hmoved

/-- A poll that does not panic is a poll of the relay, and no deadline it sets
overflows. -/
theorem pollBothChecked_ok (hl : ∀ d, (st.get d).Ledger (eventsOf d pre))
    (h : pollBothChecked idleTimeout p st = .ok out) :
    pollBoth idleTimeout p st = some out ∧ ¬Overflows idleTimeout pre p := by
  unfold pollBothChecked at h
  split at h
  · cases h
  rename_i c₁ hfirst
  split at h
  · cases h
  rename_i c₂ hsecond
  split at h
  · cases h
  rename_i out₁ hboth
  obtain rfl := Except.ok.inj h
  obtain ⟨hpoll₁, hfits₁⟩ := Copy.pollChecked_ok (hl p.first) hfirst
  refine ⟨hboth, not_overflows hfits₁ ?_⟩
  split at hsecond
  case isFalse => exact (Copy.pollChecked_ok (hl p.first.other) hsecond).2
  case isTrue hfailed =>
    have hnil : p.of p.first.other = [] := by
      cases polledBoth_of_pollBoth hboth with
      | firstFailed _ _ hnil => exact hnil
      | otherFailed hc hok _ _ =>
          obtain rfl := Option.some.inj (hpoll₁.symm.trans hc)
          cases hpc : c₁.pc with
          | failed e => exact absurd hpc (hok e)
          | _ => simp [Copy.hasFailed, hpc] at hfailed
      | finished hc hdone _ _ _ =>
          obtain rfl := Option.some.inj (hpoll₁.symm.trans hc)
          simp [Copy.hasFailed, hdone] at hfailed
      | pending hc hok _ _ _ =>
          obtain rfl := Option.some.inj (hpoll₁.symm.trans hc)
          cases hpc : c₁.pc with
          | failed e => exact absurd hpc (hok e)
          | _ => simp [Copy.hasFailed, hpc] at hfailed
    rintro ⟨hmoved, -⟩
    rw [ChunkMoved, hnil] at hmoved
    exact not_chunkEnds_nil _ hmoved

theorem pollBothChecked_panicked (hl : ∀ d, (st.get d).Ledger (eventsOf d pre))
    (h : pollBothChecked idleTimeout p st = .error .panicked) :
    Overflows idleTimeout pre p := by
  unfold pollBothChecked at h
  split at h
  · rename_i stop hfirst
    obtain rfl := Except.error.inj h
    obtain ⟨hmoved, hover⟩ := Copy.pollChecked_panicked (hl p.first) hfirst
    exact ⟨⟨p.first, hmoved⟩, hover⟩
  rename_i c₁ hfirst
  split at h
  · rename_i stop hsecond
    obtain rfl := Except.error.inj h
    split at hsecond
    · cases hsecond
    · obtain ⟨hmoved, hover⟩ := Copy.pollChecked_panicked (hl p.first.other) hsecond
      exact ⟨⟨p.first.other, hmoved⟩, hover⟩
  · split at h <;> cases h

/-- What a run that does not panic returns is what the relay returns. -/
theorem relayRunChecked_ok {clock : Nat} (hl : ∀ d, (st.get d).Ledger (eventsOf d pre))
    (h : relayRunChecked idleTimeout clock st polls = .ok out) :
    relayRun idleTimeout clock st polls = some out ∧
      ∀ ps p qs, polls = ps ++ p :: qs → ¬Overflows idleTimeout (pre ++ ps) p := by
  induction polls generalizing pre clock st with
  | nil =>
      obtain rfl := Except.ok.inj h
      refine ⟨rfl, fun ps p qs hsplit => ?_⟩
      cases ps <;> cases hsplit
  | cons p₀ rest ih =>
      simp only [relayRunChecked] at h
      split at h
      · cases h
      rename_i hclock
      split at h
      · cases h
      rename_i out₁ hpoll
      obtain ⟨hboth, hfits⟩ := pollBothChecked_ok hl hpoll
      have hl₁ := (Copy.kept_ledger idleTimeout).pollBoth hl hboth
      simp only [relayRun]
      rw [if_neg hclock, hboth]
      split at h
      · rename_i hgoing
        obtain ⟨hrun, hlater⟩ := ih hl₁ h
        simp only [hgoing]
        refine ⟨hrun, fun ps p qs hsplit => ?_⟩
        cases ps with
        | nil =>
            obtain ⟨rfl, -⟩ := List.cons.inj hsplit
            simpa using hfits
        | cons q ps =>
            obtain ⟨rfl, rfl⟩ := List.cons.inj hsplit
            simpa using hlater ps p qs rfl
      · rename_i r hended
        split at h
        · rename_i hnil
          obtain rfl := Except.ok.inj h
          subst hnil
          simp only [hended]
          refine ⟨rfl, fun ps p qs hsplit => ?_⟩
          cases ps with
          | nil =>
              obtain ⟨rfl, -⟩ := List.cons.inj hsplit
              simpa using hfits
          | cons q ps => cases ps <;> cases hsplit
        · cases h

theorem relayRunChecked_panicked {clock : Nat}
    (hl : ∀ d, (st.get d).Ledger (eventsOf d pre))
    (h : relayRunChecked idleTimeout clock st polls = .error .panicked) :
    ∃ ps p qs, polls = ps ++ p :: qs ∧ Overflows idleTimeout (pre ++ ps) p := by
  induction polls generalizing pre clock st with
  | nil => cases h
  | cons p₀ rest ih =>
      simp only [relayRunChecked] at h
      split at h
      · cases h
      split at h
      · rename_i stop hpoll
        obtain rfl := Except.error.inj h
        exact ⟨[], p₀, rest, rfl, by simpa using pollBothChecked_panicked hl hpoll⟩
      rename_i out₁ hpoll
      have hl₁ := (Copy.kept_ledger idleTimeout).pollBoth hl (pollBothChecked_ok hl hpoll).1
      split at h
      · obtain ⟨ps, p, qs, rfl, hover⟩ := ih hl₁ h
        exact ⟨p₀ :: ps, p, qs, rfl, by simpa using hover⟩
      · split at h <;> cases h

theorem relayChecked_start_ledger (duration now : Nat) (d : Dir) :
    (RelayState.get ⟨.startSleeping duration now, .startSleeping duration now⟩ d).Ledger
      (eventsOf d []) := by
  have hstart : (Copy.startSleeping duration now).Ledger [] :=
    ⟨⟨rfl, rfl⟩, rfl, by rintro fs hfs; simp [List.prefix_nil.mp hfs, bytesWrote], rfl⟩
  cases d <;> exact hstart

/-- **When the relay panics.** For every configuration and every way the relay
can go: never, exactly if the clock's seconds plus `data_idle_timeout_secs` are
in range whenever a chunk has been moved. -/
theorem relay_never_panics_iff {config : Config} {start : Nat} {polls : List Poll}
    (hrun : relayChecked config start polls ≠ .error .impossible) :
    relayChecked config start polls ≠ .error .panicked ↔
      ∀ ps p qs d, polls = ps ++ p :: qs → ChunkMoved d ps p →
        p.now / nanosPerSec + config.timeouts.dataIdleTimeoutSecs.toNat ≤ maxInstantSecs := by
  have hl := relayChecked_start_ledger config.dataIdleTimeout start
  constructor
  · intro hno ps p qs d hsplit hmoved
    cases hout : relayChecked config start polls with
    | error stop =>
        cases stop with
        | impossible => exact absurd hout hrun
        | panicked => exact absurd hout hno
    | ok out =>
        have hfits := (relayRunChecked_ok hl hout).2 ps p qs hsplit
        by_contra hlarge
        exact hfits ⟨⟨d, hmoved⟩, instantAdd_secs_eq_none.mpr (Nat.lt_of_not_le hlarge)⟩
  · intro hfits hpanic
    obtain ⟨ps, p, qs, hsplit, ⟨d, hmoved⟩, hover⟩ := relayRunChecked_panicked hl hpanic
    exact Nat.not_lt.mpr (hfits ps p qs d hsplit hmoved) (instantAdd_secs_eq_none.mp hover)

/-- A backend, the defaults, and the largest idle timeout there is. -/
def endlessIdle : Config :=
  { Config.default with
    backends := [⟨"10.0.0.1".toList, 21, defaultBackendPassivePorts⟩]
    timeouts := ⟨10, 300, 30, 18446744073709551615⟩ }

/-- A client sends one byte, and the backend takes it at once. -/
def oneByte : List Poll := [⟨5 * nanosPerSec, .up, [.read [1], .wrote 1], []⟩]

/-- The configuration is accepted, the first timer is set, and the reset after
the first chunk panics. -/
theorem oneByte_panics :
    endlessIdle.validate (fun _ => false) = .ok () ∧
      relayChecked endlessIdle (5 * nanosPerSec) oneByte = .error .panicked :=
  ⟨rfl, rfl⟩

/-- With the default timeout of a minute the same byte passes. -/
theorem relay_never_panics_iff_default :
    relayChecked .default (5 * nanosPerSec) oneByte ≠ .error .impossible ∧
      relayChecked .default (5 * nanosPerSec) oneByte ≠ .error .panicked := by
  have hok : (relayChecked .default (5 * nanosPerSec) oneByte).isOk = true := by decide +kernel
  have hrun : relayChecked .default (5 * nanosPerSec) oneByte ≠ .error .impossible := by
    intro h
    rw [h] at hok
    cases hok
  refine ⟨hrun, (relay_never_panics_iff hrun).mpr ?_⟩
  intro ps p qs d hsplit _
  have hp : p ∈ oneByte := by rw [hsplit]; simp
  obtain rfl := List.mem_singleton.mp hp
  decide

end FtpGateway
