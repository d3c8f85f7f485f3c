import FtpGateway.Counting
import FtpGateway.Session.Io

/-!
# The process-wide counters

`metrics.rs`: one record of counters that all sessions update, each update one
atomic operation. A `*_total` counter sticks at `u64::MAX`; the two gauges of
what is active are added to and taken from, and wrap.

A run of the whole gateway is the list of what its sessions do, in the order in
which it happens (`GatewayEvent`), so the counters are a fold over that list.
-/

namespace FtpGateway

open Str Interact Counting

structure Metrics where
  sessionsActive : UInt64
  uploadsActive : UInt64
  sessionsTotal : UInt64
  uploadBytesTotal : UInt64
  connectionsRejectedTotal : UInt64
  uploadsStartedTotal : UInt64
  uploadsCompletedTotal : UInt64
  uploadsFailedTotal : UInt64
  backendPasvFailuresTotal : UInt64
  backendDataConnectionFailuresTotal : UInt64
  dataConnectionsRejectedTotal : UInt64
  backendTimeoutsTotal : UInt64
  sessionIdleTimeoutsTotal : UInt64
deriving Repr, DecidableEq

/-- The counter an exchange updates. -/
def Event.metric? : Event → Option Metric
  | ⟨.metric k, _⟩ => some k
  | _ => none

/-- One thing that happens: an exchange of session `i`, or a connection that is
turned away before it becomes a session. -/
inductive GatewayEvent where
  | exchange (i : Nat) (e : Event)
  | connectionRejected

def GatewayEvent.metric? : GatewayEvent → Option Metric
  | .exchange _ e => e.metric?
  | .connectionRejected => none

namespace Metrics

def new : Metrics := ⟨0, 0, 0, 0, 0, 0, 0, 0, 0, 0, 0, 0, 0⟩

def update (m : Metrics) : Metric → Metrics
  | .sessionStarted =>
      { m with sessionsTotal := satAdd m.sessionsTotal 1, sessionsActive := m.sessionsActive + 1 }
  | .sessionEnded => { m with sessionsActive := m.sessionsActive - 1 }
  | .uploadAttempted => { m with uploadsStartedTotal := satAdd m.uploadsStartedTotal 1 }
  | .uploadSucceeded => { m with uploadsCompletedTotal := satAdd m.uploadsCompletedTotal 1 }
  | .uploadFailed => { m with uploadsFailedTotal := satAdd m.uploadsFailedTotal 1 }
  | .uploadStarted => { m with uploadsActive := m.uploadsActive + 1 }
  | .uploadEnded => { m with uploadsActive := m.uploadsActive - 1 }
  | .uploadBytes n => { m with uploadBytesTotal := satAdd m.uploadBytesTotal (UInt64.ofNat n) }
  | .backendPasvFailed =>
      { m with backendPasvFailuresTotal := satAdd m.backendPasvFailuresTotal 1 }
  | .backendDataConnectionFailed =>
      { m with backendDataConnectionFailuresTotal :=
          satAdd m.backendDataConnectionFailuresTotal 1 }
  | .dataConnectionRejected =>
      { m with dataConnectionsRejectedTotal := satAdd m.dataConnectionsRejectedTotal 1 }
  | .sessionIdleTimedOut =>
      { m with sessionIdleTimeoutsTotal := satAdd m.sessionIdleTimeoutsTotal 1 }
  | .backendTimedOut => { m with backendTimeoutsTotal := satAdd m.backendTimeoutsTotal 1 }

def connectionRejected (m : Metrics) : Metrics :=
  { m with connectionsRejectedTotal := satAdd m.connectionsRejectedTotal 1 }

def step (m : Metrics) : GatewayEvent → Metrics
  | .exchange _ e =>
      match e.metric? with
      | some k => m.update k
      | none => m
  | .connectionRejected => m.connectionRejected

/-- No total has gone down. -/
structure TotalsLe (m m' : Metrics) : Prop where
  sessions : m.sessionsTotal ≤ m'.sessionsTotal
  uploadBytes : m.uploadBytesTotal ≤ m'.uploadBytesTotal
  connectionsRejected : m.connectionsRejectedTotal ≤ m'.connectionsRejectedTotal
  uploadsStarted : m.uploadsStartedTotal ≤ m'.uploadsStartedTotal
  uploadsCompleted : m.uploadsCompletedTotal ≤ m'.uploadsCompletedTotal
  uploadsFailed : m.uploadsFailedTotal ≤ m'.uploadsFailedTotal
  backendPasvFailures : m.backendPasvFailuresTotal ≤ m'.backendPasvFailuresTotal
  backendDataConnectionFailures :
    m.backendDataConnectionFailuresTotal ≤ m'.backendDataConnectionFailuresTotal
  dataConnectionsRejected : m.dataConnectionsRejectedTotal ≤ m'.dataConnectionsRejectedTotal
  backendTimeouts : m.backendTimeoutsTotal ≤ m'.backendTimeoutsTotal
  sessionIdleTimeouts : m.sessionIdleTimeoutsTotal ≤ m'.sessionIdleTimeoutsTotal

theorem TotalsLe.refl (m : Metrics) : m.TotalsLe m := by
  constructor <;> exact UInt64.le_refl _

theorem TotalsLe.trans {a b c : Metrics} (hab : a.TotalsLe b) (hbc : b.TotalsLe c) :
    a.TotalsLe c where
  sessions := UInt64.le_trans hab.sessions hbc.sessions
  uploadBytes := UInt64.le_trans hab.uploadBytes hbc.uploadBytes
  connectionsRejected := UInt64.le_trans hab.connectionsRejected hbc.connectionsRejected
  uploadsStarted := UInt64.le_trans hab.uploadsStarted hbc.uploadsStarted
  uploadsCompleted := UInt64.le_trans hab.uploadsCompleted hbc.uploadsCompleted
  uploadsFailed := UInt64.le_trans hab.uploadsFailed hbc.uploadsFailed
  backendPasvFailures := UInt64.le_trans hab.backendPasvFailures hbc.backendPasvFailures
  backendDataConnectionFailures :=
    UInt64.le_trans hab.backendDataConnectionFailures hbc.backendDataConnectionFailures
  dataConnectionsRejected :=
    UInt64.le_trans hab.dataConnectionsRejected hbc.dataConnectionsRejected
  backendTimeouts := UInt64.le_trans hab.backendTimeouts hbc.backendTimeouts
  sessionIdleTimeouts := UInt64.le_trans hab.sessionIdleTimeouts hbc.sessionIdleTimeouts

theorem totalsLe_update (m : Metrics) (k : Metric) : m.TotalsLe (m.update k) := by
  cases k <;> constructor <;> first | exact UInt64.le_refl _ | exact le_satAdd _ _

theorem totalsLe_step (m : Metrics) (e : GatewayEvent) : m.TotalsLe (m.step e) := by
  cases e with
  | exchange i e =>
      simp only [step]
      split
      · exact m.totalsLe_update _
      · exact .refl m
  | connectionRejected => constructor <;> first | exact UInt64.le_refl _ | exact le_satAdd _ _

end Metrics

def metricsAfter (L : List GatewayEvent) : Metrics := L.foldl Metrics.step Metrics.new

theorem metricsAfter_append_single (L : List GatewayEvent) (e : GatewayEvent) :
    metricsAfter (L ++ [e]) = (metricsAfter L).step e := by
  rw [metricsAfter, List.foldl_append]
  rfl

/-- Totals never go down, wherever they stand. -/
theorem totalsLe_append (L₁ L₂ : List GatewayEvent) :
    (metricsAfter L₁).TotalsLe (metricsAfter (L₁ ++ L₂)) := by
  induction L₂ using List.reverseRecOn with
  | nil => rw [List.append_nil]; exact .refl _
  | append_singleton L₂ e ih =>
      rw [← List.append_assoc, metricsAfter_append_single]
      exact ih.trans (Metrics.totalsLe_step _ e)

/-! ## What the counters say -/

/-- How often an update was made. -/
def timesCounted (k : Metric) (L : List GatewayEvent) : Nat :=
  L.countP fun e => e.metric? = some k

theorem timesCounted_append_single (k : Metric) (L : List GatewayEvent) (e : GatewayEvent) :
    timesCounted k (L ++ [e]) = timesCounted k L + if e.metric? = some k then 1 else 0 := by
  simp [timesCounted, List.countP_cons]

section Counts

variable {counter : Metrics → UInt64} {k k' : Metric}

/-- What a step does to a counter, from what the updates do to it. -/
theorem step_counter {f : Metric → UInt64 → UInt64}
    (hupdate : ∀ (m : Metrics) k, counter (m.update k) = f k (counter m))
    (hrejected : ∀ m : Metrics, counter m.connectionRejected = counter m) (m : Metrics)
    (e : GatewayEvent) :
    counter (m.step e) = e.metric?.elim (counter m) fun k => f k (counter m) := by
  cases e with
  | exchange i e =>
      simp only [Metrics.step, GatewayEvent.metric?]
      cases e.metric? with
      | some k => exact hupdate m k
      | none => rfl
  | connectionRejected => exact hrejected m

/-- A total that one kind of update adds one to. -/
theorem toNat_total (hnew : counter .new = 0)
    (hupdate : ∀ (m : Metrics) k₀, counter (m.update k₀) =
      if k₀ = k then satAdd (counter m) 1 else counter m)
    (hrejected : ∀ m : Metrics, counter m.connectionRejected = counter m)
    (L : List GatewayEvent) :
    (counter (metricsAfter L)).toNat = min (timesCounted k L) (2 ^ 64 - 1) := by
  induction L using List.reverseRecOn with
  | nil => rw [metricsAfter, List.foldl_nil, hnew]; rfl
  | append_singleton L e ih =>
      rw [metricsAfter_append_single, timesCounted_append_single,
        step_counter (f := fun k₀ x => if k₀ = k then satAdd x 1 else x) hupdate hrejected]
      cases e.metric? with
      | none => simpa using ih
      | some k₀ =>
          by_cases hk : k₀ = k
          · simp only [Option.elim_some, hk, if_true, toNat_satAdd, ih, UInt64.toNat_one]
            omega
          · simpa [hk] using ih

/-- A gauge that one kind of update raises and another lowers. -/
theorem gauge_add (hne : k ≠ k') (hnew : counter .new = 0)
    (hupdate : ∀ (m : Metrics) k₀, counter (m.update k₀) =
      if k₀ = k then counter m + 1 else if k₀ = k' then counter m - 1 else counter m)
    (hrejected : ∀ m : Metrics, counter m.connectionRejected = counter m)
    (L : List GatewayEvent) :
    counter (metricsAfter L) + UInt64.ofNat (timesCounted k' L) =
      UInt64.ofNat (timesCounted k L) := by
  induction L using List.reverseRecOn with
  | nil => rw [metricsAfter, List.foldl_nil, hnew]; rfl
  | append_singleton L e ih =>
      rw [metricsAfter_append_single, timesCounted_append_single, timesCounted_append_single,
        step_counter (f := fun k₀ x => if k₀ = k then x + 1 else if k₀ = k' then x - 1 else x)
          hupdate hrejected]
      cases e.metric? with
      | none => simpa using ih
      | some k₀ =>
          by_cases hk : k₀ = k
          · simp only [Option.elim_some, hk, if_true, Option.some.injEq, if_neg hne, Nat.add_zero,
              UInt64.ofNat_add, ← ih]
            grind
          · by_cases hk' : k₀ = k'
            · simp only [Option.elim_some, hk', if_neg hne.symm, if_true, Option.some.injEq,
                Nat.add_zero, UInt64.ofNat_add, ← ih]
              grind
            · simpa [hk, hk'] using ih

/-- A gauge of which `n` were raised and not lowered yet. -/
theorem toNat_gauge {n : Nat} {L : List GatewayEvent} {gauge : UInt64}
    (hgauge : gauge + UInt64.ofNat (timesCounted k' L) = UInt64.ofNat (timesCounted k L))
    (hcount : timesCounted k L = timesCounted k' L + n) (hn : n < 2 ^ 64) : gauge.toNat = n := by
  have heq : gauge = UInt64.ofNat n := by
    rw [hcount, UInt64.ofNat_add] at hgauge
    grind
  rw [heq, UInt64.toNat_ofNat', Nat.mod_eq_of_lt hn]

end Counts

namespace Metrics

variable (L : List GatewayEvent)

theorem toNat_sessionsTotal : (metricsAfter L).sessionsTotal.toNat =
    min (timesCounted .sessionStarted L) (2 ^ 64 - 1) :=
  toNat_total rfl (fun _ k => by cases k <;> rfl) (fun _ => rfl) L

theorem toNat_uploadsStartedTotal : (metricsAfter L).uploadsStartedTotal.toNat =
    min (timesCounted .uploadAttempted L) (2 ^ 64 - 1) :=
  toNat_total rfl (fun _ k => by cases k <;> rfl) (fun _ => rfl) L

theorem toNat_uploadsCompletedTotal : (metricsAfter L).uploadsCompletedTotal.toNat =
    min (timesCounted .uploadSucceeded L) (2 ^ 64 - 1) :=
  toNat_total rfl (fun _ k => by cases k <;> rfl) (fun _ => rfl) L

theorem toNat_uploadsFailedTotal : (metricsAfter L).uploadsFailedTotal.toNat =
    min (timesCounted .uploadFailed L) (2 ^ 64 - 1) :=
  toNat_total rfl (fun _ k => by cases k <;> rfl) (fun _ => rfl) L

theorem sessionsActive_add : (metricsAfter L).sessionsActive +
    UInt64.ofNat (timesCounted .sessionEnded L) = UInt64.ofNat (timesCounted .sessionStarted L) :=
  gauge_add (by simp) rfl (fun _ k => by cases k <;> rfl) (fun _ => rfl) L

theorem uploadsActive_add : (metricsAfter L).uploadsActive +
    UInt64.ofNat (timesCounted .uploadEnded L) = UInt64.ofNat (timesCounted .uploadStarted L) :=
  gauge_add (by simp) rfl (fun _ k => by cases k <;> rfl) (fun _ => rfl) L

end Metrics

end FtpGateway
