import Mathlib.Algebra.BigOperators.Group.Finset.Piecewise
import Mathlib.Algebra.Order.BigOperators.Group.Finset
import Mathlib.Data.List.DropRight
import FtpGateway.RotatorRuns
import FtpGateway.Session.Metrics
import FtpGateway.Session.PortHeld

/-!
# The counters balance

Any number of sessions update one set of counters, in any order, and any of
them may panic anywhere. What the counters say about guards is first read off
one session (`Books`, `StorsCounted`), from `GuardStep` alone, and then summed
over all sessions (`counters_balance`): as long as no counter has stuck, uploads
started are those completed, failed and still open, and the gauges are the
numbers of guards that live.

An upload counted as completed is still active while its last reply is written
to the client, so the uploads that are active can be more than those that are
open (`active_upload_already_counted`).
-/

namespace FtpGateway

open Str Interact Counting

/-! ## One session -/

/-- How often one session made an update. -/
def timesIn (k : Metric) (t : History Io) : Nat := t.countP fun e : Event => e.metric? = some k

theorem timesIn_append (k : Metric) (t u : History Io) :
    timesIn k (t ++ u) = timesIn k t + timesIn k u := List.countP_append

theorem timesIn_single (k : Metric) (e : Event) :
    timesIn k [e] = if e.metric? = some k then 1 else 0 := by
  simp [timesIn, List.countP_cons]

/-- There is an `UploadAttempt`. -/
def UploadAttempt.live : UploadAttempt → Bool
  | .none => false
  | .counted => true
  | .sent => true

theorem UploadAttempt.live_iff {a : UploadAttempt} : a.live = true ↔ a ≠ .none := by
  cases a <;> simp [UploadAttempt.live]

/-- Each kind of guard is counted when it is made and when it is dropped. -/
structure Books (t : History Io) : Prop where
  sessions : timesIn .sessionStarted t =
    timesIn .sessionEnded t + (guardsAt t).session.toNat
  attempts : timesIn .uploadAttempted t =
    timesIn .uploadSucceeded t + timesIn .uploadFailed t + (guardsAt t).attempt.live.toNat
  uploads : timesIn .uploadStarted t =
    timesIn .uploadEnded t + (guardsAt t).upload.toNat

theorem eq_metric {e : Event} {k : Metric} (he : e.metric? = some k) : e = ⟨.metric k, ()⟩ := by
  obtain ⟨r, a⟩ := e
  cases r with
  | metric m => exact Option.some.inj he ▸ rfl
  | _ => cases he

theorem Guards.after_of_uncounted (g : Guards) {e : Event} (he : e.metric? = none) :
    (g.after e).session = g.session ∧ (g.after e).attempt.live = g.attempt.live ∧
      (g.after e).upload = g.upload := by
  obtain ⟨r, a⟩ := e
  cases r with
  | metric m => cases he
  | line c x => cases c <;> exact ⟨rfl, rfl, rfl⟩
  | connectData addr source => cases a <;> exact ⟨rfl, rfl, rfl⟩
  | write c b =>
      cases c with
      | client => exact ⟨rfl, rfl, rfl⟩
      | backend tls =>
          simp only [Guards.after]
          split
          case isTrue hcounted => simp [UploadAttempt.live, hcounted]
          case isFalse => exact ⟨rfl, rfl, rfl⟩
  | _ => exact ⟨rfl, rfl, rfl⟩

def oneIf (m k : Metric) : Nat := if m = k then 1 else 0

/-- What an update in its place does to the guards. -/
theorem Guards.Counts.balance {g : Guards} {m : Metric} (hm : g.Counts m) :
    g.session.toNat + oneIf m .sessionStarted = oneIf m .sessionEnded + (g.count m).session.toNat ∧
    g.attempt.live.toNat + oneIf m .uploadAttempted =
      oneIf m .uploadSucceeded + oneIf m .uploadFailed + (g.count m).attempt.live.toNat ∧
    g.upload.toNat + oneIf m .uploadStarted = oneIf m .uploadEnded + (g.count m).upload.toNat := by
  cases m with
  | sessionStarted => obtain rfl := hm; decide
  | sessionEnded => simp [oneIf, Guards.count, hm.1.1]
  | uploadAttempted => simp [oneIf, Guards.count, UploadAttempt.live, hm.1.2.1]
  | uploadSucceeded => simp [oneIf, Guards.count, UploadAttempt.live, hm.2.1]
  | uploadFailed =>
      have hlive := UploadAttempt.live_iff.mpr hm.2.1
      simp [oneIf, Guards.count, hlive, show UploadAttempt.live .none = false from rfl]
  | uploadStarted => simp [oneIf, Guards.count, hm.2.2]
  | uploadEnded => simp [oneIf, Guards.count, hm.2.2]
  | _ => simp [oneIf, Guards.count]

theorem Books.step {t : History Io} {e : Event} (hb : Books t) (hstep : GuardStep t e) :
    Books (t ++ [e]) := by
  obtain ⟨hsessions, hattempts, huploads⟩ := hb
  cases he : e.metric? with
  | none =>
      obtain ⟨hsession, hattempt, hupload⟩ := (guardsAt t).after_of_uncounted he
      have hsame : ∀ k, timesIn k (t ++ [e]) = timesIn k t := fun k => by
        simp [timesIn_append, timesIn_single, he]
      constructor <;> simpa only [hsame, guardsAt_append_single, hsession, hattempt, hupload]
  | some k =>
      obtain rfl := eq_metric he
      obtain ⟨hsession, hattempt, hupload⟩ := Guards.Counts.balance hstep
      have hafter : guardsAt (t ++ [⟨.metric k, ()⟩]) = (guardsAt t).count k :=
        guardsAt_append_single t _
      have hmore : ∀ k', timesIn k' (t ++ [⟨.metric k, ()⟩]) =
          timesIn k' t + oneIf k k' := fun k' => by
        simp [timesIn_append, timesIn_single, Event.metric?, oneIf]
      constructor <;> rw [hafter] <;> simp only [hmore] <;> omega

theorem books {t : History Io} (hall : Always GuardStep t) : Books t := by
  induction t using List.reverseRecOn with
  | nil => exact ⟨rfl, rfl, rfl⟩
  | append_singleton t e ih =>
      obtain ⟨hall, hstep⟩ := always_append_single.mp hall
      exact (ih hall).step hstep

/-- The upload is counted as started. -/
def attempted : Event := ⟨.metric .uploadAttempted, ()⟩

/-- A `STOR` is written to the backend, with both data connections up. -/
def storWritten (h : History Io) : Event → Bool
  | ⟨.write (.backend _) b, _⟩ => isStorCommand b && (guardsAt h).channel
  | _ => false

/-- How the uploads of a session are counted: as started right before the `STOR` is
written, and nothing else is, but an upload that a panic stops short of the write; as
completed or failed once, unless it is still open. None is open when the next one is
counted, when the client's next line is taken up, and when the session is over. -/
structure StorsCounted (t : History Io) : Prop where
  counted : ∀ h e t', t = h ++ e :: t' → storWritten h e = true → ∃ h₀, h = h₀ ++ [attempted]
  written : ∀ h e t', t = h ++ attempted :: e :: t' →
    storWritten (h ++ [attempted]) e = true ∨ e = ⟨.metric .uploadFailed, ()⟩
  ended : ∀ h e d t', t = h ++ e :: (d ++ t') → storWritten h e = true → attempted ∉ d →
    timesIn .uploadSucceeded d + timesIn .uploadFailed d =
      if (guardsAt (h ++ e :: d)).attempt = .none then 1 else 0
  settled : ∀ h t', t = h ++ attempted :: t' → (guardsAt h).attempt = .none
  nextLine : ∀ h x u t', t = h ++ ⟨.line .client x, u⟩ :: t' → (guardsAt h).attempt = .none
  atEnd : (guardsAt t).session = false → (guardsAt t).attempt = .none

theorem sent_of_written {h : History Io} {e : Event} (hstep : GuardStep h e)
    (hstor : storWritten h e = true) :
    (guardsAt h).attempt = .counted ∧ (guardsAt (h ++ [e])).attempt = .sent := by
  obtain ⟨r, a⟩ := e
  cases r with
  | write c b =>
      cases c with
      | client => cases hstor
      | backend tls =>
          simp only [storWritten, Bool.and_eq_true] at hstor
          simp only [GuardStep, Guards.Allows, if_pos hstor] at hstep
          rw [guardsAt_append_single]
          simp [Guards.after, hstep.2.1]
  | _ => cases hstor

/-- An upload that is counted and not sent: nothing happens in between. -/
theorem Guards.Allows.of_counted {g : Guards} {e : Event} (he : g.Allows e)
    (hcounted : g.attempt = .counted) :
    (∃ tls b a, e = ⟨.write (.backend tls) b, a⟩ ∧ isStorCommand b = true ∧ g.channel = true) ∨
      e = ⟨.metric .uploadFailed, ()⟩ := by
  have hnot : ¬(g.session = true ∧ g.attempt ≠ .counted) := fun h => h.2 hcounted
  have hbusy : ¬g.Idle := fun hidle => by rw [hidle.2.1] at hcounted; cases hcounted
  obtain ⟨r, a⟩ := e
  cases r with
  | write c b =>
      cases c with
      | client => exact absurd he hnot
      | backend tls =>
          simp only [Guards.Allows] at he
          split at he
          case isTrue hstor => exact .inl ⟨tls, b, a, rfl, hstor⟩
          case isFalse => exact absurd he hbusy
  | line c x =>
      cases c with
      | client => exact absurd he hbusy
      | backend tls => exact absurd he hnot
  | log l => cases l <;> first | exact absurd he hnot | exact absurd he.1 hbusy
  | allocate | release | awaitClientData => exact absurd he.1 hbusy
  | connectData => exact absurd he hbusy
  | relay => exact absurd ⟨he.1, by simp [he.2.1]⟩ hnot
  | metric m =>
      cases m with
      | uploadFailed => exact .inr rfl
      | sessionStarted => rw [show g = Guards.start from he] at hcounted; cases hcounted
      | sessionEnded | uploadAttempted => exact absurd he.1 hbusy
      | uploadSucceeded | uploadStarted => rw [he.2.1] at hcounted; cases hcounted
      | uploadEnded => exact absurd hcounted he.2.1
      | _ => exact absurd he hnot
  | _ => exact absurd he hnot

theorem Guards.eq_attempted_of_counted {g : Guards} {e : Event} (he : g.Allows e)
    (hcounted : (g.after e).attempt = .counted) : e = attempted := by
  by_cases hwas : g.attempt = .counted
  · rcases he.of_counted hwas with ⟨tls, b, a, rfl, -⟩ | rfl
    · simp [Guards.after, hwas] at hcounted
    · cases hcounted
  · obtain ⟨r, a⟩ := e
    cases r with
    | write c b =>
        cases c with
        | client => exact absurd hcounted hwas
        | backend tls => simp [Guards.after, hwas] at hcounted
    | line c x => cases c <;> exact absurd hcounted hwas
    | connectData addr source => cases a <;> exact absurd hcounted hwas
    | metric m =>
        cases m with
        | uploadAttempted => rfl
        | uploadSucceeded | uploadFailed => cases hcounted
        | _ => exact absurd hcounted hwas
    | _ => exact absurd hcounted hwas

theorem storsCounted {t : History Io} (hall : Always GuardStep t) : StorsCounted t where
  counted := by
    intro h e t' heq hstor
    have hcounted := (sent_of_written (hall h e t' heq) hstor).1
    rcases h.eq_nil_or_concat with rfl | ⟨h₀, e₀, rfl⟩
    · cases hcounted
    · rw [List.concat_eq_append] at heq hcounted ⊢
      rw [guardsAt_append_single] at hcounted
      have hstep := hall h₀ e₀ (e :: t') (by simp [heq])
      exact ⟨h₀, by rw [Guards.eq_attempted_of_counted hstep hcounted]⟩
  written := by
    intro h e t' heq
    have hstep : GuardStep (h ++ [attempted]) e := hall _ e t' (by simp [heq])
    rcases Guards.Allows.of_counted hstep (by rw [guardsAt_append_single]; rfl) with
      ⟨tls, b, a, rfl, hb, hch⟩ | rfl
    · exact .inl (Bool.and_eq_true_iff.mpr ⟨hb, hch⟩)
    · exact .inr rfl
  ended := by
    intro h e d t' heq hstor hnone
    have hsplit : t = h ++ [e] ++ d ++ t' := by simp [heq]
    have hsent := (sent_of_written (hall h e _ heq) hstor).2
    rw [hsplit] at hall
    have hbefore := (books hall.of_append.of_append).attempts
    have hafter := (books hall.of_append).attempts
    have hzero : timesIn .uploadAttempted d = 0 := by
      refine List.countP_eq_zero.mpr fun x hx hk => hnone ?_
      rwa [eq_metric (of_decide_eq_true hk)] at hx
    rw [show h ++ e :: d = h ++ [e] ++ d by simp]
    simp only [timesIn_append _ (h ++ [e]) d, hzero] at hafter
    simp only [hsent, UploadAttempt.live, Bool.toNat_true] at hbefore
    cases hattempt : (guardsAt (h ++ [e] ++ d)).attempt with
    | none =>
        simp only [hattempt, UploadAttempt.live, Bool.toNat_false] at hafter
        simp only [if_true]
        omega
    | counted | sent =>
        simp only [hattempt, UploadAttempt.live, Bool.toNat_true] at hafter
        simp only [reduceCtorEq, if_false]
        omega
  settled := by
    intro h t' heq
    have hstep : (guardsAt h).Counts .uploadAttempted := hall h attempted t' heq
    exact hstep.1.2.1
  nextLine := by
    intro h x u t' heq
    have hstep : (guardsAt h).Idle := hall h _ t' heq
    exact hstep.2.1
  atEnd hover := ((sound_guardsAt hall).closed hover).2.1

/-! ## All sessions -/

/-- What a session may have done so far: part of a run of `handle`, or of one
that panicked, and of what is dropped then. -/
inductive SessionTrace : History Io → Prop where
  | running {t : History Io} (w : World) (cfg : SessionConfig) (n : Nat)
      (ht : t <+: history w cfg n) : SessionTrace t
  | panicked {h t : History Io} (w : World) (cfg : SessionConfig) (n : Nat)
      (hh : h <+: history w cfg n) (ht : t <+: h ++ (guardsAt h).unwinding) : SessionTrace t

/-- A session that is over: `handle` has returned, or a panic has unwound it. -/
inductive Finished : History Io → Prop where
  | returned (w : World) (cfg : SessionConfig) (n : Nat) (e : Leave)
      (hexit : (sessionRun w cfg n).1 = .exit e) : Finished (history w cfg n)
  | unwound {h : History Io} (w : World) (cfg : SessionConfig) (n : Nat)
      (hh : h <+: history w cfg n) : Finished (h ++ (guardsAt h).unwinding)

def GatewayEvent.session? : GatewayEvent → Option Nat
  | .exchange i _ => some i
  | .connectionRejected => none

def GatewayEvent.exchangeOf (i : Nat) : GatewayEvent → Option Event
  | .exchange j e => if j = i then some e else none
  | .connectionRejected => none

/-- What session `i` does in a run of the gateway. -/
def ofSession (i : Nat) (L : List GatewayEvent) : History Io :=
  L.filterMap (GatewayEvent.exchangeOf i)

def sessionsOf (L : List GatewayEvent) : Finset Nat :=
  (L.filterMap GatewayEvent.session?).toFinset

/-- An interleaving of sessions. -/
def GatewayRun (L : List GatewayEvent) : Prop := ∀ i, SessionTrace (ofSession i L)

/-- How many sessions are in a certain state. -/
def census (p : History Io → Bool) (L : List GatewayEvent) : Nat :=
  ((sessionsOf L).filter fun i => p (ofSession i L)).card

def isRunning (t : History Io) : Bool := (guardsAt t).session

def isAttempting (t : History Io) : Bool := (guardsAt t).attempt.live

def isUploading (t : History Io) : Bool := (guardsAt t).upload

/-- An upload has been counted as completed and its `UploadGuard` not dropped
since. -/
def isFinishing (t : History Io) : Bool :=
  (t.rtakeWhile fun e : Event => e.metric? ≠ some .uploadEnded).any
    fun e : Event => e.metric? = some .uploadSucceeded

theorem SessionTrace.guards {t : History Io} (ht : SessionTrace t) : Always GuardStep t := by
  cases ht with
  | running w cfg n ht => exact (session_guards w cfg n).1.initial ht
  | panicked w cfg n hh ht =>
      have hall := (session_guards w cfg n).1.initial hh
      exact (always_unwinding hall).1.initial ht

theorem Finished.not_running {t : History Io} (ht : Finished t) : isRunning t = false := by
  cases ht with
  | returned w cfg n e hexit =>
      obtain ⟨ch, hg⟩ := (session_guards w cfg n).2 e hexit
      rw [isRunning, hg]
  | unwound w cfg n hh =>
      have hall := (session_guards w cfg n).1.initial hh
      obtain ⟨ch, hg⟩ := (always_unwinding hall).2
      rw [isRunning, hg]

theorem isFinishing_append {t : History Io} {e : Event}
    (he : e.metric? ≠ some .uploadEnded)
    (hdone : isFinishing t = true ∨ e.metric? = some .uploadSucceeded) :
    isFinishing (t ++ [e]) = true := by
  rw [isFinishing, List.rtakeWhile_concat, if_pos (decide_eq_true he), List.any_append,
    Bool.or_eq_true]
  rcases hdone with hdone | hdone
  · exact .inl hdone
  · exact .inr (by simp [hdone])

/-- An active upload is open, or it is counted as completed already. -/
theorem attempting_or_finishing {t : History Io} (hall : Always GuardStep t)
    (hupload : isUploading t = true) : isAttempting t = true ∨ isFinishing t = true := by
  induction t using List.reverseRecOn with
  | nil => cases hupload
  | append_singleton t e ih =>
      obtain ⟨hall, hstep⟩ := always_append_single.mp hall
      rw [isUploading, guardsAt_append_single] at hupload
      rw [isAttempting, guardsAt_append_single]
      cases he : Event.metric? e with
      | none =>
          obtain ⟨-, hlive, hsame⟩ := (guardsAt t).after_of_uncounted he
          rw [hsame] at hupload
          rw [hlive]
          exact (ih hall hupload).imp_right fun hdone =>
            isFinishing_append (by simp [he]) (.inl hdone)
      | some k =>
          have hcounts : (guardsAt t).Counts k := by rw [eq_metric he] at hstep; exact hstep
          rw [eq_metric he] at hupload ⊢
          have hkeeps : k ≠ .uploadEnded → isFinishing t = true →
              isFinishing (t ++ [⟨.metric k, ()⟩]) = true := fun hk hdone =>
            isFinishing_append (by simp [Event.metric?, hk]) (.inl hdone)
          cases k with
          | uploadEnded => cases hupload
          | uploadSucceeded => exact .inr (isFinishing_append (by simp [Event.metric?]) (.inr rfl))
          | uploadAttempted => exact .inl rfl
          | uploadStarted =>
              exact .inl (UploadAttempt.live_iff.mpr (by simp [Guards.after, Guards.count, hcounts.2.1]))
          | uploadFailed => exact absurd hupload (by simp [Guards.after, Guards.count, hcounts.2.2])
          | sessionStarted =>
              rw [show guardsAt t = Guards.start from hcounts] at hupload
              cases hupload
          | sessionEnded =>
              exact absurd hupload (by simp [Guards.after, Guards.count, hcounts.1.2.2])
          | _ => exact (ih hall hupload).imp_right (hkeeps (by simp))

def GatewayEvent.weigh (f : Event → Nat) : GatewayEvent → Nat
  | .exchange _ e => f e
  | .connectionRejected => 0

/-- What is summed over each session is summed over the run. -/
theorem sum_weigh (f : Event → Nat) (L : List GatewayEvent) :
    ∑ i ∈ sessionsOf L, ((ofSession i L).map f).sum = (L.map (GatewayEvent.weigh f)).sum := by
  refine sum_map_filterMap _ _ _ _ fun e he => ?_
  cases e with
  | exchange j e =>
      have hj : j ∈ sessionsOf L :=
        List.mem_toFinset.mpr (List.mem_filterMap.mpr ⟨_, he, rfl⟩)
      have hone : ∀ i, (GatewayEvent.exchangeOf i (.exchange j e)).elim 0 f =
          if j = i then f e else 0 := by
        intro i
        rw [GatewayEvent.exchangeOf]
        split <;> rfl
      simp only [hone]
      rw [Finset.sum_ite_eq, if_pos hj]
      rfl
  | connectionRejected => exact Finset.sum_const_zero

/-- The counters are counted over the sessions. -/
theorem sum_timesIn (k : Metric) (L : List GatewayEvent) :
    ∑ i ∈ sessionsOf L, timesIn k (ofSession i L) = timesCounted k L := by
  simp only [timesIn, timesCounted, ← sum_map_toNat]
  rw [sum_weigh]
  congr 2
  funext e
  cases e <;> rfl

theorem sum_toNat (p : History Io → Bool) (L : List GatewayEvent) :
    ∑ i ∈ sessionsOf L, (p (ofSession i L)).toNat = census p L := by
  rw [census, Finset.card_filter]
  refine Finset.sum_congr rfl fun i _ => ?_
  cases p (ofSession i L) <;> rfl

theorem census_finishing_le (L : List GatewayEvent) :
    census isFinishing L ≤ timesCounted .uploadSucceeded L := by
  rw [← sum_toNat, ← sum_timesIn]
  refine Finset.sum_le_sum fun i _ => ?_
  cases hdone : isFinishing (ofSession i L) with
  | false => exact Nat.zero_le _
  | true =>
      obtain ⟨e, he, hk⟩ := List.any_eq_true.mp hdone
      exact List.countP_pos_iff.mpr ⟨e, (List.rtakeWhile_suffix _ _).subset he, hk⟩

theorem census_uploading_le {L : List GatewayEvent} (hrun : GatewayRun L) :
    census isUploading L ≤ census isAttempting L + census isFinishing L := by
  simp only [← sum_toNat, ← Finset.sum_add_distrib]
  refine Finset.sum_le_sum fun i _ => ?_
  cases hupload : isUploading (ofSession i L) with
  | false => exact Nat.zero_le _
  | true =>
      rcases attempting_or_finishing (hrun i).guards hupload with h | h <;> simp [h]

/-- What the counters of a run of the gateway say. -/
structure CountersBalance (L : List GatewayEvent) : Prop where
  totals : ∀ L₁ L₂, L = L₁ ++ L₂ → (metricsAfter L₁).TotalsLe (metricsAfter L)
  stors : ∀ i, StorsCounted (ofSession i L)
  started : (metricsAfter L).uploadsStartedTotal.toNat < 2 ^ 64 - 1 →
    (metricsAfter L).uploadsStartedTotal.toNat =
      (metricsAfter L).uploadsCompletedTotal.toNat + (metricsAfter L).uploadsFailedTotal.toNat +
        census isAttempting L
  active : (metricsAfter L).uploadsStartedTotal.toNat < 2 ^ 64 - 1 →
    (metricsAfter L).uploadsActive.toNat = census isUploading L ∧
    (metricsAfter L).uploadsActive.toNat ≤ census isAttempting L + census isFinishing L
  sessions : (metricsAfter L).sessionsTotal.toNat < 2 ^ 64 - 1 →
    (metricsAfter L).sessionsActive.toNat = census isRunning L
  finished : (metricsAfter L).sessionsTotal.toNat < 2 ^ 64 - 1 →
    (∀ i ∈ sessionsOf L, Finished (ofSession i L)) → (metricsAfter L).sessionsActive = 0

/-- The sums of the sessions' books. -/
theorem timesCounted_eq {L : List GatewayEvent} (hrun : GatewayRun L) :
    timesCounted .sessionStarted L = timesCounted .sessionEnded L + census isRunning L ∧
    timesCounted .uploadAttempted L = timesCounted .uploadSucceeded L +
      timesCounted .uploadFailed L + census isAttempting L ∧
    timesCounted .uploadStarted L = timesCounted .uploadEnded L + census isUploading L := by
  have hbooks : ∀ i, Books (ofSession i L) := fun i => books (hrun i).guards
  simp only [← sum_timesIn, ← sum_toNat, ← Finset.sum_add_distrib]
  refine ⟨?_, ?_, ?_⟩
  · exact Finset.sum_congr rfl fun i _ => (hbooks i).sessions
  · exact Finset.sum_congr rfl fun i _ => (hbooks i).attempts
  · exact Finset.sum_congr rfl fun i _ => (hbooks i).uploads

/-- **The counters balance** along every interleaving of sessions, and no total
ever goes down, the rotator's neither. -/
theorem counters_balance {L : List GatewayEvent} (hrun : GatewayRun L) :
    CountersBalance L ∧ ∀ (w w' : RotWorld) (acts : List RotAct), w.run acts = some w' →
      RotWorld.TotalsLe w.rot w'.rot := by
  obtain ⟨hsessions, hattempts, huploads⟩ := timesCounted_eq hrun
  have hfinishing := census_finishing_le L
  have hactive := census_uploading_le hrun
  have hstarted := Metrics.toNat_uploadsStartedTotal L
  have hcompleted := Metrics.toNat_uploadsCompletedTotal L
  have hfailed := Metrics.toNat_uploadsFailedTotal L
  have htotal := Metrics.toNat_sessionsTotal L
  have hrunning : (metricsAfter L).sessionsTotal.toNat < 2 ^ 64 - 1 →
      (metricsAfter L).sessionsActive.toNat = census isRunning L := fun hsat =>
    toNat_gauge (Metrics.sessionsActive_add L) hsessions (by omega)
  refine ⟨⟨?_, fun i => storsCounted (hrun i).guards, ?_, ?_, hrunning, ?_⟩,
    fun _ _ _ => RotWorld.totalsLe_run⟩
  · rintro L₁ L₂ rfl
    exact totalsLe_append L₁ L₂
  · intro hsat
    omega
  · intro hsat
    have hgauge : (metricsAfter L).uploadsActive.toNat = census isUploading L :=
      toNat_gauge (Metrics.uploadsActive_add L) huploads (by omega)
    exact ⟨hgauge, by omega⟩
  · intro hsat hfinished
    have hnone : census isRunning L = 0 := by
      rw [census, Finset.card_eq_zero, Finset.filter_eq_empty_iff]
      intro i hi
      simp [(hfinished i hi).not_running]
    rw [← UInt64.toNat_inj, hrunning hsat, hnone]
    rfl

/-! ## A panic, and an upload that is done -/

/-- What one session does, as part of a run of the gateway. -/
def doing (i : Nat) (t : History Io) : List GatewayEvent := t.map (.exchange i)

theorem ofSession_doing (i j : Nat) (t : History Io) :
    ofSession i (doing j t) = if j = i then t else [] := by
  induction t with
  | nil => simp [ofSession, doing]
  | cons e t ih =>
      rw [ofSession, doing, List.map_cons, List.filterMap_cons, ← doing, ← ofSession, ih]
      by_cases hj : j = i <;> simp [GatewayEvent.exchangeOf, hj]

theorem ofSession_append (i : Nat) (L₁ L₂ : List GatewayEvent) :
    ofSession i (L₁ ++ L₂) = ofSession i L₁ ++ ofSession i L₂ := List.filterMap_append

/-- Up to and with the first update of a kind. -/
def upTo (k : Metric) : History Io :=
  wholeUploadHistory.take ((wholeUploadHistory.findIdx fun e : Event => e.metric? = some k) + 1)

theorem isPrefix_upTo (k : Metric) : upTo k <+: history wholeUpload.world (sampleSession false) 2 :=
  List.take_prefix _ _

/-- Session 0 panics while it moves bytes, in the middle of session 1. -/
def panicRun : List GatewayEvent :=
  doing 0 (upTo .uploadStarted) ++ doing 1 (upTo .uploadSucceeded) ++ [.connectionRejected] ++
    doing 0 (guardsAt (upTo .uploadStarted)).unwinding

theorem gatewayRun_panicRun : GatewayRun panicRun := by
  intro i
  simp only [panicRun, ofSession_append, ofSession_doing]
  match i with
  | 0 => exact .panicked _ _ 2 (isPrefix_upTo .uploadStarted) (List.prefix_refl _)
  | 1 => exact .running _ _ 2 (isPrefix_upTo .uploadSucceeded)
  | i + 2 => exact .running wholeUpload.world (sampleSession false) 2 (List.nil_prefix)

theorem counters_balance_panic : GatewayRun panicRun ∧
    (metricsAfter panicRun).uploadsStartedTotal = 2 ∧
    (metricsAfter panicRun).uploadsFailedTotal = 1 ∧ (metricsAfter panicRun).sessionsActive = 1 ∧
    CountersBalance panicRun := by
  have hcounted : (metricsAfter panicRun).uploadsStartedTotal = 2 ∧
      (metricsAfter panicRun).uploadsFailedTotal = 1 ∧
      (metricsAfter panicRun).sessionsActive = 1 := by
    decide +kernel
  obtain ⟨hstarted, hfailed, hactive⟩ := hcounted
  exact ⟨gatewayRun_panicRun, hstarted, hfailed, hactive, (counters_balance gatewayRun_panicRun).1⟩

/-- **An upload is active and not open**: the backend has confirmed it, and the
client is about to be told. -/
theorem active_upload_already_counted :
    GatewayRun (doing 0 (upTo .uploadSucceeded)) ∧
    (metricsAfter (doing 0 (upTo .uploadSucceeded))).uploadsStartedTotal = 1 ∧
    ¬(metricsAfter (doing 0 (upTo .uploadSucceeded))).uploadsActive.toNat ≤
      census isAttempting (doing 0 (upTo .uploadSucceeded)) := by
  refine ⟨fun i => ?_, by decide +kernel⟩
  rw [ofSession_doing]
  split
  · exact .running _ _ 2 (isPrefix_upTo .uploadSucceeded)
  · exact .running wholeUpload.world (sampleSession false) 2 List.nil_prefix

end FtpGateway
