import FtpGateway.Relay

/-!
# When the relay gives up on a transfer

The documentation promises an idle timer that is reset by every byte moved in
either direction. Each copy loop has a timer of its own, and nothing but its
own direction resets it: `idleTimeout_iff` says exactly which executions end
in the idle timeout, in terms of the raw record of each direction. An upload
in which only the client sends is cut off as soon as the silent direction's
timer runs out, however busy the other one is (`upload_cut_off`).
-/

namespace FtpGateway

/-! ## Activity, over the raw record -/

/-- The instant of the last poll in which direction `d` got anywhere. -/
def lastEvent (d : Dir) (start : Nat) (polls : List Poll) : Nat :=
  polls.foldl (fun t p => if p.of d = [] then t else p.now) start

def IoDone.isMove : IoDone → Bool
  | .read data => data ≠ []
  | .wrote n => 0 < n
  | _ => false

/-- The instant of the last poll in which a byte moved, in either direction. -/
def lastMove (start : Nat) (polls : List Poll) : Nat :=
  polls.foldl (fun t p => if (p.up ++ p.down).any IoDone.isMove then p.now else t) start

/-- Up to its end the transfer is never without a moving byte for `idleTimeout`.
The start counts as a movement. -/
def Active (idleTimeout start : Nat) (polls : List Poll) : Prop :=
  ∀ pre p post, polls = pre ++ p :: post → p.now < lastMove start pre + idleTimeout

def NoErrors (polls : List Poll) : Prop := ∀ d, hasError (eventsOf d polls) = false

/-- In each direction by itself: while it waits for its next byte (and neither
side has failed), less than `idleTimeout` has passed since that direction last
got anywhere, or since the start. -/
def EachWayActive (idleTimeout start : Nat) (polls : List Poll) : Prop :=
  ∀ d pre p post, polls = pre ++ p :: post → NoErrors (pre ++ [p]) →
    Waiting (eventsOf d (pre ++ [p])) → p.now < lastEvent d start (pre ++ [p]) + idleTimeout

def RelayOutcome.timedOut (out : RelayOutcome) : Bool :=
  match out.result with
  | some (.error .idleTimeout) => true
  | _ => false

theorem lastEvent_append_single (d : Dir) (start : Nat) (pre : List Poll) (p : Poll) :
    lastEvent d start (pre ++ [p]) =
      if p.of d = [] then lastEvent d start pre else p.now := by
  simp [lastEvent]

/-! ## One poll of one loop -/

/-- What a poll of a loop comes to: the loop gives up, fails, or goes on. -/
theorem Copy.poll_spec {idleTimeout now last : Nat} {es new : List IoDone} {c c' : Copy}
    (ht : c.Tracks idleTimeout es last) (h : c.poll idleTimeout now new = some c') :
    let last' := if new = [] then last else now
    (c'.pc = .failed .idleTimeout ∧ hasError (es ++ new) = false ∧ Waiting (es ++ new)
        ∧ last' + idleTimeout ≤ now)
      ∨ (∃ k, c'.pc = .failed (.io k) ∧ hasError (es ++ new) = true)
      ∨ ((∀ e, c'.pc ≠ .failed e) ∧ hasError (es ++ new) = false
          ∧ (Waiting (es ++ new) → now < last' + idleTimeout)
          ∧ c'.Tracks idleTimeout (es ++ new) last') := by
  intro last'
  simp only [Copy.poll, Option.map_eq_some_iff] at h
  obtain ⟨c₁, hfold, rfl⟩ := h
  have ht₁ : c₁.Tracks idleTimeout (es ++ new) last' := completes_track ht hfold
  have hst := ht₁.state
  by_cases hread : c₁.pc = .reading
  · rw [hread] at hst
    obtain ⟨hwait, herr, hdl⟩ := hst
    by_cases hdue : c₁.deadline ≤ now
    · refine Or.inl ⟨?_, herr, hwait, by omega⟩
      rw [checkTimer, if_pos ⟨hread, hdue⟩]
    · rw [checkTimer, if_neg (fun h => hdue h.2)]
      exact Or.inr (Or.inr ⟨fun e he => by simp [hread] at he, herr, fun _ => by omega, ht₁⟩)
  · rw [checkTimer, if_neg (fun h => hread h.1)]
    by_cases herr : hasError (es ++ new) = true
    · cases hpc : c₁.pc with
      | failed e =>
          rw [hpc] at hst
          cases e with
          | idleTimeout => exact absurd rfl hst.1
          | io k => exact Or.inr (Or.inl ⟨k, rfl, herr⟩)
      | reading => exact absurd hpc hread
      | writing rest chunk => rw [hpc] at hst; simp [herr] at hst
      | shutting => rw [hpc] at hst; simp [herr] at hst
      | done => rw [hpc] at hst; simp [herr] at hst
    · have herr : hasError (es ++ new) = false := by simpa using herr
      refine Or.inr (Or.inr ⟨fun e he => ?_, herr, fun hw => ?_, ht₁⟩)
      · rw [he] at hst
        cases hst.2.symm.trans herr
      · exact absurd ((ht₁.waiting_iff herr).mp hw) hread

theorem Copy.poll_failed {idleTimeout now last : Nat} {es new : List IoDone} {c c' : Copy}
    {e : RelayError} (ht : c.Tracks idleTimeout es last)
    (h : c.poll idleTimeout now new = some c') (he : c'.pc = .failed e) :
    (e = .idleTimeout ∧ hasError (es ++ new) = false ∧ Waiting (es ++ new)
        ∧ (if new = [] then last else now) + idleTimeout ≤ now)
      ∨ (e ≠ .idleTimeout ∧ hasError (es ++ new) = true) := by
  rcases Copy.poll_spec ht h with ⟨hpc, hrest⟩ | ⟨k, hpc, herr⟩ | ⟨hok, -⟩
  · exact Or.inl ⟨CopyPc.failed.inj (he.symm.trans hpc), hrest⟩
  · refine Or.inr ⟨?_, herr⟩
    rw [CopyPc.failed.inj (he.symm.trans hpc)]
    exact RelayError.noConfusion
  · exact absurd he (hok e)

theorem Copy.poll_going {idleTimeout now last : Nat} {es new : List IoDone} {c c' : Copy}
    (ht : c.Tracks idleTimeout es last) (h : c.poll idleTimeout now new = some c')
    (hok : ∀ e, c'.pc ≠ .failed e) :
    hasError (es ++ new) = false
      ∧ (Waiting (es ++ new) → now < (if new = [] then last else now) + idleTimeout)
      ∧ c'.Tracks idleTimeout (es ++ new) (if new = [] then last else now) := by
  rcases Copy.poll_spec ht h with ⟨hpc, -⟩ | ⟨k, hpc, -⟩ | ⟨-, hrest⟩
  · exact absurd hpc (hok _)
  · exact absurd hpc (hok _)
  · exact hrest

/-! ## One poll of both -/

/-- The state of both loops told from the polls so far, neither having failed. -/
structure RelayState.Tracks (idleTimeout start : Nat) (pre : List Poll)
    (st : RelayState) : Prop where
  each : ∀ d, (st.get d).Tracks idleTimeout (eventsOf d pre) (lastEvent d start pre)
  noErrors : NoErrors pre

/-- Direction `d` has been silent for `idleTimeout` at poll `p` after `pre`. -/
def StalledAt (idleTimeout start : Nat) (pre : List Poll) (p : Poll) (d : Dir) : Prop :=
  NoErrors (pre ++ [p]) ∧ Waiting (eventsOf d (pre ++ [p]))
    ∧ lastEvent d start (pre ++ [p]) + idleTimeout ≤ p.now

theorem RelayOutcome.timedOut_error (e : RelayError) (st : RelayState) :
    RelayOutcome.timedOut ⟨some (.error e), st⟩ = true ↔ e = .idleTimeout := by
  cases e <;> simp [RelayOutcome.timedOut]

/-- A loop that has failed has given up just if some direction has been silent
for too long. -/
theorem RelayState.Tracks.failed {idleTimeout start : Nat} {pre : List Poll} {p : Poll}
    {st : RelayState} (ht : st.Tracks idleTimeout start pre) {d : Dir} {c : Copy}
    {e : RelayError} (hc : (st.get d).poll idleTimeout p.now (p.of d) = some c)
    (he : c.pc = .failed e) (hother : hasError (eventsOf d.other (pre ++ [p])) = false) :
    e = .idleTimeout ↔ ∃ d', StalledAt idleTimeout start pre p d' := by
  have hfail := Copy.poll_failed (ht.each d) hc he
  rw [← eventsOf_append_single, ← lastEvent_append_single] at hfail
  rcases hfail with ⟨rfl, herr, hwait, hdue⟩ | ⟨hne, herr⟩
  · exact ⟨fun _ => ⟨d, (forall_dir d).mpr ⟨herr, hother⟩, hwait, hdue⟩, fun _ => rfl⟩
  · refine ⟨fun heq => absurd heq hne, ?_⟩
    rintro ⟨d', hno, -⟩
    cases (hno d).symm.trans herr

/-- Neither loop has failed: no direction has been silent for too long. -/
theorem RelayState.Tracks.going {idleTimeout start : Nat} {pre : List Poll} {p : Poll}
    {st : RelayState} (ht : st.Tracks idleTimeout start pre) {c₁ c₂ : Copy}
    (hc₁ : (st.get p.first).poll idleTimeout p.now (p.of p.first) = some c₁)
    (hok₁ : ∀ e, c₁.pc ≠ .failed e)
    (hc₂ : (st.get p.first.other).poll idleTimeout p.now (p.of p.first.other) = some c₂)
    (hok₂ : ∀ e, c₂.pc ≠ .failed e) :
    (¬∃ d, StalledAt idleTimeout start pre p d) ∧
      ((st.set c₁ p.first).set c₂ p.first.other).Tracks idleTimeout start (pre ++ [p]) := by
  have hgo₁ := Copy.poll_going (ht.each p.first) hc₁ hok₁
  have hgo₂ := Copy.poll_going (ht.each p.first.other) hc₂ hok₂
  rw [← eventsOf_append_single, ← lastEvent_append_single] at hgo₁ hgo₂
  obtain ⟨herr₁, hlive₁, htr₁⟩ := hgo₁
  obtain ⟨herr₂, hlive₂, htr₂⟩ := hgo₂
  have hlive : ∀ d, Waiting (eventsOf d (pre ++ [p])) →
      p.now < lastEvent d start (pre ++ [p]) + idleTimeout :=
    (forall_dir p.first).mpr ⟨hlive₁, hlive₂⟩
  refine ⟨?_, (forall_dir p.first).mpr ⟨?_, ?_⟩, (forall_dir p.first).mpr ⟨herr₁, herr₂⟩⟩
  · rintro ⟨d, -, hwait, hdue⟩
    have := hlive d hwait
    omega
  · simpa using htr₁
  · simpa using htr₂

/-- **One poll of the relay.** It returns the idle timeout exactly if one of
the directions has been silent for that long, and otherwise goes on tracking
the record or returns something else. -/
theorem pollBoth_spec {idleTimeout start : Nat} {pre : List Poll} {p : Poll}
    {st : RelayState} {out : RelayOutcome} (ht : st.Tracks idleTimeout start pre)
    (h : pollBoth idleTimeout p st = some out) :
    (out.timedOut = true ↔ ∃ d, StalledAt idleTimeout start pre p d)
      ∧ (out.result = none → out.final.Tracks idleTimeout start (pre ++ [p])) := by
  cases polledBoth_of_pollBoth h with
  | firstFailed hc he hnil =>
      have hother : hasError (eventsOf p.first.other (pre ++ [p])) = false := by
        rw [eventsOf_append_single, hnil, List.append_nil]
        exact ht.noErrors p.first.other
      refine ⟨?_, fun hn => by cases hn⟩
      rw [RelayOutcome.timedOut_error, ht.failed hc he hother]
  | otherFailed hc₁ hok₁ hc₂ he =>
      have hother : hasError (eventsOf p.first.other.other (pre ++ [p])) = false := by
        rw [Dir.other_other, eventsOf_append_single]
        exact (Copy.poll_going (ht.each p.first) hc₁ hok₁).1
      refine ⟨?_, fun hn => by cases hn⟩
      rw [RelayOutcome.timedOut_error, ht.failed hc₂ he hother]
  | finished hc₁ hdone₁ hc₂ hdone₂ heq =>
      obtain ⟨hnot, -⟩ := ht.going hc₁ (by simp [hdone₁]) hc₂ (by simp [hdone₂])
      exact ⟨⟨fun hto => (by cases hto), fun hst => absurd hst hnot⟩, fun hn => by cases hn⟩
  | pending hc₁ hok₁ hc₂ hok₂ hopen =>
      obtain ⟨hnot, htr⟩ := ht.going hc₁ hok₁ hc₂ hok₂
      exact ⟨⟨fun hto => (by cases hto), fun hst => absurd hst hnot⟩, fun _ => htr⟩

/-! ## Whole runs -/

theorem relayRun_timedOut {idleTimeout start clock : Nat} {pre polls : List Poll}
    {st : RelayState} {out : RelayOutcome} (ht : st.Tracks idleTimeout start pre)
    (h : relayRun idleTimeout clock st polls = some out) :
    out.timedOut = true ↔ ∃ d q p r, polls = q ++ p :: r
      ∧ StalledAt idleTimeout start (pre ++ q) p d := by
  induction polls generalizing pre clock st with
  | nil =>
      obtain rfl := Option.some.inj h
      simp [RelayOutcome.timedOut]
  | cons p ps ih =>
      obtain ⟨-, out₁, hpoll, hrest⟩ := relayRun_cons h
      obtain ⟨hiff, hnext⟩ := pollBoth_spec ht hpoll
      rcases hrest with ⟨hres, hrest⟩ | ⟨-, rfl, rfl⟩
      · have hnot : ¬∃ d, StalledAt idleTimeout start pre p d := by
          rw [← hiff]
          simp [RelayOutcome.timedOut, hres]
        rw [ih (hnext hres) hrest]
        constructor
        · rintro ⟨d, q, p', r, rfl, hst⟩
          exact ⟨d, p :: q, p', r, rfl, by simpa using hst⟩
        · rintro ⟨d, q, p', r, heq, hst⟩
          cases q with
          | nil =>
              obtain ⟨rfl, rfl⟩ := List.cons.inj heq
              exact absurd ⟨d, by simpa using hst⟩ hnot
          | cons p'' q =>
              obtain ⟨rfl, rfl⟩ := List.cons.inj heq
              exact ⟨d, q, p', r, rfl, by simpa using hst⟩
      · rw [hiff]
        constructor
        · rintro ⟨d, hst⟩
          exact ⟨d, [], p, [], rfl, by simpa using hst⟩
        · rintro ⟨d, q, p', r, heq, hst⟩
          cases q with
          | nil =>
              obtain ⟨rfl, rfl⟩ := List.cons.inj heq
              exact ⟨d, by simpa using hst⟩
          | cons a q => simp at heq

theorem RelayState.Tracks.start (idleTimeout now : Nat) :
    (RelayState.start idleTimeout now).Tracks idleTimeout now [] :=
  ⟨fun d => by cases d <;> exact Copy.Tracks.start idleTimeout now, fun _ => rfl⟩

/-- **When a transfer is cut off.** Exactly those executions escape the idle
timeout in which each direction by itself is active enough. That some byte moves
at least every `idleTimeout` (`Active`) is not the condition. -/
theorem idleTimeout_iff {idleTimeout start : Nat} {polls : List Poll} {out : RelayOutcome}
    (h : relayBidirectional idleTimeout start polls = some out) :
    out.timedOut = false ↔ EachWayActive idleTimeout start polls := by
  have hrun := relayRun_timedOut (RelayState.Tracks.start idleTimeout start) h
  rw [← Bool.not_eq_true, hrun]
  constructor
  · intro hnot d pre p post heq hno hwait
    by_contra hge
    refine hnot ⟨d, pre, p, post, heq, hno, hwait, ?_⟩
    simpa using hge
  · rintro hall ⟨d, q, p, r, heq, hno, hwait, hdue⟩
    have := hall d q p r heq hno hwait
    simp only [List.nil_append] at hdue
    omega

theorem active_nil (idleTimeout start : Nat) : Active idleTimeout start [] := by
  intro pre p post heq
  simp at heq

theorem active_cons {idleTimeout start : Nat} {p : Poll} {ps : List Poll} :
    Active idleTimeout start (p :: ps) ↔ p.now < start + idleTimeout
      ∧ Active idleTimeout (lastMove start [p]) ps := by
  constructor
  · intro h
    refine ⟨h [] p ps rfl, fun pre q post heq => ?_⟩
    exact h (p :: pre) q post (by rw [heq]; rfl)
  · rintro ⟨hp, hps⟩ pre q post heq
    cases pre with
    | nil =>
        obtain ⟨rfl, rfl⟩ := List.cons.inj heq
        exact hp
    | cons p' pre =>
        obtain ⟨rfl, rfl⟩ := List.cons.inj heq
        exact hps pre q post rfl

/-- A steady upload with a timeout of 10: a byte goes up every 4, the backend
stays silent, as it does in an upload. -/
def steadyUpload : List Poll :=
  [⟨0, .up, [.read [1], .wrote 1], []⟩, ⟨4, .up, [.read [2], .wrote 1], []⟩,
    ⟨8, .up, [.read [3], .wrote 1], []⟩, ⟨10, .up, [], []⟩]

/-- The steady upload is active throughout and is cut off all the same. -/
theorem upload_cut_off :
    Active 10 0 steadyUpload
      ∧ (relayBidirectional 10 0 steadyUpload).map RelayOutcome.timedOut = some true := by
  refine ⟨?_, by decide⟩
  simp only [steadyUpload, active_cons, active_nil, lastMove]
  decide

/-- The same upload to a backend that ends its side at once is not cut off. -/
def oneWayUpload : List Poll :=
  [⟨0, .up, [.read [1], .wrote 1], [.read [], .shut]⟩, ⟨4, .up, [.read [2], .wrote 1], []⟩,
    ⟨8, .up, [.read [3], .wrote 1], []⟩, ⟨10, .up, [], []⟩, ⟨12, .up, [.read [], .shut], []⟩]

theorem idleTimeout_iff_oneWayUpload :
    ∃ out, relayBidirectional 10 0 oneWayUpload = some out ∧ Active 10 0 oneWayUpload
      ∧ out.timedOut = false ∧ (out.timedOut = false ↔ EachWayActive 10 0 oneWayUpload) := by
  obtain ⟨out, hout⟩ : ∃ out, relayBidirectional 10 0 oneWayUpload = some out :=
    Option.isSome_iff_exists.mp (by decide)
  have hto : (relayBidirectional 10 0 oneWayUpload).map RelayOutcome.timedOut = some false := by
    decide
  have hact : Active 10 0 oneWayUpload := by
    simp only [oneWayUpload, active_cons, active_nil, lastMove]
    decide
  rw [hout] at hto
  exact ⟨out, hout, hact, Option.some.inj hto, idleTimeout_iff hout⟩

end FtpGateway
