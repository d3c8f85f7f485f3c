import Mathlib.Data.List.Induction
import FtpGateway.RelayIdle

/-!
# Which stalled transfers have a timer running

A copy loop looks at its timer only in its `select!`. While it waits for its
writer to accept bytes, or for the shutdown of it, no timer of that direction is
polled, and the other direction's is polled only as long as that one is waiting
for bytes. So the relay has a live timer in just those states in which some
direction is waiting for its next byte (`timer_live_iff`). In every other state
a silent transfer is held for good (`relay_held`): a peer that stops reading
after the other direction has ended, or both peers at once, are enough.
-/

namespace FtpGateway

/-- The relay is polling a timer that runs out at most `idleTimeout` after the
last byte moved in either direction. -/
def TimerLive (idleTimeout start : Nat) (polls : List Poll) (st : RelayState) : Prop :=
  ∃ d, (st.get d).pc = .reading
    ∧ (st.get d).deadline ≤ lastMove start polls + idleTimeout

/-! ## A waiting loop has just moved a byte -/

namespace Copy

/-- A loop gets back to its `select!` by writing the end of a chunk. -/
def Returned (es : List IoDone) (c : Copy) : Prop :=
  match c.pc with
  | .reading => es = [] ∨ ∃ fs e, es = fs ++ [e] ∧ e.isMove = true
  | .writing rest _ => rest ≠ []
  | _ => True

theorem kept_returned (idleTimeout : Nat) : Kept idleTimeout Returned where
  start _ := Or.inl rfl
  step := by
    intro now es e c c' hr h
    cases h with
    | chunk hpc hne hlen => exact hne
    | drained hpc =>
        rw [Returned, hpc] at hr
        have hpos := List.length_pos_of_ne_nil hr
        exact Or.inr ⟨es, _, rfl, by simpa [IoDone.isMove] using hpos⟩
    | partly hpc hpos hlt => exact List.ne_nil_of_length_pos (by simp; omega)
    | _ => trivial
  timer _ _ := trivial

end Copy

theorem lastMove_append_single (start : Nat) (pre : List Poll) (p : Poll) :
    lastMove start (pre ++ [p]) =
      if (p.up ++ p.down).any IoDone.isMove then p.now else lastMove start pre := by
  simp [lastMove]

theorem lastMove_mem (start : Nat) (polls : List Poll) :
    lastMove start polls ∈ start :: polls.map Poll.now := by
  induction polls using List.reverseRecOn with
  | nil => simp [lastMove]
  | append_singleton pre p ih =>
      rw [lastMove_append_single, List.map_append, ← List.cons_append]
      split
      · exact List.mem_append_right _ (by simp)
      · exact List.mem_append_left _ ih

theorem any_isMove_of {d : Dir} {p : Poll} {e : IoDone} (he : e ∈ p.of d)
    (hmove : e.isMove = true) : (p.up ++ p.down).any IoDone.isMove = true := by
  refine List.any_eq_true.mpr ⟨e, ?_, hmove⟩
  cases d with
  | up => exact List.mem_append_left _ he
  | down => exact List.mem_append_right _ he

/-- If the last operation that a direction completed moved a byte, it was no
later than the last byte moved at all. -/
theorem lastEvent_le_lastMove {d : Dir} {start : Nat} {polls : List Poll}
    (hclock : (start :: polls.map Poll.now).Pairwise (· ≤ ·))
    (hlast : eventsOf d polls = [] ∨
      ∃ fs e, eventsOf d polls = fs ++ [e] ∧ e.isMove = true) :
    lastEvent d start polls ≤ lastMove start polls := by
  induction polls using List.reverseRecOn with
  | nil => exact Nat.le_refl _
  | append_singleton pre p ih =>
      rw [List.map_append, ← List.cons_append, List.pairwise_append] at hclock
      obtain ⟨hpre, -, hlate⟩ := hclock
      have hnow : lastMove start pre ≤ p.now := hlate _ (lastMove_mem start pre) _ (by simp)
      rw [eventsOf_append_single] at hlast
      rw [lastEvent_append_single, lastMove_append_single]
      by_cases hnone : p.of d = []
      · rw [if_pos hnone]
        rw [hnone, List.append_nil] at hlast
        have := ih hpre hlast
        split <;> omega
      · rw [if_neg hnone]
        rcases hlast with hnil | ⟨fs, e, heq, hmove⟩
        · exact absurd (List.append_eq_nil_iff.mp hnil).2 hnone
        · have hmem : e ∈ p.of d := by
            have hl : (eventsOf d pre ++ p.of d).getLast? = some e := by simp [heq]
            rw [List.getLast?_append_of_ne_nil _ hnone] at hl
            exact List.mem_of_getLast? hl
          rw [if_pos (any_isMove_of hmem hmove)]

/-! ## Whole runs -/

theorem relayRun_clock {idleTimeout clock : Nat} {st : RelayState} {polls : List Poll}
    {out : RelayOutcome} (h : relayRun idleTimeout clock st polls = some out) :
    (clock :: polls.map Poll.now).Pairwise (· ≤ ·) := by
  rw [← List.isChain_iff_pairwise]
  induction polls generalizing clock st with
  | nil => simp
  | cons p ps ih =>
      obtain ⟨hnow, out₁, hpoll, hrest⟩ := relayRun_cons h
      rw [List.map_cons, List.isChain_cons_cons]
      refine ⟨hnow, ?_⟩
      rcases hrest with ⟨-, hrest⟩ | ⟨-, rfl, -⟩
      · exact ih hrest
      · simp

theorem relayRun_tracks {idleTimeout start clock : Nat} {pre polls : List Poll}
    {st : RelayState} {out : RelayOutcome} (ht : st.Tracks idleTimeout start pre)
    (h : relayRun idleTimeout clock st polls = some out) (hres : out.result = none) :
    out.final.Tracks idleTimeout start (pre ++ polls) := by
  induction polls generalizing pre clock st with
  | nil =>
      obtain rfl := Option.some.inj h
      simpa using ht
  | cons p ps ih =>
      obtain ⟨-, out₁, hpoll, ⟨hnone, hrest⟩ | ⟨hsome, -, rfl⟩⟩ := relayRun_cons h
      · simpa using ih ((pollBoth_spec ht hpoll).2 hnone) hrest
      · exact absurd hres hsome

/-- **Which states have a live timer.** As long as the relay has not returned:
those in which some direction is waiting for its next byte, with nothing it has
read left to write. -/
theorem timer_live_iff {idleTimeout start : Nat} {polls : List Poll} {out : RelayOutcome}
    (h : relayBidirectional idleTimeout start polls = some out) (hres : out.result = none) :
    TimerLive idleTimeout start polls out.final ↔ ∃ d, Waiting (eventsOf d polls) := by
  have ht : out.final.Tracks idleTimeout start polls :=
    relayRun_tracks (RelayState.Tracks.start idleTimeout start) h hres
  have hwait : ∀ d, Waiting (eventsOf d polls) ↔ (out.final.get d).pc = .reading :=
    fun d => (ht.each d).waiting_iff (ht.noErrors d)
  constructor
  · rintro ⟨d, hpc, -⟩
    exact ⟨d, (hwait d).mpr hpc⟩
  · rintro ⟨d, hw⟩
    have hpc := (hwait d).mp hw
    have hst := (ht.each d).state
    have hback := (Copy.kept_returned idleTimeout).relay h d
    rw [hpc] at hst
    rw [Copy.Returned, hpc] at hback
    refine ⟨d, hpc, ?_⟩
    rw [hst.2.2]
    exact Nat.add_le_add_right (lastEvent_le_lastMove (relayRun_clock h) hback) _

/-- An upload whose backend has read nothing yet: the timer of the other
direction is running. -/
theorem timer_live_iff_first_chunk :
    ∃ out, relayBidirectional 10 0 [⟨0, .up, [.read [1]], []⟩] = some out ∧ out.result = none
      ∧ TimerLive 10 0 [⟨0, .up, [.read [1]], []⟩] out.final := by
  have hrun : relayBidirectional 10 0 [⟨0, .up, [.read [1]], []⟩] =
      some ⟨none, ⟨.writing [1] 1, 10, 0, [1], []⟩, ⟨.reading, 10, 0, [], []⟩⟩ := rfl
  exact ⟨_, hrun, rfl, (timer_live_iff hrun rfl).mpr ⟨.down, rfl, rfl⟩⟩

/-- The backend ends its side and then stops reading. -/
def stalledUpload : List Poll :=
  [⟨0, .up, [.read [1]], [.read [], .shut]⟩, ⟨1000, .up, [], []⟩]

/-- With an idle timeout of 10 the relay is still there at 1000, and no timer is
running. -/
theorem stalledUpload_held :
    ∃ out, relayBidirectional 10 0 stalledUpload = some out ∧ out.result = none
      ∧ ¬TimerLive 10 0 stalledUpload out.final := by
  refine ⟨⟨none, ⟨.writing [1] 1, 10, 0, [1], []⟩, ⟨.done, 10, 0, [], []⟩⟩, rfl, rfl, ?_⟩
  rintro ⟨d, hpc, -⟩
  cases d <;> cases hpc

/-! ## Without a live timer -/

theorem relayRun_append {idleTimeout clock : Nat} {st : RelayState} {ps qs : List Poll}
    {out : RelayOutcome} (h : relayRun idleTimeout clock st ps = some out)
    (hres : out.result = none) :
    relayRun idleTimeout clock st (ps ++ qs) =
      relayRun idleTimeout (ps.foldl (fun _ p => p.now) clock) out.final qs := by
  induction ps generalizing clock st with
  | nil =>
      obtain rfl := Option.some.inj h
      rfl
  | cons p ps ih =>
      obtain ⟨hnow, out₁, hpoll, ⟨hnone, hrest⟩ | ⟨hsome, -, rfl⟩⟩ := relayRun_cons h
      · simp only [List.cons_append, relayRun, List.foldl_cons, hpoll, hnone]
        rw [if_neg (by omega)]
        exact ih hrest
      · exact absurd hres hsome

theorem RelayState.set_get (st : RelayState) (d : Dir) : st.set (st.get d) d = st := by
  cases d <;> rfl

/-- Neither loop is in its `select!`, and neither they nor the relay are through. -/
structure RelayState.Deaf (st : RelayState) : Prop where
  away : ∀ d, (st.get d).pc ≠ .reading
  alive : ∀ d e, (st.get d).pc ≠ .failed e
  unfinished : ∃ d, (st.get d).pc ≠ .done

theorem RelayState.Deaf.poll {st : RelayState} (hd : st.Deaf) (idleTimeout now : Nat) (d : Dir) :
    (st.get d).poll idleTimeout now [] = some (st.get d) := by
  show some (Copy.checkTimer now (st.get d)) = some (st.get d)
  rw [Copy.checkTimer, if_neg (fun h => hd.away d h.1)]

theorem RelayState.Deaf.pollBoth {st : RelayState} (hd : st.Deaf) {p : Poll}
    (hp : ∀ d, p.of d = []) (idleTimeout : Nat) :
    pollBoth idleTimeout p st = some ⟨none, st⟩ := by
  have hnot : ¬((st.get p.first).pc = .done ∧ (st.get p.first.other).pc = .done) := by
    rintro hdone
    obtain ⟨d, hne⟩ := hd.unfinished
    exact hne ((forall_dir (P := fun d => (st.get d).pc = .done) p.first).mpr hdone d)
  unfold FtpGateway.pollBoth
  simp only [hp, hd.poll, RelayState.set_get]
  split
  · rename_i e he
    exact absurd he (hd.alive _ e)
  split
  · rename_i e he
    exact absurd he (hd.alive _ e)
  rw [if_neg hnot]

theorem RelayState.Deaf.relayRun {st : RelayState} (hd : st.Deaf) {quiet : List Poll}
    (hquiet : ∀ p ∈ quiet, ∀ d, p.of d = []) (idleTimeout : Nat) {clock : Nat}
    (hclock : (clock :: quiet.map Poll.now).IsChain (· ≤ ·)) :
    relayRun idleTimeout clock st quiet = some ⟨none, st⟩ := by
  induction quiet generalizing clock with
  | nil => rfl
  | cons p ps ih =>
      rw [List.map_cons, List.isChain_cons_cons] at hclock
      simp only [FtpGateway.relayRun]
      rw [if_neg (by omega), hd.pollBoth (hquiet p (by simp)) idleTimeout]
      exact ih (fun q hq => hquiet q (by simp [hq])) hclock.2

theorem pollBoth_unfinished {idleTimeout : Nat} {p : Poll} {st : RelayState}
    {out : RelayOutcome} (h : pollBoth idleTimeout p st = some out) (hres : out.result = none) :
    ∃ d, (out.final.get d).pc ≠ .done := by
  cases polledBoth_of_pollBoth h with
  | firstFailed => cases hres
  | otherFailed => cases hres
  | finished => cases hres
  | pending _ _ _ _ hnot =>
      by_contra hall
      simp only [not_exists, not_not] at hall
      exact hnot ⟨by simpa using hall p.first, by simpa using hall p.first.other⟩

theorem relayRun_unfinished {idleTimeout clock : Nat} {polls : List Poll} {st : RelayState}
    {out : RelayOutcome} (hst : ∃ d, (st.get d).pc ≠ .done)
    (h : relayRun idleTimeout clock st polls = some out) (hres : out.result = none) :
    ∃ d, (out.final.get d).pc ≠ .done := by
  induction polls generalizing clock st with
  | nil =>
      obtain rfl := Option.some.inj h
      exact hst
  | cons p ps ih =>
      obtain ⟨-, out₁, hpoll, ⟨hnone, hrest⟩ | ⟨-, -, rfl⟩⟩ := relayRun_cons h
      · exact ih (pollBoth_unfinished hpoll hnone) hrest
      · exact pollBoth_unfinished hpoll hres

/-- **A transfer without a live timer is held for good.** If no direction is
waiting for a byte then no stretch of silence, however long, ends the relay. -/
theorem relay_held {idleTimeout start : Nat} {polls quiet : List Poll} {out : RelayOutcome}
    (h : relayBidirectional idleTimeout start polls = some out) (hres : out.result = none)
    (hnot : ∀ d, ¬Waiting (eventsOf d polls)) (hquiet : ∀ p ∈ quiet, ∀ d, p.of d = [])
    (hclock : (polls.foldl (fun _ p => p.now) start :: quiet.map Poll.now).IsChain (· ≤ ·)) :
    relayBidirectional idleTimeout start (polls ++ quiet) = some out := by
  have ht : out.final.Tracks idleTimeout start polls :=
    relayRun_tracks (RelayState.Tracks.start idleTimeout start) h hres
  have hdeaf : out.final.Deaf := by
    refine ⟨fun d hpc => ?_, fun d e hpc => ?_, ?_⟩
    · exact hnot d (((ht.each d).waiting_iff (ht.noErrors d)).mpr hpc)
    · have hst := (ht.each d).state
      rw [hpc] at hst
      cases hst.2.symm.trans (ht.noErrors d)
    · exact relayRun_unfinished ⟨.up, by simp [RelayState.start, RelayState.get, Copy.start]⟩ h hres
  unfold relayBidirectional
  rw [relayRun_append h hres, hdeaf.relayRun hquiet idleTimeout hclock, ← hres]

end FtpGateway
