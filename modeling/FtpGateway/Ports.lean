import Mathlib.Data.Finset.Card
import Mathlib.Order.Interval.Finset.Nat
import FtpGateway.Config
import FtpGateway.Holding

/-!
# The PASV port pool

`pasv/port_manager.rs` together with what a session does to it: allocate on
`PASV`/`EPSV`, hold the guard, take it out for a `STOR`, drop it on every way
out. The pool is shared by all sessions, so the model takes one *atomic* step
of one session at a time (`fetch_add`, the set insert, the outcome of `bind`,
the set remove) and a run is any interleaving of such steps (`Reachable`).

A session keeps a port in one of two places: in `active_pasv`, or in the local
variable (a guard being replaced, answered or used, or the reservation of an
`allocate` still in progress). `step_effect` says once what a step does to the
set and to these two places; that the books stay exact
(`Holding.Exact`) follows from it case by case.
-/

namespace FtpGateway

/-! ## The pool -/

structure PortManager where
  inUse : Finset UInt16
  range : PortRange
  nextOffset : UInt32

namespace PortManager

def new (range : PortRange) : PortManager := ⟨∅, range, 0⟩

def rangeSize (m : PortManager) : UInt32 :=
  m.range.end.toUInt32 - m.range.start.toUInt32 + 1

def offset (m : PortManager) : UInt32 := m.nextOffset % m.rangeSize

def nextPort (m : PortManager) : UInt16 := m.range.start + m.offset.toUInt16

/-- `fetch_add`, which wraps. -/
def advance (m : PortManager) : PortManager := { m with nextOffset := m.nextOffset + 1 }

def reserve (m : PortManager) (p : UInt16) : PortManager :=
  { m with inUse := insert p m.inUse }

def release (m : PortManager) (p : UInt16) : PortManager :=
  { m with inUse := m.inUse.erase p }

def capacity (m : PortManager) : UInt64 := m.range.len

def activeCount (m : PortManager) : Nat := m.inUse.card

/-! The arithmetic of `allocate` is exact on a non-empty range: the machine
results are the mathematical ones. -/

theorem toNat_rangeSize {m : PortManager} (h : m.range.start ≤ m.range.end) :
    m.rangeSize.toNat = m.range.end.toNat - m.range.start.toNat + 1 := by
  have hle : m.range.start.toNat ≤ m.range.end.toNat := UInt16.le_iff_toNat_le.mp h
  have he := m.range.end.toNat_lt
  have hle32 : m.range.start.toUInt32 ≤ m.range.end.toUInt32 := by
    rw [UInt32.le_iff_toNat_le]; simpa using hle
  rw [rangeSize, UInt32.toNat_add, UInt32.toNat_sub_of_le _ _ hle32]
  simp only [UInt16.toNat_toUInt32, UInt32.reduceToNat]
  omega

theorem offset_lt {m : PortManager} (h : m.range.start ≤ m.range.end) :
    m.offset.toNat < m.range.end.toNat - m.range.start.toNat + 1 := by
  rw [← toNat_rangeSize h, offset, UInt32.toNat_mod]
  exact Nat.mod_lt _ (by rw [toNat_rangeSize h]; omega)

theorem toNat_offset_toUInt16 {m : PortManager} (h : m.range.start ≤ m.range.end) :
    m.offset.toUInt16.toNat = m.offset.toNat := by
  have hlt := offset_lt h
  have he := m.range.end.toNat_lt
  rw [UInt32.toNat_toUInt16]
  omega

theorem toNat_nextPort {m : PortManager} (h : m.range.start ≤ m.range.end) :
    m.nextPort.toNat = m.range.start.toNat + m.offset.toNat := by
  have hlt := offset_lt h
  have he := m.range.end.toNat_lt
  have hle : m.range.start.toNat ≤ m.range.end.toNat := UInt16.le_iff_toNat_le.mp h
  rw [nextPort, UInt16.toNat_add, toNat_offset_toUInt16 h]
  omega

theorem nextPort_contains {m : PortManager} (h : m.range.start ≤ m.range.end) :
    m.range.contains m.nextPort = true := by
  have hlt := offset_lt h
  have hle : m.range.start.toNat ≤ m.range.end.toNat := UInt16.le_iff_toNat_le.mp h
  have hport := toNat_nextPort h
  simp only [PortRange.contains, Bool.and_eq_true, decide_eq_true_eq,
    UInt16.le_iff_toNat_le]
  omega

end PortManager

/-! ## What a session does to it -/

/-- Where a session is, as far as the pool is concerned. The ports are those
in its local variables. `replacing` is `PASV` with the old guard out of
`active_pasv` and about to be dropped; in `allocate` there are `left` candidates to
try, before the `fetch_add` (`picking`) and after it (`picked`), then a port waits
for `bind` (`reserved`) or has its reservation undone (`bindFailed`); `replying` has
the new guard in hand, `refusing` writes the 425, and `storing` is the `STOR` block,
which owns the guard to its end. -/
inductive Pc where
  | command
  | replacing (old : UInt16)
  | picking (left : Nat)
  | picked (left : Nat) (port : UInt16)
  | reserved (left : Nat) (port : UInt16)
  | bindFailed (left : Nat) (port : UInt16)
  | replying (port : UInt16)
  | refusing
  | storing (port : UInt16)
  | exiting
  | ended
deriving Repr, DecidableEq

namespace Pc

/-- A live guard in a local variable. -/
def guard : Pc → Option UInt16
  | .replacing p => some p
  | .replying p => some p
  | .storing p => some p
  | _ => none

/-- The port an `allocate` in progress has reserved. -/
def reservation : Pc → Option UInt16
  | .reserved _ p => some p
  | .bindFailed _ p => some p
  | _ => none

def hand : Pc → Option UInt16
  | .replacing p => some p
  | .reserved _ p => some p
  | .bindFailed _ p => some p
  | .replying p => some p
  | .storing p => some p
  | _ => none

/-- The command loop and the exit, where `active_pasv` may be set. -/
def atRest : Pc → Bool
  | .command => true
  | .exiting => true
  | _ => false

end Pc

structure SessionPorts where
  activePasv : Option UInt16
  pc : Pc
deriving Repr, DecidableEq

namespace SessionPorts

def start : SessionPorts := ⟨none, .command⟩

/-- The guards alive in a session: in `active_pasv` and in a local variable. -/
def guards (ss : SessionPorts) : List UInt16 :=
  ss.activePasv.toList ++ ss.pc.guard.toList

end SessionPorts

/-- The atomic steps. The booleans are what the surroundings decide: whether
a `bind` or a write to the client succeeds, whether a `STOR` ends the session. -/
inductive PortAct where
  | passive
  | dropOld
  | fetchAdd
  | insert
  | bind (ok : Bool)
  | undo
  | exhausted
  | reply (ok : Bool)
  | refuse (ok : Bool)
  | stor
  | storEnd (goOn : Bool)
  | leave
  | dropActive
  | finish
deriving Repr, DecidableEq

/-- One atomic step of a session; `none` if it is not at that point. -/
def portStep (m : PortManager) (ss : SessionPorts) :
    PortAct → Option (PortManager × SessionPorts)
  | .passive =>
      match ss.pc, ss.activePasv with
      | .command, some old => some (m, ⟨none, .replacing old⟩)
      | .command, none => some (m, ⟨none, .picking m.rangeSize.toNat⟩)
      | _, _ => none
  | .dropOld =>
      match ss.pc with
      | .replacing old => some (m.release old, { ss with pc := .picking m.rangeSize.toNat })
      | _ => none
  | .fetchAdd =>
      match ss.pc with
      | .picking (left + 1) => some (m.advance, { ss with pc := .picked left m.nextPort })
      | _ => none
  | .insert =>
      match ss.pc with
      | .picked left port =>
          if port ∈ m.inUse then some (m, { ss with pc := .picking left })
          else some (m.reserve port, { ss with pc := .reserved left port })
      | _ => none
  | .bind ok =>
      match ss.pc with
      | .reserved left port =>
          some (m, { ss with pc := if ok then .replying port else .bindFailed left port })
      | _ => none
  | .undo =>
      match ss.pc with
      | .bindFailed left port => some (m.release port, { ss with pc := .picking left })
      | _ => none
  | .exhausted =>
      match ss.pc with
      | .picking 0 => some (m, { ss with pc := .refusing })
      | _ => none
  | .reply ok =>
      match ss.pc, ok with
      -- the assignment to `active_pasv` drops what was there
      | .replying port, true =>
          some (ss.activePasv.elim m m.release, ⟨some port, .command⟩)
      | .replying port, false => some (m.release port, { ss with pc := .exiting })
      | _, _ => none
  | .refuse ok =>
      match ss.pc with
      | .refusing => some (m, { ss with pc := if ok then .command else .exiting })
      | _ => none
  | .stor =>
      match ss.pc, ss.activePasv with
      | .command, some port => some (m, ⟨none, .storing port⟩)
      | _, _ => none
  | .storEnd goOn =>
      match ss.pc with
      | .storing port =>
          some (m.release port, { ss with pc := if goOn then .command else .exiting })
      | _ => none
  | .leave =>
      match ss.pc with
      | .command => some (m, { ss with pc := .exiting })
      | _ => none
  | .dropActive =>
      match ss.pc, ss.activePasv with
      | .exiting, some port => some (m.release port, ⟨none, .exiting⟩)
      | _, _ => none
  | .finish =>
      match ss.pc, ss.activePasv with
      | .exiting, none => some (m, ⟨none, .ended⟩)
      | _, _ => none

/-! ## All sessions at once -/

section Gateway

variable {σ : Type} [DecidableEq σ]

/-- The pool and every session there is or will be. -/
structure PortWorld (σ : Type) where
  pool : PortManager
  session : σ → SessionPorts

def PortWorld.init (range : PortRange) : PortWorld σ :=
  ⟨.new range, fun _ => .start⟩

/-- Session `s` takes a step. -/
def PortWorld.step (w : PortWorld σ) (s : σ) (act : PortAct) : Option (PortWorld σ) :=
  (portStep w.pool (w.session s) act).map fun (m, ss) =>
    ⟨m, Function.update w.session s ss⟩

/-- The states any interleaving of the sessions' steps leads to. -/
inductive PortWorld.Reachable (range : PortRange) : PortWorld σ → Prop where
  | init : Reachable range (.init range)
  | step {w w' : PortWorld σ} (s : σ) (act : PortAct) :
      Reachable range w → w.step s act = some w' → Reachable range w'

/-- Follow a schedule: which session takes which step, in order. -/
def PortWorld.run (w : PortWorld σ) : List (σ × PortAct) → Option (PortWorld σ)
  | [] => some w
  | (s, act) :: rest => (w.step s act).bind fun w' => w'.run rest

theorem PortWorld.Reachable.run {range : PortRange} {w w' : PortWorld σ}
    (hw : w.Reachable range) {sched : List (σ × PortAct)} (h : w.run sched = some w') :
    w'.Reachable range := by
  induction sched generalizing w with
  | nil => exact Option.some.inj h ▸ hw
  | cons a rest ih =>
      obtain ⟨s, act⟩ := a
      simp only [PortWorld.run, Option.bind_eq_some_iff] at h
      obtain ⟨w1, hstep, hrun⟩ := h
      exact ih (hw.step s act hstep) hrun

/-! ## The books stay exact -/

inductive Slot where
  | active
  | hand
deriving DecidableEq

theorem Slot.eq_active {j : Slot} (h : j ≠ .hand) : j = .active := by
  cases j with
  | active => rfl
  | hand => exact absurd rfl h

theorem Slot.eq_hand {j : Slot} (h : j ≠ .active) : j = .hand := by
  cases j with
  | active => exact absurd rfl h
  | hand => rfl

def SessionPorts.at (ss : SessionPorts) : Slot → Option UInt16
  | .active => ss.activePasv
  | .hand => ss.pc.hand

def PortWorld.held (w : PortWorld σ) (i : σ × Slot) : Option UInt16 :=
  (w.session i.1).at i.2

/-- What a step does to the set and to the two places of its session. Only
the last case needs that `active_pasv` was empty before. -/
inductive Effect (m m' : PortManager) (ss ss' : SessionPorts) : Prop where
  | keep (hset : m'.inUse = m.inUse) (hact : ss'.activePasv = ss.activePasv)
      (hhand : ss'.pc.hand = ss.pc.hand)
  | take (left : Nat) (p : UInt16) (hpc : ss.pc = .picked left p)
      (hfree : p ∉ m.inUse) (hset : m'.inUse = insert p m.inUse)
      (hact : ss'.activePasv = ss.activePasv) (hold : ss.pc.hand = none)
      (hnew : ss'.pc.hand = some p)
  | drop (i : Slot) (p : UInt16) (hset : m'.inUse = m.inUse.erase p)
      (hold : ss.at i = some p) (hnew : ss'.at i = none)
      (hrest : ∀ j, j ≠ i → ss'.at j = ss.at j)
  | move (i j : Slot) (p : UInt16) (hij : i ≠ j) (hset : m'.inUse = m.inUse)
      (hold : ss.at i = some p) (hfree : ss.at j = none) (hleft : ss'.at i = none)
      (hnew : ss'.at j = some p)

/-- The port in hand is given back. -/
theorem Effect.dropHand {m m' : PortManager} {ss ss' : SessionPorts} {p : UInt16}
    (hset : m'.inUse = m.inUse.erase p) (hold : ss.pc.hand = some p)
    (hnew : ss'.pc.hand = none) (hact : ss'.activePasv = ss.activePasv) : Effect m m' ss ss' := by
  refine .drop .hand p hset hold hnew fun j hj => ?_
  rw [Slot.eq_active hj]
  exact hact

/-- Everything the invariant needs to know about a step. -/
structure StepFacts (m m' : PortManager) (ss ss' : SessionPorts) : Prop where
  range_eq : m'.range = m.range
  effect : Effect m m' ss ss'
  rest : ss'.pc.atRest = false → ss'.activePasv = none
  picked : ∀ left p, ss'.pc = .picked left p → p = m.nextPort

theorem portStep_facts {m m' : PortManager} {ss ss' : SessionPorts} {act : PortAct}
    (hrest : ss.pc.atRest = false → ss.activePasv = none)
    (h : portStep m ss act = some (m', ss')) : StepFacts m m' ss ss' := by
  obtain ⟨active, pc⟩ := ss
  cases act with
  | passive =>
      cases pc with
      | command =>
          cases active with
          | some old =>
              obtain ⟨rfl, rfl⟩ := Prod.mk.injEq .. |>.mp (Option.some.inj h)
              exact ⟨rfl, .move .active .hand _ (by decide) rfl rfl rfl rfl rfl,
                fun _ => rfl, fun _ _ h => nomatch h⟩
          | none =>
              obtain ⟨rfl, rfl⟩ := Prod.mk.injEq .. |>.mp (Option.some.inj h)
              exact ⟨rfl, .keep rfl rfl rfl, fun _ => rfl, fun _ _ h => nomatch h⟩
      | _ => cases h
  | dropOld =>
      cases pc <;> simp only [portStep, Option.some.injEq, Prod.mk.injEq, reduceCtorEq] at h
      case replacing old =>
        obtain ⟨rfl, rfl⟩ := h
        exact ⟨rfl, .dropHand rfl rfl rfl rfl, fun _ => hrest rfl, fun _ _ h => nomatch h⟩
  | fetchAdd =>
      simp only [portStep] at h
      split at h
      · obtain ⟨rfl, rfl⟩ := Prod.mk.injEq .. |>.mp (Option.some.inj h)
        simp only at *
        refine ⟨rfl, .keep rfl rfl rfl, fun _ => hrest rfl, fun left p hpc => ?_⟩
        exact (Pc.picked.inj hpc).2.symm
      · cases h
  | insert =>
      cases pc <;> simp only [portStep, reduceCtorEq] at h
      case picked left port =>
        split at h
        · obtain ⟨rfl, rfl⟩ := Prod.mk.injEq .. |>.mp (Option.some.inj h)
          exact ⟨rfl, .keep rfl rfl rfl, fun _ => hrest rfl, fun _ _ h => nomatch h⟩
        · rename_i hfree
          obtain ⟨rfl, rfl⟩ := Prod.mk.injEq .. |>.mp (Option.some.inj h)
          exact ⟨rfl, .take left port rfl hfree rfl rfl rfl rfl, fun _ => hrest rfl,
            fun _ _ h => nomatch h⟩
  | bind ok =>
      cases pc <;> simp only [portStep, Option.some.injEq, Prod.mk.injEq, reduceCtorEq] at h
      case reserved left port =>
        obtain ⟨rfl, rfl⟩ := h
        cases ok with
        | true => exact ⟨rfl, .keep rfl rfl rfl, fun _ => hrest rfl, fun _ _ h => nomatch h⟩
        | false => exact ⟨rfl, .keep rfl rfl rfl, fun _ => hrest rfl, fun _ _ h => nomatch h⟩
  | undo =>
      cases pc <;> simp only [portStep, Option.some.injEq, Prod.mk.injEq, reduceCtorEq] at h
      case bindFailed left port =>
        obtain ⟨rfl, rfl⟩ := h
        exact ⟨rfl, .dropHand rfl rfl rfl rfl, fun _ => hrest rfl, fun _ _ h => nomatch h⟩
  | exhausted =>
      simp only [portStep] at h
      split at h
      · obtain ⟨rfl, rfl⟩ := Prod.mk.injEq .. |>.mp (Option.some.inj h)
        simp only at *
        exact ⟨rfl, .keep rfl rfl rfl, fun _ => hrest rfl, fun _ _ h => nomatch h⟩
      · cases h
  | reply ok =>
      cases pc <;> simp only [portStep, reduceCtorEq] at h
      case replying port =>
        obtain rfl : active = none := hrest rfl
        cases ok with
        | true =>
            obtain ⟨rfl, rfl⟩ := Prod.mk.injEq .. |>.mp (Option.some.inj h)
            exact ⟨rfl, .move .hand .active port (by decide) rfl rfl rfl rfl rfl,
              fun h => (nomatch h), fun _ _ h => nomatch h⟩
        | false =>
            obtain ⟨rfl, rfl⟩ := Prod.mk.injEq .. |>.mp (Option.some.inj h)
            exact ⟨rfl, .dropHand rfl rfl rfl rfl, fun h => (nomatch h), fun _ _ h => nomatch h⟩
  | refuse ok =>
      cases pc <;> simp only [portStep, Option.some.injEq, Prod.mk.injEq, reduceCtorEq] at h
      case refusing =>
        obtain ⟨rfl, rfl⟩ := h
        cases ok with
        | true => exact ⟨rfl, .keep rfl rfl rfl, fun h => (nomatch h), fun _ _ h => nomatch h⟩
        | false => exact ⟨rfl, .keep rfl rfl rfl, fun h => (nomatch h), fun _ _ h => nomatch h⟩
  | stor =>
      simp only [portStep] at h
      split at h
      · obtain ⟨rfl, rfl⟩ := Prod.mk.injEq .. |>.mp (Option.some.inj h)
        simp only at *
        exact ⟨rfl, .move .active .hand _ (by decide) rfl rfl rfl rfl rfl,
          fun _ => rfl, fun _ _ h => nomatch h⟩
      · cases h
  | storEnd goOn =>
      cases pc <;> simp only [portStep, Option.some.injEq, Prod.mk.injEq, reduceCtorEq] at h
      case storing port =>
        obtain ⟨rfl, rfl⟩ := h
        have hdrop : Effect m (m.release port) ⟨active, .storing port⟩
            ⟨active, if goOn then .command else .exiting⟩ :=
          .dropHand rfl rfl (by cases goOn <;> rfl) rfl
        cases goOn with
        | true => exact ⟨rfl, hdrop, fun h => (nomatch h), fun _ _ h => nomatch h⟩
        | false => exact ⟨rfl, hdrop, fun h => (nomatch h), fun _ _ h => nomatch h⟩
  | leave =>
      cases pc <;> simp only [portStep, Option.some.injEq, Prod.mk.injEq, reduceCtorEq] at h
      case command =>
        obtain ⟨rfl, rfl⟩ := h
        exact ⟨rfl, .keep rfl rfl rfl, fun h => (nomatch h), fun _ _ h => nomatch h⟩
  | dropActive =>
      simp only [portStep] at h
      split at h
      · obtain ⟨rfl, rfl⟩ := Prod.mk.injEq .. |>.mp (Option.some.inj h)
        simp only at *
        refine ⟨rfl, .drop .active _ rfl rfl rfl fun j hj => ?_, fun _ => rfl,
          fun _ _ h => nomatch h⟩
        rw [Slot.eq_hand hj]; rfl
      · cases h
  | finish =>
      simp only [portStep] at h
      split at h
      · obtain ⟨rfl, rfl⟩ := Prod.mk.injEq .. |>.mp (Option.some.inj h)
        simp only at *
        exact ⟨rfl, .keep rfl rfl rfl, fun _ => rfl, fun _ _ h => nomatch h⟩
      · cases h

/-! ## The invariant -/

structure PortInv (range : PortRange) (w : PortWorld σ) : Prop where
  range_eq : w.pool.range = range
  exact : Holding.Exact w.pool.inUse w.held
  rest : ∀ s, (w.session s).pc.atRest = false → (w.session s).activePasv = none
  picked : ∀ s left p, (w.session s).pc = .picked left p → range.contains p = true
  inRange : ∀ p ∈ w.pool.inUse, range.contains p = true

/-- The places of all sessions after session `s` changed to `ss`. -/
theorem held_update (w : PortWorld σ) (m : PortManager) (s : σ) (ss : SessionPorts) :
    (⟨m, Function.update w.session s ss⟩ : PortWorld σ).held =
      Function.update (Function.update w.held (s, .active) ss.activePasv)
        (s, .hand) ss.pc.hand := by
  funext ⟨t, i⟩
  by_cases ht : t = s
  · subst ht
    cases i with
    | active => simp [PortWorld.held, SessionPorts.at]
    | hand => simp [PortWorld.held, SessionPorts.at]
  · have hne : ∀ j, (t, i) ≠ (s, j) := fun j h => ht (Prod.mk.inj h).1
    simp [PortWorld.held, Function.update_of_ne ht, Function.update_of_ne (hne _)]

/-- The same, for a step that leaves one of the two places alone. -/
theorem held_update_one (w : PortWorld σ) (m : PortManager) (s : σ) {ss : SessionPorts}
    (i : Slot) (hrest : ∀ j, j ≠ i → ss.at j = (w.session s).at j) :
    (⟨m, Function.update w.session s ss⟩ : PortWorld σ).held =
      Function.update w.held (s, i) (ss.at i) := by
  rw [held_update]
  cases i with
  | active =>
      have hhand := hrest .hand (by decide)
      simp only [SessionPorts.at] at hhand ⊢
      rw [hhand, Function.update_comm (by simp)]
      rw [show (w.session s).pc.hand = w.held (s, .hand) from rfl, Function.update_eq_self]
  | hand =>
      have hact := hrest .active (by decide)
      simp only [SessionPorts.at] at hact ⊢
      rw [hact]
      rw [show (w.session s).activePasv = w.held (s, .active) from rfl,
        Function.update_eq_self]

/-- **A step keeps the books exact.** -/
theorem exact_step {w : PortWorld σ} {s : σ} {m' : PortManager} {ss' : SessionPorts}
    (hex : Holding.Exact w.pool.inUse w.held)
    (heff : Effect w.pool m' (w.session s) ss') :
    Holding.Exact m'.inUse (⟨m', Function.update w.session s ss'⟩ : PortWorld σ).held := by
  cases heff with
  | keep hset hact hhand =>
      have hrest : ∀ j, j ≠ Slot.hand → ss'.at j = (w.session s).at j := by
        intro j hj; rw [Slot.eq_active hj]; exact hact
      rw [held_update_one w m' s .hand hrest, hset]
      simp only [SessionPorts.at, hhand]
      rw [show (w.session s).pc.hand = w.held (s, .hand) from rfl, Function.update_eq_self]
      exact hex
  | take left p hpc hfree hset hact hold hnew =>
      have hrest : ∀ j, j ≠ Slot.hand → ss'.at j = (w.session s).at j := by
        intro j hj; rw [Slot.eq_active hj]; exact hact
      rw [held_update_one w m' s .hand hrest, hset]
      simp only [SessionPorts.at, hnew]
      exact hex.take hfree hold
  | drop i p hset hold hnew hrest =>
      rw [held_update_one w m' s i hrest, hset, hnew]
      exact hex.release hold
  | move i j p hij hset hold hfree hleft hnew =>
      have hmoved := hex.move (i := (s, i)) (j := (s, j)) (a := p) (by simpa using hij)
        hold hfree
      have hheld : (⟨m', Function.update w.session s ss'⟩ : PortWorld σ).held =
          Function.update (Function.update w.held (s, i) none) (s, j) (some p) := by
        rw [held_update]
        cases i with
        | active =>
            obtain rfl := Slot.eq_hand hij.symm
            simp only [SessionPorts.at] at hleft hnew
            rw [hleft, hnew]
        | hand =>
            obtain rfl := Slot.eq_active hij.symm
            simp only [SessionPorts.at] at hleft hnew
            rw [hleft, hnew, Function.update_comm (by simp)]
      rw [hheld, hset]
      exact hmoved

theorem PortWorld.step_eq {w w' : PortWorld σ} {s : σ} {act : PortAct}
    (h : w.step s act = some w') :
    ∃ ss', portStep w.pool (w.session s) act = some (w'.pool, ss')
      ∧ w'.session = Function.update w.session s ss' := by
  simp only [PortWorld.step, Option.map_eq_some_iff] at h
  obtain ⟨⟨m, ss⟩, hstep, rfl⟩ := h
  exact ⟨ss, hstep, rfl⟩

theorem PortInv.step {range : PortRange} (hrange : range.start ≤ range.end)
    {w w' : PortWorld σ} (hinv : PortInv range w) {s : σ} {act : PortAct}
    (h : w.step s act = some w') : PortInv range w' := by
  obtain ⟨ss', hstep, hsess⟩ := PortWorld.step_eq h
  obtain ⟨pool', session'⟩ := w'
  simp only at hstep hsess
  subst hsess
  have hf := portStep_facts (hinv.rest s) hstep
  have hstart : w.pool.range.start ≤ w.pool.range.end := by rw [hinv.range_eq]; exact hrange
  refine ⟨hf.range_eq.trans hinv.range_eq, exact_step hinv.exact hf.effect, ?_, ?_, ?_⟩
  · intro t ht
    by_cases hts : t = s
    · subst hts
      simp only [Function.update_self] at ht ⊢
      exact hf.rest ht
    · simp only [Function.update_of_ne hts] at ht ⊢
      exact hinv.rest t ht
  · intro t left p ht
    by_cases hts : t = s
    · subst hts
      simp only [Function.update_self] at ht
      rw [hf.picked left p ht, ← hinv.range_eq]
      exact PortManager.nextPort_contains hstart
    · simp only [Function.update_of_ne hts] at ht
      exact hinv.picked t left p ht
  · intro p hp
    cases hf.effect with
    | keep hset _ _ => exact hinv.inRange p (hset ▸ hp)
    | take left q hpc _ hset _ _ _ =>
        rw [hset, Finset.mem_insert] at hp
        rcases hp with rfl | hp
        · exact hinv.picked s left p hpc
        · exact hinv.inRange p hp
    | drop _ q hset _ _ _ =>
        rw [hset] at hp
        exact hinv.inRange p (Finset.mem_of_mem_erase hp)
    | move _ _ q _ hset _ _ _ _ => exact hinv.inRange p (hset ▸ hp)

omit [DecidableEq σ] in
theorem PortInv.init (range : PortRange) : PortInv range (.init range : PortWorld σ) where
  range_eq := rfl
  exact := by
    have : (PortWorld.init range : PortWorld σ).held = fun _ => none := by
      funext ⟨s, i⟩
      cases i <;> rfl
    rw [this]
    exact Holding.Exact.empty
  rest s h := by cases h
  picked s left p h := by cases h
  inRange p hp := by cases hp

theorem PortWorld.Reachable.inv {range : PortRange} (hrange : range.start ≤ range.end)
    {w : PortWorld σ} (h : w.Reachable range) : PortInv range w := by
  induction h with
  | init => exact .init range
  | step s act _ hstep ih => exact ih.step hrange hstep

/-! ## What holds of the pool in every state -/

/-- The books of the pool: the set, the guards, the reservations, and the
arithmetic that leads from the cursor to a port. The set is the guards and the
reservations, which do not overlap, and no operation of the arithmetic loses bits. -/
structure PoolSound (range : PortRange) (w : PortWorld σ) : Prop where
  inUse_iff : ∀ p, p ∈ w.pool.inUse ↔
    (∃ s, p ∈ (w.session s).guards) ∨ ∃ s, (w.session s).pc.reservation = some p
  disjoint : ∀ s t p, p ∈ (w.session s).guards → (w.session t).pc.reservation ≠ some p
  inRange : ∀ p ∈ w.pool.inUse, range.start ≤ p ∧ p ≤ range.end
  guard_unique : ∀ s t p, p ∈ (w.session s).guards → p ∈ (w.session t).guards → s = t
  reservation_unique : ∀ s t p, (w.session s).pc.reservation = some p →
    (w.session t).pc.reservation = some p → s = t
  one_guard : ∀ s, (w.session s).guards.length ≤ 1
  ended_none : ∀ s, (w.session s).pc = .ended → (w.session s).guards = []
  active_le : w.pool.activeCount ≤ w.pool.capacity.toNat
  start_le : range.start.toNat ≤ range.end.toNat
  rangeSize_exact : w.pool.rangeSize.toNat = range.end.toNat - range.start.toNat + 1
  offset_exact : w.pool.offset.toUInt16.toNat = w.pool.offset.toNat
  port_exact : w.pool.nextPort.toNat = range.start.toNat + w.pool.offset.toNat
  len_exact : w.pool.capacity.toNat = range.end.toNat - range.start.toNat + 1

theorem Pc.hand_eq_some {pc : Pc} {p : UInt16} :
    pc.hand = some p ↔ pc.guard = some p ∨ pc.reservation = some p := by
  cases pc <;> simp [hand, guard, reservation]

theorem Pc.not_guard_and_reservation {pc : Pc} {p q : UInt16} (hg : pc.guard = some p)
    (hr : pc.reservation = some q) : False := by
  cases pc <;> simp [guard, reservation] at hg hr

theorem SessionPorts.mem_guards {ss : SessionPorts} {p : UInt16} :
    p ∈ ss.guards ↔ ss.activePasv = some p ∨ ss.pc.guard = some p := by
  simp [guards]

omit [DecidableEq σ] in
/-- A guard is held in one of the two places. -/
theorem PortWorld.held_of_guard {w : PortWorld σ} {s : σ} {p : UInt16}
    (h : p ∈ (w.session s).guards) : ∃ i, w.held (s, i) = some p
      ∧ (i = .hand → (w.session s).pc.guard = some p) := by
  rcases SessionPorts.mem_guards.mp h with hact | hloc
  · exact ⟨.active, hact, fun h => by cases h⟩
  · exact ⟨.hand, Pc.hand_eq_some.mpr (Or.inl hloc), fun _ => hloc⟩

theorem card_le_of_contains {range : PortRange} {u : Finset UInt16}
    (h : ∀ p ∈ u, range.contains p = true) :
    u.card ≤ range.end.toNat - range.start.toNat + 1 := by
  have hsub : u.image UInt16.toNat ⊆ Finset.Icc range.start.toNat range.end.toNat := by
    intro n hn
    obtain ⟨p, hp, rfl⟩ := Finset.mem_image.mp hn
    have hc := h p hp
    simp only [PortRange.contains, Bool.and_eq_true, decide_eq_true_eq,
      UInt16.le_iff_toNat_le] at hc
    exact Finset.mem_Icc.mpr hc
  have hcard := Finset.card_le_card hsub
  rw [Finset.card_image_of_injective u (fun _ _ => UInt16.toNat_inj.mp), Nat.card_Icc] at hcard
  omega

omit [DecidableEq σ] in
theorem PortInv.sound {range : PortRange} (hrange : range.start ≤ range.end)
    {w : PortWorld σ} (hinv : PortInv range w) : PoolSound range w := by
  have hle : w.pool.range.start ≤ w.pool.range.end := by rw [hinv.range_eq]; exact hrange
  have hlen := PortRange.toNat_len hrange
  have hres : ∀ {s p}, (w.session s).pc.reservation = some p → w.held (s, .hand) = some p :=
    fun h => Pc.hand_eq_some.mpr (Or.inr h)
  constructor
  case inUse_iff =>
    intro p
    rw [hinv.exact.mem_iff p]
    constructor
    · rintro ⟨⟨s, i⟩, hheld⟩
      cases i with
      | active => exact Or.inl ⟨s, SessionPorts.mem_guards.mpr (Or.inl hheld)⟩
      | hand =>
          rcases Pc.hand_eq_some.mp hheld with hg | hr
          · exact Or.inl ⟨s, SessionPorts.mem_guards.mpr (Or.inr hg)⟩
          · exact Or.inr ⟨s, hr⟩
    · rintro (⟨s, hg⟩ | ⟨s, hr⟩)
      · obtain ⟨i, hi, -⟩ := PortWorld.held_of_guard hg
        exact ⟨(s, i), hi⟩
      · exact ⟨(s, .hand), hres hr⟩
  case disjoint =>
    intro s t p hg hr
    obtain ⟨i, hi, hhand⟩ := PortWorld.held_of_guard hg
    obtain ⟨rfl, rfl⟩ := Prod.mk.inj (hinv.exact.inj hi (hres hr))
    exact Pc.not_guard_and_reservation (hhand rfl) hr
  case inRange =>
    intro p hp
    simpa [PortRange.contains] using hinv.inRange p hp
  case guard_unique =>
    intro s t p hs ht
    obtain ⟨i, hi, -⟩ := PortWorld.held_of_guard hs
    obtain ⟨j, hj, -⟩ := PortWorld.held_of_guard ht
    exact (Prod.mk.inj (hinv.exact.inj hi hj)).1
  case reservation_unique =>
    intro s t p hs ht
    exact (Prod.mk.inj (hinv.exact.inj (hres hs) (hres ht))).1
  case one_guard =>
    intro s
    cases hg : (w.session s).pc.guard with
    | none => cases hact : (w.session s).activePasv <;> simp [SessionPorts.guards, hg, hact]
    | some p =>
        have hrest : (w.session s).pc.atRest = false := by
          cases hpc : (w.session s).pc <;> rw [hpc] at hg <;> first | rfl | cases hg
        simp [SessionPorts.guards, hg, hinv.rest s hrest]
  case ended_none =>
    intro s hpc
    have hact := hinv.rest s (by rw [hpc]; rfl)
    simp [SessionPorts.guards, hact, hpc, Pc.guard]
  case active_le =>
    rw [PortManager.activeCount, PortManager.capacity, hinv.range_eq, hlen]
    exact card_le_of_contains hinv.inRange
  case start_le => exact UInt16.le_iff_toNat_le.mp hrange
  case rangeSize_exact =>
    have := PortManager.toNat_rangeSize hle
    rwa [hinv.range_eq] at this
  case offset_exact => exact PortManager.toNat_offset_toUInt16 hle
  case port_exact =>
    have := PortManager.toNat_nextPort hle
    rwa [hinv.range_eq] at this
  case len_exact => rw [PortManager.capacity, hinv.range_eq, hlen]

/-- **The PASV port pool.** With an accepted configuration, the books of the
pool are in order in every state that any interleaving of the sessions' atomic
steps reaches. -/
theorem portPool_sound {isFile : Str.Text → Bool} {cfg : Config}
    (hcfg : cfg.validate isFile = .ok ()) {w : PortWorld σ}
    (hw : w.Reachable cfg.passive.portRange) : PoolSound cfg.passive.portRange w := by
  have hlt := Config.validate_portRange hcfg
  have hle : cfg.passive.portRange.start ≤ cfg.passive.portRange.end := UInt16.le_of_lt hlt
  exact (hw.inv hle).sound hle

/-- A configuration with three PASV ports. -/
def sampleConfig : Config where
  passive := ⟨⟨127, 0, 0, 1⟩, ⟨10000, 10002⟩⟩
  backends := [⟨"backend".toList, 21, ⟨8192, 8200⟩⟩]
  backendTls := ⟨.off, none, none⟩
  backendSource := ⟨.off, [], [], 30⟩
  timeouts := ⟨10, 300, 30, 60⟩
  limits := ⟨4096, true, true, .epsv⟩

/-- Session 0 holds a guard while session 1 has only reserved its port. -/
def sampleSchedule : List (Nat × PortAct) :=
  [(0, .passive), (0, .fetchAdd), (1, .passive), (0, .insert), (1, .fetchAdd),
    (0, .bind true), (1, .insert), (0, .reply true)]

theorem portPool_sound_two_sessions :
    ∃ w, (PortWorld.init sampleConfig.passive.portRange).run sampleSchedule = some w
      ∧ w.pool.inUse = {10000, 10001} ∧ PoolSound sampleConfig.passive.portRange w := by
  obtain ⟨w, hw⟩ : ∃ w, (PortWorld.init sampleConfig.passive.portRange).run
      sampleSchedule = some w := Option.isSome_iff_exists.mp (by decide)
  have hset : ((PortWorld.init sampleConfig.passive.portRange).run
      sampleSchedule).map (·.pool.inUse) = some {10000, 10001} := by decide
  rw [hw] at hset
  have hcfg : sampleConfig.validate (fun _ => true) = .ok () := rfl
  exact ⟨w, hw, Option.some.inj hset, portPool_sound hcfg (.run .init hw)⟩

end Gateway

end FtpGateway
