import FtpGateway.Rotator

/-!
# The rotator under any interleaving

All sessions share one rotator. An `acquire_data_slot` is a call that enters
its pair's entry, waits for a permit outside the lock, and books the transfer
in a second critical section; then the `DataSlot` lives until it is dropped.
Between any two of these the other calls, the refresher and the failure reports
may do anything. A run is a list of such steps (`RotWorld.run`).

`Sound` is the invariant: every permit that is out is in the hand of a call or
a live slot of that very pair, and the cycle counter and the rotation index
split the number of transfers started by the capacity.
-/

namespace FtpGateway

open Str Counting

/-! ## The calls and their steps -/

/-- A call of `acquire_data_slot`: `granted` has its permit and the transfer not booked
yet, `holding` returned `Some` and its `DataSlot` is alive. -/
inductive Call where
  | waiting (backend : Text) (capacity : Nat) (source : Ipv4Addr)
  | granted (backend : Text) (capacity : Nat) (source : Ipv4Addr)
  | holding (backend : Text) (source : Ipv4Addr)
  | done
deriving Repr, DecidableEq

namespace Call

def pair? : Call → Option (Text × Ipv4Addr)
  | .waiting backend _ source => some (backend, source)
  | .granted backend _ source => some (backend, source)
  | .holding backend source => some (backend, source)
  | .done => none

def capacity? : Call → Option (Text × Nat)
  | .waiting backend capacity _ => some (backend, capacity)
  | .granted backend capacity _ => some (backend, capacity)
  | _ => none

def isGranted (backend : Text) (source : Ipv4Addr) : Call → Bool
  | .granted b _ s => b = backend && s = source
  | _ => false

def isHolding (backend : Text) (source : Ipv4Addr) : Call → Bool
  | .holding b s => b = backend && s = source
  | _ => false

/-- The call has a permit of the pair. -/
def hasPermitOf (backend : Text) (source : Ipv4Addr) (call : Call) : Bool :=
  call.isGranted backend source || call.isHolding backend source

end Call

structure RotWorld where
  rot : Rotator
  calls : List Call

/-- The atomic steps; a call is named by its number. `cancel` drops a waiting call with
its session. -/
inductive RotAct where
  | start (backend : Text) (capacity : Nat) (source : Ipv4Addr)
  | grant (i : Nat)
  | commit (i : Nat)
  | timeout (i : Nat)
  | cancel (i : Nat)
  | drop (i : Nat)
  | setSources (sources : List Ipv4Addr)
  | refreshOnce (listing : Option (List Ipv4Addr))
  | reportConnectFailure (source : Ipv4Addr) (k : IoKind) (now : Nat)
  | markUnhealthy (source : Ipv4Addr) (now : Nat)
deriving Repr, DecidableEq

/-- The steps on the source list and on the health of sources. -/
def RotAct.onSources : RotAct → Bool
  | .setSources _ => true
  | .refreshOnce _ => true
  | .reportConnectFailure _ _ _ => true
  | .markUnhealthy _ _ => true
  | _ => false

namespace RotWorld

def init (sources : List Ipv4Addr) : RotWorld := ⟨.new sources, []⟩

def hasPermit (w : RotWorld) (backend : Text) (source : Ipv4Addr) : Bool :=
  (w.rot.slot? backend source).any fun slot => 0 < slot.availablePermits

def step (w : RotWorld) : RotAct → Option RotWorld
  | .start backend capacity source =>
      some ⟨w.rot.openSlot backend (max capacity 1) source,
        w.calls ++ [.waiting backend (max capacity 1) source]⟩
  | .grant i =>
      match w.calls[i]? with
      | some (.waiting backend capacity source) =>
          if w.hasPermit backend source then
            some ⟨w.rot.takePermit backend source,
              w.calls.set i (.granted backend capacity source)⟩
          else none
      | _ => none
  | .commit i =>
      match w.calls[i]? with
      | some (.granted backend capacity source) =>
          some ⟨w.rot.commitSlot backend capacity source,
            w.calls.set i (.holding backend source)⟩
      | _ => none
  | .timeout i =>
      match w.calls[i]? with
      | some (.waiting backend _ source) =>
          some ⟨w.rot.slotTimedOut backend source, w.calls.set i .done⟩
      | _ => none
  | .cancel i =>
      match w.calls[i]? with
      | some (.waiting _ _ _) => some ⟨w.rot, w.calls.set i .done⟩
      | _ => none
  | .drop i =>
      match w.calls[i]? with
      | some (.holding backend source) =>
          some ⟨w.rot.givePermit backend source, w.calls.set i .done⟩
      | _ => none
  | .setSources sources => some ⟨(w.rot.setSources sources).1, w.calls⟩
  | .refreshOnce listing => some ⟨w.rot.refreshOnce listing, w.calls⟩
  | .reportConnectFailure source k now =>
      some ⟨(w.rot.reportConnectFailure source k now).1, w.calls⟩
  | .markUnhealthy source now => some ⟨w.rot.markUnhealthyAt source now, w.calls⟩

def run (w : RotWorld) : List RotAct → Option RotWorld
  | [] => some w
  | act :: rest => (w.step act).bind fun w' => w'.run rest

/-- Live slots of a pair. -/
def live (w : RotWorld) (backend : Text) (source : Ipv4Addr) : Nat :=
  w.calls.countP (Call.isHolding backend source)

/-- Calls of a pair between the permit and the second critical section. -/
def committing (w : RotWorld) (backend : Text) (source : Ipv4Addr) : Nat :=
  w.calls.countP (Call.isGranted backend source)

/-! ## What a step can do

Either a call moves on and rewrites the books of its backend, or the source
list or the health of a source changes and the books stay. -/

/-- A step that leaves all books and calls alone. -/
structure KeepsBooks (w w' : RotWorld) : Prop where
  calls : w'.calls = w.calls
  backend : w'.rot.backend = w.rot.backend

inductive Turn (w w' : RotWorld) : RotAct → Prop where
  | start (name : Text) (capacity : Nat) (source : Ipv4Addr)
      (hrw : w.rot.Rewrites w'.rot name fun b => b.openSlot (max capacity 1) source)
      (hcalls : w'.calls = w.calls ++ [.waiting name (max capacity 1) source]) :
      Turn w w' (.start name capacity source)
  | grant (i : Nat) (name : Text) (capacity : Nat) (source : Ipv4Addr) (slot : SlotState)
      (hi : w.calls[i]? = some (.waiting name capacity source))
      (hslot : (w.rot.backend name).slots.lookup source = some slot)
      (hfree : 0 < slot.availablePermits)
      (hrw : w.rot.Rewrites w'.rot name fun b =>
        b.modifySlot source SlotState.takePermit)
      (hcalls : w'.calls = w.calls.set i (.granted name capacity source)) :
      Turn w w' (.grant i)
  | commit (i : Nat) (name : Text) (capacity : Nat) (source : Ipv4Addr)
      (hi : w.calls[i]? = some (.granted name capacity source))
      (hrw : w.rot.Rewrites w'.rot name fun b =>
        (b.modifySlot source SlotState.started).advanceCycle capacity)
      (hcalls : w'.calls = w.calls.set i (.holding name source)) :
      Turn w w' (.commit i)
  | timeout (i : Nat) (name : Text) (capacity : Nat) (source : Ipv4Addr)
      (hi : w.calls[i]? = some (.waiting name capacity source))
      (hrw : w.rot.Rewrites w'.rot name fun b =>
        b.modifySlot source SlotState.timedOut)
      (hcalls : w'.calls = w.calls.set i .done) :
      Turn w w' (.timeout i)
  | cancel (i : Nat) (name : Text) (capacity : Nat) (source : Ipv4Addr)
      (hi : w.calls[i]? = some (.waiting name capacity source))
      (hrot : w'.rot = w.rot) (hcalls : w'.calls = w.calls.set i .done) :
      Turn w w' (.cancel i)
  | drop (i : Nat) (name : Text) (source : Ipv4Addr)
      (hi : w.calls[i]? = some (.holding name source))
      (hrw : w.rot.Rewrites w'.rot name fun b =>
        b.modifySlot source SlotState.givePermit)
      (hcalls : w'.calls = w.calls.set i .done) :
      Turn w w' (.drop i)
  | health (act : RotAct) (hact : act.onSources = true) (hkeep : KeepsBooks w w') : Turn w w' act

theorem setSources_backend (r : Rotator) (sources : List Ipv4Addr) :
    (r.setSources sources).1.backend = r.backend := by
  rw [Rotator.setSources]; split <;> rfl

theorem refreshOnce_backend (r : Rotator) (listing : Option (List Ipv4Addr)) :
    (r.refreshOnce listing).backend = r.backend := by
  match listing with
  | none => rfl
  | some [] => rfl
  | some (ip :: rest) => exact setSources_backend r _

theorem reportConnectFailure_backend (r : Rotator) (source : Ipv4Addr) (k : IoKind) (now : Nat) :
    (r.reportConnectFailure source k now).1.backend = r.backend := by
  rw [Rotator.reportConnectFailure]; split <;> rfl

theorem step_turn {w w' : RotWorld} {act : RotAct} (h : w.step act = some w') :
    Turn w w' act := by
  cases act with
  | start name capacity source =>
      obtain rfl := Option.some.inj h
      exact .start _ _ _ (Rotator.openSlot_rewrites ..) rfl
  | grant i =>
      simp only [step] at h
      split at h
      · rename_i name capacity source hi
        split at h
        · rename_i hfree
          obtain rfl := Option.some.inj h
          rw [hasPermit, Rotator.slot?_eq, Option.any_eq_true] at hfree
          obtain ⟨slot, hslot, hpos⟩ := hfree
          exact .grant i _ _ _ slot hi hslot (of_decide_eq_true hpos)
            (Rotator.takePermit_rewrites ..) rfl
        · cases h
      · cases h
  | commit i =>
      simp only [step] at h
      split at h
      · rename_i hi
        obtain rfl := Option.some.inj h
        exact .commit i _ _ _ hi (Rotator.commitSlot_rewrites ..) rfl
      · cases h
  | timeout i =>
      simp only [step] at h
      split at h
      · rename_i hi
        obtain rfl := Option.some.inj h
        exact .timeout i _ _ _ hi (Rotator.slotTimedOut_rewrites ..) rfl
      · cases h
  | cancel i =>
      simp only [step] at h
      split at h
      · rename_i hi
        obtain rfl := Option.some.inj h
        exact .cancel i _ _ _ hi rfl rfl
      · cases h
  | drop i =>
      simp only [step] at h
      split at h
      · rename_i hi
        obtain rfl := Option.some.inj h
        exact .drop i _ _ hi (Rotator.givePermit_rewrites ..) rfl
      · cases h
  | setSources sources =>
      obtain rfl := Option.some.inj h
      exact .health _ rfl ⟨rfl, setSources_backend ..⟩
  | refreshOnce listing =>
      obtain rfl := Option.some.inj h
      exact .health _ rfl ⟨rfl, refreshOnce_backend ..⟩
  | reportConnectFailure source k now =>
      obtain rfl := Option.some.inj h
      exact .health _ rfl ⟨rfl, reportConnectFailure_backend ..⟩
  | markUnhealthy source now =>
      obtain rfl := Option.some.inj h
      exact .health _ rfl ⟨rfl, rfl⟩

end RotWorld

/-! ## One backend's books -/

namespace BackendState

/-- No total of the backend has stuck. -/
def Unsaturated (b : BackendState) : Prop :=
  ∀ source slot, b.slots.lookup source = some slot → slot.startedTotal.toNat < 2 ^ 64 - 1

/-- The transfers started, split by the capacity. -/
structure Cycled (c : Nat) (b : BackendState) : Prop where
  cycle : b.startedInCycle < c
  total : b.Unsaturated → b.startedSum = b.advances * c + b.startedInCycle

variable {c : Nat} {b : BackendState} {source : Ipv4Addr}

theorem Unsaturated.of_modifySlot {f : SlotState → SlotState}
    (hf : ∀ slot : SlotState, slot.startedTotal ≤ (f slot).startedTotal)
    (h : (b.modifySlot source f).Unsaturated) : b.Unsaturated := by
  intro other slot hslot
  by_cases ho : other = source
  · have hnew := h other (f slot) (by rw [lookup_modifySlot, if_pos ho, ← ho, hslot]; rfl)
    have hle := UInt64.le_iff_toNat_le.mp (hf slot)
    omega
  · exact h other slot (by rw [lookup_modifySlot, if_neg ho, hslot])

theorem Cycled.default (hc : 1 ≤ c) : Cycled c .default where
  cycle := hc
  total _ := by
    have hsum : BackendState.default.startedSum = 0 := sumOver_empty _
    rw [hsum]
    simp [BackendState.default]

theorem Cycled.openSlot (h : Cycled c b) (capacity : Nat) :
    Cycled c (b.openSlot capacity source) where
  cycle := by rw [openSlot_startedInCycle]; exact h.cycle
  total hsat := by
    rw [startedSum_openSlot, openSlot_advances, openSlot_startedInCycle]
    refine h.total fun other slot hslot => ?_
    refine hsat other slot ?_
    rw [lookup_openSlot]
    split
    case isTrue ho => rw [← ho, hslot]; rfl
    case isFalse => exact hslot

theorem Cycled.modifySlot (h : Cycled c b) {f : SlotState → SlotState}
    (hf : ∀ slot : SlotState, (f slot).startedTotal = slot.startedTotal) :
    Cycled c (b.modifySlot source f) where
  cycle := by rw [modifySlot_startedInCycle]; exact h.cycle
  total hsat := by
    rw [startedSum_modifySlot b source hf, modifySlot_advances, modifySlot_startedInCycle]
    exact h.total (hsat.of_modifySlot fun slot => UInt64.le_of_eq (hf slot).symm)

/-- The second critical section: the pair's total goes up by one, and so does
what the cycle counter and the rotation index make of it. -/
theorem Cycled.commit (h : Cycled c b) {slot : SlotState}
    (hslot : b.slots.lookup source = some slot) :
    Cycled c ((b.modifySlot source SlotState.started).advanceCycle c) := by
  have hsum : ((b.modifySlot source SlotState.started).advanceCycle c).Unsaturated →
      ((b.modifySlot source SlotState.started).advanceCycle c).startedSum =
        b.advances * c + b.startedInCycle + 1 := by
    intro hsat
    have hslots := advanceCycle_slots (b.modifySlot source SlotState.started) c
    rw [Unsaturated, hslots] at hsat
    have hstarted : slot.started.startedTotal.toNat < 2 ^ 64 - 1 :=
      hsat source slot.started (by rw [lookup_modifySlot, if_pos rfl, hslot]; rfl)
    have hb : b.Unsaturated :=
      Unsaturated.of_modifySlot (f := SlotState.started)
        (fun slot => le_satAdd slot.startedTotal 1) hsat
    rw [startedSum, hslots, ← startedSum, startedSum_started hslot hstarted, h.total hb]
  have hcycle := h.cycle
  constructor
  · rw [advanceCycle]
    split
    case isTrue => simp only; omega
    case isFalse hlt => simp only [modifySlot_startedInCycle] at hlt ⊢; omega
  · intro hsat
    rw [hsum hsat, advanceCycle]
    split
    case isTrue hge =>
      simp only [modifySlot_startedInCycle, modifySlot_advances] at hge ⊢
      rw [Nat.add_mul]
      omega
    case isFalse hlt =>
      simp only [modifySlot_startedInCycle, modifySlot_advances]
      omega

end BackendState

/-! ## The invariant -/

/-- The capacity a backend's calls come with. -/
def RotAct.Uses (cap : Text → Nat) : RotAct → Prop
  | .start backend capacity _ => capacity = cap backend
  | _ => True

namespace RotWorld

/-- Permits of a pair that are out. -/
def out (w : RotWorld) (backend : Text) (source : Ipv4Addr) : Nat :=
  w.calls.countP (Call.hasPermitOf backend source)

theorem out_eq (w : RotWorld) (backend : Text) (source : Ipv4Addr) :
    w.out backend source = w.committing backend source + w.live backend source := by
  rw [out, committing, live]
  induction w.calls with
  | nil => rfl
  | cons call rest ih =>
      rw [List.countP_cons, List.countP_cons, List.countP_cons, ih]
      cases call with
      | granted b c s => simp [Call.hasPermitOf, Call.isGranted, Call.isHolding]; omega
      | holding b s => simp [Call.hasPermitOf, Call.isGranted, Call.isHolding]; omega
      | waiting b c s => simp [Call.hasPermitOf, Call.isGranted, Call.isHolding]
      | done => simp [Call.hasPermitOf, Call.isGranted, Call.isHolding]

structure Sound (cap : Text → Nat) (w : RotWorld) : Prop where
  opened : ∀ call ∈ w.calls, ∀ name source, call.pair? = some (name, source) →
    ((w.rot.backend name).slots.lookup source).isSome = true
  capacity : ∀ call ∈ w.calls, ∀ name c, call.capacity? = some (name, c) → c = cap name
  permits : ∀ name source slot, (w.rot.backend name).slots.lookup source = some slot →
    slot.capacity = cap name ∧ slot.availablePermits + w.out name source = cap name
  cycled : ∀ name, (w.rot.backend name).Cycled (cap name)

variable {cap : Text → Nat} {w w' : RotWorld}

theorem Sound.init (hcap : ∀ name, 1 ≤ cap name) (sources : List Ipv4Addr) :
    Sound cap (init sources) where
  opened call hcall := by cases hcall
  capacity call hcall := by cases hcall
  permits name source slot hslot := by
    rw [show (RotWorld.init sources).rot.backend name = .default from rfl] at hslot
    simp [BackendState.default] at hslot
  cycled name := BackendState.Cycled.default (hcap name)

/-- One call moves on and one slot of its backend is rewritten by `f`. -/
structure Moves (w w' : RotWorld) (i : Nat) (old new : Call) (name : Text) (source : Ipv4Addr)
    (f : SlotState → SlotState) : Prop where
  at_old : w.calls[i]? = some old
  calls : w'.calls = w.calls.set i new
  lookup : ∀ n s, (w'.rot.backend n).slots.lookup s =
    if n = name ∧ s = source then ((w.rot.backend name).slots.lookup source).map f
    else (w.rot.backend n).slots.lookup s

theorem lookup_of_rewrites {r r' : Rotator} {name : Text} {source : Ipv4Addr}
    {g : BackendState → BackendState} {f : SlotState → SlotState} (hrw : r.Rewrites r' name g)
    (hg : ∀ b : BackendState, (g b).slots = (b.modifySlot source f).slots) (n : Text)
    (s : Ipv4Addr) :
    (r'.backend n).slots.lookup s =
      if n = name ∧ s = source then ((r.backend name).slots.lookup source).map f
      else (r.backend n).slots.lookup s := by
  rw [hrw.backend]
  by_cases hn : n = name
  · rw [hn, Function.update_self, hg, BackendState.lookup_modifySlot]
    simp only [true_and]
  · rw [Function.update_of_ne hn, if_neg fun h => hn h.1]

theorem lookup_of_opens {r r' : Rotator} {name : Text} {source : Ipv4Addr} {c : Nat}
    (hrw : r.Rewrites r' name fun b => b.openSlot c source) (n : Text) (s : Ipv4Addr) :
    (r'.backend n).slots.lookup s =
      if n = name ∧ s = source then some (((r.backend name).slots.lookup source).getD (.new c))
      else (r.backend n).slots.lookup s := by
  rw [hrw.backend]
  by_cases hn : n = name
  · rw [hn, Function.update_self, BackendState.lookup_openSlot]
    simp only [true_and]
  · rw [Function.update_of_ne hn, if_neg fun h => hn h.1]

theorem Moves.out {i : Nat} {old new : Call} {name : Text} {source : Ipv4Addr}
    {f : SlotState → SlotState} (hm : Moves w w' i old new name source f) (n : Text)
    (s : Ipv4Addr) :
    w'.out n s + (if old.hasPermitOf n s then 1 else 0) =
      w.out n s + (if new.hasPermitOf n s then 1 else 0) := by
  rw [RotWorld.out, RotWorld.out, hm.calls]
  exact countP_set hm.at_old _ _

/-- The step rule: a move keeps the invariant if the new call is covered by the
old one, the slot's permits follow the call's, and the backend's cycle does. -/
theorem Sound.moves {i : Nat} {old new : Call} {name : Text} {source : Ipv4Addr}
    {f : SlotState → SlotState} (h : Sound cap w) (hm : Moves w w' i old new name source f)
    (hpair : ∀ p, new.pair? = some p → old.pair? = some p)
    (hnewcap : ∀ p, new.capacity? = some p → old.capacity? = some p)
    (hf : ∀ slot, (w.rot.backend name).slots.lookup source = some slot →
      (f slot).capacity = slot.capacity ∧
      (f slot).availablePermits + w'.out name source = slot.availablePermits + w.out name source)
    (hout : ∀ n s, ¬ (n = name ∧ s = source) → w'.out n s = w.out n s)
    (hcycled : ∀ n, (w'.rot.backend n).Cycled (cap n)) : Sound cap w' where
  opened call hcall n s hp := by
    have hold : ((w.rot.backend n).slots.lookup s).isSome = true := by
      rw [hm.calls] at hcall
      rcases List.mem_or_eq_of_mem_set hcall with hmem | rfl
      · exact h.opened call hmem n s hp
      · exact h.opened old (List.mem_of_getElem? hm.at_old) n s (hpair _ hp)
    rw [hm.lookup]
    split
    case isTrue hns =>
      obtain ⟨rfl, rfl⟩ := hns
      rw [Option.isSome_map]
      exact hold
    case isFalse => exact hold
  capacity call hcall n c hc := by
    rw [hm.calls] at hcall
    rcases List.mem_or_eq_of_mem_set hcall with hmem | rfl
    · exact h.capacity call hmem n c hc
    · exact h.capacity old (List.mem_of_getElem? hm.at_old) n c (hnewcap _ hc)
  permits n s slot hslot := by
    rw [hm.lookup] at hslot
    split at hslot
    case isTrue hns =>
      obtain ⟨rfl, rfl⟩ := hns
      obtain ⟨before, hbefore, rfl⟩ := Option.map_eq_some_iff.mp hslot
      obtain ⟨hcap, hperm⟩ := h.permits _ _ before hbefore
      obtain ⟨hcap', hperm'⟩ := hf before hbefore
      exact ⟨hcap'.trans hcap, hperm'.trans hperm⟩
    case isFalse hns =>
      rw [hout n s hns]
      exact h.permits n s slot hslot
  cycled := hcycled

theorem cycled_of_rewrites {r r' : Rotator} {name : Text} {g : BackendState → BackendState}
    (hrw : r.Rewrites r' name g) (h : ∀ n, (r.backend n).Cycled (cap n))
    (hg : (g (r.backend name)).Cycled (cap name)) (n : Text) :
    (r'.backend n).Cycled (cap n) := by
  rw [hrw.backend]
  by_cases hn : n = name
  · rw [hn, Function.update_self]; exact hg
  · rw [Function.update_of_ne hn]; exact h n

theorem hasPermitOf_granted (name n : Text) (c : Nat) (source s : Ipv4Addr) :
    (Call.granted name c source).hasPermitOf n s = decide (n = name ∧ s = source) := by
  simp [Call.hasPermitOf, Call.isGranted, Call.isHolding, eq_comm]

theorem hasPermitOf_holding (name n : Text) (source s : Ipv4Addr) :
    (Call.holding name source).hasPermitOf n s = decide (n = name ∧ s = source) := by
  simp [Call.hasPermitOf, Call.isGranted, Call.isHolding, eq_comm]

theorem hasPermitOf_waiting (name n : Text) (c : Nat) (source s : Ipv4Addr) :
    (Call.waiting name c source).hasPermitOf n s = false := rfl

theorem hasPermitOf_done (n : Text) (s : Ipv4Addr) : Call.done.hasPermitOf n s = false := rfl

theorem pair_of_hasPermitOf {call : Call} {n : Text} {s : Ipv4Addr}
    (hperm : call.hasPermitOf n s = true) : call.pair? = some (n, s) := by
  cases call with
  | granted b c s' =>
      rw [hasPermitOf_granted] at hperm
      obtain ⟨rfl, rfl⟩ := of_decide_eq_true hperm
      rfl
  | holding b s' =>
      rw [hasPermitOf_holding] at hperm
      obtain ⟨rfl, rfl⟩ := of_decide_eq_true hperm
      rfl
  | waiting b c s' => cases hperm
  | done => cases hperm

/-- No permit of a pair nobody has entered is out. -/
theorem Sound.out_eq_zero (h : Sound cap w) {name : Text} {source : Ipv4Addr}
    (hnone : (w.rot.backend name).slots.lookup source = none) : w.out name source = 0 := by
  rw [out, List.countP_eq_zero]
  intro call hcall hperm
  have hopen := h.opened call hcall name source (pair_of_hasPermitOf hperm)
  rw [hnone] at hopen
  cases hopen

theorem Sound.start (h : Sound cap w) {name : Text} {c : Nat} {source : Ipv4Addr}
    (hc : c = cap name) (hrw : w.rot.Rewrites w'.rot name fun b => b.openSlot c source)
    (hcalls : w'.calls = w.calls ++ [.waiting name c source]) : Sound cap w' := by
  have hout : ∀ n s, w'.out n s = w.out n s := by
    intro n s
    rw [out, out, hcalls, List.countP_append, List.countP_singleton, hasPermitOf_waiting]
    rfl
  constructor
  · intro call hcall n s hp
    rw [lookup_of_opens hrw]
    split
    case isTrue => rfl
    case isFalse hns =>
      rw [hcalls, List.mem_append, List.mem_singleton] at hcall
      rcases hcall with hmem | rfl
      · exact h.opened call hmem n s hp
      · obtain ⟨rfl, rfl⟩ := Prod.mk.injEq .. |>.mp (Option.some.inj hp)
        exact absurd ⟨rfl, rfl⟩ hns
  · intro call hcall n c' hcap
    rw [hcalls, List.mem_append, List.mem_singleton] at hcall
    rcases hcall with hmem | rfl
    · exact h.capacity call hmem n c' hcap
    · obtain ⟨rfl, rfl⟩ := Prod.mk.injEq .. |>.mp (Option.some.inj hcap)
      exact hc
  · intro n s slot hslot
    rw [hout]
    rw [lookup_of_opens hrw] at hslot
    split at hslot
    case isFalse => exact h.permits n s slot hslot
    case isTrue hns =>
      obtain ⟨rfl, rfl⟩ := hns
      obtain rfl := Option.some.inj hslot
      cases hbefore : (w.rot.backend n).slots.lookup s with
      | some before => exact h.permits n s before hbefore
      | none =>
          rw [h.out_eq_zero hbefore]
          exact ⟨hc, hc⟩
  · exact cycled_of_rewrites hrw h.cycled ((h.cycled name).openSlot c)

theorem Sound.step (hcap : ∀ name, 1 ≤ cap name) (h : Sound cap w) {act : RotAct}
    (huses : act.Uses cap) (hstep : w.step act = some w') : Sound cap w' := by
  cases step_turn hstep with
  | start name capacity source hrw hcalls =>
      have hmax : max capacity 1 = cap name := by
        have := hcap name
        rw [show capacity = cap name from huses]
        omega
      exact h.start hmax hrw hcalls
  | grant i name capacity source slot hi hslot hfree hrw hcalls =>
      have hm : Moves w w' i _ _ name source SlotState.takePermit :=
        ⟨hi, hcalls, lookup_of_rewrites hrw fun _ => rfl⟩
      refine h.moves hm (fun _ hp => hp) (fun _ hp => hp) (fun slot' hslot' => ?_)
        (fun n s hns => ?_)
        (cycled_of_rewrites hrw h.cycled ((h.cycled name).modifySlot fun _ => rfl))
      · obtain rfl := Option.some.inj (hslot.symm.trans hslot')
        have hout := hm.out name source
        simp only [hasPermitOf_waiting, hasPermitOf_granted, and_self, decide_true] at hout
        refine ⟨rfl, ?_⟩
        rw [SlotState.takePermit]
        simp only [Bool.false_eq_true, if_true, if_false] at hout ⊢
        omega
      · have hout := hm.out n s
        rw [hasPermitOf_waiting, hasPermitOf_granted, decide_eq_false hns] at hout
        exact hout
  | commit i name capacity source hi hrw hcalls =>
      have hmem := List.mem_of_getElem? hi
      obtain rfl : capacity = cap name := h.capacity _ hmem name capacity rfl
      obtain ⟨slot, hslot⟩ := Option.isSome_iff_exists.mp (h.opened _ hmem name source rfl)
      have hm : Moves w w' i _ _ name source SlotState.started :=
        ⟨hi, hcalls, lookup_of_rewrites hrw fun b => BackendState.advanceCycle_slots _ _⟩
      have hout : ∀ n s, w'.out n s = w.out n s := by
        intro n s
        have hout := hm.out n s
        rw [hasPermitOf_granted, hasPermitOf_holding] at hout
        omega
      refine h.moves hm (fun _ hp => hp) (fun _ hp => nomatch hp) (fun slot' _ => ?_)
        (fun n s _ => hout n s)
        (cycled_of_rewrites hrw h.cycled ((h.cycled name).commit hslot))
      rw [hout]
      exact ⟨rfl, rfl⟩
  | timeout i name capacity source hi hrw hcalls =>
      have hm : Moves w w' i _ _ name source SlotState.timedOut :=
        ⟨hi, hcalls, lookup_of_rewrites hrw fun _ => rfl⟩
      refine h.moves hm (fun _ hp => nomatch hp) (fun _ hp => nomatch hp) (fun slot' _ => ?_)
        (fun n s _ => hm.out n s)
        (cycled_of_rewrites hrw h.cycled ((h.cycled name).modifySlot fun _ => rfl))
      rw [show w'.out name source = w.out name source from hm.out name source]
      exact ⟨rfl, rfl⟩
  | cancel i name capacity source hi hrot hcalls =>
      have hm : Moves w w' i (.waiting name capacity source) .done name source id := by
        refine ⟨hi, hcalls, fun n s => ?_⟩
        rw [hrot]
        split
        case isTrue hns => rw [hns.1, hns.2, Option.map_id]; rfl
        case isFalse => rfl
      refine h.moves hm (fun _ hp => nomatch hp) (fun _ hp => nomatch hp) (fun slot' _ => ?_)
        (fun n s _ => hm.out n s) (by rw [hrot]; exact h.cycled)
      rw [show w'.out name source = w.out name source from hm.out name source]
      exact ⟨rfl, rfl⟩
  | drop i name source hi hrw hcalls =>
      have hm : Moves w w' i _ _ name source SlotState.givePermit :=
        ⟨hi, hcalls, lookup_of_rewrites hrw fun _ => rfl⟩
      refine h.moves hm (fun _ hp => nomatch hp) (fun _ hp => nomatch hp) (fun slot' _ => ?_)
        (fun n s hns => ?_)
        (cycled_of_rewrites hrw h.cycled ((h.cycled name).modifySlot fun _ => rfl))
      · have hout := hm.out name source
        simp only [hasPermitOf_done, hasPermitOf_holding, and_self, decide_true] at hout
        refine ⟨rfl, ?_⟩
        rw [SlotState.givePermit]
        simp only [Bool.false_eq_true, if_true, if_false] at hout ⊢
        omega
      · have hout := hm.out n s
        rw [hasPermitOf_done, hasPermitOf_holding, decide_eq_false hns] at hout
        exact hout
  | health act hact hkeep =>
      obtain ⟨hcalls, hbackend⟩ := hkeep
      have hout : ∀ n s, w'.out n s = w.out n s := fun n s => by rw [out, out, hcalls]
      constructor
      · rw [hcalls, hbackend]; exact h.opened
      · rw [hcalls]; exact h.capacity
      · intro n s slot hslot
        rw [hout]
        exact h.permits n s slot (hbackend ▸ hslot)
      · rw [hbackend]; exact h.cycled

theorem Sound.run (hcap : ∀ name, 1 ≤ cap name) (h : Sound cap w) {acts : List RotAct}
    (huses : ∀ act ∈ acts, act.Uses cap) (hrun : w.run acts = some w') : Sound cap w' := by
  induction acts generalizing w with
  | nil => exact Option.some.inj hrun ▸ h
  | cons act rest ih =>
      obtain ⟨w₁, hstep, hrest⟩ := Option.bind_eq_some_iff.mp hrun
      exact ih (h.step hcap (huses act (List.mem_cons_self ..)) hstep)
        (fun a ha => huses a (List.mem_cons_of_mem _ ha)) hrest

theorem sound_of_run (hcap : ∀ name, 1 ≤ cap name) {sources : List Ipv4Addr}
    {acts : List RotAct} (huses : ∀ act ∈ acts, act.Uses cap)
    (hrun : (init sources).run acts = some w) : Sound cap w :=
  (Sound.init hcap sources).run hcap huses hrun

/-! ## Totals never go down -/

/-- Neither total of a pair has gone down. -/
def SlotTotalsLe (slot slot' : SlotState) : Prop :=
  slot.startedTotal ≤ slot'.startedTotal ∧ slot.slotTimeoutsTotal ≤ slot'.slotTimeoutsTotal

/-- Every pair is still there, and no total has gone down. -/
def TotalsLe (r r' : Rotator) : Prop :=
  ∀ name source slot, (r.backend name).slots.lookup source = some slot →
    ∃ slot', (r'.backend name).slots.lookup source = some slot' ∧ SlotTotalsLe slot slot'

theorem TotalsLe.of_backend {r r' : Rotator} (h : r'.backend = r.backend) : TotalsLe r r' :=
  fun _ _ slot hslot => ⟨slot, h ▸ hslot, UInt64.le_refl _, UInt64.le_refl _⟩

theorem TotalsLe.trans {r₁ r₂ r₃ : Rotator} (h₁₂ : TotalsLe r₁ r₂) (h₂₃ : TotalsLe r₂ r₃) :
    TotalsLe r₁ r₃ := by
  intro name source slot hslot
  obtain ⟨slot₂, hslot₂, hle₂⟩ := h₁₂ name source slot hslot
  obtain ⟨slot₃, hslot₃, hle₃⟩ := h₂₃ name source slot₂ hslot₂
  exact ⟨slot₃, hslot₃, UInt64.le_trans hle₂.1 hle₃.1, UInt64.le_trans hle₂.2 hle₃.2⟩

theorem TotalsLe.of_rewrites {r r' : Rotator} {name : Text} {source : Ipv4Addr}
    {g : BackendState → BackendState} {f : SlotState → SlotState} (hrw : r.Rewrites r' name g)
    (hg : ∀ b : BackendState, (g b).slots = (b.modifySlot source f).slots)
    (hf : ∀ slot, SlotTotalsLe slot (f slot)) : TotalsLe r r' := by
  intro n s slot hslot
  rw [lookup_of_rewrites hrw hg]
  split
  case isTrue h =>
    rw [h.1, h.2] at hslot
    exact ⟨f slot, by rw [hslot]; rfl, hf slot⟩
  case isFalse => exact ⟨slot, hslot, UInt64.le_refl _, UInt64.le_refl _⟩

theorem totalsLe_step {act : RotAct} (hstep : w.step act = some w') : TotalsLe w.rot w'.rot := by
  cases step_turn hstep with
  | start name capacity source hrw hcalls =>
      intro n s slot hslot
      refine ⟨slot, ?_, UInt64.le_refl _, UInt64.le_refl _⟩
      rw [lookup_of_opens hrw]
      split
      case isTrue hns => rw [← hns.1, ← hns.2, hslot]; rfl
      case isFalse => exact hslot
  | grant i name capacity source slot hi hslot hfree hrw hcalls =>
      exact .of_rewrites hrw (fun _ => rfl) fun _ => ⟨UInt64.le_refl _, UInt64.le_refl _⟩
  | commit i name capacity source hi hrw hcalls =>
      exact .of_rewrites (f := SlotState.started) hrw
        (fun b => BackendState.advanceCycle_slots _ capacity) fun _ =>
          ⟨le_satAdd _ _, UInt64.le_refl _⟩
  | timeout i name capacity source hi hrw hcalls =>
      exact .of_rewrites hrw (fun _ => rfl) fun _ => ⟨UInt64.le_refl _, le_satAdd _ _⟩
  | cancel i name capacity source hi hrot hcalls => exact .of_backend (by rw [hrot])
  | drop i name source hi hrw hcalls =>
      exact .of_rewrites hrw (fun _ => rfl) fun _ => ⟨UInt64.le_refl _, UInt64.le_refl _⟩
  | health _ hact hkeep => exact .of_backend hkeep.backend

/-- Totals never go down, wherever they stand. -/
theorem totalsLe_run {acts : List RotAct} (hrun : w.run acts = some w') :
    TotalsLe w.rot w'.rot := by
  induction acts generalizing w with
  | nil => exact .of_backend (by rw [Option.some.inj hrun])
  | cons act rest ih =>
      obtain ⟨w₁, hstep, hrest⟩ := Option.bind_eq_some_iff.mp hrun
      exact (totalsLe_step hstep).trans (ih hrest)

/-! ## What follows for the slots, the snapshot and the rotation -/

/-- A pair nobody has entered has no live slots. -/
theorem Sound.live_eq_zero (h : Sound cap w) {name : Text} {source : Ipv4Addr}
    (hnone : (w.rot.backend name).slots.lookup source = none) : w.live name source = 0 := by
  have hout := w.out_eq name source
  have hzero := h.out_eq_zero hnone
  omega

theorem Sound.live_le (h : Sound cap w) (name : Text) (source : Ipv4Addr) :
    w.live name source ≤ cap name := by
  cases hslot : (w.rot.backend name).slots.lookup source with
  | none => rw [h.live_eq_zero hslot]; exact Nat.zero_le _
  | some slot =>
      have hout := w.out_eq name source
      have hpermits := (h.permits name source slot hslot).2
      omega

/-- What `snapshot` calls active are the live slots and the calls about to
book theirs. -/
theorem Sound.activeOf_eq (h : Sound cap w) (now : Nat) (name : Text) (source : Ipv4Addr) :
    (w.rot.snapshotAt now).activeOf name source =
      w.committing name source + w.live name source := by
  rw [RotatorSnapshot.activeOf, Rotator.entriesOf_snapshotAt]
  have hout := w.out_eq name source
  cases hslot : (w.rot.backend name).slots.lookup source with
  | none =>
      have hzero := h.out_eq_zero hslot
      rw [Rotator.slot?_eq, hslot]
      simp only [Option.map_none, Option.toList_none, List.map_nil, List.sum_nil]
      omega
  | some slot =>
      obtain ⟨hcapacity, hperm⟩ := h.permits name source slot hslot
      rw [Rotator.slot?_eq, hslot]
      simp only [Option.map_some, Option.toList_some, List.map_cons, List.map_nil, List.sum_cons,
        List.sum_nil, Rotator.stat]
      omega

/-- A backend that has no entry has not advanced. -/
theorem getD_advances (r : Rotator) (name : Text) :
    ((r.backends.lookup name).map (·.advances)).getD 0 = (r.backend name).advances := by
  rw [Rotator.backend]
  cases r.backends.lookup name <;> rfl

theorem head_ordered (r : Rotator) (name : Text) :
    (r.ordered name).head? = r.sources[(r.backend name).advances % r.sources.length]? := by
  rw [Rotator.ordered, getD_advances]
  cases hlen : r.sources.length with
  | zero => rw [List.getElem?_eq_none (by omega)]; rfl
  | succ n =>
      have hlt : (r.backend name).advances % (n + 1) < r.sources.length := by
        rw [hlen]; exact Nat.mod_lt _ (Nat.succ_pos n)
      rw [List.range_succ_eq_map, List.filterMap_cons, Nat.add_zero, Nat.mod_mod,
        List.getElem?_eq_getElem hlt]
      rfl

/-- The current source is offered first while it is healthy. -/
theorem head_candidatesAt {r : Rotator} {name : Text} {ip : Ipv4Addr} {now : Nat}
    (hhead : (r.ordered name).head? = some ip) (hhealthy : r.isUnhealthy ip now = false) :
    (r.candidatesAt name now).head? = some ip := by
  cases hord : r.ordered name with
  | nil => rw [hord] at hhead; cases hhead
  | cons first rest =>
      rw [hord] at hhead
      obtain rfl := Option.some.inj hhead
      have hlen : r.sources.length ≠ 0 := by
        intro h0
        rw [Rotator.ordered, h0] at hord
        cases hord
      rw [Rotator.candidatesAt, if_neg hlen, hord, List.filter_cons_of_pos (by rw [hhealthy]; rfl)]
      rfl

/-- Everything but one pair's slot is the same. -/
structure SameBut (name : Text) (source : Ipv4Addr) (r r' : Rotator) : Prop where
  sources : r'.sources = r.sources
  unhealthy : r'.unhealthy = r.unhealthy
  advances : ∀ n, (r'.backend n).advances = (r.backend n).advances
  startedInCycle : ∀ n, (r'.backend n).startedInCycle = (r.backend n).startedInCycle
  slot : ∀ n s, ¬ (n = name ∧ s = source) → r'.slot? n s = r.slot? n s

theorem sameBut_of_rewrites {r r' : Rotator} {name : Text} {source : Ipv4Addr}
    {g : BackendState → BackendState} (hrw : r.Rewrites r' name g)
    (hadv : (g (r.backend name)).advances = (r.backend name).advances)
    (hcycle : (g (r.backend name)).startedInCycle = (r.backend name).startedInCycle)
    (hslot : ∀ s, s ≠ source →
      (g (r.backend name)).slots.lookup s = (r.backend name).slots.lookup s) :
    SameBut name source r r' where
  sources := hrw.sources
  unhealthy := hrw.unhealthy
  advances n := by
    rw [hrw.backend]
    by_cases hn : n = name
    · rw [hn, Function.update_self, hadv]
    · rw [Function.update_of_ne hn]
  startedInCycle n := by
    rw [hrw.backend]
    by_cases hn : n = name
    · rw [hn, Function.update_self, hcycle]
    · rw [Function.update_of_ne hn]
  slot n s hns := by
    rw [Rotator.slot?_eq, Rotator.slot?_eq, hrw.backend]
    by_cases hn : n = name
    · subst hn
      rw [Function.update_self]
      exact hslot s fun hs => hns ⟨rfl, hs⟩
    · rw [Function.update_of_ne hn]

/-- A call enters: its pair gets an empty entry unless it has one. -/
theorem start_effect {name : Text} {capacity : Nat} {source : Ipv4Addr}
    (hstep : w.step (.start name capacity source) = some w') :
    SameBut name source w.rot w'.rot ∧
    w'.rot.slot? name source =
      some ((w.rot.slot? name source).getD (.new (max capacity 1))) := by
  obtain rfl := Option.some.inj hstep
  have hrw := Rotator.openSlot_rewrites w.rot name (max capacity 1) source
  constructor
  · refine sameBut_of_rewrites hrw (by simp) (by simp) fun s hs => ?_
    rw [BackendState.lookup_openSlot, if_neg hs]
  · rw [Rotator.slot?_eq, Rotator.slot?_eq, hrw.backend, Function.update_self,
      BackendState.lookup_openSlot, if_pos rfl]

/-- A call gives up: one more timeout of its pair. -/
theorem Sound.timeout_effect (h : Sound cap w) {i : Nat} (hstep : w.step (.timeout i) = some w') :
    ∃ name capacity source slot, w.calls[i]? = some (.waiting name capacity source) ∧
      w.rot.slot? name source = some slot ∧
      w'.rot.slot? name source = some slot.timedOut ∧ SameBut name source w.rot w'.rot := by
  cases step_turn hstep with
  | timeout i name capacity source hi hrw hcalls =>
      obtain ⟨slot, hslot⟩ := Option.isSome_iff_exists.mp
        (h.opened _ (List.mem_of_getElem? hi) name source rfl)
      refine ⟨name, capacity, source, slot, hi, ?_, ?_, ?_⟩
      · rw [Rotator.slot?_eq, hslot]
      · rw [Rotator.slot?_eq, lookup_of_rewrites hrw (fun _ => rfl), if_pos ⟨rfl, rfl⟩, hslot]
        rfl
      · refine sameBut_of_rewrites hrw (by simp) (by simp) fun s hs => ?_
        rw [BackendState.lookup_modifySlot, if_neg hs]
  | health act hact hkeep => cases hact

/-- **The books of the rotator.** In every state reached by any interleaving,
each backend used with one capacity: the live slots of a pair stay within it
and are what the snapshot, which lists each pair that was entered once, reports
as active once no call is about to book; the transfers
started, before a total sticks, are split by the capacity into the rotation
index and the cycle counter, so the current source is the one their quotient
names; and a call that gives up has entered its pair and counted a timeout
there, nothing else. -/
theorem rotation_accounting (cap : Text → Nat) (sources : List Ipv4Addr) (acts : List RotAct)
    (w : RotWorld) (hcap : ∀ name, 1 ≤ cap name) (huses : ∀ act ∈ acts, act.Uses cap)
    (hrun : (init sources).run acts = some w) :
    (∀ name source, w.live name source ≤ cap name) ∧
    (∀ now name source, (w.rot.snapshotAt now).entriesOf name source =
      ((w.rot.slot? name source).map (Rotator.stat name source)).toList) ∧
    (∀ now name source, (w.rot.snapshotAt now).activeOf name source =
        w.committing name source + w.live name source ∧
      (w.committing name source = 0 →
        (w.rot.snapshotAt now).activeOf name source = w.live name source)) ∧
    (∀ name, (w.rot.backend name).Unsaturated →
      (w.rot.backend name).startedSum =
        (w.rot.backend name).advances * cap name + (w.rot.backend name).startedInCycle ∧
      (w.rot.backend name).startedInCycle < cap name ∧
      (w.rot.ordered name).head? =
        w.rot.sources[(w.rot.backend name).startedSum / cap name % w.rot.sources.length]?) ∧
    (∀ name ip now, (w.rot.ordered name).head? = some ip → w.rot.isUnhealthy ip now = false →
      (w.rot.candidatesAt name now).head? = some ip) ∧
    (∀ name capacity source w', w.step (.start name capacity source) = some w' →
      SameBut name source w.rot w'.rot ∧
      w'.rot.slot? name source =
        some ((w.rot.slot? name source).getD (.new (max capacity 1)))) ∧
    (∀ i w', w.step (.timeout i) = some w' →
      ∃ name capacity source slot, w.calls[i]? = some (.waiting name capacity source) ∧
        w.rot.slot? name source = some slot ∧
        w'.rot.slot? name source =
          some { slot with slotTimeoutsTotal := satAdd slot.slotTimeoutsTotal 1 } ∧
        SameBut name source w.rot w'.rot) := by
  have h := sound_of_run hcap huses hrun
  refine ⟨h.live_le, w.rot.entriesOf_snapshotAt,
    fun now name source => ⟨h.activeOf_eq now name source, fun hcommit => ?_⟩,
    fun name hsat => ?_, fun name ip now => head_candidatesAt, fun name c source w' => start_effect,
    fun i w' => h.timeout_effect⟩
  · rw [h.activeOf_eq, hcommit, Nat.zero_add]
  · obtain ⟨hcycle, htotal⟩ := h.cycled name
    have hsum := htotal hsat
    refine ⟨hsum, hcycle, ?_⟩
    have hquot : (w.rot.backend name).startedSum / cap name = (w.rot.backend name).advances := by
      rw [hsum, Nat.mul_comm, Nat.mul_add_div (by omega), Nat.div_eq_of_lt hcycle, Nat.add_zero]
    rw [head_ordered, hquot]

/-- Two calls for one slot: the first gets it, the second gives up. -/
def twoCalls : List RotAct :=
  [.start ['b'] 1 ⟨10, 0, 0, 1⟩, .grant 0, .start ['b'] 1 ⟨10, 0, 0, 1⟩, .commit 0, .timeout 1]

theorem rotation_accounting_two_calls :
    ∃ w : RotWorld, (init [⟨10, 0, 0, 1⟩, ⟨10, 0, 0, 2⟩]).run twoCalls = some w ∧
      w.live ['b'] ⟨10, 0, 0, 1⟩ = 1 ∧ (w.rot.ordered ['b']).head? = some ⟨10, 0, 0, 2⟩ ∧
      (∀ name source, w.live name source ≤ 1) ∧
      (w.rot.snapshotAt 0).activeOf ['b'] ⟨10, 0, 0, 1⟩ = 1 := by
  have hbooks := rotation_accounting (fun _ => 1) [⟨10, 0, 0, 1⟩, ⟨10, 0, 0, 2⟩] twoCalls _
    (fun _ => Nat.le_refl 1) (by simp [twoCalls, RotAct.Uses]) rfl
  exact ⟨_, rfl, rfl, rfl, hbooks.1, (hbooks.2.2.1 0 ['b'] ⟨10, 0, 0, 1⟩).2 rfl⟩

end RotWorld

end FtpGateway
