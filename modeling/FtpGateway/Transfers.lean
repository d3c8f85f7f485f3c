import FtpGateway.Holding
import FtpGateway.RotatorRuns
import FtpGateway.Session.Slots

/-!
# Data connections within a backend's passive ports

All sessions at once, over one rotator. Every task runs `handle`; its requests for a
data slot go to the rotator, whose steps are those of `RotatorRuns`, and everything
else it asks is answered as the network pleases. A task ends by returning, by a panic
or by being dropped, and what it has claimed is dropped with it.

A session that waits for a slot or has one is in one call of the rotator, by itself
(`Linked`), so the slots out are what the sessions hold; with the discipline of each
session (`Slots`) the data connections open from one address to one backend are never
more than its passive ports (`transfers_within_capacity`), and a session waits only
for sessions that do not wait in turn (`slot_waits_are_for_holders`).
-/

namespace FtpGateway

open Str Interact

/-! ## The sessions and the rotator -/

/-- `backend_key`. -/
def BackendConfig.key (b : BackendConfig) : Text := b.host ++ ':' :: decimal b.port.toNat

/-- `rest` is what the session has yet to do, `call` the call of `acquire_data_slot` it
waits for, or whose slot it has. -/
structure TransferTask where
  backend : BackendConfig
  rest : Sess Unit
  trace : History Io
  call : Option Nat
  ended : Bool

namespace TransferTask

/-- The task after an exchange. -/
def next (task : TransferTask) (e : Event) (rest : Sess Unit) : TransferTask :=
  { task with rest := rest, trace := task.trace ++ [e] }

/-- A running session with a slot of the pair. -/
def hasSlot (task : TransferTask) (key : Text) (source : Ipv4Addr) : Bool :=
  !task.ended && task.backend.key = key && (rationAt task.trace).slot = some source

/-- A running session with a data connection open from `source` to the backend. -/
def hasConn (task : TransferTask) (key : Text) (source : Ipv4Addr) : Bool :=
  !task.ended && task.backend.key = key && (rationAt task.trace).conn = some source

theorem hasSlot_iff {task : TransferTask} {key : Text} {source : Ipv4Addr} :
    task.hasSlot key source = true ↔
      task.ended = false ∧ task.backend.key = key ∧ (rationAt task.trace).slot = some source := by
  simp [hasSlot, and_assoc]

theorem hasConn_iff {task : TransferTask} {key : Text} {source : Ipv4Addr} :
    task.hasConn key source = true ↔
      task.ended = false ∧ task.backend.key = key ∧ (rationAt task.trace).conn = some source := by
  simp [hasConn, and_assoc]

structure Rationed (rotate : Bool) (task : TransferTask) : Prop where
  ahead : ∀ env,
    wp env (RationStep rotate) (fun _ _ => False) (fun _ => Free) task.rest task.trace
  behind : Always (RationStep rotate) task.trace

theorem Rationed.next {rotate : Bool} {task : TransferTask} (h : task.Rationed rotate) {r : Req}
    {f : r.Ans → Sess Unit} (hrest : task.rest = .ask r f) (a : r.Ans) :
    (task.next ⟨r, a⟩ (f a)).Rationed rotate := by
  obtain ⟨hphi, hahead⟩ := wp_answered (fun env => hrest ▸ h.ahead env) a
  exact ⟨hahead, always_append_single.mpr ⟨h.behind, hphi⟩⟩

theorem Rationed.hasSlot {rotate : Bool} {task : TransferTask} (h : task.Rationed rotate)
    {key : Text} {source : Ipv4Addr} (hconn : task.hasConn key source = true) : task.hasSlot key source = true := by
  obtain ⟨hrunning, hkey, hsome⟩ := hasConn_iff.mp hconn
  refine hasSlot_iff.mpr ⟨hrunning, hkey, ?_⟩
  rcases conn_on_slot h.behind with hnone | heq
  · cases hnone.symm.trans hsome
  · exact heq.symm.trans hsome

end TransferTask

structure TransferWorld where
  rot : RotWorld
  tasks : List TransferTask

/-- In an `exchange` the surroundings answer what the task is asking; a task that is to
`leave` returns, panics or is dropped. -/
inductive TransferAct where
  | spawn (backend : BackendConfig) (cfg : SessionConfig) (n : Nat)
  | exchange (i : Nat) (answer : (r : Req) → Option r.Ans)
  | askSlot (i : Nat)
  | grantSlot (i : Nat)
  | takeSlot (i : Nat)
  | giveUp (i : Nat)
  | dropSlot (i : Nat)
  | leave (i : Nat)
  | onSources (act : RotAct)

/-- The backends of the sessions have the ports `cap` says. -/
def TransferAct.Sized (cap : Text → Nat) : TransferAct → Prop
  | .spawn backend _ _ => backend.passivePorts.len.toNat = cap backend.key
  | _ => True

instance (cap : Text → Nat) : (act : TransferAct) → Decidable (act.Sized cap)
  | .spawn _ _ _ => inferInstanceAs (Decidable (_ = _))
  | .exchange _ _ | .askSlot _ | .grantSlot _ | .takeSlot _ | .giveUp _ | .dropSlot _ | .leave _
  | .onSources _ => inferInstanceAs (Decidable True)

/-- The requests the rotator answers. -/
def Req.asksRotator : Req → Bool
  | .acquireSlot _ => true
  | .releaseSlot => true
  | _ => false

namespace TransferWorld

def init (sources : List Ipv4Addr) : TransferWorld := ⟨.init sources, []⟩

def running (w : TransferWorld) (i : Nat) : Option TransferTask :=
  (w.tasks[i]?).filter fun task => !task.ended

/-- The rotator moves on, and so does task `i`. -/
def advance (w : TransferWorld) (act : RotAct) (i : Nat) (task : TransferTask) :
    Option TransferWorld :=
  (w.rot.step act).map fun rot => ⟨rot, w.tasks.set i task⟩

/-- A running task and the call it is in. -/
def calling (w : TransferWorld) (i : Nat) : Option (TransferTask × Nat × Call) := do
  let task ← w.running i
  let k ← task.call
  let call ← w.rot.calls[k]?
  return (task, k, call)

/-- What becomes of the call of a task that is gone. Booking the permit is in one
piece. -/
def abandon (k : Nat) : Call → Option RotAct
  | .waiting _ _ _ => some (.cancel k)
  | .holding _ _ => some (.drop k)
  | _ => none

def step (w : TransferWorld) : TransferAct → Option TransferWorld
  | .spawn backend cfg n =>
      some { w with tasks := w.tasks ++ [⟨backend, handle cfg n, [], none, false⟩] }
  | .exchange i answer =>
      match w.running i with
      | some ⟨backend, .ask r k, trace, call, ended⟩ =>
          if r.asksRotator then none
          else (answer r).map fun a =>
            { w with tasks := w.tasks.set i ⟨backend, k a, trace ++ [⟨r, a⟩], call, ended⟩ }
      | _ => none
  | .askSlot i =>
      match w.running i with
      | some ⟨backend, .ask (.acquireSlot source) k, trace, none, ended⟩ =>
          w.advance (.start backend.key backend.passivePorts.len.toNat source) i
            ⟨backend, .ask (.acquireSlot source) k, trace, some w.rot.calls.length, ended⟩
      | _ => none
  | .grantSlot i =>
      match w.calling i with
      | some (task, k, .waiting _ _ _) => w.advance (.grant k) i task
      | _ => none
  | .takeSlot i =>
      match w.calling i with
      | some (⟨backend, .ask (.acquireSlot source) f, trace, call, ended⟩, k, .granted _ _ _) =>
          w.advance (.commit k) i
            ⟨backend, f true, trace ++ [⟨.acquireSlot source, true⟩], call, ended⟩
      | _ => none
  | .giveUp i =>
      match w.calling i with
      | some (⟨backend, .ask (.acquireSlot source) f, trace, _, ended⟩, k, .waiting _ _ _) =>
          w.advance (.timeout k) i
            ⟨backend, f false, trace ++ [⟨.acquireSlot source, false⟩], none, ended⟩
      | _ => none
  | .dropSlot i =>
      match w.calling i with
      | some (⟨backend, .ask .releaseSlot f, trace, _, ended⟩, k, .holding _ _) =>
          w.advance (.drop k) i ⟨backend, f (), trace ++ [⟨.releaseSlot, ()⟩], none, ended⟩
      | _ => none
  | .leave i =>
      match w.running i with
      | some ⟨backend, rest, trace, none, _⟩ =>
          some { w with tasks := w.tasks.set i ⟨backend, rest, trace, none, true⟩ }
      | some ⟨backend, rest, trace, some k, _⟩ =>
          ((w.rot.calls[k]?).bind (abandon k)).bind fun act =>
            w.advance act i ⟨backend, rest, trace, none, true⟩
      | none => none
  | .onSources act =>
      if act.onSources then (w.rot.step act).map fun rot => { w with rot := rot } else none

def run (w : TransferWorld) : List TransferAct → Option TransferWorld
  | [] => some w
  | act :: rest => (w.step act).bind fun w' => w'.run rest

/-! ## What a step can do -/

/-- What becomes of a task as its call moves on. -/
inductive Moved (task : TransferTask) : Call → Call → TransferTask → Prop where
  | grant (b : Text) (c : Nat) (s : Ipv4Addr) : Moved task (.waiting b c s) (.granted b c s) task
  | take (b : Text) (c : Nat) (s source : Ipv4Addr) (f : Bool → Sess Unit)
      (hrest : task.rest = .ask (.acquireSlot source) f) :
      Moved task (.granted b c s) (.holding b s) (task.next ⟨.acquireSlot source, true⟩ (f true))
  | giveUp (b : Text) (c : Nat) (s source : Ipv4Addr) (f : Bool → Sess Unit)
      (hrest : task.rest = .ask (.acquireSlot source) f) :
      Moved task (.waiting b c s) .done
        { task.next ⟨.acquireSlot source, false⟩ (f false) with call := none }
  | drop (b : Text) (s : Ipv4Addr) (f : Unit → Sess Unit)
      (hrest : task.rest = .ask .releaseSlot f) :
      Moved task (.holding b s) .done { task.next ⟨.releaseSlot, ()⟩ (f ()) with call := none }
  | leave (old : Call) : Moved task old .done { task with call := none, ended := true }

inductive Turn (w w' : TransferWorld) (act : TransferAct) : Prop where
  | spawn (backend : BackendConfig) (cfg : SessionConfig) (n : Nat)
      (hact : act = .spawn backend cfg n) (hrot : w'.rot = w.rot)
      (htasks : w'.tasks = w.tasks ++ [⟨backend, handle cfg n, [], none, false⟩])
  | exchange (i : Nat) (task : TransferTask) (r : Req) (k : r.Ans → Sess Unit) (a : r.Ans)
      (htask : w.running i = some task) (hrest : task.rest = .ask r k)
      (hr : r.asksRotator = false) (hrot : w'.rot = w.rot)
      (htasks : w'.tasks = w.tasks.set i (task.next ⟨r, a⟩ (k a)))
  | ask (i : Nat) (task : TransferTask) (source : Ipv4Addr) (k : Bool → Sess Unit)
      (htask : w.running i = some task) (hcall : task.call = none)
      (hrest : task.rest = .ask (.acquireSlot source) k)
      (hrot : w.rot.step (.start task.backend.key task.backend.passivePorts.len.toNat source) =
        some w'.rot)
      (hcalls : w'.rot.calls = w.rot.calls ++
        [.waiting task.backend.key (max task.backend.passivePorts.len.toNat 1) source])
      (htasks : w'.tasks = w.tasks.set i { task with call := some w.rot.calls.length })
  | move (rotAct : RotAct) (i k : Nat) (task task' : TransferTask) (old new : Call)
      (htask : w.running i = some task) (hcall : task.call = some k)
      (hk : w.rot.calls[k]? = some old) (hmoved : Moved task old new task')
      (hrot : w.rot.step rotAct = some w'.rot) (huses : ∀ cap, rotAct.Uses cap)
      (hcalls : w'.rot.calls = w.rot.calls.set k new)
      (htasks : w'.tasks = w.tasks.set i task')
  | leave (i : Nat) (task : TransferTask) (htask : w.running i = some task)
      (hcall : task.call = none) (hrot : w'.rot = w.rot)
      (htasks : w'.tasks = w.tasks.set i { task with ended := true })
  | onSources (rotAct : RotAct) (huses : ∀ cap, rotAct.Uses cap)
      (hrot : w.rot.step rotAct = some w'.rot) (hcalls : w'.rot.calls = w.rot.calls)
      (htasks : w'.tasks = w.tasks)

variable {w w' : TransferWorld} {i k : Nat} {task : TransferTask} {call : Call}

theorem running_eq (h : w.running i = some task) :
    w.tasks[i]? = some task ∧ task.ended = false := by
  obtain ⟨htask, hended⟩ := Option.filter_eq_some_iff.mp h
  exact ⟨htask, by simpa using hended⟩

theorem advance_eq {act : RotAct} (h : w.advance act i task = some w') :
    w.rot.step act = some w'.rot ∧ w'.tasks = w.tasks.set i task := by
  obtain ⟨rot, hrot, rfl⟩ := Option.map_eq_some_iff.mp h
  exact ⟨hrot, rfl⟩

theorem calling_eq (h : w.calling i = some (task, k, call)) :
    w.running i = some task ∧ task.call = some k ∧ w.rot.calls[k]? = some call := by
  obtain ⟨task', htask, h⟩ := Option.bind_eq_some_iff.mp h
  obtain ⟨k', hk, h⟩ := Option.bind_eq_some_iff.mp h
  obtain ⟨call', hcall, h⟩ := Option.bind_eq_some_iff.mp h
  obtain ⟨rfl, rfl, rfl⟩ : task' = task ∧ k' = k ∧ call' = call := by simpa using h
  exact ⟨htask, hk, hcall⟩

theorem turn_of_step {act : TransferAct} (h : w.step act = some w') : Turn w w' act := by
  cases act with
  | spawn backend cfg n =>
      obtain rfl := Option.some.inj h
      exact .spawn backend cfg n rfl rfl rfl
  | exchange i answer =>
      simp only [step] at h
      split at h
      case h_1 backend r k trace call ended htask =>
        split_ifs at h with hr
        obtain ⟨a, -, rfl⟩ := Option.map_eq_some_iff.mp h
        exact .exchange i _ r k a htask rfl (Bool.eq_false_iff.mpr hr) rfl rfl
      case h_2 => cases h
  | askSlot i =>
      simp only [step] at h
      split at h
      case h_1 backend source k trace ended htask =>
        obtain ⟨hrot, htasks⟩ := advance_eq h
        cases RotWorld.step_turn hrot with
        | start name capacity source hrw hcalls =>
            exact .ask i _ source k htask rfl rfl hrot hcalls htasks
        | health act hact => cases hact
      case h_2 => cases h
  | grantSlot i =>
      simp only [step] at h
      split at h
      case h_1 task k b c s hcalling =>
        obtain ⟨hrot, htasks⟩ := advance_eq h
        obtain ⟨htask, hcall, hk⟩ := calling_eq hcalling
        cases RotWorld.step_turn hrot with
        | grant k b' c' s' slot hk' hslot hfree hrw hcalls =>
            obtain ⟨rfl, rfl, rfl⟩ : b = b' ∧ c = c' ∧ s = s' := by simpa using hk.symm.trans hk'
            exact .move _ i k task task _ _ htask hcall hk (.grant b c s) hrot (fun _ => trivial)
              hcalls htasks
        | health act hact => cases hact
      case h_2 => cases h
  | takeSlot i =>
      simp only [step] at h
      split at h
      case h_1 backend source f trace call ended k b c s hcalling =>
        obtain ⟨hrot, htasks⟩ := advance_eq h
        obtain ⟨htask, hcall, hk⟩ := calling_eq hcalling
        cases RotWorld.step_turn hrot with
        | commit k b' c' s' hk' hrw hcalls =>
            obtain ⟨rfl, rfl, rfl⟩ : b = b' ∧ c = c' ∧ s = s' := by simpa using hk.symm.trans hk'
            exact .move _ i k _ _ _ _ htask hcall hk (.take b c s source f rfl) hrot
              (fun _ => trivial) hcalls htasks
        | health act hact => cases hact
      case h_2 => cases h
  | giveUp i =>
      simp only [step] at h
      split at h
      case h_1 backend source f trace call ended k b c s hcalling =>
        obtain ⟨hrot, htasks⟩ := advance_eq h
        obtain ⟨htask, hcall, hk⟩ := calling_eq hcalling
        cases RotWorld.step_turn hrot with
        | timeout k b' c' s' hk' hrw hcalls =>
            exact .move _ i k _ _ _ _ htask hcall hk (.giveUp b c s source f rfl) hrot
              (fun _ => trivial) hcalls htasks
        | health act hact => cases hact
      case h_2 => cases h
  | dropSlot i =>
      simp only [step] at h
      split at h
      case h_1 backend f trace call ended k b s hcalling =>
        obtain ⟨hrot, htasks⟩ := advance_eq h
        obtain ⟨htask, hcall, hk⟩ := calling_eq hcalling
        cases RotWorld.step_turn hrot with
        | drop k b' s' hk' hrw hcalls =>
            exact .move _ i k _ _ _ _ htask hcall hk (.drop b s f rfl) hrot (fun _ => trivial)
              hcalls htasks
        | health act hact => cases hact
      case h_2 => cases h
  | leave i =>
      simp only [step] at h
      split at h
      case h_1 backend rest trace ended htask =>
        obtain rfl := Option.some.inj h
        exact .leave i _ htask rfl rfl rfl
      case h_2 backend rest trace k ended htask =>
        obtain ⟨act, hact, h⟩ := Option.bind_eq_some_iff.mp h
        obtain ⟨old, hk, hact⟩ := Option.bind_eq_some_iff.mp hact
        obtain ⟨hrot, htasks⟩ := advance_eq h
        cases old with
        | waiting b c s =>
            obtain rfl := Option.some.inj hact
            cases RotWorld.step_turn hrot with
            | cancel k b' c' s' hk' hrot' hcalls =>
                exact .move _ i k _ _ _ _ htask rfl hk (.leave _) hrot (fun _ => trivial) hcalls
                  htasks
            | health act hact => cases hact
        | holding b s =>
            obtain rfl := Option.some.inj hact
            cases RotWorld.step_turn hrot with
            | drop k b' s' hk' hrw hcalls =>
                exact .move _ i k _ _ _ _ htask rfl hk (.leave _) hrot (fun _ => trivial) hcalls
                  htasks
            | health act hact => cases hact
        | granted b c s => cases hact
        | done => cases hact
      case h_3 => cases h
  | onSources act =>
      simp only [step] at h
      split_ifs at h with hact
      obtain ⟨rot, hrot, rfl⟩ := Option.map_eq_some_iff.mp h
      cases RotWorld.step_turn hrot with
      | health act hact' hkeep =>
          refine .onSources act (fun cap => ?_) hrot hkeep.calls rfl
          cases act <;> trivial
      | _ => cases hact

/-! ## Every slot is some session's -/

def callOf (w : TransferWorld) (i : Nat) : Option Nat := (w.tasks[i]?).bind TransferTask.call

/-- The numbers of the calls that are not done. -/
def openCalls (calls : List Call) : Finset Nat :=
  (Finset.range calls.length).filter fun k => calls[k]? ≠ some .done

/-- A running task is where its call is, and has been told so. -/
inductive Agrees (calls : List Call) (task : TransferTask) : Prop where
  | idle (hcall : task.call = none) (hslot : (rationAt task.trace).slot = none)
  | waiting (k c : Nat) (s : Ipv4Addr) (f : Bool → Sess Unit) (hcall : task.call = some k)
      (hk : calls[k]? = some (.waiting task.backend.key c s))
      (hslot : (rationAt task.trace).slot = none) (hrest : task.rest = .ask (.acquireSlot s) f)
  | granted (k c : Nat) (s : Ipv4Addr) (f : Bool → Sess Unit) (hcall : task.call = some k)
      (hk : calls[k]? = some (.granted task.backend.key c s))
      (hslot : (rationAt task.trace).slot = none) (hrest : task.rest = .ask (.acquireSlot s) f)
  | holding (k : Nat) (s : Ipv4Addr) (hcall : task.call = some k)
      (hk : calls[k]? = some (.holding task.backend.key s))
      (hslot : (rationAt task.trace).slot = some s)

structure Linked (w : TransferWorld) : Prop where
  exact : Holding.Exact (openCalls w.rot.calls) w.callOf
  agree : ∀ (i : Nat) (task : TransferTask), w.tasks[i]? = some task → task.ended = false →
    Agrees w.rot.calls task
  ended : ∀ (i : Nat) (task : TransferTask), w.tasks[i]? = some task → task.ended = true →
    task.call = none

section Calls

variable {calls : List Call} {new : Call}

theorem mem_openCalls {j : Nat} :
    j ∈ openCalls calls ↔ ∃ c, calls[j]? = some c ∧ c ≠ .done := by
  rw [openCalls, Finset.mem_filter, Finset.mem_range]
  constructor
  · rintro ⟨hj, hne⟩
    refine ⟨calls[j], List.getElem?_eq_getElem hj, fun heq => hne ?_⟩
    rw [List.getElem?_eq_getElem hj, heq]
  · rintro ⟨c, hc, hne⟩
    refine ⟨(List.getElem?_eq_some_iff.mp hc).1, ?_⟩
    rw [hc]
    exact fun heq => hne (Option.some.inj heq)

theorem openCalls_set_done (hk : calls[k]? = some call) :
    openCalls (calls.set k .done) = (openCalls calls).erase k := by
  have hlt := (List.getElem?_eq_some_iff.mp hk).1
  ext j
  rw [mem_openCalls, Finset.mem_erase, mem_openCalls]
  by_cases hjk : j = k
  · subst hjk
    rw [List.getElem?_set_self hlt]
    simp
  · rw [List.getElem?_set_ne (Ne.symm hjk)]
    simp [hjk]

theorem openCalls_set (hk : calls[k]? = some call) (hopen : call ≠ .done) (hnew : new ≠ .done) :
    openCalls (calls.set k new) = openCalls calls := by
  have hlt := (List.getElem?_eq_some_iff.mp hk).1
  ext j
  rw [mem_openCalls, mem_openCalls]
  by_cases hjk : j = k
  · subst hjk
    rw [List.getElem?_set_self hlt, hk]
    simp [hopen, hnew]
  · rw [List.getElem?_set_ne (Ne.symm hjk)]

theorem openCalls_append (hnew : new ≠ .done) :
    openCalls (calls ++ [new]) = insert calls.length (openCalls calls) := by
  ext j
  rw [mem_openCalls, Finset.mem_insert, mem_openCalls, List.getElem?_append]
  rcases Nat.lt_trichotomy j calls.length with hlt | rfl | hgt
  · rw [if_pos hlt]
    simp [Nat.ne_of_lt hlt]
  · simp [hnew]
  · rw [if_neg (Nat.not_lt.mpr (Nat.le_of_lt hgt))]
    have hpos : j - calls.length ≠ 0 := by omega
    simp [List.getElem?_eq_none (Nat.le_of_lt hgt), hpos, Nat.ne_of_gt hgt]

end Calls

theorem callOf_set (hi : w.tasks[i]? = some task) (new : TransferTask)
    (htasks : w'.tasks = w.tasks.set i new) :
    w'.callOf = Function.update w.callOf i new.call := by
  have hlt := (List.getElem?_eq_some_iff.mp hi).1
  funext j
  rw [callOf, htasks]
  by_cases hji : j = i
  · subst hji
    rw [List.getElem?_set_self hlt, Function.update_self]
    rfl
  · rw [List.getElem?_set_ne (Ne.symm hji), Function.update_of_ne hji]
    rfl

theorem callOf_same (hi : w.tasks[i]? = some task) {new : TransferTask}
    (hsame : new.call = task.call) (htasks : w'.tasks = w.tasks.set i new) :
    w'.callOf = w.callOf := by
  rw [callOf_set hi new htasks, hsame]
  refine Function.update_eq_self_iff.mpr ?_
  rw [callOf, hi]
  rfl

/-- Where a task is does not depend on the calls of others. -/
theorem Agrees.congr {calls calls' : List Call} (h : Agrees calls task)
    (hsame : ∀ k c, task.call = some k → calls[k]? = some c → calls'[k]? = some c) :
    Agrees calls' task := by
  cases h with
  | idle hcall hslot => exact .idle hcall hslot
  | waiting k c s f hcall hk hslot hrest =>
      exact .waiting k c s f hcall (hsame k _ hcall hk) hslot hrest
  | granted k c s f hcall hk hslot hrest =>
      exact .granted k c s f hcall (hsame k _ hcall hk) hslot hrest
  | holding k s hcall hk hslot => exact .holding k s hcall (hsame k _ hcall hk) hslot

theorem agrees_set {calls : List Call} {new : Call} (hne : task.call ≠ some k)
    (h : Agrees calls task) : Agrees (calls.set k new) task := by
  refine h.congr fun j c hcall hj => ?_
  rw [List.getElem?_set_ne (by rintro rfl; exact hne hcall)]
  exact hj

theorem agrees_append {calls : List Call} {new : Call} (h : Agrees calls task) :
    Agrees (calls ++ [new]) task := by
  refine h.congr fun j c hcall hj => ?_
  rw [List.getElem?_append_left (List.getElem?_eq_some_iff.mp hj).1]
  exact hj

/-- Exchanges the rotator has no part in leave the slot alone. -/
theorem slot_after {g : Ration} {r : Req} (hr : r.asksRotator = false) (a : r.Ans) :
    (g.after ⟨r, a⟩).slot = g.slot := by
  cases r with
  | acquireSlot source => cases hr
  | releaseSlot => cases hr
  | connect source => cases a <;> rfl
  | connectData addr source => cases a <;> rfl
  | _ => rfl

/-- The task moves on by itself: the rotator is not asked. -/
theorem agrees_next {calls : List Call} {r : Req} {f : r.Ans → Sess Unit}
    (hrest : task.rest = .ask r f) (hr : r.asksRotator = false) (a : r.Ans)
    (h : Agrees calls task) : Agrees calls (task.next ⟨r, a⟩ (f a)) := by
  have hnot : ∀ (s : Ipv4Addr) (f : Bool → Sess Unit), task.rest ≠ .ask (.acquireSlot s) f := by
    intro s f heq
    obtain ⟨rfl, -⟩ := Prog.ask.inj (hrest.symm.trans heq)
    cases hr
  have hslot : (rationAt (task.next ⟨r, a⟩ (f a)).trace).slot = (rationAt task.trace).slot := by
    rw [TransferTask.next, rationAt_append_single, slot_after hr]
  cases h with
  | idle hcall hnone => exact .idle hcall (hslot.trans hnone)
  | waiting k c s f hcall hk hnone hask => exact absurd hask (hnot s f)
  | granted k c s f hcall hk hnone hask => exact absurd hask (hnot s f)
  | holding k s hcall hk hsome => exact .holding k s hcall hk (hslot.trans hsome)

theorem linked_init (sources : List Ipv4Addr) : Linked (init sources) where
  exact := by
    have hnone : (init sources).callOf = fun _ => none := by
      funext i
      rfl
    rw [hnone]
    exact Holding.Exact.empty
  agree i task h := by cases h
  ended i task h := by cases h

/-- A task moves on by itself, in the call it was in. -/
theorem Linked.set (h : Linked w) (new : TransferTask) (hi : w.tasks[i]? = some task)
    (hcall : new.call = task.call) (hrot : w'.rot.calls = w.rot.calls)
    (htasks : w'.tasks = w.tasks.set i new)
    (hagree : new.ended = false → Agrees w.rot.calls new)
    (hended : new.ended = true → new.call = none) : Linked w' := by
  refine ⟨?_, fun j other hj => ?_, fun j other hj => ?_⟩
  · rw [hrot, callOf_same hi hcall htasks]
    exact h.exact
  · rw [hrot]
    rw [htasks] at hj
    rcases Counting.of_getElem_set hj with ⟨-, rfl⟩ | ⟨-, hj⟩
    · exact hagree
    · exact h.agree j other hj
  · rw [htasks] at hj
    rcases Counting.of_getElem_set hj with ⟨-, rfl⟩ | ⟨-, hj⟩
    · exact hended
    · exact h.ended j other hj

/-- No other task is in the call of task `i`. -/
theorem Linked.not_others (h : Linked w) (hi : w.tasks[i]? = some task)
    (hcall : task.call = some k) {j : Nat} (hji : j ≠ i) {other : TransferTask}
    (hj : w.tasks[j]? = some other) : other.call ≠ some k := by
  intro heq
  refine hji (h.exact.inj (a := k) ?_ ?_)
  · rw [callOf, hj]
    exact heq
  · rw [callOf, hi]
    exact hcall

/-- A call moves on with its task; if it is done, the task is in none. -/
theorem Linked.move (h : Linked w) {old new : Call} {task' : TransferTask}
    (hi : w.tasks[i]? = some task) (hcall : task.call = some k)
    (hk : w.rot.calls[k]? = some old) (hold : old ≠ .done)
    (hcall' : task'.call = if new = .done then none else some k)
    (hcalls : w'.rot.calls = w.rot.calls.set k new) (htasks : w'.tasks = w.tasks.set i task')
    (hagree : task'.ended = false → Agrees w'.rot.calls task')
    (hended : task'.ended = true → task'.call = none) : Linked w' := by
  have hin : w.callOf i = some k := by
    rw [callOf, hi]
    exact hcall
  refine ⟨?_, fun j other hj => ?_, fun j other hj => ?_⟩
  · by_cases hnew : new = .done
    · rw [if_pos hnew] at hcall'
      rw [hcalls, hnew, openCalls_set_done hk, callOf_set hi task' htasks, hcall']
      exact h.exact.release hin
    · rw [if_neg hnew] at hcall'
      rw [hcalls, openCalls_set hk hold hnew, callOf_same hi (hcall'.trans hcall.symm) htasks]
      exact h.exact
  · rw [htasks] at hj
    rcases Counting.of_getElem_set hj with ⟨-, rfl⟩ | ⟨hji, hj⟩
    · exact hagree
    · rw [hcalls]
      exact fun hrunning => agrees_set (h.not_others hi hcall hji hj) (h.agree j other hj hrunning)
  · rw [htasks] at hj
    rcases Counting.of_getElem_set hj with ⟨-, rfl⟩ | ⟨-, hj⟩
    · exact hended
    · exact h.ended j other hj

/-- A task is in one call only. -/
theorem same_call {calls : List Call} {k' : Nat} {call' : Call} (hcall : task.call = some k)
    (hk : calls[k]? = some call) (hcall' : task.call = some k') (hk' : calls[k']? = some call') :
    call' = call := by
  obtain rfl := Option.some.inj (hcall'.symm.trans hcall)
  exact Option.some.inj (hk'.symm.trans hk)

/-- The call of a running task says where the task is. -/
theorem Linked.agrees_at (h : Linked w) (hi : w.running i = some task) : Agrees w.rot.calls task :=
  h.agree i task (running_eq hi).1 (running_eq hi).2

theorem Linked.moved (h : Linked w) {old new : Call} {task' : TransferTask}
    (hi : w.running i = some task) (hcall : task.call = some k)
    (hk : w.rot.calls[k]? = some old) (hmoved : Moved task old new task')
    (hcalls : w'.rot.calls = w.rot.calls.set k new) (htasks : w'.tasks = w.tasks.set i task') :
    Linked w' := by
  obtain ⟨htask, hrunning⟩ := running_eq hi
  have hlt := (List.getElem?_eq_some_iff.mp hk).1
  have hnew : w'.rot.calls[k]? = some new := by rw [hcalls, List.getElem?_set_self hlt]
  have hagree := h.agrees_at hi
  cases hmoved with
  | grant b c s =>
      refine h.move htask hcall hk nofun (hcall.trans (if_neg nofun).symm) hcalls htasks
        (fun _ => ?_) (h.ended i task htask)
      cases hagree with
      | idle hnone => cases hnone.symm.trans hcall
      | waiting k' c' s' f hcall' hk' hslot hrest =>
          obtain ⟨rfl, rfl, rfl⟩ := Call.waiting.inj (same_call hcall hk hcall' hk')
          exact .granted k _ _ f hcall hnew hslot hrest
      | granted k' c' s' f hcall' hk' => cases same_call hcall hk hcall' hk'
      | holding k' s' hcall' hk' => cases same_call hcall hk hcall' hk'
  | take b c s source f hrest =>
      have hcall' : (task.next ⟨.acquireSlot source, true⟩ (f true)).call =
          if Call.holding b s = .done then none else some k := hcall
      refine h.move htask hcall hk nofun hcall' hcalls htasks (fun _ => ?_) (h.ended i task htask)
      cases hagree with
      | idle hnone => cases hnone.symm.trans hcall
      | waiting k' c' s' f' hcall' hk' => cases same_call hcall hk hcall' hk'
      | granted k' c' s' f' hcall' hk' hslot hrest' =>
          obtain ⟨rfl, rfl, rfl⟩ := Call.granted.inj (same_call hcall hk hcall' hk')
          obtain ⟨hsource, -⟩ := Prog.ask.inj (hrest'.symm.trans hrest)
          obtain rfl := Req.acquireSlot.inj hsource
          refine .holding k _ hcall hnew ?_
          rw [TransferTask.next, rationAt_append_single]
          rfl
      | holding k' s' hcall' hk' => cases same_call hcall hk hcall' hk'
  | giveUp b c s source f hrest =>
      refine h.move htask hcall hk nofun rfl hcalls htasks (fun _ => .idle rfl ?_) fun _ => rfl
      rw [TransferTask.next, rationAt_append_single]
      cases hagree with
      | idle hnone => cases hnone.symm.trans hcall
      | waiting k' c' s' f' hcall' hk' hslot => exact hslot
      | granted k' c' s' f' hcall' hk' hslot => exact hslot
      | holding k' s' hcall' hk' => cases same_call hcall hk hcall' hk'
  | drop b s f hrest =>
      refine h.move htask hcall hk nofun rfl hcalls htasks (fun _ => .idle rfl ?_) fun _ => rfl
      rw [TransferTask.next, rationAt_append_single]
      rfl
  | leave old =>
      refine h.move htask hcall hk ?_ rfl hcalls htasks nofun fun _ => rfl
      rintro rfl
      cases hagree with
      | idle hnone => cases hnone.symm.trans hcall
      | waiting k' c' s' f hcall' hk' => cases same_call hcall hk hcall' hk'
      | granted k' c' s' f hcall' hk' => cases same_call hcall hk hcall' hk'
      | holding k' s' hcall' hk' => cases same_call hcall hk hcall' hk'

theorem Linked.turn (h : Linked w) {act : TransferAct} (hturn : Turn w w' act) : Linked w' := by
  cases hturn with
  | spawn backend cfg n hact hrot htasks =>
      have hcall : w'.callOf = w.callOf := by
        funext j
        rw [callOf, callOf, htasks, List.getElem?_append]
        split
        · rfl
        · rename_i hge
          rw [List.getElem?_eq_none (Nat.not_lt.mp hge)]
          cases j - w.tasks.length <;> rfl
      refine ⟨by rw [hrot, hcall]; exact h.exact, fun j task hj => ?_, fun j task hj => ?_⟩
      · rw [hrot]
        rw [htasks] at hj
        rcases Counting.of_getElem_concat hj with hj | rfl
        · exact h.agree j task hj
        · exact fun _ => .idle rfl rfl
      · rw [htasks] at hj
        rcases Counting.of_getElem_concat hj with hj | rfl
        · exact h.ended j task hj
        · exact nofun
  | exchange i task r k a hi hrest hr hrot htasks =>
      obtain ⟨htask, -⟩ := running_eq hi
      exact h.set (task.next ⟨r, a⟩ (k a)) htask rfl (by rw [hrot]) htasks
        (fun _ => agrees_next hrest hr a (h.agrees_at hi)) (h.ended i task htask)
  | ask i task source k hi hcall hrest hrot hcalls htasks =>
      obtain ⟨htask, hrunning⟩ := running_eq hi
      have hidle : (rationAt task.trace).slot = none := by
        cases h.agrees_at hi with
        | idle _ hslot => exact hslot
        | waiting k' c s f hcall' => cases hcall.symm.trans hcall'
        | granted k' c s f hcall' => cases hcall.symm.trans hcall'
        | holding k' s hcall' => cases hcall.symm.trans hcall'
      have hfree : w.rot.calls.length ∉ openCalls w.rot.calls := by
        intro hmem
        obtain ⟨c, hc, -⟩ := mem_openCalls.mp hmem
        exact Nat.lt_irrefl _ (List.getElem?_eq_some_iff.mp hc).1
      refine ⟨?_, fun j other hj => ?_, fun j other hj => ?_⟩
      · rw [hcalls, openCalls_append (by simp), callOf_set htask _ htasks]
        refine h.exact.take hfree ?_
        rw [callOf, htask]
        exact hcall
      · rw [htasks] at hj
        rw [hcalls]
        rcases Counting.of_getElem_set hj with ⟨-, rfl⟩ | ⟨-, hj⟩
        · exact fun _ => .waiting _ _ source k rfl List.getElem?_concat_length hidle hrest
        · exact fun hrunning => agrees_append (h.agree j other hj hrunning)
      · rw [htasks] at hj
        rcases Counting.of_getElem_set hj with ⟨-, rfl⟩ | ⟨-, hj⟩
        · intro hended
          cases hrunning.symm.trans hended
        · exact h.ended j other hj
  | move rotAct i k task task' old new hi hcall hk hmoved hrot huses hcalls htasks =>
      exact h.moved hi hcall hk hmoved hcalls htasks
  | leave i task hi hcall hrot htasks =>
      exact h.set { task with ended := true } (running_eq hi).1 rfl (by rw [hrot]) htasks nofun
        fun _ => hcall
  | onSources rotAct huses hrot hcalls htasks =>
      have hcall : w'.callOf = w.callOf := by
        funext j
        rw [callOf, callOf, htasks]
      refine ⟨by rw [hcalls, hcall]; exact h.exact, ?_, ?_⟩
      · rw [hcalls, htasks]
        exact h.agree
      · rw [htasks]
        exact h.ended

/-! ## What is open -/

theorem Linked.holding (h : Linked w) (hi : w.tasks[i]? = some task) {key : Text}
    {source : Ipv4Addr} (hhas : task.hasSlot key source = true) :
    ∃ k, task.call = some k ∧ w.rot.calls[k]? = some (.holding key source) := by
  obtain ⟨hrunning, rfl, hslot⟩ := TransferTask.hasSlot_iff.mp hhas
  cases h.agree i task hi hrunning with
  | idle hcall hnone => cases hslot.symm.trans hnone
  | waiting k c s f hcall hk hnone => cases hslot.symm.trans hnone
  | granted k c s f hcall hk hnone => cases hslot.symm.trans hnone
  | holding k s hcall hk hsome =>
      obtain rfl := Option.some.inj (hsome.symm.trans hslot)
      exact ⟨k, hcall, hk⟩

/-- Every call that is not done has a running task. -/
theorem Linked.task_of_call (h : Linked w) (hk : w.rot.calls[k]? = some call)
    (hopen : call ≠ .done) : ∃ (i : Nat) (task : TransferTask), w.tasks[i]? = some task ∧
      task.call = some k ∧ task.ended = false := by
  obtain ⟨i, hi⟩ := (h.exact.mem_iff k).mp (mem_openCalls.mpr ⟨call, hk, hopen⟩)
  obtain ⟨task, htask, hcall⟩ := Option.bind_eq_some_iff.mp hi
  refine ⟨i, task, htask, hcall, Bool.eq_false_iff.mpr fun hended => ?_⟩
  cases (h.ended i task htask hended).symm.trans hcall

/-- The slots out of a pair are the ones the sessions have. -/
theorem Linked.live_eq (h : Linked w) (key : Text) (source : Ipv4Addr) :
    w.rot.live key source = w.tasks.countP (TransferTask.hasSlot · key source) := by
  refine (Counting.countP_eq_of_matching (f := w.callOf) h.exact.inj ?_ ?_).symm
  · intro i task hi hhas
    obtain ⟨k, hcall, hk⟩ := h.holding hi hhas
    refine ⟨k, _, ?_, hk, by simp [Call.isHolding]⟩
    rw [callOf, hi]
    exact hcall
  · intro k call hk hholding
    cases call with
    | holding b s =>
        obtain ⟨rfl, rfl⟩ : b = key ∧ s = source := by simpa [Call.isHolding] using hholding
        obtain ⟨i, task, hi, hcall, hrunning⟩ := h.task_of_call hk (by simp)
        refine ⟨i, task, hi, TransferTask.hasSlot_iff.mpr ⟨hrunning, ?_⟩, by
          rw [callOf, hi]; exact hcall⟩
        cases h.agree i task hi hrunning with
        | idle hnone => cases hnone.symm.trans hcall
        | waiting k' c s' f hcall' hk' => cases same_call hcall hk hcall' hk'
        | granted k' c s' f hcall' hk' => cases same_call hcall hk hcall' hk'
        | holding k' s' hcall' hk' hslot =>
            obtain ⟨hb, rfl⟩ := Call.holding.inj (same_call hcall hk hcall' hk')
            exact ⟨hb, hslot⟩
    | waiting => cases hholding
    | granted => cases hholding
    | done => cases hholding

/-- With all tasks gone every permit is back. -/
theorem Linked.out_eq_zero (h : Linked w) (hended : ∀ task ∈ w.tasks, task.ended = true)
    (key : Text) (source : Ipv4Addr) : w.rot.out key source = 0 := by
  refine List.countP_eq_zero.mpr fun call hmem hpermit => ?_
  obtain ⟨k, hk⟩ := List.mem_iff_getElem?.mp hmem
  have hopen : call ≠ .done := by
    rintro rfl
    cases hpermit
  obtain ⟨i, task, hi, -, hrunning⟩ := h.task_of_call hk hopen
  cases hrunning.symm.trans (hended task (List.mem_of_getElem? hi))

/-- What holds of a fresh task and is kept by every exchange holds of all. -/
theorem forall_turn {P : TransferTask → Prop} {act : TransferAct}
    (hspawn : ∀ backend cfg n, act = .spawn backend cfg n →
      P ⟨backend, handle cfg n, [], none, false⟩)
    (hcall : ∀ (task : TransferTask) call ended,
      P task → P { task with call := call, ended := ended })
    (hnext : ∀ (task : TransferTask) (r : Req) (f : r.Ans → Sess Unit) (a : r.Ans),
      task.rest = .ask r f → P task → P (task.next ⟨r, a⟩ (f a)))
    (h : ∀ task ∈ w.tasks, P task) (hturn : Turn w w' act) : ∀ task ∈ w'.tasks, P task := by
  have hat : ∀ {i : Nat} {task : TransferTask}, w.running i = some task → P task :=
    fun hi => h _ (List.mem_of_getElem? (running_eq hi).1)
  cases hturn with
  | spawn backend cfg n hact hrot htasks =>
      rw [htasks, List.forall_mem_append, List.forall_mem_singleton]
      exact ⟨h, hspawn backend cfg n hact⟩
  | exchange i task r k a hi hrest hr hrot htasks =>
      exact htasks ▸ Counting.forall_set h (hnext task r k a hrest (hat hi))
  | ask i task source k hi hnone hrest hrot hcalls htasks =>
      exact htasks ▸ Counting.forall_set h (hcall task _ _ (hat hi))
  | move rotAct i k task task' old new hi hin hk hmoved hrot huses hcalls htasks =>
      refine htasks ▸ Counting.forall_set h ?_
      cases hmoved with
      | grant b c s => exact hat hi
      | take b c s source f hrest => exact hnext task (.acquireSlot source) f true hrest (hat hi)
      | giveUp b c s source f hrest =>
          exact hcall _ _ _ (hnext task (.acquireSlot source) f false hrest (hat hi))
      | drop b s f hrest => exact hcall _ _ _ (hnext task .releaseSlot f () hrest (hat hi))
      | leave old => exact hcall task _ _ (hat hi)
  | leave i task hi hnone hrot htasks =>
      exact htasks ▸ Counting.forall_set h (hcall task _ _ (hat hi))
  | onSources rotAct huses hrot hcalls htasks => exact htasks ▸ h

/-! ## Whole runs -/

structure Kept (cap : Text → Nat) (w : TransferWorld) : Prop where
  linked : Linked w
  sound : RotWorld.Sound cap w.rot
  ports : ∀ task ∈ w.tasks, task.backend.passivePorts.len.toNat = cap task.backend.key
  rationed : ∀ task ∈ w.tasks, ∃ rotate, task.Rationed rotate

theorem kept_init {cap : Text → Nat} (hcap : ∀ key, 1 ≤ cap key) (sources : List Ipv4Addr) :
    Kept cap (init sources) where
  linked := linked_init sources
  sound := .init hcap sources
  ports task h := by cases h
  rationed task h := by cases h

theorem Kept.turn {cap : Text → Nat} (hcap : ∀ key, 1 ≤ cap key) (h : Kept cap w)
    {act : TransferAct} (hsized : act.Sized cap) (hturn : Turn w w' act) :
    Kept cap w' where
  linked := h.linked.turn hturn
  sound := by
    cases hturn with
    | spawn backend cfg n hact hrot htasks => exact hrot ▸ h.sound
    | exchange i task r k a hi hrest hr hrot htasks => exact hrot ▸ h.sound
    | ask i task source k hi hcall hrest hrot hcalls htasks =>
        have huses : (RotAct.start task.backend.key _ source).Uses cap :=
          h.ports task (List.mem_of_getElem? (running_eq hi).1)
        exact h.sound.step hcap huses hrot
    | move rotAct i k task task' old new hi hcall hk hmoved hrot huses hcalls htasks =>
        exact h.sound.step hcap (huses cap) hrot
    | leave i task hi hcall hrot htasks => exact hrot ▸ h.sound
    | onSources rotAct huses hrot hcalls htasks => exact h.sound.step hcap (huses cap) hrot
  ports := by
    refine forall_turn (fun backend cfg n hact => ?_) (fun _ _ _ => id) (fun _ _ _ _ _ => id)
      h.ports hturn
    rw [hact] at hsized
    exact hsized
  rationed := by
    refine forall_turn (fun backend cfg n _ => ?_) (fun task call ended ⟨rotate, hr⟩ => ?_)
      (fun task r f a hrest ⟨rotate, hr⟩ => ⟨rotate, hr.next hrest a⟩) h.rationed hturn
    · exact ⟨cfg.sourceRotator, fun env => wp_handle_ration env cfg n, always_nil _⟩
    · exact ⟨rotate, hr.ahead, hr.behind⟩

theorem Kept.run {cap : Text → Nat} (hcap : ∀ key, 1 ≤ cap key) {acts : List TransferAct}
    (h : Kept cap w) (hsized : ∀ act ∈ acts, act.Sized cap)
    (hrun : w.run acts = some w') : Kept cap w' := by
  induction acts generalizing w with
  | nil => exact Option.some.inj hrun ▸ h
  | cons act rest ih =>
      obtain ⟨w₁, hstep, hrest⟩ := Option.bind_eq_some_iff.mp hrun
      obtain ⟨hact, hsized⟩ := List.forall_mem_cons.mp hsized
      exact ih (h.turn hcap hact (turn_of_step hstep)) hsized hrest

/-- **The ports of a backend are never oversubscribed.** In every run of all sessions over
one rotator, whatever the clients, the backends and the scheduler do: the data connections
open from a source address to a backend are no more than the slots the sessions have there,
those are the slots the rotator counts as out, and no more than the backend's passive
ports. With all sessions gone every permit is back. -/
theorem transfers_within_capacity {cap : Text → Nat} (hcap : ∀ key, 1 ≤ cap key)
    {sources : List Ipv4Addr} {acts : List TransferAct}
    (hsized : ∀ act ∈ acts, act.Sized cap)
    (hrun : (init sources).run acts = some w) (key : Text) (source : Ipv4Addr) :
    w.tasks.countP (TransferTask.hasConn · key source) ≤
        w.tasks.countP (TransferTask.hasSlot · key source) ∧
      w.tasks.countP (TransferTask.hasSlot · key source) = w.rot.live key source ∧
      w.rot.live key source ≤ cap key ∧
      ((∀ task ∈ w.tasks, task.ended = true) → ∀ slot,
        (w.rot.rot.backend key).slots.lookup source = some slot →
          slot.availablePermits = cap key) := by
  have h := (kept_init hcap sources).run hcap hsized hrun
  refine ⟨?_, (h.linked.live_eq key source).symm, h.sound.live_le key source, ?_⟩
  · refine List.countP_mono_left fun task hmem => ?_
    obtain ⟨rotate, hr⟩ := h.rationed task hmem
    exact hr.hasSlot
  · intro hended slot hslot
    have hpermits := (h.sound.permits key source slot hslot).2
    rw [h.linked.out_eq_zero hended key source] at hpermits
    exact hpermits

/-! ## Who a waiting session waits for -/

/-- The call a task is in has a permit of the pair. -/
def hasPermit (w : TransferWorld) (key : Text) (source : Ipv4Addr) (task : TransferTask) : Bool :=
  (task.call.bind (w.rot.calls[·]?)).any (Call.hasPermitOf key source)

theorem hasPermit_iff {key : Text} {source : Ipv4Addr} :
    w.hasPermit key source task = true ↔ ∃ k call, task.call = some k ∧
      w.rot.calls[k]? = some call ∧ call.hasPermitOf key source = true := by
  rw [hasPermit, Option.any_eq_true]
  constructor
  · rintro ⟨call, hbind, hpermit⟩
    obtain ⟨k, hcall, hk⟩ := Option.bind_eq_some_iff.mp hbind
    exact ⟨k, call, hcall, hk, hpermit⟩
  · rintro ⟨k, call, hcall, hk, hpermit⟩
    exact ⟨call, Option.bind_eq_some_iff.mpr ⟨k, hcall, hk⟩, hpermit⟩

/-- The permits of a pair that are out are with as many tasks. -/
theorem Linked.out_eq (h : Linked w) (key : Text) (source : Ipv4Addr) :
    w.tasks.countP (w.hasPermit key source) = w.rot.out key source := by
  refine Counting.countP_eq_of_matching (f := w.callOf) h.exact.inj ?_ ?_
  · intro i task hi hhas
    obtain ⟨k, call, hcall, hk, hpermit⟩ := hasPermit_iff.mp hhas
    refine ⟨k, call, ?_, hk, hpermit⟩
    rw [callOf, hi]
    exact hcall
  · intro k call hk hpermit
    have hopen : call ≠ .done := by
      rintro rfl
      cases hpermit
    obtain ⟨i, task, hi, hcall, -⟩ := h.task_of_call hk hopen
    refine ⟨i, task, hi, hasPermit_iff.mpr ⟨k, call, hcall, hk, hpermit⟩, ?_⟩
    rw [callOf, hi]
    exact hcall

theorem calling_of (hi : w.running i = some task) (hcall : task.call = some k)
    (hk : w.rot.calls[k]? = some call) : w.calling i = some (task, k, call) := by
  rw [calling, hi]
  simp [hcall, hk]

/-- A free permit is there for the taking. -/
theorem grant_enabled {b : Text} {c : Nat} {s : Ipv4Addr} {slot : SlotState}
    (hi : w.running i = some task) (hcall : task.call = some k)
    (hk : w.rot.calls[k]? = some (.waiting b c s))
    (hslot : (w.rot.rot.backend b).slots.lookup s = some slot) (hfree : 0 < slot.availablePermits) :
    ∃ w', w.step (.grantSlot i) = some w' := by
  have hpermit : w.rot.hasPermit b s = true := by
    rw [RotWorld.hasPermit, Rotator.slot?_eq, hslot]
    simpa using hfree
  rw [step, calling_of hi hcall hk]
  simp only [advance, RotWorld.step, hk, hpermit, if_true]
  exact ⟨_, rfl⟩

/-- A session with a permit books its transfer, or has its slot and asks for none. -/
theorem Kept.with_permit {cap : Text → Nat} (h : Kept cap w) {key : Text} {source : Ipv4Addr}
    (hi : w.tasks[i]? = some task) (hpermit : w.hasPermit key source task = true) :
    w.running i = some task ∧ ((∃ w', w.step (.takeSlot i) = some w') ∨
      task.hasSlot key source = true ∧ ∀ s f, task.rest ≠ .ask (.acquireSlot s) f) := by
  obtain ⟨k, call, hcall, hk, hpermit⟩ := hasPermit_iff.mp hpermit
  have hrunning : task.ended = false := by
    refine Bool.eq_false_iff.mpr fun hended => ?_
    cases (h.linked.ended i task hi hended).symm.trans hcall
  have hi' : w.running i = some task :=
    Option.filter_eq_some_iff.mpr ⟨hi, by rw [hrunning]; rfl⟩
  refine ⟨hi', ?_⟩
  cases h.linked.agree i task hi hrunning with
  | idle hnone => cases hnone.symm.trans hcall
  | waiting k' c s f hcall' hk' =>
      obtain rfl := same_call hcall hk hcall' hk'
      cases hpermit
  | granted k' c s f hcall' hk' hslot hrest =>
      obtain rfl := same_call hcall hk hcall' hk'
      left
      obtain ⟨backend, rest, trace, call, ended⟩ := task
      obtain rfl : rest = _ := hrest
      rw [step, calling_of hi' hcall hk]
      simp only [advance, RotWorld.step, hk]
      exact ⟨_, rfl⟩
  | holding k' s hcall' hk' hslot =>
      obtain rfl := same_call hcall hk hcall' hk'
      obtain ⟨rfl, rfl⟩ : task.backend.key = key ∧ s = source := by
        simpa [Call.hasPermitOf, Call.isGranted, Call.isHolding] using hpermit
      refine Or.inr ⟨TransferTask.hasSlot_iff.mpr ⟨hrunning, rfl, hslot⟩, fun s' f hrest => ?_⟩
      obtain ⟨rotate, hr⟩ := h.rationed task (List.mem_of_getElem? hi)
      have hallows := (wp_answered (fun env => hrest ▸ hr.ahead env) true).1
      rw [show rationAt task.trace = _ from hallows.2] at hslot
      cases hslot

/-- **A session waits for a slot only while others use them all up.** In every state reached,
a session that waits for a slot of a pair can be given one, or as many other sessions as the
backend has ports have a permit of that very pair; each of those is about to book its
transfer, or has its slot and does not wait for another, so that nobody waits in a circle. -/
theorem slot_waits_are_for_holders {cap : Text → Nat} (hcap : ∀ key, 1 ≤ cap key)
    {sources : List Ipv4Addr} {acts : List TransferAct} (hsized : ∀ act ∈ acts, act.Sized cap)
    (hrun : (init sources).run acts = some w) (hi : w.running i = some task)
    (hcall : task.call = some k) {key : Text} {c : Nat} {source : Ipv4Addr}
    (hk : w.rot.calls[k]? = some (.waiting key c source)) :
    (∃ w', w.step (.grantSlot i) = some w') ∨ ∃ holders : Finset Nat, holders.card = cap key ∧
      ∀ j ∈ holders, j ≠ i ∧ ∃ other, w.running j = some other ∧
        w.hasPermit key source other = true ∧ ((∃ w', w.step (.takeSlot j) = some w') ∨
          other.hasSlot key source = true ∧ ∀ s f, other.rest ≠ .ask (.acquireSlot s) f) := by
  have h := (kept_init hcap sources).run hcap hsized hrun
  obtain ⟨slot, hslot⟩ := Option.isSome_iff_exists.mp
    (h.sound.opened _ (List.mem_of_getElem? hk) key source rfl)
  by_cases hfree : 0 < slot.availablePermits
  · exact Or.inl (grant_enabled hi hcall hk hslot hfree)
  · right
    have hout : w.tasks.countP (w.hasPermit key source) = cap key := by
      have hpermits := (h.sound.permits key source slot hslot).2
      rw [h.linked.out_eq]
      omega
    rw [Counting.countP_eq_card] at hout
    refine ⟨_, hout, fun j hj => ?_⟩
    obtain ⟨other, hother, hpermit⟩ := Counting.mem_positions.mp hj
    obtain ⟨hrunning, hdoes⟩ := h.with_permit hother hpermit
    refine ⟨?_, other, hrunning, hpermit, hdoes⟩
    rintro rfl
    obtain rfl := Option.some.inj ((running_eq hi).1.symm.trans hother)
    obtain ⟨k', call, hcall', hk', hhas⟩ := hasPermit_iff.mp hpermit
    obtain rfl := Option.some.inj (hcall.symm.trans hcall')
    obtain rfl := Option.some.inj (hk.symm.trans hk')
    cases hhas

/-! ### Two sessions and one port -/

def sampleSource : Ipv4Addr := ⟨10, 0, 0, 9⟩

def onePort : BackendConfig := ⟨['b'], 21, ⟨2056, 2056⟩⟩

def uploadScript : Script where
  client := [Script.chunk "PASV\r\nSTOR a\r\n".toList]
  backend := ["220 hi\r\n", "227 ok (10,0,0,2,8,8)\r\n"].map fun reply => Script.chunk reply.toList
  data := sampleArrival
  relay := ⟨0, []⟩

def sampleAnswer (h : History Io) : (r : Req) → Option r.Ans
  | .candidates => some [sampleSource]
  | r => uploadScript.answer h r

/-- The next step of task `i`. -/
def nextAct (w : TransferWorld) (i : Nat) : TransferAct :=
  match w.running i, w.calling i with
  | some ⟨_, .ask (.acquireSlot _) _, _, _, _⟩, none => .askSlot i
  | some _, some (_, _, .waiting _ _ _) => .grantSlot i
  | some _, some (_, _, .granted _ _ _) => .takeSlot i
  | some ⟨_, .ask .releaseSlot _, _, _, _⟩, _ => .dropSlot i
  | some task, _ => .exchange i (sampleAnswer task.trace)
  | none, _ => .leave i

/-- The tasks take turns as `schedule` says, as long as they can. -/
def play (w : TransferWorld) : List Nat → List TransferAct
  | [] => []
  | i :: schedule =>
      match w.step (w.nextAct i) with
      | none => []
      | some w' => w.nextAct i :: w'.play schedule

def twoUploads : List TransferAct :=
  let session := { sampleSession false with sourceRotator := true }
  let spawned := List.replicate 2 (.spawn onePort session 2)
  spawned ++ (((init [sampleSource]).run spawned).elim [] fun w =>
    w.play (List.replicate 23 0 ++ List.replicate 16 1))

/-- One session has its data connection open, the other waits for the port. -/
theorem twoUploads_run : ∃ w, (init [sampleSource]).run twoUploads = some w ∧
    w.tasks.countP (TransferTask.hasConn · onePort.key sampleSource) = 1 ∧
    (w.running 1).bind TransferTask.call = some 1 ∧
    w.rot.calls[1]? = some (.waiting onePort.key 1 sampleSource) ∧
    (w.step (.grantSlot 1)).isNone = true := by
  have hseen : ((init [sampleSource]).run twoUploads).map (fun w =>
      (w.tasks.countP (TransferTask.hasConn · onePort.key sampleSource),
        (w.running 1).bind TransferTask.call, w.rot.calls[1]?, (w.step (.grantSlot 1)).isNone)) =
      some (1, some 1, some (.waiting onePort.key 1 sampleSource), true) := by
    decide +kernel
  obtain ⟨w, hrun, heq⟩ := Option.map_eq_some_iff.mp hseen
  simp only [Prod.mk.injEq] at heq
  exact ⟨w, hrun, heq⟩

theorem twoUploads_sized : ∀ act ∈ twoUploads, act.Sized fun _ => 1 := by decide +kernel

theorem transfers_within_capacity_two_uploads :
    ∃ w, (init [sampleSource]).run twoUploads = some w ∧
      w.tasks.countP (TransferTask.hasConn · onePort.key sampleSource) = 1 ∧
      w.rot.live onePort.key sampleSource ≤ 1 := by
  obtain ⟨w, hrun, hconn, -⟩ := twoUploads_run
  exact ⟨w, hrun, hconn, (transfers_within_capacity (fun _ => Nat.le_refl 1) twoUploads_sized hrun
    onePort.key sampleSource).2.2.1⟩

theorem slot_waits_are_for_holders_two_uploads :
    ∃ w, (init [sampleSource]).run twoUploads = some w ∧ ∃ holders : Finset Nat,
      holders.card = 1 ∧ ∀ j ∈ holders, j ≠ 1 ∧ ∃ other, w.running j = some other ∧
        w.hasPermit onePort.key sampleSource other = true ∧
          ((∃ w', w.step (.takeSlot j) = some w') ∨
            other.hasSlot onePort.key sampleSource = true ∧
              ∀ s f, other.rest ≠ .ask (.acquireSlot s) f) := by
  obtain ⟨w, hrun, -, hcall, hk, hnone⟩ := twoUploads_run
  obtain ⟨task, hi, hcall⟩ := Option.bind_eq_some_iff.mp hcall
  refine ⟨w, hrun, ?_⟩
  rcases slot_waits_are_for_holders (fun _ => Nat.le_refl 1) twoUploads_sized hrun hi hcall hk
    with ⟨w', hstep⟩ | hholders
  · rw [hstep] at hnone
    cases hnone
  · exact hholders

end TransferWorld

end FtpGateway
