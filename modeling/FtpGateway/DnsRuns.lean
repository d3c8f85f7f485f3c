import FtpGateway.Backends
import FtpGateway.Connecting
import FtpGateway.Memo

/-!
# The DNS cache under many sessions

`backend/dns_cache.rs`: all sessions share one table. A call of `resolve` looks
into the table under its lock, asks the resolver without it, and takes the lock
again to write the answer down. Between these steps other sessions take theirs,
time passes, and the timer of `connect` may drop a call that waits for the
resolver.

The table is indexed by the text `host:port`. It is a memo of the resolver's
reports by host and port (`Recorded`), so an address list reaches a session only
if the resolver reported it for the very host and port asked for, less than
`DNS_CACHE_TTL` ago (`dns_answers_recent`).
-/

namespace FtpGateway

open Str Memo

theorem DnsCache.key_injective :
    Function.Injective fun asked : Text × UInt16 => DnsCache.key asked.1 asked.2 := by
  rintro ⟨host, port⟩ ⟨host', port'⟩ h
  have hsplit : ∀ (host : Text) (port : UInt16),
      rsplitOnce ':' (DnsCache.key host port) = some (host, decimal port.toNat) :=
    fun host port => rsplitOnce_eq_some rfl (notMem_decimal rfl port.toNat)
  have heq := (hsplit host port).symm.trans
    ((congrArg (rsplitOnce ':') h).trans (hsplit host' port'))
  rw [Option.some.injEq, Prod.mk.injEq] at heq
  obtain ⟨rfl, hport⟩ := heq
  have hparse := congrArg parseU16 hport
  rw [parseU16_decimal, parseU16_decimal, Option.some.injEq] at hparse
  rw [hparse]

/-! ## Calls -/

/-- Where a call of `resolve` stands. -/
inductive Resolving where
  | idle
  | looking (host : Text) (port : UInt16)
  | storing (host : Text) (port : UInt16) (addrs : List SocketAddr)

inductive DnsAct where
  | wait (ms : Nat)
  | call (task : Nat) (host : Text) (port : UInt16)
  | report (task : Nat) (result : Except IoKind (List SocketAddr))
  | store (task : Nat)
  | cancel (task : Nat)

/-- What a call returned, and when. -/
structure DnsAnswer where
  host : Text
  port : UInt16
  addrs : List SocketAddr
  time : Nat

/-- The table and the tasks, with what the resolver was asked and has reported,
what was written into the table, and what the calls returned. -/
structure DnsWorld where
  cache : DnsCache
  now : Nat
  tasks : Nat → Resolving
  lookups : List (Text × UInt16 × Nat)
  reports : List (Text × UInt16 × List SocketAddr)
  stores : List (Write (Text × UInt16) (List SocketAddr))
  answers : List DnsAnswer

namespace DnsWorld

def init : DnsWorld := ⟨fun _ => none, 0, fun _ => .idle, [], [], [], []⟩

def goTo (w : DnsWorld) (task : Nat) (at_ : Resolving) : DnsWorld :=
  { w with tasks := Function.update w.tasks task at_ }

theorem goTo_tasks_self (w : DnsWorld) (task : Nat) (at_ : Resolving) :
    (w.goTo task at_).tasks task = at_ := Function.update_self ..

theorem goTo_tasks_of_ne {w : DnsWorld} {task i : Nat} {at_ : Resolving} (h : i ≠ task) :
    (w.goTo task at_).tasks i = w.tasks i := Function.update_of_ne h ..

/-- A call returns `addrs`. -/
def answer (w : DnsWorld) (task : Nat) (host : Text) (port : UInt16) (addrs : List SocketAddr) :
    DnsWorld :=
  { w.goTo task .idle with answers := w.answers ++ [⟨host, port, addrs, w.now⟩] }

/-- `self.entries.lock().unwrap().insert(..)`. -/
def insert (w : DnsWorld) (host : Text) (port : UInt16) (addrs : List SocketAddr) : DnsWorld :=
  { w with
    cache := Function.update w.cache (DnsCache.key host port) (some ⟨addrs, w.now⟩)
    stores := w.stores ++ [⟨(host, port), addrs, w.now⟩] }

def step (w : DnsWorld) : DnsAct → Option DnsWorld
  | .wait ms => some { w with now := w.now + ms }
  | .call task host port =>
      match w.tasks task with
      | .idle =>
          match w.cache.cached (DnsCache.key host port) w.now with
          | some addrs => some (w.answer task host port addrs)
          | none =>
              some { w.goTo task (.looking host port) with
                lookups := w.lookups ++ [(host, port, w.now)] }
      | _ => none
  | .report task result =>
      match w.tasks task, result with
      | .looking _ _, .error _ => some (w.goTo task .idle)
      | .looking host port, .ok addrs =>
          some { w.goTo task (.storing host port addrs) with
            reports := w.reports ++ [(host, port, addrs)] }
      | _, _ => none
  | .store task =>
      match w.tasks task with
      | .storing host port addrs => some ((w.insert host port addrs).answer task host port addrs)
      | _ => none
  | .cancel task =>
      match w.tasks task with
      | .looking _ _ => some (w.goTo task .idle)
      | _ => none

def run (w : DnsWorld) : List DnsAct → Option DnsWorld
  | [] => some w
  | act :: rest => (w.step act).bind fun w' => w'.run rest

/-! ## One step -/

/-- Everything a step can do. -/
inductive DnsTurn (w : DnsWorld) : DnsWorld → Prop where
  | wait (ms : Nat) : DnsTurn w { w with now := w.now + ms }
  | hit (task : Nat) (host : Text) (port : UInt16) (addrs : List SocketAddr)
      (hcached : w.cache.cached (DnsCache.key host port) w.now = some addrs) :
      DnsTurn w (w.answer task host port addrs)
  | miss (task : Nat) (host : Text) (port : UInt16)
      (hcached : w.cache.cached (DnsCache.key host port) w.now = none) :
      DnsTurn w { w.goTo task (.looking host port) with
        lookups := w.lookups ++ [(host, port, w.now)] }
  | giveUp (task : Nat) : DnsTurn w (w.goTo task .idle)
  | report (task : Nat) (host : Text) (port : UInt16) (addrs : List SocketAddr) :
      DnsTurn w { w.goTo task (.storing host port addrs) with
        reports := w.reports ++ [(host, port, addrs)] }
  | store (task : Nat) (host : Text) (port : UInt16) (addrs : List SocketAddr)
      (htask : w.tasks task = .storing host port addrs) :
      DnsTurn w ((w.insert host port addrs).answer task host port addrs)

variable {w w' : DnsWorld} {act : DnsAct}

theorem turn_of_step (h : w.step act = some w') : DnsTurn w w' := by
  cases act with
  | wait ms =>
      obtain rfl := Option.some.inj h
      exact .wait ms
  | call task host port =>
      simp only [step] at h
      split at h
      case h_2 => cases h
      case h_1 =>
        split at h
        case h_1 addrs hcached =>
          obtain rfl := Option.some.inj h
          exact .hit task host port addrs hcached
        case h_2 hcached =>
          obtain rfl := Option.some.inj h
          exact .miss task host port hcached
  | report task result =>
      simp only [step] at h
      split at h
      case h_1 =>
        obtain rfl := Option.some.inj h
        exact .giveUp task
      case h_2 host port addrs htask =>
        obtain rfl := Option.some.inj h
        exact .report task host port addrs
      case h_3 => cases h
  | store task =>
      simp only [step] at h
      split at h
      case h_1 host port addrs htask =>
        obtain rfl := Option.some.inj h
        exact .store task host port addrs htask
      case h_2 => cases h
  | cancel task =>
      simp only [step] at h
      split at h
      case h_1 =>
        obtain rfl := Option.some.inj h
        exact .giveUp task
      case h_2 => cases h

/-! ## A call on its own -/

/-- The steps of a call that nobody interrupts. -/
def callActs (w : DnsWorld) (task : Nat) (host : Text) (port : UInt16) (lookup : Lookup) :
    List DnsAct :=
  match w.cache.cached (DnsCache.key host port) w.now with
  | some _ => [.call task host port]
  | none =>
      [.call task host port, .wait lookup.after, .report task lookup.result] ++
        match lookup.result with
        | .ok _ => [.store task]
        | .error _ => []

/-- It does to the table what `DnsCache.resolve` says, and takes as long. -/
theorem run_callActs {task : Nat} (htask : w.tasks task = .idle) (host : Text) (port : UInt16)
    (lookup : Lookup) :
    ∃ w', w.run (w.callActs task host port lookup) = some w' ∧
      w'.cache = (w.cache.resolve host port w.now lookup).2 ∧
      w'.now = w.now + (w.cache.resolve host port w.now lookup).1.after := by
  cases hcached : w.cache.cached (DnsCache.key host port) w.now with
  | some addrs =>
      refine ⟨w.answer task host port addrs, ?_, ?_, ?_⟩
      · simp [callActs, hcached, run, step, htask]
      · simp [DnsCache.resolve, hcached, answer, DnsWorld.goTo]
      · simp [DnsCache.resolve, hcached, answer, DnsWorld.goTo]
  | none =>
      cases hresult : lookup.result with
      | ok addrs =>
          simp [callActs, DnsCache.resolve, hcached, hresult, run, step, htask, insert, answer,
            DnsWorld.goTo]
      | error k =>
          simp [callActs, DnsCache.resolve, hcached, hresult, run, step, htask, DnsWorld.goTo]

/-! ## The table is a memo -/

/-- The entry a write leaves. -/
def entryOf (s : Write Text (List SocketAddr)) : CacheEntry := ⟨s.value, s.time⟩

def byKey (s : Write (Text × UInt16) (List SocketAddr)) : Write Text (List SocketAddr) :=
  s.encode fun asked => DnsCache.key asked.1 asked.2

/-- What `stores`, `reports`, `lookups` and `answers` say about each other and
about the table. -/
structure Recorded (w : DnsWorld) : Prop where
  table : ∀ key, w.cache key = (tableOf (w.stores.map byKey) key).map entryOf
  dated : Dated w.stores w.now
  reported : ∀ s ∈ w.stores, (s.key.1, s.key.2, s.value) ∈ w.reports
  pending : ∀ task host port addrs, w.tasks task = .storing host port addrs →
    (host, port, addrs) ∈ w.reports
  recent : ∀ a ∈ w.answers, ∃ s ∈ w.stores, s.key = (a.host, a.port) ∧ s.value = a.addrs ∧
    s.time ≤ a.time ∧ a.time < s.time + dnsCacheTtl
  needed : ∀ l ∈ w.lookups, l.2.2 ≤ w.now ∧ ∀ s ∈ w.stores, s.key = (l.1, l.2.1) →
    s.time < l.2.2 → s.time + dnsCacheTtl ≤ l.2.2

namespace Recorded

theorem init : DnsWorld.init.Recorded where
  table _ := rfl
  dated := Dated.nil 0
  reported _ h := by cases h
  pending _ _ _ _ h := by cases h
  recent _ h := by cases h
  needed _ h := by cases h

/-- What `cached` finds, by host and port. -/
theorem cached_eq (h : w.Recorded) (host : Text) (port : UInt16) (now : Nat) :
    w.cache.cached (DnsCache.key host port) now =
      fresh dnsCacheTtl now (host, port) w.stores := by
  have hlast : tableOf (w.stores.map byKey) (DnsCache.key host port) =
      (last (host, port) w.stores).map byKey :=
    last_encode DnsCache.key_injective (host, port) w.stores
  rw [DnsCache.cached, h.table, hlast, fresh]
  cases last (host, port) w.stores <;> rfl

/-- A task that moves without taking an answer along. -/
theorem pending_goTo (h : w.Recorded) {task : Nat} {at_ : Resolving}
    (hat : ∀ host port addrs, at_ ≠ .storing host port addrs) (i : Nat) (host : Text)
    (port : UInt16) (addrs : List SocketAddr)
    (hi : (w.goTo task at_).tasks i = .storing host port addrs) :
    (host, port, addrs) ∈ w.reports := by
  by_cases hti : i = task
  · rw [hti, goTo_tasks_self] at hi
    exact absurd hi (hat host port addrs)
  · rw [goTo_tasks_of_ne hti] at hi
    exact h.pending i host port addrs hi

theorem goTo (h : w.Recorded) {task : Nat} {at_ : Resolving}
    (hat : ∀ host port addrs, at_ ≠ .storing host port addrs) : (w.goTo task at_).Recorded :=
  ⟨h.table, h.dated, h.reported, h.pending_goTo hat, h.recent, h.needed⟩

/-- A call that returns what the table has written down less than the age ago. -/
theorem answer (h : w.Recorded) {task : Nat} {host : Text} {port : UInt16}
    {addrs : List SocketAddr}
    (hfresh : ∃ s ∈ w.stores, s.key = (host, port) ∧ s.value = addrs ∧
      w.now < s.time + dnsCacheTtl) : (w.answer task host port addrs).Recorded where
  table := h.table
  dated := h.dated
  reported := h.reported
  pending := h.pending_goTo fun _ _ _ => Resolving.noConfusion
  recent a ha := by
    rcases List.mem_append.mp ha with hold | hnew
    · exact h.recent a hold
    · obtain rfl := List.mem_singleton.mp hnew
      obtain ⟨s, hs, hkey, hvalue, hage⟩ := hfresh
      exact ⟨s, hs, hkey, hvalue, h.dated.past s hs, hage⟩
  needed := h.needed

theorem insert (h : w.Recorded) {host : Text} {port : UInt16} {addrs : List SocketAddr}
    (hreport : (host, port, addrs) ∈ w.reports) : (w.insert host port addrs).Recorded where
  table key := by
    have htable : tableOf ((w.stores ++ [Write.mk (host, port) addrs w.now]).map byKey) =
        Function.update (tableOf (w.stores.map byKey)) (DnsCache.key host port)
          (some ⟨DnsCache.key host port, addrs, w.now⟩) := by
      rw [List.map_append, List.map_singleton]
      exact tableOf_snoc _ _
    show Function.update w.cache _ _ key =
      (tableOf (List.map byKey (w.stores ++ _)) key).map entryOf
    rw [htable]
    by_cases hkey : key = DnsCache.key host port
    · rw [hkey, Function.update_self, Function.update_self]
      rfl
    · rw [Function.update_of_ne hkey, Function.update_of_ne hkey]
      exact h.table key
  dated := h.dated.snoc (host, port) addrs
  reported s hs := by
    rcases List.mem_append.mp hs with hold | hnew
    · exact h.reported s hold
    · obtain rfl := List.mem_singleton.mp hnew
      exact hreport
  pending := h.pending
  recent a ha := by
    obtain ⟨s, hs, hrest⟩ := h.recent a ha
    exact ⟨s, List.mem_append_left _ hs, hrest⟩
  needed l hl := by
    refine ⟨(h.needed l hl).1, fun s hs hkey hlt => ?_⟩
    rcases List.mem_append.mp hs with hold | hnew
    · exact (h.needed l hl).2 s hold hkey hlt
    · obtain rfl := List.mem_singleton.mp hnew
      exact absurd (h.needed l hl).1 (Nat.not_le.mpr hlt)

theorem turn (h : w.Recorded) (hturn : DnsTurn w w') : w'.Recorded := by
  cases hturn with
  | wait ms =>
      refine ⟨h.table, h.dated.later (Nat.le_add_right _ _), h.reported, h.pending, h.recent,
        fun l hl => ?_⟩
      exact ⟨Nat.le_trans (h.needed l hl).1 (Nat.le_add_right _ _), (h.needed l hl).2⟩
  | hit task host port addrs hcached =>
      rw [h.cached_eq] at hcached
      obtain ⟨s, hs, hkey, hvalue, hage⟩ := mem_of_fresh hcached
      have hpast := h.dated.past s hs
      exact h.answer ⟨s, hs, hkey, hvalue, by omega⟩
  | miss task host port hcached =>
      have hmoved : (w.goTo task (.looking host port)).Recorded :=
        h.goTo fun _ _ _ => Resolving.noConfusion
      rw [h.cached_eq, h.dated.fresh_eq_none_iff] at hcached
      refine ⟨hmoved.table, hmoved.dated, hmoved.reported, hmoved.pending, hmoved.recent,
        fun l hl => ?_⟩
      rcases List.mem_append.mp hl with hold | hnew
      · exact h.needed l hold
      · obtain rfl := List.mem_singleton.mp hnew
        exact ⟨Nat.le_refl _, fun s hs hkey _ => hcached s hs hkey⟩
  | giveUp task => exact h.goTo fun _ _ _ => Resolving.noConfusion
  | report task host port addrs =>
      refine ⟨h.table, h.dated, fun s hs => List.mem_append_left _ (h.reported s hs),
        fun i host' port' addrs' hi => ?_, h.recent, h.needed⟩
      by_cases hti : i = task
      · rw [hti] at hi
        obtain ⟨rfl, rfl, rfl⟩ := Resolving.storing.inj ((w.goTo_tasks_self task _).symm.trans hi)
        exact List.mem_append_right _ (List.mem_singleton_self _)
      · exact List.mem_append_left _
          (h.pending i host' port' addrs' ((goTo_tasks_of_ne hti).symm.trans hi))
  | store task host port addrs htask =>
      refine (h.insert (h.pending task host port addrs htask)).answer
        ⟨_, List.mem_append_right _ (List.mem_singleton_self _), rfl, rfl, ?_⟩
      exact Nat.lt_add_of_pos_right (by decide)

theorem run {acts : List DnsAct} (h : w.Recorded) (hrun : w.run acts = some w') :
    w'.Recorded := by
  induction acts generalizing w with
  | nil =>
      obtain rfl := Option.some.inj hrun
      exact h
  | cons act rest ih =>
      obtain ⟨w₁, hstep, hrest⟩ := Option.bind_eq_some_iff.mp hrun
      exact ih (h.turn (turn_of_step hstep)) hrest

end Recorded

/-- **No stale and no foreign addresses.** In every state that any number of
sessions reach, in any order of their steps and with any answers of the
resolver: the table answers for a host and port with the last report written
down for exactly them, if that is less than 30 s old, and with nothing
otherwise; what a call has returned was reported for the host and port it asked
for and was written down less than 30 s before; and the resolver was asked only
when every report written down at an earlier instant was at least 30 s old. -/
theorem dns_answers_recent (acts : List DnsAct) (w : DnsWorld)
    (hrun : DnsWorld.init.run acts = some w) :
    (∀ host port, w.cache.cached (DnsCache.key host port) w.now =
      fresh dnsCacheTtl w.now (host, port) w.stores) ∧
    (∀ a ∈ w.answers, (a.host, a.port, a.addrs) ∈ w.reports ∧
      ∃ s ∈ w.stores, s.key = (a.host, a.port) ∧ s.value = a.addrs ∧
        s.time ≤ a.time ∧ a.time < s.time + dnsCacheTtl) ∧
    ∀ l ∈ w.lookups, ∀ s ∈ w.stores, s.key = (l.1, l.2.1) → s.time < l.2.2 →
      s.time + dnsCacheTtl ≤ l.2.2 := by
  have h := Recorded.init.run hrun
  refine ⟨fun host port => h.cached_eq host port w.now, fun a ha => ?_,
    fun l hl => (h.needed l hl).2⟩
  obtain ⟨s, hs, hkey, hvalue, hold⟩ := h.recent a ha
  refine ⟨?_, s, hs, hkey, hvalue, hold⟩
  have hreport := h.reported s hs
  rwa [hkey, hvalue] at hreport

/-- Two sessions ask for one backend at once, a third asks while the answer is
fresh, and a fourth 30 s later. -/
def fourSessions : List DnsAct :=
  [.call 0 "ftp".toList 21, .call 1 "ftp".toList 21, .report 0 (.ok [⟨.v4 ⟨10, 0, 0, 1⟩, 21⟩]),
    .store 0, .report 1 (.error .other), .wait 29999, .call 2 "ftp".toList 21, .wait 1,
    .call 3 "ftp".toList 21]

theorem dns_answers_recent_four :
    ∃ w, DnsWorld.init.run fourSessions = some w ∧ w.lookups.map (·.2.2) = [0, 0, 30000] ∧
      ∀ a ∈ w.answers, (a.host, a.port, a.addrs) ∈ w.reports :=
  ⟨_, rfl, rfl, fun a ha => ((dns_answers_recent fourSessions _ rfl).2.1 a ha).1⟩

end DnsWorld

end FtpGateway
