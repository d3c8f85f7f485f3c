import FtpGateway.Connecting
import FtpGateway.RotatorHealth

/-!
# Dialling a backend

`connect` tries the addresses of a backend one after the other, under one timer. The
sockets it opens are for the usable addresses from the first on, in the resolver's
order, and it connects to the first that accepts if getting there takes no longer than
the timeout (`dials_in_order`).

With source rotation a failure that looks like the source's fault is reported, and the
source rests: whatever else the sessions do to the rotator, it is not offered again for
`UNHEALTHY_FOR` while there is a source that does not rest, unless a report of an earlier
failure comes in after it (`failed_source_rests`).
-/

namespace FtpGateway

open Str

/-! ## Addresses tried -/

section Addresses

variable (dial : SocketAddr → Took (Except IoKind Unit))

/-- How long it takes to try the addresses. -/
def dialTime (addrs : List SocketAddr) : Nat := (addrs.map fun addr => (dial addr).after).sum

/-- The sockets for the addresses, from `now` on. -/
def dialled : Nat → List SocketAddr → List (Nat × SocketAddr)
  | _, [] => []
  | now, addr :: rest => (now, addr) :: dialled (now + (dial addr).after) rest

/-- The error of the last address, if any. -/
def lastError (addrs : List SocketAddr) (earlier : Option IoKind) : Option IoKind :=
  addrs.foldl (fun last addr =>
    match (dial addr).result with
    | .error k => some k
    | .ok () => last) earlier

def Declines (addr : SocketAddr) : Prop := ∃ k, (dial addr).result = .error k

/-- The destinations `source` can reach. -/
def usable (source : Option Ipv4Addr) (addrs : List SocketAddr) : List SocketAddr :=
  if source.isSome then addrs.filter SocketAddr.isIpv4 else addrs

variable {dial} {source : Option Ipv4Addr} {addrs before after : List SocketAddr}
  {addr : SocketAddr} {now timeout : Nat} {last : Option IoKind}

theorem map_dialled (now : Nat) (addrs : List SocketAddr) :
    (dialled dial now addrs).map Prod.snd = addrs := by
  induction addrs generalizing now with
  | nil => rfl
  | cons addr rest ih => rw [dialled, List.map_cons, ih]

theorem le_of_mem_dialled {socket : Nat × SocketAddr} (h : socket ∈ dialled dial now addrs) :
    now ≤ socket.1 := by
  induction addrs generalizing now with
  | nil => cases h
  | cons addr rest ih =>
      rcases List.mem_cons.mp h with rfl | h
      · exact Nat.le_refl now
      · exact (Nat.le_add_right ..).trans (ih h)

theorem le_dialTime {socket : Nat × SocketAddr} (h : socket ∈ dialled dial now addrs) :
    socket.1 ≤ now + dialTime dial addrs := by
  induction addrs generalizing now with
  | nil => cases h
  | cons addr rest ih =>
      rw [dialTime, List.map_cons, List.sum_cons]
      rcases List.mem_cons.mp h with rfl | h
      · exact Nat.le_add_right ..
      · have hrest := ih h
        rw [dialTime] at hrest
        omega

/-- Up to any moment the first few have been tried. -/
theorem dialled_until (timeout now : Nat) (addrs : List SocketAddr) :
    ((dialled dial now addrs).filter fun socket => socket.1 ≤ timeout).map Prod.snd <+: addrs := by
  induction addrs generalizing now with
  | nil => exact List.prefix_refl []
  | cons addr rest ih =>
      rw [dialled]
      by_cases hnow : now ≤ timeout
      · rw [List.filter_cons_of_pos (by simpa using hnow), List.map_cons]
        exact (List.prefix_cons_inj addr).mpr (ih _)
      · have hnone : (dialled dial now (addr :: rest)).filter (fun socket => socket.1 ≤ timeout) =
            [] := by
          refine List.filter_eq_nil_iff.mpr fun socket hmem => ?_
          have := le_of_mem_dialled hmem
          simp only [decide_eq_true_eq]
          omega
        rw [dialled] at hnone
        rw [hnone]
        exact List.nil_prefix

theorem le_of_mem_filter_until {l : List (Nat × SocketAddr)} {socket : Nat × SocketAddr}
    (h : socket ∈ l.filter fun socket => socket.1 ≤ timeout) : socket.1 ≤ timeout := by
  simpa using (List.mem_filter.mp h).2

/-- No address that is left could not be reached from the source. -/
def AllUsable (source : Option Ipv4Addr) (addrs : List SocketAddr) : Prop :=
  ∀ addr ∈ addrs, (source.isSome && !addr.isIpv4) = false

theorem allUsable_usable (source : Option Ipv4Addr) (addrs : List SocketAddr) :
    AllUsable source (usable source addrs) := by
  intro addr h
  cases hs : source.isSome with
  | false => rfl
  | true =>
      rw [usable, hs, if_pos rfl] at h
      rw [(List.mem_filter.mp h).2]
      rfl

theorem tryAddrs_cons (h : (source.isSome && !addr.isIpv4) = false) (rest : List SocketAddr) :
    tryAddrs source dial (addr :: rest) now last =
      match (dial addr).result with
      | .ok () => ⟨.ok (), [(now, addr)], now + (dial addr).after⟩
      | .error k =>
          let attempt := tryAddrs source dial rest (now + (dial addr).after) (some k)
          { attempt with sockets := (now, addr) :: attempt.sockets } := by
  rw [tryAddrs, h]
  rfl

/-- The first address that accepts ends the loop. -/
theorem tryAddrs_first (husable : AllUsable source (before ++ addr :: after))
    (hbefore : ∀ b ∈ before, Declines dial b) (haddr : (dial addr).result = .ok ()) :
    tryAddrs source dial (before ++ addr :: after) now last =
      ⟨.ok (), dialled dial now (before ++ [addr]), now + dialTime dial (before ++ [addr])⟩ := by
  induction before generalizing now last with
  | nil =>
      rw [List.nil_append, tryAddrs_cons (husable addr List.mem_cons_self), haddr]
      simp [dialled, dialTime]
  | cons b before ih =>
      obtain ⟨⟨k, hk⟩, hrest⟩ := List.forall_mem_cons.mp hbefore
      rw [List.cons_append, tryAddrs_cons (husable b List.mem_cons_self), hk]
      dsimp only
      rw [ih (fun a ha => husable a (List.mem_cons_of_mem b ha)) hrest]
      simp [dialled, dialTime, Nat.add_assoc]

/-- If none accepts, all are tried. -/
theorem tryAddrs_none (husable : AllUsable source addrs) (h : ∀ b ∈ addrs, Declines dial b) :
    tryAddrs source dial addrs now last =
      ⟨.error ((lastError dial addrs last).getD .addrNotAvailable), dialled dial now addrs,
        now + dialTime dial addrs⟩ := by
  induction addrs generalizing now last with
  | nil => rfl
  | cons b rest ih =>
      obtain ⟨⟨k, hk⟩, hrest⟩ := List.forall_mem_cons.mp h
      rw [tryAddrs_cons (husable b List.mem_cons_self), hk]
      dsimp only
      rw [ih (fun a ha => husable a (List.mem_cons_of_mem b ha)) hrest]
      simp [dialled, dialTime, lastError, hk, Nat.add_assoc]

theorem first_or_none (dial : SocketAddr → Took (Except IoKind Unit)) (addrs : List SocketAddr) :
    (∃ before addr after, addrs = before ++ addr :: after ∧ (∀ b ∈ before, Declines dial b) ∧
      (dial addr).result = .ok ()) ∨ ∀ b ∈ addrs, Declines dial b := by
  induction addrs with
  | nil => exact Or.inr nofun
  | cons a rest ih =>
      cases ha : (dial a).result with
      | ok u => exact Or.inl ⟨[], a, rest, rfl, nofun, ha⟩
      | error k =>
          rcases ih with ⟨before, addr, after, rfl, hbefore, haddr⟩ | hall
          · exact Or.inl ⟨a :: before, addr, after, rfl,
              List.forall_mem_cons.mpr ⟨⟨k, ha⟩, hbefore⟩, haddr⟩
          · exact Or.inr (List.forall_mem_cons.mpr ⟨⟨k, ha⟩, hall⟩)

end Addresses

/-! ## Under the timer -/

section Timer

variable {resolution : Lookup} {dial : SocketAddr → Took (Except IoKind Unit)}
  {source : Option Ipv4Addr}

/-- The addresses to try; a failed lookup leaves none. -/
def targets (resolution : Lookup) (source : Option Ipv4Addr) : List SocketAddr :=
  match resolution.result with
  | .ok addrs => usable source addrs
  | .error _ => []

/-- The error of an attempt that no address accepts. -/
def exhausted (resolution : Lookup) (dial : SocketAddr → Took (Except IoKind Unit))
    (source : Option Ipv4Addr) : IoKind :=
  match resolution.result with
  | .ok addrs => (lastError dial (usable source addrs) none).getD .addrNotAvailable
  | .error k => k

/-- When the lookup is done and the addresses `tried` have answered. -/
def doneAt (resolution : Lookup) (dial : SocketAddr → Took (Except IoKind Unit))
    (tried : List SocketAddr) : Nat :=
  resolution.after + dialTime dial tried

theorem doneAt_append_le (before after : List SocketAddr) :
    doneAt resolution dial before ≤ doneAt resolution dial (before ++ after) := by
  rw [doneAt, doneAt, dialTime, dialTime, List.map_append, List.sum_append]
  omega

/-- The attempt ends at the first address that accepts, wherever that is. -/
theorem connectInner_first {before after : List SocketAddr} {addr : SocketAddr}
    (heq : targets resolution source = before ++ addr :: after)
    (hbefore : ∀ b ∈ before, Declines dial b) (haddr : (dial addr).result = .ok ()) :
    connectInner resolution dial source =
      ⟨.ok (), dialled dial resolution.after (before ++ [addr]),
        doneAt resolution dial (before ++ [addr])⟩ := by
  rw [targets] at heq
  rw [connectInner]
  cases hres : resolution.result with
  | error k =>
      rw [hres] at heq
      exact absurd heq.symm (by simp)
  | ok addrs =>
      rw [hres] at heq
      exact (congrArg (fun l => tryAddrs source dial l resolution.after none) heq).trans
        (tryAddrs_first (heq ▸ allUsable_usable source addrs) hbefore haddr)

theorem connectInner_none (h : ∀ b ∈ targets resolution source, Declines dial b) :
    connectInner resolution dial source =
      ⟨.error (exhausted resolution dial source),
        dialled dial resolution.after (targets resolution source),
        doneAt resolution dial (targets resolution source)⟩ := by
  rw [targets] at h
  rw [connectInner, targets, exhausted]
  cases hres : resolution.result with
  | error k => rfl
  | ok addrs =>
      rw [hres] at h
      exact tryAddrs_none (allUsable_usable source addrs) h

/-- What `connect` makes of an attempt that tries the addresses `tried`. -/
theorem connect_eq (timeout : Nat) {result : Except IoKind Unit} {tried : List SocketAddr}
    (h : connectInner resolution dial source =
      ⟨result, dialled dial resolution.after tried, doneAt resolution dial tried⟩) :
    (doneAt resolution dial tried ≤ timeout ∧ connect timeout resolution dial source =
        ⟨result, dialled dial resolution.after tried, doneAt resolution dial tried⟩) ∨
    (timeout < doneAt resolution dial tried ∧ connect timeout resolution dial source =
        ⟨.error .timedOut,
          (dialled dial resolution.after tried).filter fun socket => socket.1 ≤ timeout,
          timeout⟩) := by
  rw [connect, h]
  dsimp only
  split
  · rename_i hle
    exact Or.inl ⟨hle, rfl⟩
  · rename_i hlt
    exact Or.inr ⟨Nat.not_le.mp hlt, rfl⟩

/-- Cut off or not, the sockets are for the first of the addresses, and in time. -/
theorem connect_within (timeout : Nat) {result : Except IoKind Unit} {tried : List SocketAddr}
    (h : connectInner resolution dial source =
      ⟨result, dialled dial resolution.after tried, doneAt resolution dial tried⟩) :
    (connect timeout resolution dial source).sockets.map Prod.snd <+: tried ∧
    (∀ socket ∈ (connect timeout resolution dial source).sockets, socket.1 ≤ timeout) ∧
    (connect timeout resolution dial source).after ≤ timeout := by
  rcases connect_eq timeout h with ⟨hle, ha⟩ | ⟨-, ha⟩
  · rw [ha]
    refine ⟨?_, fun socket hmem => (le_dialTime hmem).trans hle, hle⟩
    rw [map_dialled]
  · rw [ha]
    exact ⟨dialled_until timeout _ _, fun socket => le_of_mem_filter_until, Nat.le_refl timeout⟩

/-- **Dialling goes through the addresses in order, under one timer.** Whatever the resolver
answers and each address does: sockets are opened for the usable addresses from the first on,
in the resolver's order, and none after the timeout, which the attempt never outlasts; a
failed lookup opens none. It connects exactly if the first address that accepts is reached in
time, and then the sockets are for the addresses up to that one. If it fails, either the
timer ran out, with `TimedOut`, or every usable address has been tried in time and the error
is the last one's, `AddrNotAvailable` if there was none, and that of the lookup if it
failed. -/
theorem dials_in_order (timeout : Nat) (resolution : Lookup)
    (dial : SocketAddr → Took (Except IoKind Unit)) (source : Option Ipv4Addr) :
    let attempt := connect timeout resolution dial source
    let addrs := targets resolution source
    attempt.sockets.map Prod.snd <+: addrs ∧
    (∀ socket ∈ attempt.sockets, socket.1 ≤ timeout) ∧ attempt.after ≤ timeout ∧
    (attempt.result = .ok () ↔ ∃ before addr after,
      addrs = before ++ addr :: after ∧ (∀ b ∈ before, Declines dial b) ∧
      (dial addr).result = .ok () ∧ doneAt resolution dial (before ++ [addr]) ≤ timeout ∧
      attempt.sockets.map Prod.snd = before ++ [addr]) ∧
    ∀ k, attempt.result = .error k →
      (k = .timedOut ∧ attempt.after = timeout ∧ timeout < doneAt resolution dial addrs) ∨
      (k = exhausted resolution dial source ∧ attempt.sockets.map Prod.snd = addrs ∧
        doneAt resolution dial addrs ≤ timeout) := by
  intro attempt addrs
  rcases first_or_none dial addrs with ⟨before, addr, after, heq, hbefore, haddr⟩ | hall
  · have hinner := connectInner_first heq hbefore haddr
    have hsplit : addrs = (before ++ [addr]) ++ after := by rw [heq]; simp
    obtain ⟨hsockets, hintime, hafter⟩ := connect_within timeout hinner
    refine ⟨hsockets.trans ⟨after, hsplit.symm⟩, hintime, hafter, ?_⟩
    rcases connect_eq timeout hinner with ⟨hle, ha⟩ | ⟨hlt, ha⟩
    · simp only [attempt, ha, map_dialled]
      refine ⟨?_, nofun⟩
      exact ⟨fun _ => ⟨before, addr, after, heq, hbefore, haddr, hle, rfl⟩, fun _ => trivial⟩
    · have hlate : timeout < doneAt resolution dial addrs :=
        hlt.trans_le (hsplit ▸ doneAt_append_le _ _)
      simp only [attempt, ha]
      refine ⟨⟨nofun, ?_⟩, fun k hk => Or.inl ⟨(Except.error.inj hk).symm, trivial, hlate⟩⟩
      rintro ⟨before', addr', after', heq', hbefore', haddr', hle, -⟩
      have hsame := (Attempt.mk.inj (hinner.symm.trans
        (connectInner_first heq' hbefore' haddr'))).2.2
      omega
  · have hinner := connectInner_none hall
    obtain ⟨hsockets, hintime, hafter⟩ := connect_within timeout hinner
    have hno : ¬∃ before addr after, addrs = before ++ addr :: after ∧
        (∀ b ∈ before, Declines dial b) ∧ (dial addr).result = .ok () ∧
        doneAt resolution dial (before ++ [addr]) ≤ timeout ∧
        attempt.sockets.map Prod.snd = before ++ [addr] := by
      rintro ⟨before, addr, after, heq, -, haddr, -⟩
      obtain ⟨k, hk⟩ := hall addr (by rw [heq]; simp)
      cases hk.symm.trans haddr
    refine ⟨hsockets, hintime, hafter, ⟨fun hok => ?_, fun hsome => absurd hsome hno⟩,
      fun k hk => ?_⟩
    all_goals rcases connect_eq timeout hinner with ⟨hle, ha⟩ | ⟨hlt, ha⟩
    · cases (congrArg Attempt.result ha).symm.trans hok
    · cases (congrArg Attempt.result ha).symm.trans hok
    · refine Or.inr ⟨?_, (congrArg (·.sockets.map Prod.snd) ha).trans (map_dialled _ _), hle⟩
      exact (Except.error.inj ((congrArg Attempt.result ha).symm.trans hk)).symm
    · refine Or.inl ⟨?_, congrArg Attempt.after ha, hlt⟩
      exact (Except.error.inj ((congrArg Attempt.result ha).symm.trans hk)).symm

/-- The second address accepts; an IPv6 one is left out. -/
def sampleLookup : Lookup :=
  ⟨5, .ok [⟨.v6 1, 21⟩, ⟨.v4 ⟨10, 0, 0, 1⟩, 21⟩, ⟨.v4 ⟨10, 0, 0, 2⟩, 21⟩]⟩

def sampleDial (addr : SocketAddr) : Took (Except IoKind Unit) :=
  if addr.ip = .v4 ⟨10, 0, 0, 1⟩ then ⟨10, .error .other⟩ else ⟨20, .ok ()⟩

theorem dials_in_order_second_address :
    (connect 100 sampleLookup sampleDial (some ⟨10, 0, 0, 9⟩)).result = .ok () := by
  refine (dials_in_order 100 sampleLookup sampleDial (some ⟨10, 0, 0, 9⟩)).2.2.2.1.mpr
    ⟨[⟨.v4 ⟨10, 0, 0, 1⟩, 21⟩], ⟨.v4 ⟨10, 0, 0, 2⟩, 21⟩, [], rfl, ?_, rfl, by decide, rfl⟩
  exact List.forall_mem_singleton.mpr ⟨.other, rfl⟩

end Timer

/-! ## Sources that rest -/

/-- No re-listing takes `source` off the list. -/
def RotAct.Keeps (source : Ipv4Addr) : RotAct → Prop
  | .setSources sources => source ∈ sources
  | .refreshOnce (some sources) => sources = [] ∨ source ∈ sources
  | _ => True

/-- When a failure was reported. -/
def RotAct.reportedAt : RotAct → Option Nat
  | .reportConnectFailure _ _ now => some now
  | .markUnhealthy _ now => some now
  | _ => none

namespace Rotator

/-- `source` is left out at least until `until_`. -/
def Rests (r : Rotator) (source : Ipv4Addr) (until_ : Nat) : Prop :=
  ∃ time, r.unhealthy source = some time ∧ until_ ≤ time

variable {r : Rotator} {source : Ipv4Addr} {until_ : Nat}

theorem Rests.setSources (h : r.Rests source until_) {sources : List Ipv4Addr}
    (hmem : source ∈ sources) : (r.setSources sources).1.Rests source until_ := by
  obtain ⟨time, htime, hle⟩ := h
  refine ⟨time, ?_, hle⟩
  rw [Rotator.setSources]
  split
  · exact htime
  · exact (if_pos (mem_sortDedup.mpr hmem)).trans htime

theorem Rests.markUnhealthyAt (h : r.Rests source until_) (other : Ipv4Addr) {now : Nat}
    (hnow : until_ ≤ now + unhealthyFor) : (r.markUnhealthyAt other now).Rests source until_ := by
  by_cases hs : source = other
  · subst hs
    exact ⟨now + unhealthyFor, Function.update_self .., hnow⟩
  · obtain ⟨time, htime, hle⟩ := h
    exact ⟨time, (Function.update_of_ne hs ..).trans htime, hle⟩

theorem Rests.isUnhealthy (h : r.Rests source until_) {now : Nat} (hnow : now < until_) :
    r.isUnhealthy source now = true := by
  obtain ⟨time, htime, hle⟩ := h
  rw [Rotator.isUnhealthy, htime]
  simp only [Option.any_some, decide_eq_true_eq]
  omega

/-- A source that is left out is offered only if all are. -/
theorem all_unhealthy_of_offered {name : Text} {now : Nat}
    (hrest : r.isUnhealthy source now = true) (hmem : source ∈ r.candidatesAt name now) :
    ∀ ip ∈ r.sources, r.isUnhealthy ip now = true := by
  intro ip hip
  by_contra hhealthy
  have hin : ip ∈ (r.ordered name).filter fun ip => !r.isUnhealthy ip now :=
    List.mem_filter.mpr ⟨mem_ordered hip, by simpa using hhealthy⟩
  have hne : ((r.ordered name).filter fun ip => !r.isUnhealthy ip now).isEmpty = false := by
    rw [List.isEmpty_eq_false_iff]
    exact List.ne_nil_of_mem hin
  rw [candidatesAt] at hmem
  split at hmem
  · cases hmem
  · simp only [hne, Bool.false_eq_true, if_false] at hmem
    have hno := (List.mem_filter.mp hmem).2
    rw [hrest] at hno
    cases hno

end Rotator

namespace RotWorld

variable {w w' : RotWorld} {act : RotAct} {source : Ipv4Addr} {t : Nat}

theorem rests_step (hw : w.rot.Rests source (t + unhealthyFor)) (hkeeps : act.Keeps source)
    (hclock : ∀ now, act.reportedAt = some now → t ≤ now) (h : w.step act = some w') :
    w'.rot.Rests source (t + unhealthyFor) := by
  have hsame : w'.rot.unhealthy = w.rot.unhealthy → w'.rot.Rests source (t + unhealthyFor) := by
    intro heq
    rw [Rotator.Rests, heq]
    exact hw
  cases step_turn h with
  | start name capacity source hrw => exact hsame hrw.unhealthy
  | grant i name capacity source slot hi hslot hfree hrw => exact hsame hrw.unhealthy
  | commit i name capacity source hi hrw => exact hsame hrw.unhealthy
  | timeout i name capacity source hi hrw => exact hsame hrw.unhealthy
  | cancel i name capacity source hi hrot => exact hsame (by rw [hrot])
  | drop i name source hi hrw => exact hsame hrw.unhealthy
  | health act hact =>
      cases act with
      | setSources sources =>
          obtain rfl := Option.some.inj h
          exact hw.setSources hkeeps
      | refreshOnce listing =>
          obtain rfl := Option.some.inj h
          cases listing with
          | none => exact hw
          | some sources =>
              cases sources with
              | nil => exact hw
              | cons ip rest => exact hw.setSources (hkeeps.resolve_left (List.cons_ne_nil ip rest))
      | reportConnectFailure other k now =>
          obtain rfl := Option.some.inj h
          have hle := hclock now rfl
          show (w.rot.reportConnectFailure other k now).1.Rests source _
          rw [Rotator.reportConnectFailure]
          split
          · exact hw.markUnhealthyAt other (by omega)
          · exact hw
      | markUnhealthy other now =>
          obtain rfl := Option.some.inj h
          have hle := hclock now rfl
          exact hw.markUnhealthyAt other (by omega)
      | start => cases hact
      | grant => cases hact
      | commit => cases hact
      | timeout => cases hact
      | cancel => cases hact
      | drop => cases hact

theorem rests_run {acts : List RotAct} (hw : w.rot.Rests source (t + unhealthyFor))
    (hkeeps : ∀ act ∈ acts, act.Keeps source)
    (hclock : ∀ act ∈ acts, ∀ now, act.reportedAt = some now → t ≤ now)
    (hrun : w.run acts = some w') : w'.rot.Rests source (t + unhealthyFor) := by
  induction acts generalizing w with
  | nil => exact Option.some.inj hrun ▸ hw
  | cons act rest ih =>
      obtain ⟨w₁, hstep, hrest⟩ := Option.bind_eq_some_iff.mp hrun
      obtain ⟨hkeep, hkeeps⟩ := List.forall_mem_cons.mp hkeeps
      obtain ⟨hnow, hclock⟩ := List.forall_mem_cons.mp hclock
      exact ih (rests_step hw hkeep hnow hstep) hkeeps hclock hrest

/-- **A source that failed rests.** Once a failure at `t` that looks like the source's fault
is reported, then whatever steps the sessions and the refresher take, in any order, as long as
no re-listing drops the source and no failure of an earlier instant than `t` is reported after
it (`mark_unhealthy` takes its instant before it has the lock): at every moment less
than `UNHEALTHY_FOR` after `t` the source is offered to a session only if every source is left
out at that moment. -/
theorem failed_source_rests {w₁ w₂ : RotWorld} {k : IoKind} {acts : List RotAct}
    (hfault : Rotator.sourceFault k = true)
    (hfail : w.step (.reportConnectFailure source k t) = some w₁)
    (hrun : w₁.run acts = some w₂) (hkeeps : ∀ act ∈ acts, act.Keeps source)
    (hclock : ∀ act ∈ acts, ∀ now, act.reportedAt = some now → t ≤ now)
    {now : Nat} (hnow : now < t + unhealthyFor) {name : Text}
    (hoffered : source ∈ w₂.rot.candidatesAt name now) :
    ∀ ip ∈ w₂.rot.sources, w₂.rot.isUnhealthy ip now = true := by
  have hrests : w₁.rot.Rests source (t + unhealthyFor) := by
    obtain rfl := Option.some.inj hfail
    refine ⟨t + unhealthyFor, ?_, Nat.le_refl _⟩
    show (w.rot.reportConnectFailure source k t).1.unhealthy source = _
    rw [Rotator.reportConnectFailure, if_pos hfault]
    exact Function.update_self ..
  have hrest := (rests_run hrests hkeeps hclock hrun).isUnhealthy hnow
  exact Rotator.all_unhealthy_of_offered hrest hoffered

/-- With both sources out of order the first is offered again. -/
theorem failed_source_rests_two_failures : ∃ w₁ w₂,
    (init [⟨10, 0, 0, 1⟩, ⟨10, 0, 0, 2⟩]).step
      (.reportConnectFailure ⟨10, 0, 0, 1⟩ .timedOut 1000) = some w₁ ∧
    w₁.run [.reportConnectFailure ⟨10, 0, 0, 2⟩ .timedOut 2000] = some w₂ ∧
    ⟨10, 0, 0, 1⟩ ∈ w₂.rot.candidatesAt ['b'] 3000 ∧
    ∀ ip ∈ w₂.rot.sources, w₂.rot.isUnhealthy ip 3000 = true := by
  obtain ⟨w₁, hfail⟩ : ∃ w₁, (init [⟨10, 0, 0, 1⟩, ⟨10, 0, 0, 2⟩]).step
      (.reportConnectFailure ⟨10, 0, 0, 1⟩ .timedOut 1000) = some w₁ := ⟨_, rfl⟩
  obtain ⟨w₂, hrun⟩ : ∃ w₂,
      w₁.run [.reportConnectFailure ⟨10, 0, 0, 2⟩ .timedOut 2000] = some w₂ := ⟨_, rfl⟩
  have hoffered : ⟨10, 0, 0, 1⟩ ∈ w₂.rot.candidatesAt ['b'] 3000 := by
    obtain rfl := Option.some.inj hfail
    obtain rfl := Option.some.inj hrun
    decide +kernel
  refine ⟨w₁, w₂, hfail, hrun, hoffered, ?_⟩
  refine failed_source_rests rfl hfail hrun ?_ ?_ (by decide) hoffered
  · exact List.forall_mem_singleton.mpr trivial
  · refine List.forall_mem_singleton.mpr fun now hnow => ?_
    obtain rfl := Option.some.inj hnow
    decide

end RotWorld

end FtpGateway
