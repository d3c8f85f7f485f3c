import FtpGateway.Rotator

/-!
# Connecting from a source address

`backend/connection.rs` and `backend/dns_cache.rs` with the loop over source
addresses of `session.rs`, which reports each failure to the rotator. What the
resolver and the sockets do, and how long they take, is given; the timer of
`connect` cuts the attempt off. An attempt that never got as far as a socket
blames the source for what the name lookup came to, unless the lookup itself
failed in time with an error that does not look like the source's fault
(`unbound_attempt_blames_iff`).
-/

namespace FtpGateway

open Str

/-- The outcome of something awaited, and how long it took in milliseconds. -/
structure Took (α : Type) where
  after : Nat
  result : α

abbrev Lookup := Took (Except IoKind (List SocketAddr))

def SocketAddr.isIpv4 (addr : SocketAddr) : Bool :=
  match addr.ip with
  | .v4 _ => true
  | .v6 _ => false

/-! ## The DNS cache -/

structure CacheEntry where
  addrs : List SocketAddr
  resolvedAt : Nat

/-- `DNS_CACHE_TTL`. -/
def dnsCacheTtl : Nat := 30000

abbrev DnsCache := Text → Option CacheEntry

namespace DnsCache

def key (host : Text) (port : UInt16) : Text := host ++ ':' :: Nat.toDigits 10 port.toNat

def cached (cache : DnsCache) (key : Text) (now : Nat) : Option (List SocketAddr) :=
  (cache key).bind fun entry =>
    if now - entry.resolvedAt < dnsCacheTtl then some entry.addrs else none

/-- `lookup` is what the resolver would answer. -/
def resolve (cache : DnsCache) (host : Text) (port : UInt16) (now : Nat) (lookup : Lookup) :
    Lookup × DnsCache :=
  match cache.cached (key host port) now with
  | some addrs => (⟨0, .ok addrs⟩, cache)
  | none =>
      match lookup.result with
      | .ok addrs =>
          (lookup, Function.update cache (key host port) (some ⟨addrs, now + lookup.after⟩))
      | .error _ => (lookup, cache)

end DnsCache

/-! ## `connect` -/

/-- What an attempt came to, and which destinations a socket was opened for,
each with the moment that happened. -/
structure Attempt where
  result : Except IoKind Unit
  sockets : List (Nat × SocketAddr)
  after : Nat

/-- The loop of `connect_inner` over the addresses left, `now` into the
attempt. `dial` is what binding a socket and connecting it comes to. -/
def tryAddrs (source : Option Ipv4Addr) (dial : SocketAddr → Took (Except IoKind Unit)) :
    List SocketAddr → Nat → Option IoKind → Attempt
  | [], now, lastErr => ⟨.error (lastErr.getD .addrNotAvailable), [], now⟩
  | addr :: rest, now, _ =>
      -- `connect_from` opens no socket for a destination the source cannot reach
      if source.isSome && !addr.isIpv4 then
        tryAddrs source dial rest now (some .addrNotAvailable)
      else
        match (dial addr).result with
        | .ok () => ⟨.ok (), [(now, addr)], now + (dial addr).after⟩
        | .error k =>
            let attempt := tryAddrs source dial rest (now + (dial addr).after) (some k)
            { attempt with sockets := (now, addr) :: attempt.sockets }

def connectInner (resolution : Lookup) (dial : SocketAddr → Took (Except IoKind Unit))
    (source : Option Ipv4Addr) : Attempt :=
  match resolution.result with
  | .error k => ⟨.error k, [], resolution.after⟩
  | .ok addrs =>
      tryAddrs source dial (if source.isSome then addrs.filter SocketAddr.isIpv4 else addrs)
        resolution.after none

/-- `connection::connect`. The future is polled before its timer. -/
def connect (timeout : Nat) (resolution : Lookup)
    (dial : SocketAddr → Took (Except IoKind Unit)) (source : Option Ipv4Addr) : Attempt :=
  let attempt := connectInner resolution dial source
  if attempt.after ≤ timeout then attempt
  else
    ⟨.error .timedOut, attempt.sockets.filter fun socket => socket.1 ≤ timeout, timeout⟩

/-! ## The session's loop over its source addresses -/

namespace Rotator

/-- What one attempt from `source` does to the rotator. -/
def afterAttempt (r : Rotator) (source : Ipv4Addr) (now : Nat) (attempt : Attempt) : Rotator :=
  match attempt.result with
  | .ok () => r
  | .error k => (r.reportConnectFailure source k now).1

end Rotator

/-- The first source address that connects, with the rotator and the cache as
the failed attempts leave them. -/
def connectSources (backend : BackendConfig) (timeout : Nat) (lookup : Lookup)
    (dial : Ipv4Addr → SocketAddr → Took (Except IoKind Unit)) :
    List Ipv4Addr → Rotator → DnsCache → Nat → Option Ipv4Addr × Rotator × DnsCache
  | [], r, cache, _ => (none, r, cache)
  | source :: rest, r, cache, now =>
      let (resolution, cache') := cache.resolve backend.host backend.port now lookup
      let attempt := connect timeout resolution (dial source) (some source)
      let cache := if resolution.after ≤ timeout then cache' else cache
      match attempt.result with
      | .ok () => (some source, r, cache)
      | .error _ =>
          connectSources backend timeout lookup dial rest
            (r.afterAttempt source (now + attempt.after) attempt) cache (now + attempt.after)

/-! ## Attempts without a socket -/

section Attempts

variable {timeout : Nat} {resolution : Lookup}
  {dial : SocketAddr → Took (Except IoKind Unit)} {source : Ipv4Addr}

theorem le_tryAddrs_after (source : Option Ipv4Addr) (addrs : List SocketAddr) (now : Nat)
    (last : Option IoKind) : now ≤ (tryAddrs source dial addrs now last).after := by
  induction addrs generalizing now last with
  | nil => exact Nat.le_refl now
  | cons addr rest ih =>
      rw [tryAddrs]
      split
      · exact ih now _
      · split
        · exact Nat.le_add_right ..
        · exact (Nat.le_add_right ..).trans (ih _ _)

theorem le_of_mem_tryAddrs_sockets (source : Option Ipv4Addr) (addrs : List SocketAddr)
    (now : Nat) (last : Option IoKind) :
    ∀ socket ∈ (tryAddrs source dial addrs now last).sockets, now ≤ socket.1 := by
  induction addrs generalizing now last with
  | nil => intro socket h; cases h
  | cons addr rest ih =>
      intro socket
      rw [tryAddrs]
      split
      · exact ih now _ socket
      · split
        · intro h
          rw [List.mem_singleton.mp h]
        · intro h
          rcases List.mem_cons.mp h with rfl | h
          · exact Nat.le_refl now
          · exact (Nat.le_add_right ..).trans (ih _ _ socket h)

/-- The first socket is opened as soon as the name is resolved. -/
theorem tryAddrs_sockets {addr : SocketAddr} (hv4 : addr.isIpv4 = true) (rest : List SocketAddr)
    (now : Nat) (last : Option IoKind) :
    ∃ more, (tryAddrs (some source) dial (addr :: rest) now last).sockets =
      (now, addr) :: more := by
  rw [tryAddrs, hv4]
  simp only [Option.isSome_some, Bool.not_true, Bool.and_false, Bool.false_eq_true, if_false]
  cases (dial addr).result with
  | ok u => exact ⟨_, rfl⟩
  | error k => exact ⟨_, rfl⟩

/-- What an attempt that opened no socket fails with. -/
def unboundKind (timeout : Nat) (resolution : Lookup) : IoKind :=
  if resolution.after ≤ timeout then
    match resolution.result with
    | .error k => k
    | .ok _ => .addrNotAvailable
  else .timedOut

theorem connect_of_no_addrs {attempt : Attempt} {k : IoKind}
    (hinner : connectInner resolution dial (some source) = attempt)
    (hattempt : attempt = ⟨.error k, [], resolution.after⟩) :
    (connect timeout resolution dial (some source)).sockets = [] ∧
      (connect timeout resolution dial (some source)).result =
        .error (if resolution.after ≤ timeout then k else .timedOut) := by
  rw [connect, hinner, hattempt]
  simp only
  split
  · exact ⟨rfl, rfl⟩
  · exact ⟨rfl, rfl⟩

/-- An attempt opens no socket exactly when the name is not resolved in time, or
not to an IPv4 address, and then it fails with `unboundKind`. -/
theorem connect_unbound_iff :
    (connect timeout resolution dial (some source)).sockets = [] ↔
      timeout < resolution.after ∨
        ∀ addrs, resolution.result = .ok addrs → ∀ addr ∈ addrs, addr.isIpv4 = false := by
  cases hres : resolution.result with
  | error k =>
      have hinner : connectInner resolution dial (some source) =
          ⟨.error k, [], resolution.after⟩ := by rw [connectInner, hres]
      refine ⟨fun _ => .inr fun addrs h => (nomatch h), fun _ => ?_⟩
      exact (connect_of_no_addrs hinner rfl).1
  | ok addrs =>
      have hinner : connectInner resolution dial (some source) =
          tryAddrs (some source) dial (addrs.filter SocketAddr.isIpv4) resolution.after none := by
        rw [connectInner, hres]; rfl
      cases hv4 : addrs.filter SocketAddr.isIpv4 with
      | nil =>
          rw [hv4] at hinner
          refine ⟨fun _ => .inr ?_, fun _ => (connect_of_no_addrs hinner rfl).1⟩
          rintro _ ⟨⟩ addr haddr
          have := List.filter_eq_nil_iff.mp hv4 addr haddr
          simpa using this
      | cons addr rest =>
          rw [hv4] at hinner
          have hmem : addr ∈ addrs.filter SocketAddr.isIpv4 := by rw [hv4]; exact List.mem_cons_self
          obtain ⟨hin, hip⟩ := List.mem_filter.mp hmem
          have hafter := @le_tryAddrs_after dial (some source) (addr :: rest)
            resolution.after none
          obtain ⟨more, hsockets⟩ : ∃ more,
              (tryAddrs (some source) dial (addr :: rest) resolution.after none).sockets =
                (resolution.after, addr) :: more := tryAddrs_sockets hip rest _ none
          constructor
          · intro h
            refine .inl (Nat.lt_of_not_le fun hle => ?_)
            rw [connect, hinner] at h
            split at h
            · rw [hsockets] at h; cases h
            · simp [hsockets, hle] at h
          · rintro (hlt | hall)
            · rw [connect, hinner, if_neg (by omega), List.filter_eq_nil_iff]
              intro socket hsocket hle
              have := le_of_mem_tryAddrs_sockets (some source) (addr :: rest) resolution.after
                none socket hsocket
              have := of_decide_eq_true hle
              omega
            · have := hall addrs rfl addr hin
              rw [hip] at this
              cases this

theorem connect_unbound_result
    (h : (connect timeout resolution dial (some source)).sockets = []) :
    (connect timeout resolution dial (some source)).result =
      .error (unboundKind timeout resolution) := by
  by_cases hle : resolution.after ≤ timeout
  · cases hres : resolution.result with
    | error k =>
        have hinner : connectInner resolution dial (some source) =
            ⟨.error k, [], resolution.after⟩ := by rw [connectInner, hres]
        rw [(connect_of_no_addrs hinner rfl).2, unboundKind, if_pos hle, if_pos hle, hres]
    | ok addrs =>
        have hnone : addrs.filter SocketAddr.isIpv4 = [] := by
          rcases connect_unbound_iff.mp h with hlt | hall
          · omega
          · refine List.filter_eq_nil_iff.mpr fun addr haddr => ?_
            rw [hall addrs hres addr haddr]
            exact Bool.false_ne_true
        have hinner : connectInner resolution dial (some source) =
            ⟨.error .addrNotAvailable, [], resolution.after⟩ := by
          rw [connectInner, hres]
          simp only [Option.isSome_some, if_true, hnone, tryAddrs, Option.getD_none]
        rw [(connect_of_no_addrs hinner rfl).2, unboundKind, if_pos hle, if_pos hle, hres]
  · have hafter : resolution.after ≤ (connectInner resolution dial (some source)).after := by
      rw [connectInner]
      split
      · exact Nat.le_refl _
      · exact le_tryAddrs_after ..
    rw [connect, if_neg (by omega), unboundKind, if_neg hle]

end Attempts

/-! ## Who is blamed -/

theorem Rotator.reportConnectFailure_unhealthy (r : Rotator) (source : Ipv4Addr) (k : IoKind)
    (now : Nat) :
    (∀ ip, (r.reportConnectFailure source k now).1.unhealthy ip = r.unhealthy ip) ↔
      Rotator.sourceFault k = false ∨ r.unhealthy source = some (now + unhealthyFor) := by
  rw [Rotator.reportConnectFailure]
  cases hk : Rotator.sourceFault k with
  | false => simp
  | true =>
      simp only [if_true, Rotator.markUnhealthyAt, Bool.true_eq_false, false_or]
      constructor
      · intro h
        have := h source
        rw [Function.update_self] at this
        exact this.symm
      · intro h ip
        by_cases hip : ip = source
        · rw [hip, Function.update_self, h]
        · rw [Function.update_of_ne hip]

/-- **Exactly when an attempt without a socket leaves the health map alone.**
The name was not cached, and its lookup failed in time with an error that does
not look like the source's fault; or the source is left out until that very
moment already. -/
theorem unbound_attempt_blames_iff (r : Rotator) (cache : DnsCache) (backend : BackendConfig)
    (source : Ipv4Addr) (timeout start now : Nat) (lookup : Lookup)
    (dial : SocketAddr → Took (Except IoKind Unit))
    (hunbound : (connect timeout (cache.resolve backend.host backend.port start lookup).1 dial
      (some source)).sockets = []) :
    (∃ k, (connect timeout (cache.resolve backend.host backend.port start lookup).1 dial
      (some source)).result = .error k) ∧
    ((∀ ip, (r.afterAttempt source now (connect timeout
        (cache.resolve backend.host backend.port start lookup).1 dial (some source))).unhealthy ip =
          r.unhealthy ip) ↔
      (cache.cached (DnsCache.key backend.host backend.port) start = none ∧
        lookup.after ≤ timeout ∧
        ∃ k, lookup.result = .error k ∧ Rotator.sourceFault k = false) ∨
      r.unhealthy source = some (now + unhealthyFor)) := by
  have hres := connect_unbound_result hunbound
  refine ⟨⟨_, hres⟩, ?_⟩
  rw [Rotator.afterAttempt, hres]
  simp only
  rw [Rotator.reportConnectFailure_unhealthy]
  refine or_congr_left ?_
  rw [unboundKind, DnsCache.resolve]
  cases hcache : cache.cached (DnsCache.key backend.host backend.port) start with
  | some addrs => simp [Rotator.sourceFault]
  | none =>
      cases hlookup : lookup.result with
      | ok addrs =>
          simp only [hlookup]
          split <;> simp [Rotator.sourceFault]
      | error k =>
          simp only [hlookup]
          split
          case isTrue hle => simp [hle]
          case isFalse hle => simp [hle, Rotator.sourceFault]

def sampleBackend : BackendConfig :=
  ⟨['f', 't', 'p'], 21, ⟨8192, 8200⟩⟩

theorem unbound_attempt_blames_iff_lookup_failed :
    let lookup : Lookup := ⟨5, .error .other⟩
    let r := Rotator.new [⟨10, 0, 0, 1⟩, ⟨10, 0, 0, 2⟩]
    ∀ ip, (r.afterAttempt ⟨10, 0, 0, 1⟩ 5 (connect 10000
      (DnsCache.resolve (fun _ => none) sampleBackend.host sampleBackend.port 0 lookup).1
      (fun _ => ⟨0, .ok ()⟩) (some ⟨10, 0, 0, 1⟩))).unhealthy ip = r.unhealthy ip :=
  ((unbound_attempt_blames_iff (Rotator.new [⟨10, 0, 0, 1⟩, ⟨10, 0, 0, 2⟩]) (fun _ => none)
    sampleBackend ⟨10, 0, 0, 1⟩ 10000 0 5 ⟨5, .error .other⟩ (fun _ => ⟨0, .ok ()⟩) rfl).2).mpr
      (.inl ⟨rfl, by decide, .other, rfl, rfl⟩)

/-- A name that resolves to an IPv6 address only: no socket is opened from
either source, and both are left out for every backend. -/
theorem ipv6_only_backend_blames_every_source :
    let lookup : Lookup := ⟨5, .ok [⟨.v6 1, 21⟩]⟩
    let dial : SocketAddr → Took (Except IoKind Unit) := fun _ => ⟨0, .ok ()⟩
    let r := Rotator.new [⟨10, 0, 0, 1⟩, ⟨10, 0, 0, 2⟩]
    let attempt := connect 10000
      (DnsCache.resolve (fun _ => none) sampleBackend.host sampleBackend.port 0 lookup).1 dial
      (some ⟨10, 0, 0, 1⟩)
    attempt.sockets = [] ∧ r.unhealthy ⟨10, 0, 0, 1⟩ = none ∧
      (r.afterAttempt ⟨10, 0, 0, 1⟩ 5 attempt).unhealthy ⟨10, 0, 0, 1⟩ = some 60005 ∧
      (connectSources sampleBackend 10000 lookup (fun _ => dial)
        (r.candidatesAt (DnsCache.key sampleBackend.host sampleBackend.port) 0) r
        (fun _ => none) 0).2.1.isUnhealthy ⟨10, 0, 0, 1⟩ 1000 = true ∧
      (connectSources sampleBackend 10000 lookup (fun _ => dial)
        (r.candidatesAt (DnsCache.key sampleBackend.host sampleBackend.port) 0) r
        (fun _ => none) 0).2.1.isUnhealthy ⟨10, 0, 0, 2⟩ 1000 = true := by
  decide +kernel

end FtpGateway
