import FtpGateway.Session.Handle

/-!
# Addresses of one host, seen from two listeners

The address a data connection has to come from is the one the control listener
reported for the client. `listen.address` may be an IPv6 address, the PASV
listeners are always bound to `0.0.0.0`. A dual-stack IPv6 listener reports an
IPv4 host as `::ffff:a.b.c.d`, and `accept_client_data` compares that with
`a.b.c.d` as it stands. So with the check on, a host that reaches both listeners
is let in exactly if the control listener is an IPv4 one
(`fits_reportedPeer_iff`).
-/

namespace FtpGateway

/-! ## What a listener reports -/

structure ListenConfig where
  address : IpAddr
  port : UInt16
deriving Repr, DecidableEq

/-- `ListenConfig::default`. -/
def ListenConfig.default : ListenConfig := ⟨.v4 .unspecified, 21⟩

/-- `::ffff:a.b.c.d`. -/
def Ipv4Addr.toIpv6Mapped (ip : Ipv4Addr) : BitVec 128 :=
  0#80 ++ 0xFFFF#16 ++ ip.a.toBitVec ++ ip.b.toBitVec ++ ip.c.toBitVec ++ ip.d.toBitVec

/-- The IPv6 addresses at which IPv4 hosts can connect: the wildcard and the
mapped ones. -/
def isDualStack (ip : BitVec 128) : Bool := ip = 0 || ip >>> 32 = 0xFFFF

/-- The address of an IPv4 host as a listener bound to `bound` reports it; `none`
if the host cannot connect there. -/
def reportedPeer (bound : IpAddr) (host : Ipv4Addr) : Option IpAddr :=
  match bound with
  | .v4 _ => some (.v4 host)
  | .v6 ip => if isDualStack ip then some (.v6 host.toIpv6Mapped) else none

/-- Where `PortManager::allocate` binds its listeners. -/
def pasvBindAddress : IpAddr := .v4 .unspecified

/-- What the listener passes to a session for a client at `peer`. -/
def Config.sessionConfig (config : Config) (peer : SocketAddr) : SessionConfig where
  peerAddr := peer
  passive := config.passive
  timeouts := config.timeouts
  limits := config.limits
  backendTls := config.backendTls.mode = .explicit
  sourceRotator := config.backendSource.mode = .rotate

/-! ## The first connection of a host -/

/-- `a` is the first connection from `host` during the wait, before its deadline
and before any error of `accept`. -/
def FirstFrom (host : Ipv4Addr) (deadline : Nat) (a : Arrival) (polls : List AcceptPoll) : Prop :=
  ∃ pre p post before after, polls = pre ++ p :: post ∧ p.ready = before ++ a :: after
    ∧ (∀ x ∈ arrivals pre ++ before, x.peer.ip ≠ .v4 host)
    ∧ ∀ q ∈ pre, q.failed = none ∧ q.now < deadline

section Waiting

variable {expectedIp : Option IpAddr} {a : Arrival}

theorem acceptReady_first {before after : List Arrival} (hfit : fits expectedIp a = true)
    (hbefore : ∀ x ∈ before, fits expectedIp x = false) :
    acceptReady expectedIp (before ++ a :: after) = (before, some a) := by
  induction before with
  | nil => rw [List.nil_append, acceptReady, if_pos hfit]
  | cons x before ih =>
      rw [List.forall_mem_cons] at hbefore
      rw [List.cons_append, acceptReady, hbefore.1, ih hbefore.2]
      rfl

theorem acceptReady_nobody {ready : List Arrival}
    (h : ∀ x ∈ ready, fits expectedIp x = false) :
    acceptReady expectedIp ready = (ready, none) := by
  induction ready with
  | nil => rfl
  | cons x ready ih =>
      rw [List.forall_mem_cons] at h
      rw [acceptReady, h.1, ih h.2]
      rfl

theorem acceptClientData_first {deadline : Nat} {pre post : List AcceptPoll} {p : AcceptPoll}
    {before after : List Arrival} (hready : p.ready = before ++ a :: after)
    (hfit : fits expectedIp a = true)
    (hothers : ∀ x ∈ arrivals pre ++ before, fits expectedIp x = false)
    (hpre : ∀ q ∈ pre, q.failed = none ∧ q.now < deadline) :
    (acceptClientData expectedIp deadline (pre ++ p :: post)).result = .accepted a := by
  induction pre with
  | nil =>
      simp only [List.nil_append, acceptClientData, hready,
        acceptReady_first hfit fun x hx => hothers x (List.mem_append_right _ hx)]
  | cons q pre ih =>
      rw [List.forall_mem_cons] at hpre
      obtain ⟨⟨hfailed, hnow⟩, hpre⟩ := hpre
      have hq : ∀ x ∈ q.ready, fits expectedIp x = false := fun x hx =>
        hothers x (List.mem_append_left _ (List.mem_flatMap.mpr ⟨q, List.mem_cons_self .., hx⟩))
      have hrest : ∀ x ∈ arrivals pre ++ before, fits expectedIp x = false := by
        intro x hx
        apply hothers
        rw [arrivals, List.flatMap_cons, List.append_assoc]
        exact List.mem_append_right _ hx
      simp only [List.cons_append, acceptClientData, acceptReady_nobody hq, hfailed]
      rw [if_neg (Nat.not_le.mpr hnow)]
      exact ih hrest hpre

end Waiting

/-! ## One host, two listeners -/

theorem fits_reportedPeer_iff {bound : IpAddr} {host : Ipv4Addr} {expected : IpAddr} {a : Arrival}
    (hcontrol : reportedPeer bound host = some expected)
    (hdata : reportedPeer pasvBindAddress host = some a.peer.ip) :
    fits (some expected) a = true ↔ ∃ ip, bound = .v4 ip := by
  have ha : a.peer.ip = .v4 host := (Option.some.inj hdata).symm
  rw [fits, decide_eq_true_eq, ha]
  cases bound with
  | v4 ip =>
      obtain rfl := Option.some.inj hcontrol
      exact ⟨fun _ => ⟨ip, rfl⟩, fun _ => rfl⟩
  | v6 ip =>
      rw [reportedPeer] at hcontrol
      split at hcontrol
      · obtain rfl := Option.some.inj hcontrol
        exact ⟨fun h => (by cases h), fun ⟨_, h⟩ => (by cases h)⟩
      · cases hcontrol

/-- **Which configurations let a client's own data connection in.** With the
check on, the first connection from the host of the control connection is
accepted exactly if the control listener is an IPv4 one. -/
theorem own_data_connection_accepted_iff {config : Config} {listen : ListenConfig}
    {host : Ipv4Addr} {control : SocketAddr} {a : Arrival} {deadline : Nat}
    {polls : List AcceptPoll} (hmatch : config.limits.requireDataIpMatch = true)
    (hcontrol : reportedPeer listen.address host = some control.ip)
    (hdata : reportedPeer pasvBindAddress host = some a.peer.ip)
    (hfirst : FirstFrom host deadline a polls) :
    (acceptClientData (config.sessionConfig control).expectedDataIp deadline polls).result =
        .accepted a ↔ ∃ ip, listen.address = .v4 ip := by
  have hexpected : (config.sessionConfig control).expectedDataIp = some control.ip := by
    rw [SessionConfig.expectedDataIp]
    exact if_pos hmatch
  have hfits := fits_reportedPeer_iff hcontrol hdata
  rw [hexpected]
  constructor
  · intro hresult
    exact hfits.mp (acceptClientData_accepted hresult).1
  · intro hv4
    obtain ⟨pre, p, post, before, after, rfl, hready, hothers, hpre⟩ := hfirst
    refine acceptClientData_first hready (hfits.mpr hv4) (fun x hx => ?_) hpre
    obtain ⟨ip, haddress⟩ := hv4
    rw [haddress] at hcontrol
    rw [fits, ← Option.some.inj hcontrol]
    exact decide_eq_false (hothers x hx)

/-- The configuration with one backend and everything else at its default. -/
def oneBackend : Config :=
  { Config.default with backends := [⟨"10.0.0.1".toList, 21, defaultBackendPassivePorts⟩] }

/-- The host 192.0.2.7 connects to the PASV port. -/
def ownConnection : Arrival := ⟨0, ⟨.v4 ⟨192, 0, 2, 7⟩, 50000⟩⟩

/-- A wait of ten seconds with that connection ready at its start. -/
def ownPolls : List AcceptPoll := [⟨0, [ownConnection], none⟩, ⟨10000000000, [], none⟩]

/-- Listening on `::`, the gateway turns the client's own data connection away
and the wait runs out. -/
theorem ownConnection_refused :
    let control : SocketAddr := ⟨.v6 (Ipv4Addr.toIpv6Mapped ⟨192, 0, 2, 7⟩), 40000⟩
    oneBackend.validate (fun _ => false) = .ok () ∧
      oneBackend.limits.requireDataIpMatch = true ∧
      reportedPeer (.v6 0) ⟨192, 0, 2, 7⟩ = some control.ip ∧
      reportedPeer pasvBindAddress ⟨192, 0, 2, 7⟩ = some ownConnection.peer.ip ∧
      acceptClientData (oneBackend.sessionConfig control).expectedDataIp 10000000000 ownPolls =
        ⟨[ownConnection], .elapsed⟩ := by
  refine ⟨rfl, rfl, rfl, rfl, ?_⟩
  decide +kernel

/-- Listening on `0.0.0.0`, it is accepted. -/
theorem own_data_connection_accepted_iff_default :
    (acceptClientData (oneBackend.sessionConfig ⟨.v4 ⟨192, 0, 2, 7⟩, 40000⟩).expectedDataIp
        10000000000 ownPolls).result = .accepted ownConnection :=
  (@own_data_connection_accepted_iff oneBackend .default ⟨192, 0, 2, 7⟩ _ _ _ _ rfl rfl rfl
    ⟨[], _, _, [], [], rfl, rfl, by simp [arrivals], by simp⟩).mpr ⟨_, rfl⟩

end FtpGateway
