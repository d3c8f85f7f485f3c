import FtpGateway.Str

/-!
# Configuration and addresses

The parts of `config.rs` the modelled code reads, with the check
`Config::validate` makes on them, and the standard library's addresses and
I/O error kinds that the rest of the model passes around.

Ports are `UInt16` as in the source, so the arithmetic on a range is machine
arithmetic; `PortRange.toNat_len` says it is exact on a non-empty range.
-/

namespace FtpGateway

open Str

/-! ## Addresses and errors -/

structure Ipv4Addr where
  a : UInt8
  b : UInt8
  c : UInt8
  d : UInt8
deriving Repr, DecidableEq

namespace Ipv4Addr

def unspecified : Ipv4Addr := ⟨0, 0, 0, 0⟩

def isUnspecified (ip : Ipv4Addr) : Bool := ip = unspecified

end Ipv4Addr

inductive IpAddr where
  | v4 (ip : Ipv4Addr)
  | v6 (ip : BitVec 128)
deriving Repr, DecidableEq

structure SocketAddr where
  ip : IpAddr
  port : UInt16
deriving Repr, DecidableEq

/-- The kinds of `io::Error` the code tells apart; `other` is the rest. -/
inductive IoKind where
  | timedOut
  | invalidData
  | unexpectedEof
  | permissionDenied
  | addrNotAvailable
  | networkUnreachable
  | hostUnreachable
  | other
deriving Repr, DecidableEq

/-! ## Port ranges -/

structure PortRange where
  start : UInt16
  «end» : UInt16
deriving Repr, DecidableEq

namespace PortRange

/-- `PortRange::len`, in the 64-bit arithmetic of `usize`. -/
def len (r : PortRange) : UInt64 := r.end.toUInt64 - r.start.toUInt64 + 1

def isEmpty (r : PortRange) : Bool := r.end < r.start

/-- `start..=end` as `contains` sees it. -/
def contains (r : PortRange) (p : UInt16) : Bool := r.start ≤ p && p ≤ r.end

theorem toNat_len {r : PortRange} (h : r.start ≤ r.end) :
    r.len.toNat = r.end.toNat - r.start.toNat + 1 := by
  have hle : r.start.toNat ≤ r.end.toNat := UInt16.le_iff_toNat_le.mp h
  have hs := r.start.toNat_lt
  have he := r.end.toNat_lt
  have hle64 : r.start.toUInt64 ≤ r.end.toUInt64 := by
    rw [UInt64.le_iff_toNat_le]; simpa using hle
  rw [len, UInt64.toNat_add, UInt64.toNat_sub_of_le _ _ hle64]
  simp only [UInt16.toNat_toUInt64, UInt64.reduceToNat]
  omega

end PortRange

/-! ## The configuration -/

inductive BackendPassiveMode where
  | epsv
  | pasv
deriving Repr, DecidableEq

inductive BackendTlsMode where
  | off
  | explicit
deriving Repr, DecidableEq

inductive BackendSourceMode where
  | off
  | rotate
deriving Repr, DecidableEq

structure BackendConfig where
  host : Text
  port : UInt16
  passivePorts : PortRange
deriving Repr, DecidableEq

structure PassiveConfig where
  address : Ipv4Addr
  portRange : PortRange
deriving Repr, DecidableEq

structure BackendTlsConfig where
  mode : BackendTlsMode
  caFile : Option Text
  serverName : Option Text
deriving Repr, DecidableEq

structure BackendSourceConfig where
  mode : BackendSourceMode
  includeInterfaces : List Text
  excludeInterfaces : List Text
  refreshSecs : UInt64
deriving Repr, DecidableEq

structure TimeoutConfig where
  connectionTimeoutSecs : UInt64
  idleTimeoutSecs : UInt64
  commandTimeoutSecs : UInt64
  dataIdleTimeoutSecs : UInt64
deriving Repr, DecidableEq

structure LimitsConfig where
  maxCommandLineBytes : Nat
  requireDataIpMatch : Bool
  backendPasvFallbackToControlIp : Bool
  backendPassiveMode : BackendPassiveMode
deriving Repr, DecidableEq

structure Config where
  passive : PassiveConfig
  backends : List BackendConfig
  backendTls : BackendTlsConfig
  backendSource : BackendSourceConfig
  timeouts : TimeoutConfig
  limits : LimitsConfig
deriving Repr, DecidableEq

/-- `DEFAULT_BACKEND_PASSIVE_PORTS`. -/
def defaultBackendPassivePorts : PortRange := ⟨8192, 8200⟩

/-- `Config::default`, which names no backend. -/
def Config.default : Config where
  passive := ⟨.unspecified, ⟨10000, 20000⟩⟩
  backends := []
  backendTls := ⟨.off, none, none⟩
  backendSource := ⟨.off, [], [], 30⟩
  timeouts := ⟨10, 300, 30, 60⟩
  limits := ⟨4096, true, true, .epsv⟩

/-- `Config::validate`. `isFile` stands for `Path::is_file`. -/
def Config.validate (isFile : Text → Bool) (c : Config) : Except Text Unit := do
  if c.backends.isEmpty then
    throw ("at least one backend must be configured (via config file's `backends` " ++
      "or GATEWAY_BACKENDS env var)").toList
  if c.passive.portRange.start ≥ c.passive.portRange.end then
    throw "passive.port_range.start must be less than passive.port_range.end".toList
  if c.backendTls.mode = .explicit then
    if let some caFile := c.backendTls.caFile then
      if !isFile caFile then
        throw ("backend_tls.ca_file '".toList ++ caFile ++
          "' does not exist or is not a file".toList)
    if c.backendTls.serverName = some [] then
      throw "backend_tls.server_name must not be empty".toList
  if c.backendSource.mode = .rotate then
    if c.backendSource.refreshSecs = 0 then
      throw "backend_source.refresh_secs must be greater than 0".toList
    let names := c.backendSource.includeInterfaces ++ c.backendSource.excludeInterfaces
    if names.any fun name => (trim name).isEmpty then
      throw "backend_source interface names must not be empty".toList

/-- An accepted configuration has at least two PASV ports. -/
theorem Config.validate_portRange {isFile : Text → Bool} {c : Config}
    (h : c.validate isFile = .ok ()) :
    c.passive.portRange.start < c.passive.portRange.end := by
  by_contra hlt
  have hge : c.passive.portRange.start ≥ c.passive.portRange.end := by
    simpa using hlt
  unfold validate at h
  cases hb : c.backends.isEmpty with
  | true => simp [hb, throw, throwThe, MonadExceptOf.throw, bind, Except.bind] at h
  | false => simp [hb, hge, throw, throwThe, MonadExceptOf.throw, bind, Except.bind] at h

end FtpGateway
