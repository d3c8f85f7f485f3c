import FtpGateway.Addresses
import FtpGateway.Backends
import FtpGateway.Layers
import FtpGateway.Ports
import FtpGateway.Selector
import FtpGateway.Session.PeerFamily

/-!
# Loading the configuration

`Config::load`: the defaults, the YAML file over them, the environment over both,
then `validate`. The configuration has 25 settings, and each can be given in the file
and by a variable of its own; a `Setting` names one, with the type of its values, how
its variable is read and what its line of the file is taken for.

What is loaded is, setting by setting, what the environment says, or else the file,
or else the default; the first variable that cannot be read, in the order of the code,
is the one reported (`load_layers`). Whatever is accepted is well formed, whichever
layer its parts come from (`loaded_config_well_formed`).

`serde_yaml` is a parameter: what a document says, setting by setting.
-/

namespace FtpGateway

open Str

/-! ## The settings -/

inductive BackendTlsMaxVersion where
  | v1_2
  | v1_3
deriving Repr, DecidableEq

structure MetricsConfig where
  address : IpAddr
  port : Option UInt16
deriving Repr, DecidableEq

/-- `Config` with the settings only `main` reads. -/
structure FullConfig extends Config where
  listen : ListenConfig
  maxVersion : BackendTlsMaxVersion
  maxConnectionsPerIp : UInt64
  metrics : MetricsConfig
deriving Repr, DecidableEq

def FullConfig.default : FullConfig where
  toConfig := Config.default
  listen := .default
  maxVersion := .v1_3
  maxConnectionsPerIp := 10
  metrics := ⟨.v4 ⟨127, 0, 0, 1⟩, none⟩

/-- In the order `apply_env_overrides` looks at them. -/
inductive Setting where
  | listenAddress
  | listenPort
  | passiveAddress
  | passivePortRangeStart
  | passivePortRangeEnd
  | backends
  | backendTls
  | backendTlsCaFile
  | backendTlsServerName
  | backendTlsMaxVersion
  | backendSource
  | backendSourceInclude
  | backendSourceExclude
  | backendSourceRefreshSecs
  | connectionTimeoutSecs
  | idleTimeoutSecs
  | commandTimeoutSecs
  | dataIdleTimeoutSecs
  | maxCommandLineBytes
  | maxConnectionsPerIp
  | requireDataIpMatch
  | backendPasvFallbackToControlIp
  | backendPassiveMode
  | metricsAddress
  | metricsPort
deriving Repr, DecidableEq

namespace Setting

def inOrder : List Setting :=
  [.listenAddress, .listenPort, .passiveAddress, .passivePortRangeStart, .passivePortRangeEnd,
    .backends, .backendTls, .backendTlsCaFile, .backendTlsServerName, .backendTlsMaxVersion,
    .backendSource, .backendSourceInclude, .backendSourceExclude, .backendSourceRefreshSecs,
    .connectionTimeoutSecs, .idleTimeoutSecs, .commandTimeoutSecs, .dataIdleTimeoutSecs,
    .maxCommandLineBytes, .maxConnectionsPerIp, .requireDataIpMatch,
    .backendPasvFallbackToControlIp, .backendPassiveMode, .metricsAddress, .metricsPort]

theorem mem_inOrder (f : Setting) : f ∈ inOrder := by
  cases f <;> decide

@[reducible] def Val : Setting → Type
  | .listenAddress => IpAddr
  | .listenPort => UInt16
  | .passiveAddress => Ipv4Addr
  | .passivePortRangeStart => UInt16
  | .passivePortRangeEnd => UInt16
  | .backends => List BackendConfig
  | .backendTls => BackendTlsMode
  | .backendTlsCaFile => Option Text
  | .backendTlsServerName => Option Text
  | .backendTlsMaxVersion => BackendTlsMaxVersion
  | .backendSource => BackendSourceMode
  | .backendSourceInclude => List Text
  | .backendSourceExclude => List Text
  | .backendSourceRefreshSecs => UInt64
  | .connectionTimeoutSecs => UInt64
  | .idleTimeoutSecs => UInt64
  | .commandTimeoutSecs => UInt64
  | .dataIdleTimeoutSecs => UInt64
  | .maxCommandLineBytes => Nat
  | .maxConnectionsPerIp => UInt64
  | .requireDataIpMatch => Bool
  | .backendPasvFallbackToControlIp => Bool
  | .backendPassiveMode => BackendPassiveMode
  | .metricsAddress => IpAddr
  | .metricsPort => Option UInt16

def get : (f : Setting) → FullConfig → f.Val
  | .listenAddress, c => c.listen.address
  | .listenPort, c => c.listen.port
  | .passiveAddress, c => c.passive.address
  | .passivePortRangeStart, c => c.passive.portRange.start
  | .passivePortRangeEnd, c => c.passive.portRange.end
  | .backends, c => c.backends
  | .backendTls, c => c.backendTls.mode
  | .backendTlsCaFile, c => c.backendTls.caFile
  | .backendTlsServerName, c => c.backendTls.serverName
  | .backendTlsMaxVersion, c => c.maxVersion
  | .backendSource, c => c.backendSource.mode
  | .backendSourceInclude, c => c.backendSource.includeInterfaces
  | .backendSourceExclude, c => c.backendSource.excludeInterfaces
  | .backendSourceRefreshSecs, c => c.backendSource.refreshSecs
  | .connectionTimeoutSecs, c => c.timeouts.connectionTimeoutSecs
  | .idleTimeoutSecs, c => c.timeouts.idleTimeoutSecs
  | .commandTimeoutSecs, c => c.timeouts.commandTimeoutSecs
  | .dataIdleTimeoutSecs, c => c.timeouts.dataIdleTimeoutSecs
  | .maxCommandLineBytes, c => c.limits.maxCommandLineBytes
  | .maxConnectionsPerIp, c => c.maxConnectionsPerIp
  | .requireDataIpMatch, c => c.limits.requireDataIpMatch
  | .backendPasvFallbackToControlIp, c => c.limits.backendPasvFallbackToControlIp
  | .backendPassiveMode, c => c.limits.backendPassiveMode
  | .metricsAddress, c => c.metrics.address
  | .metricsPort, c => c.metrics.port

/-- The configuration with given values. -/
def build (v : (f : Setting) → f.Val) : FullConfig where
  passive := ⟨v .passiveAddress, v .passivePortRangeStart, v .passivePortRangeEnd⟩
  backends := v .backends
  backendTls := ⟨v .backendTls, v .backendTlsCaFile, v .backendTlsServerName⟩
  backendSource := ⟨v .backendSource, v .backendSourceInclude, v .backendSourceExclude,
    v .backendSourceRefreshSecs⟩
  timeouts := ⟨v .connectionTimeoutSecs, v .idleTimeoutSecs, v .commandTimeoutSecs,
    v .dataIdleTimeoutSecs⟩
  limits := ⟨v .maxCommandLineBytes, v .requireDataIpMatch, v .backendPasvFallbackToControlIp,
    v .backendPassiveMode⟩
  listen := ⟨v .listenAddress, v .listenPort⟩
  maxVersion := v .backendTlsMaxVersion
  maxConnectionsPerIp := v .maxConnectionsPerIp
  metrics := ⟨v .metricsAddress, v .metricsPort⟩

theorem build_get (c : FullConfig) : build (fun f => f.get c) = c := rfl

theorem get_build (v : (f : Setting) → f.Val) (f : Setting) : f.get (build v) = v f := by
  cases f <;> rfl

/-- One setting replaced, the others as they were. -/
def put (f : Setting) (v : f.Val) (c : FullConfig) : FullConfig :=
  build (Function.update (fun g => g.get c) f v)

end Setting

/-- The configuration, setting by setting. -/
def settings : Layers.Record Setting Setting.Val FullConfig where
  get := Setting.get
  put := Setting.put
  get_put f v c := by rw [Setting.put, Setting.get_build, Function.update_self]
  get_put_ne v c h := by rw [Setting.put, Setting.get_build, Function.update_of_ne h]
  ext {c c'} h := by
    have hget : (fun f => Setting.get f c) = fun f => Setting.get f c' := funext h
    rw [← Setting.build_get c, hget, Setting.build_get]

/-! ## What a variable is read as -/

/-- What `std::env::var` finds, if anything. -/
inductive VarValue where
  | unicode (v : Text)
  | notUnicode
deriving Repr, DecidableEq

def envVar (env : Text → Option VarValue) (key : Text) : Except (List Text) (Option Text) :=
  match env key with
  | some (.unicode v) => .ok (some v)
  | none => .ok none
  | some .notUnicode => .error [key ++ " is not valid unicode".toList]

def toAsciiLowercase (t : Text) : Text := t.map Char.toLower

/-- `FromStr` of the unsigned integers below `bound`. -/
def parseUnsigned (bound : Nat) (t : Text) : Option Nat :=
  let digits := match t with
    | '+' :: ds => ds
    | ds => ds
  if digits ≠ [] ∧ digits.all Char.isDigit ∧ decimalValue digits < bound then
    some (decimalValue digits)
  else none

def parseU64 (t : Text) : Option UInt64 := (parseUnsigned (2 ^ 64) t).map UInt64.ofNat

/-- One of the words of a mode, or the complaint about it. -/
def parseMode {α : Type} (kind : Text) (first second : Text × α) (raw : Text) :
    Except (List Text) α :=
  if raw = first.1 then .ok first.2
  else if raw = second.1 then .ok second.2
  else .error ["invalid ".toList ++ kind ++ " '".toList ++ raw ++ "', expected '".toList ++
    first.1 ++ "' or '".toList ++ second.1 ++ "'".toList]

def BackendSourceMode.parse (raw : Text) : Except (List Text) BackendSourceMode :=
  parseMode "backend source mode".toList ("off".toList, .off) ("rotate".toList, .rotate)
    (toAsciiLowercase raw)

def BackendPassiveMode.parse (raw : Text) : Except (List Text) BackendPassiveMode :=
  parseMode "backend passive mode".toList ("epsv".toList, .epsv) ("pasv".toList, .pasv)
    (toAsciiLowercase raw)

def BackendTlsMode.parse (raw : Text) : Except (List Text) BackendTlsMode :=
  parseMode "backend TLS mode".toList ("off".toList, .off) ("explicit".toList, .explicit)
    (toAsciiLowercase raw)

def BackendTlsMaxVersion.parse (raw : Text) : Except (List Text) BackendTlsMaxVersion :=
  parseMode "backend TLS max version".toList ("1.2".toList, .v1_2) ("1.3".toList, .v1_3) raw

def parseBool (raw : Text) : Except (List Text) Bool :=
  let word := toAsciiLowercase (trim raw)
  if word = "true".toList ∨ word = "1".toList then .ok true
  else if word = "false".toList ∨ word = "0".toList then .ok false
  else .error ["'".toList ++ word ++ "' is not a boolean (expected true/false or 1/0)".toList]

def parseNameList (raw : Text) : List Text :=
  ((raw.splitOn ',').map trim).filter fun name => !name.isEmpty

namespace Setting

def key : Setting → Text
  | .listenAddress => "GATEWAY_LISTEN_ADDRESS".toList
  | .listenPort => "GATEWAY_LISTEN_PORT".toList
  | .passiveAddress => "GATEWAY_PASSIVE_ADDRESS".toList
  | .passivePortRangeStart => "GATEWAY_PASSIVE_PORT_RANGE_START".toList
  | .passivePortRangeEnd => "GATEWAY_PASSIVE_PORT_RANGE_END".toList
  | .backends => "GATEWAY_BACKENDS".toList
  | .backendTls => "GATEWAY_BACKEND_TLS".toList
  | .backendTlsCaFile => "GATEWAY_BACKEND_TLS_CA_FILE".toList
  | .backendTlsServerName => "GATEWAY_BACKEND_TLS_SERVER_NAME".toList
  | .backendTlsMaxVersion => "GATEWAY_BACKEND_TLS_MAX_VERSION".toList
  | .backendSource => "GATEWAY_BACKEND_SOURCE".toList
  | .backendSourceInclude => "GATEWAY_BACKEND_SOURCE_INCLUDE".toList
  | .backendSourceExclude => "GATEWAY_BACKEND_SOURCE_EXCLUDE".toList
  | .backendSourceRefreshSecs => "GATEWAY_BACKEND_SOURCE_REFRESH_SECS".toList
  | .connectionTimeoutSecs => "GATEWAY_CONNECTION_TIMEOUT_SECS".toList
  | .idleTimeoutSecs => "GATEWAY_IDLE_TIMEOUT_SECS".toList
  | .commandTimeoutSecs => "GATEWAY_COMMAND_TIMEOUT_SECS".toList
  | .dataIdleTimeoutSecs => "GATEWAY_DATA_IDLE_TIMEOUT_SECS".toList
  | .maxCommandLineBytes => "GATEWAY_MAX_COMMAND_LINE_BYTES".toList
  | .maxConnectionsPerIp => "GATEWAY_MAX_CONNECTIONS_PER_IP".toList
  | .requireDataIpMatch => "GATEWAY_REQUIRE_DATA_IP_MATCH".toList
  | .backendPasvFallbackToControlIp => "GATEWAY_BACKEND_PASV_FALLBACK_TO_CONTROL_IP".toList
  | .backendPassiveMode => "GATEWAY_BACKEND_PASSIVE_MODE".toList
  | .metricsAddress => "GATEWAY_METRICS_ADDRESS".toList
  | .metricsPort => "GATEWAY_METRICS_PORT".toList

/-- `.context("invalid GATEWAY_...")`. -/
def invalid (f : Setting) : Text := "invalid ".toList ++ f.key

/-- What the variable of the setting is taken for. -/
def read : (f : Setting) → Text → Except (List Text) f.Val
  | .listenAddress, v => orContext listenAddress.invalid (parseIpAddr v)
  | .listenPort, v => orContext listenPort.invalid (parseU16 v)
  | .passiveAddress, v => orContext passiveAddress.invalid (parseIpv4Addr v)
  | .passivePortRangeStart, v => orContext passivePortRangeStart.invalid (parseU16 v)
  | .passivePortRangeEnd, v => orContext passivePortRangeEnd.invalid (parseU16 v)
  | .backends, v => parseBackends v
  | .backendTls, v => BackendTlsMode.parse v
  | .backendTlsCaFile, v => .ok (some v)
  | .backendTlsServerName, v => .ok (some v)
  | .backendTlsMaxVersion, v => BackendTlsMaxVersion.parse v
  | .backendSource, v => BackendSourceMode.parse v
  | .backendSourceInclude, v => .ok (parseNameList v)
  | .backendSourceExclude, v => .ok (parseNameList v)
  | .backendSourceRefreshSecs, v => orContext backendSourceRefreshSecs.invalid (parseU64 v)
  | .connectionTimeoutSecs, v => orContext connectionTimeoutSecs.invalid (parseU64 v)
  | .idleTimeoutSecs, v => orContext idleTimeoutSecs.invalid (parseU64 v)
  | .commandTimeoutSecs, v => orContext commandTimeoutSecs.invalid (parseU64 v)
  | .dataIdleTimeoutSecs, v => orContext dataIdleTimeoutSecs.invalid (parseU64 v)
  | .maxCommandLineBytes, v => orContext maxCommandLineBytes.invalid (parseUnsigned (2 ^ 64) v)
  | .maxConnectionsPerIp, v => orContext maxConnectionsPerIp.invalid (parseU64 v)
  | .requireDataIpMatch, v => withContext requireDataIpMatch.invalid (parseBool v)
  | .backendPasvFallbackToControlIp, v =>
      withContext backendPasvFallbackToControlIp.invalid (parseBool v)
  | .backendPassiveMode, v => BackendPassiveMode.parse v
  | .metricsAddress, v => orContext metricsAddress.invalid (parseIpAddr v)
  | .metricsPort, v => (orContext metricsPort.invalid (parseU16 v)).map some

/-- What the environment says about the setting. -/
def fromEnv (env : Text → Option VarValue) (f : Setting) : Except (List Text) (Option f.Val) := do
  match ← envVar env f.key with
  | some v => return some (← f.read v)
  | none => return none

end Setting

def FullConfig.applyEnvOverrides (env : Text → Option VarValue) (c : FullConfig) :
    Except (List Text) FullConfig :=
  Layers.overlay settings (Setting.fromEnv env) Setting.inOrder c

/-! ## What a file says -/

/-- The forms of `passive_ports`. -/
inductive PortRangeForm where
  | text (raw : Text)
  | map (start «end» : UInt16)
deriving Repr, DecidableEq

def PortRangeForm.range : PortRangeForm → Except (List Text) PortRange
  | .text raw => PortRange.parseFirstLast raw
  | .map start «end» => .ok ⟨start, «end»⟩

def deserializePortRange (form : PortRangeForm) : Except (List Text) PortRange := do
  let range ← form.range
  if range.isEmpty then throw ["passive_ports: first port is greater than last port".toList]
  return range

structure FileBackend where
  host : Text
  port : UInt16
  passivePorts : Option PortRangeForm
deriving Repr, DecidableEq

def FileBackend.deserialize (b : FileBackend) : Except (List Text) BackendConfig := do
  let passivePorts ← b.passivePorts.elim (.ok defaultBackendPassivePorts) deserializePortRange
  return ⟨b.host, b.port, passivePorts⟩

namespace Setting

/-- The value of a setting as a document has it. -/
@[reducible] def FileVal : Setting → Type
  | .backends => List FileBackend
  | f => f.Val

def deserialize : (f : Setting) → f.FileVal → Except (List Text) f.Val
  | .backends, l => l.mapM FileBackend.deserialize
  | .listenAddress, v => .ok v
  | .listenPort, v => .ok v
  | .passiveAddress, v => .ok v
  | .passivePortRangeStart, v => .ok v
  | .passivePortRangeEnd, v => .ok v
  | .backendTls, v => .ok v
  | .backendTlsCaFile, v => .ok v
  | .backendTlsServerName, v => .ok v
  | .backendTlsMaxVersion, v => .ok v
  | .backendSource, v => .ok v
  | .backendSourceInclude, v => .ok v
  | .backendSourceExclude, v => .ok v
  | .backendSourceRefreshSecs, v => .ok v
  | .connectionTimeoutSecs, v => .ok v
  | .idleTimeoutSecs, v => .ok v
  | .commandTimeoutSecs, v => .ok v
  | .dataIdleTimeoutSecs, v => .ok v
  | .maxCommandLineBytes, v => .ok v
  | .maxConnectionsPerIp, v => .ok v
  | .requireDataIpMatch, v => .ok v
  | .backendPasvFallbackToControlIp, v => .ok v
  | .backendPassiveMode, v => .ok v
  | .metricsAddress, v => .ok v
  | .metricsPort, v => .ok v

end Setting

/-- A parsed document: the settings it gives. -/
abbrev Document := (f : Setting) → Option f.FileVal

/-- What a document says about the setting. -/
def Document.value (doc : Document) (f : Setting) : Except (List Text) (Option f.Val) :=
  match doc f with
  | some v => (f.deserialize v).map some
  | none => .ok none

/-- The derived `Deserialize`: what is missing has its default. -/
def Document.toConfig (doc : Document) : Except (List Text) FullConfig :=
  Layers.overlay settings doc.value Setting.inOrder .default

/-! ## `Config::load` -/

/-- What `load` reads, and the YAML parser it uses. -/
structure Host where
  env : Text → Option VarValue
  readToString : Text → Option Text
  isFile : Text → Bool
  serdeYaml : Text → Except (List Text) Document

namespace Host

def readConfig (host : Host) : Option Text → Except (List Text) FullConfig
  | some path => do
      let content ← orContext ("failed to read config file: ".toList ++ path)
        (host.readToString path)
      withContext ("failed to parse config file: ".toList ++ path)
        (host.serdeYaml content >>= Document.toConfig)
  | none => .ok .default

def load (host : Host) (configPath : Option Text) : Except (List Text) FullConfig := do
  let config ← host.readConfig configPath
  let config ← config.applyEnvOverrides host.env
  match config.validate host.isFile with
  | .ok () => return config
  | .error message => throw [message]

/-! ## What is loaded -/

/-- What the file gives, if there is one. -/
def FileSays (host : Host) : Option Text → ((f : Setting) → Option f.Val) → Prop
  | none, file => ∀ f, file f = none
  | some path, file => ∃ content doc, host.readToString path = some content ∧
      host.serdeYaml content = .ok doc ∧ ∀ f, doc.value f = .ok (file f)

/-- What the environment gives. -/
def EnvSays (host : Host) (env : (f : Setting) → Option f.Val) : Prop :=
  ∀ f : Setting, f.fromEnv host.env = .ok (env f)

/-- The environment over the file over the defaults. -/
def Layered (host : Host) (path : Option Text) (c : FullConfig) : Prop :=
  ∃ file env, host.FileSays path file ∧ host.EnvSays env ∧
    ∀ f, f.get c = ((env f).or (file f)).getD (f.get .default)

theorem withContext_eq_ok {α : Type} {message : Text} {r : Except (List Text) α} {a : α} :
    withContext message r = .ok a ↔ r = .ok a := by
  cases r with
  | ok b => exact Iff.rfl
  | error messages => exact ⟨fun h => (by cases h), fun h => (by cases h)⟩

theorem orContext_eq_ok {α : Type} {message : Text} {o : Option α} {a : α} :
    orContext message o = .ok a ↔ o = some a := by
  cases o with
  | none => exact ⟨fun h => (by cases h), fun h => (by cases h)⟩
  | some b =>
      rw [orContext, Except.ok.injEq, Option.some.injEq]

section

variable {host : Host} {path : Option Text} {c : FullConfig}

theorem readConfig_eq_ok :
    host.readConfig path = .ok c ↔ ∃ file, host.FileSays path file ∧
      ∀ f, f.get c = (file f).getD (f.get .default) := by
  cases path with
  | none =>
      constructor
      · intro h
        obtain rfl := Except.ok.inj h
        exact ⟨fun _ => none, fun _ => rfl, fun _ => rfl⟩
      · rintro ⟨file, hfile, hget⟩
        refine congrArg Except.ok (settings.ext fun f => ?_)
        rw [show settings.get f c = _ from hget f, hfile f]
        rfl
  | some path =>
      simp only [readConfig, bind_eq_ok, orContext_eq_ok, withContext_eq_ok, Document.toConfig,
        Layers.overlay_eq_ok Setting.mem_inOrder]
      constructor
      · rintro ⟨content, hcontent, doc, hdoc, file, hfile, hget⟩
        exact ⟨file, ⟨content, doc, hcontent, hdoc, hfile⟩, hget⟩
      · rintro ⟨file, ⟨content, doc, hcontent, hdoc, hfile⟩, hget⟩
        exact ⟨content, hcontent, doc, hdoc, file, hfile, hget⟩

/-- The file and the environment over the defaults, before `validate`. -/
theorem layered_iff : host.Layered path c ↔
    ∃ base, host.readConfig path = .ok base ∧ base.applyEnvOverrides host.env = .ok c := by
  simp only [readConfig_eq_ok, FullConfig.applyEnvOverrides,
    Layers.overlay_eq_ok Setting.mem_inOrder]
  constructor
  · rintro ⟨file, env, hfile, henv, hget⟩
    refine ⟨Setting.build fun f => (file f).getD (f.get .default), ⟨file, hfile, ?_⟩, env, henv, ?_⟩
    · exact fun f => Setting.get_build _ f
    · intro f
      rw [show settings.get f c = _ from hget f,
        show settings.get f _ = _ from Setting.get_build _ f]
      cases env f <;> rfl
  · rintro ⟨base, ⟨file, hfile, hbase⟩, env, henv, hget⟩
    refine ⟨file, env, hfile, henv, fun f => ?_⟩
    rw [show f.get c = _ from hget f, show settings.get f base = _ from hbase f]
    cases env f <;> rfl

theorem load_eq_ok :
    host.load path = .ok c ↔ host.Layered path c ∧ c.validate host.isFile = .ok () := by
  rw [layered_iff]
  simp only [load, bind_eq_ok]
  constructor
  · rintro ⟨base, hbase, d, hd, hvalid⟩
    split at hvalid
    case h_1 hok =>
      obtain rfl := Except.ok.inj hvalid
      exact ⟨⟨base, hbase, hd⟩, hok⟩
    case h_2 => cases hvalid
  · rintro ⟨⟨base, hbase, hd⟩, hok⟩
    refine ⟨base, hbase, c, hd, ?_⟩
    rw [hok]
    rfl

theorem load_eq_error {e : List Text} : host.load path = .error e ↔
    host.readConfig path = .error e ∨
    ((∃ base, host.readConfig path = .ok base) ∧ ∃ before f after,
      Setting.inOrder = before ++ f :: after ∧
      (∀ g ∈ before, ∃ found, g.fromEnv host.env = .ok found) ∧ f.fromEnv host.env = .error e) ∨
    ∃ c message, host.Layered path c ∧ c.validate host.isFile = .error message ∧ e = [message] := by
  simp only [layered_iff]
  unfold load
  cases hbase : host.readConfig path with
  | error e' =>
      constructor
      · exact Or.inl
      · rintro (h | ⟨⟨base, h⟩, -⟩ | ⟨c, message, ⟨base, h, -⟩, -⟩)
        · exact h
        · cases h
        · cases h
  | ok base =>
      have hread : ∀ {base'}, Except.ok base = (Except.ok base' : Except (List Text) _) →
          base' = base := fun h => (Except.ok.inj h).symm
      cases henv : base.applyEnvOverrides host.env with
      | error e' =>
          have hbad := Layers.overlay_eq_error.mp henv
          constructor
          · intro h
            obtain rfl : e' = e := by simpa [bind, Except.bind, henv] using h
            exact Or.inr (Or.inl ⟨⟨base, rfl⟩, hbad⟩)
          · rintro (h | ⟨-, hbad'⟩ | ⟨c, message, ⟨base', h, hc⟩, -⟩)
            · cases h
            · obtain rfl := Except.error.inj (henv.symm.trans (Layers.overlay_eq_error.mpr hbad'))
              simp [bind, Except.bind, henv]
            · obtain rfl := hread h
              cases henv.symm.trans hc
      | ok c =>
          constructor
          · intro h
            simp only [bind, Except.bind, henv] at h
            split at h
            case h_1 => cases h
            case h_2 message hvalid =>
              exact Or.inr (Or.inr ⟨c, message, ⟨base, rfl, henv⟩, hvalid,
                (Except.error.inj h).symm⟩)
          · rintro (h | ⟨-, hbad⟩ | ⟨d, message, ⟨base', h, hd⟩, hvalid, rfl⟩)
            · cases h
            · cases henv.symm.trans (Layers.overlay_eq_error.mpr hbad)
            · obtain rfl := hread h
              obtain rfl := Except.ok.inj (henv.symm.trans hd)
              simp only [bind, Except.bind, henv, hvalid]
              rfl

end

end Host

/-! ## One variable, one setting -/

theorem Setting.key_injective : Function.Injective Setting.key := by
  have hnodup : (Setting.inOrder.map Setting.key).Nodup := by decide +kernel
  intro f g h
  exact List.inj_on_of_nodup_map hnodup f.mem_inOrder g.mem_inOrder h

namespace Host

/-- The host with another value of a variable, or without it. -/
def setVar (host : Host) (key : Text) (x : Option VarValue) : Host :=
  { host with env := Function.update host.env key x }

variable {host : Host} {path : Option Text}

theorem fromEnv_setVar {f g : Setting} (h : g ≠ f) (x : Option VarValue) :
    g.fromEnv (host.setVar f.key x).env = g.fromEnv host.env := by
  have hkey : g.key ≠ f.key := fun heq => h (Setting.key_injective heq)
  have hvar : (host.setVar f.key x).env g.key = host.env g.key := Function.update_of_ne hkey ..
  unfold Setting.fromEnv envVar
  rw [hvar]

theorem FileSays.unique {file file' : (f : Setting) → Option f.Val} (h : host.FileSays path file)
    (h' : host.FileSays path file') (f : Setting) : file f = file' f := by
  cases path with
  | none => rw [h f, h' f]
  | some path =>
      obtain ⟨content, doc, hcontent, hdoc, hfile⟩ := h
      obtain ⟨content', doc', hcontent', hdoc', hfile'⟩ := h'
      obtain rfl := Option.some.inj (hcontent.symm.trans hcontent')
      obtain rfl := Except.ok.inj (hdoc.symm.trans hdoc')
      exact Except.ok.inj ((hfile f).symm.trans (hfile' f))

theorem Layered.setVar {f g : Setting} (hg : g ≠ f) {x : Option VarValue} {c c' : FullConfig}
    (h : host.Layered path c) (h' : (host.setVar f.key x).Layered path c') :
    g.get c' = g.get c := by
  obtain ⟨file, env, hfile, henv, hget⟩ := h
  obtain ⟨file', env', hfile', henv', hget'⟩ := h'
  have hfile' : host.FileSays path file' := hfile'
  have hsame : env' g = env g := by
    refine Except.ok.inj ((henv' g).symm.trans ?_)
    rw [fromEnv_setVar hg]
    exact henv g
  rw [hget g, hget' g, hsame, hfile'.unique hfile g]

/-- **What `load` makes of its three layers.** It returns `c` exactly if `c` is, setting by
setting, what the environment says, or else the file, or else the default, and `c` passes
`validate`. It fails exactly if the file cannot be read, or else with the complaint about
the first variable that cannot be read, or else with `validate`'s complaint about the layered
configuration. And a variable has a say in its own setting only. -/
theorem load_layers (host : Host) (path : Option Text) :
    (∀ c, host.load path = .ok c ↔
      host.Layered path c ∧ c.validate host.isFile = .ok ()) ∧
    (∀ e, host.load path = .error e ↔ host.readConfig path = .error e ∨
      ((∃ base, host.readConfig path = .ok base) ∧ ∃ before f after,
        Setting.inOrder = before ++ f :: after ∧
        (∀ g ∈ before, ∃ found, g.fromEnv host.env = .ok found) ∧ f.fromEnv host.env = .error e) ∨
      ∃ c message, host.Layered path c ∧ c.validate host.isFile = .error message ∧
        e = [message]) ∧
    ∀ (f : Setting) (x : Option VarValue) (c c' : FullConfig), host.load path = .ok c →
      (host.setVar f.key x).load path = .ok c' → ∀ g, g ≠ f → g.get c' = g.get c := by
  refine ⟨fun c => load_eq_ok, fun e => load_eq_error, fun f x c c' hc hc' g hg => ?_⟩
  exact (load_eq_ok.mp hc).1.setVar hg (load_eq_ok.mp hc').1

end Host

/-! ## What is accepted is well formed -/

/-- What follows a check runs if the check passes. -/
theorem check_eq_ok {ε β : Type} {p : Prop} [Decidable p] {message : ε} {rest : PUnit → Except ε β}
    {b : β} : (if p then (throw message : Except ε PUnit) >>= rest else rest ⟨⟩) = .ok b ↔
      ¬p ∧ rest ⟨⟩ = .ok b := by
  split
  · rename_i hp
    exact ⟨nofun, fun h => absurd hp h.1⟩
  · rename_i hp
    exact ⟨fun h => ⟨hp, h⟩, fun h => h.2⟩

/-- With rotation the refresher has a period, and every name is one. -/
theorem Config.validate_rotate {isFile : Text → Bool} {c : Config}
    (h : c.validate isFile = .ok ()) (hmode : c.backendSource.mode = .rotate) :
    c.backendSource.refreshSecs ≠ 0 ∧
      ∀ name ∈ c.backendSource.includeInterfaces ++ c.backendSource.excludeInterfaces,
        trim name ≠ [] := by
  have hnames : ∀ names : List Text, (if (names.any fun name => (trim name).isEmpty) = true then
      throw "backend_source interface names must not be empty".toList
      else pure () : Except Text Unit) = .ok () → ∀ name ∈ names, trim name ≠ [] := by
    intro names hok name hmem hempty
    have hany : (names.any fun name => (trim name).isEmpty) = true := by
      refine List.any_eq_true.mpr ⟨name, hmem, ?_⟩
      rw [hempty]
      rfl
    rw [if_pos hany] at hok
    cases hok
  unfold Config.validate at h
  simp only [check_eq_ok, hmode, if_true] at h
  obtain ⟨-, -, h⟩ := h
  split at h
  · split at h
    · simp only [check_eq_ok] at h
      exact ⟨h.2.2.1, hnames _ h.2.2.2⟩
    · simp only [check_eq_ok] at h
      exact ⟨h.2.1, hnames _ h.2.2⟩
  · simp only [check_eq_ok] at h
    exact ⟨h.1, hnames _ h.2⟩

theorem deserializePortRange_le {form : PortRangeForm} {r : PortRange}
    (h : deserializePortRange form = .ok r) : r.start ≤ r.end := by
  unfold deserializePortRange at h
  obtain ⟨range, -, h⟩ := bind_eq_ok.mp h
  split at h
  · cases h
  · rename_i hempty
    obtain rfl := Except.ok.inj h
    simpa [PortRange.isEmpty] using hempty

theorem FileBackend.deserialize_le {b : FileBackend} {d : BackendConfig}
    (h : b.deserialize = .ok d) : d.passivePorts.start ≤ d.passivePorts.end := by
  unfold FileBackend.deserialize at h
  obtain ⟨range, hrange, h⟩ := bind_eq_ok.mp h
  obtain rfl := Except.ok.inj h
  cases hform : b.passivePorts with
  | none =>
      rw [hform] at hrange
      obtain rfl := Except.ok.inj hrange
      have hdefault : defaultBackendPassivePorts.start ≤ defaultBackendPassivePorts.end := by decide
      exact hdefault
  | some form =>
      rw [hform] at hrange
      exact deserializePortRange_le hrange

namespace Host

variable {host : Host} {path : Option Text} {c : FullConfig}

theorem FileSays.ranges {file : (f : Setting) → Option f.Val} (h : host.FileSays path file)
    {backends : List BackendConfig} (hfile : file .backends = some backends) :
    ∀ b ∈ backends, b.passivePorts.start ≤ b.passivePorts.end := by
  cases path with
  | none => cases (h .backends).symm.trans hfile
  | some path =>
      obtain ⟨content, doc, -, -, hvalues⟩ := h
      have hlist := (hvalues .backends).trans (congrArg _ hfile)
      unfold Document.value at hlist
      split at hlist
      case h_1 l hl =>
        cases hparse : Setting.deserialize .backends l with
        | error e =>
            rw [hparse] at hlist
            cases hlist
        | ok parsed =>
            rw [hparse] at hlist
            obtain rfl : parsed = backends := Option.some.inj (Except.ok.inj hlist)
            intro b hb
            obtain ⟨entry, -, hentry⟩ := mem_of_mapM_eq_ok hparse hb
            exact FileBackend.deserialize_le hentry
      case h_2 => cases hlist

theorem EnvSays.ranges {env : (f : Setting) → Option f.Val} (h : host.EnvSays env)
    {backends : List BackendConfig} (henv : env .backends = some backends) :
    ∀ b ∈ backends, b.passivePorts.start ≤ b.passivePorts.end := by
  have hread := (h .backends).trans (congrArg _ henv)
  unfold Setting.fromEnv at hread
  obtain ⟨var, -, hread⟩ := bind_eq_ok.mp hread
  cases var with
  | none => cases hread
  | some v =>
      obtain ⟨parsed, hparse, hread⟩ := bind_eq_ok.mp hread
      obtain rfl : parsed = backends := Option.some.inj (Except.ok.inj hread)
      exact fun b hb => parseBackends_ranges hparse hb

/-- The file's parser and the environment's make sure of it, `validate` does not. -/
theorem Layered.ranges (h : host.Layered path c) :
    ∀ b ∈ c.backends, b.passivePorts.start ≤ b.passivePorts.end := by
  obtain ⟨file, env, hfile, henv, hget⟩ := h
  have hbackends : c.backends = ((env .backends).or (file .backends)).getD [] := hget .backends
  cases hin : env .backends with
  | some backends =>
      rw [hin] at hbackends
      rw [hbackends]
      exact henv.ranges hin
  | none =>
      rw [hin, Option.none_or] at hbackends
      cases hin' : file .backends with
      | some backends =>
          rw [hin'] at hbackends
          rw [hbackends]
          exact hfile.ranges hin'
      | none =>
          rw [hin'] at hbackends
          rw [hbackends]
          exact nofun

/-- **What `load` accepts is well formed**, however it was put together of file and
environment: there is a backend to select; the size of every range of ports is computed
without wrapping around, so that each backend has a port and there are two for clients; and
with source rotation the refresher's interval is not zero and no interface name is blank. -/
theorem loaded_config_well_formed (h : host.load path = .ok c) :
    (BackendSelector.new c.backends).isSome = true ∧
    (∀ b ∈ c.backends, 1 ≤ b.passivePorts.len.toNat ∧ b.passivePorts.len.toNat =
      b.passivePorts.end.toNat - b.passivePorts.start.toNat + 1) ∧
    2 ≤ (PortManager.new c.passive.portRange).capacity.toNat ∧
    (c.backendSource.mode = .rotate → c.backendSource.refreshSecs ≠ 0 ∧
      ∀ name ∈ c.backendSource.includeInterfaces ++ c.backendSource.excludeInterfaces,
        trim name ≠ []) := by
  obtain ⟨hlayered, hvalid⟩ := load_eq_ok.mp h
  have hports := Config.validate_portRange hvalid
  refine ⟨BackendSelector.new_isSome hvalid, fun b hb => ?_, ?_, Config.validate_rotate hvalid⟩
  · have hlen := PortRange.toNat_len (hlayered.ranges b hb)
    exact ⟨by omega, hlen⟩
  · have hlen := PortRange.toNat_len (UInt16.le_of_lt hports)
    have hlt := UInt16.lt_iff_toNat_lt.mp hports
    rw [PortManager.capacity, PortManager.new, hlen]
    omega

/-- A host without variables, whose file names one backend. -/
def sampleHost : Host where
  env _ := none
  readToString _ := some []
  isFile _ := false
  serdeYaml _ := .ok fun
    | .backends => some [⟨['b'], 21, some (.text ['5', ':', '6'])⟩]
    | _ => none

theorem loaded_config_well_formed_one_backend : ∃ c, sampleHost.load (some ['f']) = .ok c ∧
    c.backends = [⟨['b'], 21, ⟨5, 6⟩⟩] ∧
    ∀ b ∈ c.backends, 1 ≤ b.passivePorts.len.toNat := by
  have hload : sampleHost.load (some ['f']) =
      .ok { FullConfig.default with backends := [⟨['b'], 21, ⟨5, 6⟩⟩] } := by
    rfl
  exact ⟨_, hload, rfl, fun b hb => ((loaded_config_well_formed hload).2.1 b hb).1⟩

end Host

end FtpGateway
