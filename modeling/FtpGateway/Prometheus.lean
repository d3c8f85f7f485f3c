import FtpGateway.Reply
import FtpGateway.Rotator
import FtpGateway.Session.Metrics

/-!
# The `/metrics` text

`Metrics::render` of `metrics.rs`: every counter in the Prometheus text format,
with a `HELP` and a `TYPE` line before its samples. The gateway's own metrics
have one sample each and no labels; those of the source rotation have one for
each source address, or for each pair of backend and source address. Only the
backend's name is text from outside, and it is escaped.
-/

namespace FtpGateway

open Str

/-! ## Metrics without labels -/

structure PlainMetric where
  name : Text
  kind : Text
  help : Text
  value : UInt64

/-- `writeln!` to the output. -/
def writeln (t : Text) : Text := t ++ ['\n']

def helpLine (name help : Text) : Text := "# HELP ".toList ++ name ++ [' '] ++ help

def typeLine (name kind : Text) : Text := "# TYPE ".toList ++ name ++ [' '] ++ kind

def PlainMetric.sampleLine (metric : PlainMetric) : Text :=
  metric.name ++ ' ' :: decimal metric.value.toNat

def PlainMetric.render (metric : PlainMetric) : Text :=
  writeln (helpLine metric.name metric.help) ++ writeln (typeLine metric.name metric.kind) ++
    writeln metric.sampleLine

namespace Metrics

def gauge (name help : String) (value : UInt64) : PlainMetric :=
  ⟨name.toList, "gauge".toList, help.toList, value⟩

def counter (name help : String) (value : UInt64) : PlainMetric :=
  ⟨name.toList, "counter".toList, help.toList, value⟩

/-- The metrics of `render_gateway_metrics`, in its order. -/
def gatewayMetrics (m : Metrics) (pasvPortsActive pasvPortsCapacity : UInt64) : List PlainMetric :=
  [gauge "ftp_gateway_sessions_active"
      "Number of FTP control connections currently open." m.sessionsActive,
    gauge "ftp_gateway_uploads_active"
      "Number of STOR transfers currently in progress." m.uploadsActive,
    gauge "ftp_gateway_pasv_ports_active"
      "Number of PASV/EPSV data ports currently allocated." pasvPortsActive,
    gauge "ftp_gateway_pasv_ports_capacity"
      "Number of PASV/EPSV data ports in the configured range (capacity minus active is what is left)."
      pasvPortsCapacity,
    counter "ftp_gateway_sessions_total"
      "Total number of FTP control connections accepted." m.sessionsTotal,
    counter "ftp_gateway_upload_bytes_total"
      "Total bytes relayed from clients to a Backend across all completed STOR transfers."
      m.uploadBytesTotal,
    counter "ftp_gateway_connections_rejected_total"
      "Total connections rejected by the per-IP connection limit." m.connectionsRejectedTotal,
    counter "ftp_gateway_uploads_started_total"
      "Total STOR transfers that reached the Backend (both data connections up)."
      m.uploadsStartedTotal,
    counter "ftp_gateway_uploads_completed_total"
      "Total STOR transfers the Backend confirmed with a 2xx reply." m.uploadsCompletedTotal,
    counter "ftp_gateway_uploads_failed_total"
      "Total started STOR transfers that did not complete." m.uploadsFailedTotal,
    counter "ftp_gateway_backend_pasv_failures_total"
      "Total times the Backend gave no usable reply to PASV." m.backendPasvFailuresTotal,
    counter "ftp_gateway_backend_data_connection_failures_total"
      "Total failures to establish a data connection to the Backend (TCP connect or TLS handshake)."
      m.backendDataConnectionFailuresTotal,
    counter "ftp_gateway_data_connections_rejected_total"
      "Total client data connections closed for coming from a different IP address than the control connection."
      m.dataConnectionsRejectedTotal,
    counter "ftp_gateway_backend_timeouts_total"
      "Total timeouts waiting on or connecting to a Backend." m.backendTimeoutsTotal,
    counter "ftp_gateway_session_idle_timeouts_total"
      "Total control sessions closed for being idle too long." m.sessionIdleTimeoutsTotal]

def renderGatewayMetrics (m : Metrics) (pasvPortsActive pasvPortsCapacity : UInt64) : Text :=
  (m.gatewayMetrics pasvPortsActive pasvPortsCapacity).flatMap PlainMetric.render

end Metrics

/-! ## Metrics of the source rotation -/

def escapeLabelChar (c : Char) : Text :=
  if c = '\\' then ['\\', '\\']
  else if c = '"' then ['\\', '"']
  else if c = '\n' then ['\\', 'n']
  else [c]

def escapeLabelValue (value : Text) : Text := value.flatMap escapeLabelChar

/-- `Display` of an IPv4 address. -/
def Ipv4Addr.text (ip : Ipv4Addr) : Text :=
  decimal ip.a.toNat ++ '.' :: (decimal ip.b.toNat ++ '.' ::
    (decimal ip.c.toNat ++ '.' :: decimal ip.d.toNat))

def unhealthyName : Text := "ftp_gateway_backend_source_unhealthy".toList

def unhealthyHelp : Text :=
  "1 if the source address is currently left out of the rotation after failing to connect.".toList

def SourceHealth.value (health : SourceHealth) : UInt64 := if health.unhealthy then 1 else 0

def SourceHealth.sampleLine (health : SourceHealth) : Text :=
  unhealthyName ++ "\x7bsource=\"".toList ++ health.source.text ++ "\"\x7d ".toList ++
    decimal health.value.toNat

/-- A metric with one sample for each pair of backend and source address. -/
structure TransferSeries where
  name : Text
  kind : Text
  help : Text
  value : SourceTransferStat → UInt64

namespace TransferSeries

def sampleLine (series : TransferSeries) (stat : SourceTransferStat) : Text :=
  series.name ++ "\x7bbackend=\"".toList ++ escapeLabelValue stat.backend ++
    "\",source=\"".toList ++ stat.source.text ++ "\"\x7d ".toList ++
    decimal (series.value stat).toNat

def render (transfers : List SourceTransferStat) (series : TransferSeries) : Text :=
  writeln (helpLine series.name series.help) ++ writeln (typeLine series.name series.kind) ++
    transfers.flatMap fun stat => writeln (series.sampleLine stat)

end TransferSeries

/-- The four series of `render_rotation_metrics`, in its order. -/
def transferSeries : List TransferSeries :=
  [⟨"ftp_gateway_backend_source_transfers_active".toList, "gauge".toList,
      "Data transfers in flight from this source address to this backend.".toList,
      fun stat => UInt64.ofNat stat.active⟩,
    ⟨"ftp_gateway_backend_source_transfers_capacity".toList, "gauge".toList,
      "Most data transfers this source address may have in flight to this backend (its passive_ports size).".toList,
      fun stat => UInt64.ofNat stat.capacity⟩,
    ⟨"ftp_gateway_backend_source_transfers_total".toList, "counter".toList,
      "Total data transfers started from this source address to this backend.".toList,
      fun stat => stat.startedTotal⟩,
    ⟨"ftp_gateway_backend_source_slot_timeouts_total".toList, "counter".toList,
      "Total transfers that gave up waiting for a free slot on this source address (answered 425).".toList,
      fun stat => stat.slotTimeoutsTotal⟩]

/-- `render_rotation_metrics`: what it appends. -/
def renderRotationMetrics (rotation : RotatorSnapshot) : Text :=
  writeln (helpLine unhealthyName unhealthyHelp) ++ writeln (typeLine unhealthyName "gauge".toList)
    ++ rotation.sources.flatMap (fun health => writeln health.sampleLine)
    ++ transferSeries.flatMap (TransferSeries.render rotation.transfers)

/-- `Metrics::render`. The port counts are the `PortManager`'s; without source
rotation there is no snapshot and there are no metrics of it. -/
def Metrics.render (m : Metrics) (pasvPortsActive pasvPortsCapacity : UInt64)
    (rotation : Option RotatorSnapshot) : Text :=
  let out := m.renderGatewayMetrics pasvPortsActive pasvPortsCapacity
  match rotation with
  | some rotation => out ++ renderRotationMetrics rotation
  | none => out

end FtpGateway
