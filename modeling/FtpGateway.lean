import FtpGateway.Backends
import FtpGateway.CloudWatch
import FtpGateway.Connecting
import FtpGateway.Dialing
import FtpGateway.DnsRuns
import FtpGateway.Http
import FtpGateway.IpLimiter
import FtpGateway.Listener
import FtpGateway.Load
import FtpGateway.Memo
import FtpGateway.MetricsRequest
import FtpGateway.MetricsServer
import FtpGateway.PassiveCodec
import FtpGateway.PortScan
import FtpGateway.Publish
import FtpGateway.PyData
import FtpGateway.RelayPanic
import FtpGateway.RelayTimer
import FtpGateway.RotatorHealth
import FtpGateway.RotatorSeries
import FtpGateway.Selector
import FtpGateway.Session.AllowList
import FtpGateway.Session.Blame
import FtpGateway.Session.DataPeer
import FtpGateway.Session.FailClosed
import FtpGateway.Session.Failure
import FtpGateway.Session.LineLimit
import FtpGateway.Session.MultiLine
import FtpGateway.Session.PassiveCode
import FtpGateway.Session.PasswordLog
import FtpGateway.Session.PeerFamily
import FtpGateway.Session.Slots
import FtpGateway.Session.Truncation
import FtpGateway.Session.UploadBytes
import FtpGateway.SharedState
import FtpGateway.Shutdown
import FtpGateway.Transfers
