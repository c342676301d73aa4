import Quoodle.Agent.AcceptKey
import Quoodle.Agent.CommandProcessor
import Quoodle.Agent.Flush
import Quoodle.Agent.OutboxFile
import Quoodle.Agent.WsFrame
import Quoodle.ControlPlane.AuditFeed
import Quoodle.ControlPlane.Base32
import Quoodle.ControlPlane.CommandQuery
import Quoodle.ControlPlane.Connections
import Quoodle.ControlPlane.Enqueue
import Quoodle.ControlPlane.Idempotency
import Quoodle.ControlPlane.MonotonicCounter
import Quoodle.ControlPlane.OtpVerification
import Quoodle.ControlPlane.PairingOwnership
import Quoodle.ControlPlane.PairingTokens
import Quoodle.ControlPlane.Quarantine
import Quoodle.ControlPlane.RefreshTokens
import Quoodle.ControlPlane.Revocation
import Quoodle.ControlPlane.RolePermissions
import Quoodle.ControlPlane.ScheduledRuns
import Quoodle.ControlPlane.ServiceSignatures
import Quoodle.ControlPlane.TelemetryDuplicates
import Quoodle.ControlPlane.WebhookPause
import Quoodle.ControlPlane.Webhooks
import Quoodle.Daemon.Executor
import Quoodle.Daemon.ResponseCache
import Quoodle.Gateway.AgentCounters
import Quoodle.Gateway.AgentWs
import Quoodle.Gateway.DueTimes
import Quoodle.Gateway.PolicyScope
import Quoodle.Gateway.Quarantine
import Quoodle.Gateway.RedisService
import Quoodle.Gateway.TelemetryPaths
import Quoodle.Gateway.WebhookOutbox
import Quoodle.Kernel.EventDelivery
import Quoodle.Mobile.Outcomes
import Quoodle.Windows.DriverSequence
import Quoodle.Windows.Expiry
import Quoodle.Windows.KillOrder
import Quoodle.Windows.Senders
import Quoodle.Windows.Sequence
import Quoodle.Windows.TelemetryQueue
