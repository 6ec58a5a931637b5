import Tonatiuh.Transition.Run
import Tonatiuh.Billing.ExactlyOnce
import Tonatiuh.Billing.Cancellation
import Tonatiuh.Billing.PaidPeriod
import Tonatiuh.Billing.RenewalAttempts
import Tonatiuh.Billing.FinalStatus
import Tonatiuh.Billing.Representation
import Tonatiuh.Billing.Dunning
import Tonatiuh.Billing.Checkout
import Tonatiuh.Billing.SingleRefund
import Tonatiuh.Config.LegacyConfig
import Tonatiuh.Async.Contract
import Tonatiuh.Trading.Environment
import Tonatiuh.Trading.Profit
import Tonatiuh.Trading.Stopping
import Tonatiuh.Trading.Opening
import Tonatiuh.Trading.Watching
import Tonatiuh.Trading.Reloading
import Tonatiuh.Trading.Ending
import Tonatiuh.Trading.Accounting
import Tonatiuh.Trading.Recovery
import Tonatiuh.Trading.EmergencyFlag
import Tonatiuh.Trading.Positions
import Tonatiuh.Trading.Exposure
import Tonatiuh.Trading.SharedAccount
import Tonatiuh.Trading.SerialSessions
import Tonatiuh.Supervisor.Leadership
import Tonatiuh.Supervisor.SingleChild
import Tonatiuh.Supervisor.StoppedBots
import Tonatiuh.Supervisor.EmergencyStop
import Tonatiuh.Supervisor.LastCommand
import Tonatiuh.Supervisor.BotEdits
import Tonatiuh.Supervisor.Deletions
import Tonatiuh.Supervisor.LeaderFailure
import Tonatiuh.Retention.LiveChildren
import Tonatiuh.Supervisor.ChildSteps
import Tonatiuh.Commands.Idempotency
import Tonatiuh.Orders.PositionGuard
import Tonatiuh.Quota.ResourceLimit
import Tonatiuh.Members.MemberLimit
import Tonatiuh.Sessions.Reuse
import Tonatiuh.Sessions.RevocationOrder
import Tonatiuh.Accounts.Owners
import Tonatiuh.Compliance.Evidence
import Tonatiuh.Email.Safety
import Tonatiuh.Email.Bounces
import Tonatiuh.Process.OneChild
import Tonatiuh.Features.OptimisticVersions
import Tonatiuh.OpenApi.Contracts
import Tonatiuh.Billing.Entitlement
import Tonatiuh.Counting.Windows
import Tonatiuh.Http.MemoryRateLimit
import Tonatiuh.Config.LegacyFormat
import Tonatiuh.Http.DatabaseRateLimit
import Tonatiuh.Trading.ExposureAgreement
import Tonatiuh.Config.TradingConfiguration
import Tonatiuh.Config.ConfigurationAgreement
import Tonatiuh.Trading.TrailingExit
import Tonatiuh.Trading.FinalFills
import Tonatiuh.Trading.BuyBackFunds
import Tonatiuh.Logs.Redaction
import Tonatiuh.Logs.LogLines
import Tonatiuh.Logs.RedactedSecrets
import Tonatiuh.Billing.Amounts
import Tonatiuh.Logs.RuntimeLogs
import Tonatiuh.Trading.GridLines
import Tonatiuh.Trading.OrdersChecking
import Tonatiuh.Repository.AbstractRepository
import Tonatiuh.OpenApi.Termination
import Tonatiuh.Text.FirstMatch
import Tonatiuh.Url.Paths
import Tonatiuh.Url.Templates
import Tonatiuh.Sdk.Client
import Tonatiuh.Database.AccessContext
import Tonatiuh.Database.Effects
import Tonatiuh.Database.Entitlement
import Tonatiuh.Database.TenantIsolation
import Tonatiuh.Migrations.Applied
import Tonatiuh.Async.Refinement
import Tonatiuh.Features.Rollout
import Tonatiuh.Members.RoleGrants
import Tonatiuh.Trading.ExchangeService
import Tonatiuh.Trading.ServiceRefinement
