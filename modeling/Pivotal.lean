import Pivotal.Async.Pool
import Pivotal.Fspiop.Headers
import Pivotal.Fspiop.Subjects
import Pivotal.Audit.TransactionMessage
import Pivotal.Outbound.Protocol
import Pivotal.Outbound.OneTransfer
import Pivotal.Connector.Callbacks
import Pivotal.Connector.Fulfilment
import Pivotal.Fspiop.RecentCache
import Pivotal.Outbound.OneQuote
import Pivotal.Outbound.SuccessCallback
import Pivotal.Fspiop.Conservation
import Pivotal.Auth.SingleUse
import Pivotal.Participant.Revocation
import Pivotal.Inbound.TransferErrors
import Pivotal.Fspiop.Replay
import Pivotal.Outbound.SignedGet
import Pivotal.Outbound.SendMoney
import Pivotal.Outbound.Authority
import Pivotal.Auth.Confinement
import Pivotal.Auth.Revocation
import Pivotal.Auth.LastAdmin
import Pivotal.Auth.UserScopes
import Pivotal.Auth.SessionLifetimes
import Pivotal.Auth.Invalidation
import Pivotal.Auth.Lockout
import Pivotal.Auth.RbacSeeder
import Pivotal.Auth.SeedRestart
import Pivotal.Participant.KeyRefresh
import Pivotal.Trust.PeerSync
import Pivotal.Trust.OperatorDecisions
import Pivotal.Trust.Tenants
import Pivotal.Catalyst.Fees
import Pivotal.Outbound.ShownFees
import Pivotal.Outbound.PartyCallbacks
import Pivotal.Outbound.Payers
import Pivotal.Outbound.Confirmations
import Pivotal.Inbound.PartyRoutes
import Pivotal.Trust.Publishing
import Pivotal.Trust.Onboarding
import Pivotal.Audit.Outcomes
import Pivotal.Audit.Disputes
import Pivotal.Audit.ReportLifeCycle
import Pivotal.Connector.Patch
import Pivotal.Audit.Paging
import Pivotal.Nats.Survival
import Pivotal.Nats.StreamProvisioner
import Pivotal.Nats.Provisioning
import Pivotal.Audit.Reconciliation
import Pivotal.Audit.RollupSchedule
import Pivotal.Snowflake.Generator
import Pivotal.Pkcs11.Sessions
import Pivotal.Pkcs11.TenantLogin
import Pivotal.Vault.FieldWrites
import Pivotal.Vault.Tokens
import Pivotal.Vault.TokenUse
import Pivotal.Connector.Listeners
import Pivotal.Fspiop.Conversions
import Pivotal.Catalyst.SchemeFee
import Pivotal.Audit.Merge
import Pivotal.Audit.Dashboard
import Pivotal.Trust.HubCallbackRuns
import Pivotal.Audit.ReportCells
import Pivotal.Audit.ReportParams
import Pivotal.Fspiop.Xfcc
import Pivotal.Outbound.SuspiciousTransactions
import Pivotal.Audit.ZonedTimes
import Pivotal.Outbound.CanonicalJson
import Pivotal.Outbound.ErrorTranslation
import Pivotal.Audit.ReportSlots
import Pivotal.Audit.ReportRows
import Pivotal.Ulid.Ulid
import Pivotal.Snowflake.NodeId
import Pivotal.Fspiop.ResourcePath
import Pivotal.Fspiop.Eviction
import Pivotal.Outbound.RejectedQuote
import Pivotal.Async.Crash
import Pivotal.Async.Shared
import Pivotal.Fspiop.AccessToken
import Pivotal.Store.Session
import Pivotal.Migration.DbMigration
import Pivotal.Migration.Runs
import Pivotal.Audit.RollupLock
import Pivotal.Trust.Secrets
import Pivotal.Trust.CaRegistration
import Pivotal.Trust.Registrations
