import Talos.Soroban.Contract
import Talos.PauseControl
import Talos.TtlManager
import Talos.AdminControls
import Talos.StorageMigration
import Talos.Dividends.Model
import Talos.Registry.Model
import Talos.Dividends.Effects
import Talos.Dividends.Entitlement
import Talos.Dividends.Conservation
import Talos.Dividends.Independence
import Talos.Registry.Effects
import Talos.Registry.Identity
import Talos.NameService.Model
import Talos.NameService.Effects
import Talos.NameService.Bijection
import Talos.EmergencyPause
import Talos.Governance.Model
import Talos.Governance.Effects
import Talos.Governance.Lifecycle
import Talos.Governance.Checkpoints
import Talos.Governance.VoteWeight
import Talos.Governance.VoteOrder
import Talos.Soroban.TimelockQueue
import Talos.AdminTimelock
import Talos.Soroban.FiniteMaps
import Talos.StorageMigration.History
import Talos.Registry.Migrations
import Talos.AdminHandover
import Talos.Registry.Metadata
import Talos.Soroban.Tickets
import Talos.TimelockProposals
import Talos.Registry.Succession
import Talos.Governance.Finalization
import Talos.Governance.Snapshot
import Talos.Governance.Supply
import Talos.Encoding.Json
import Talos.AuditChain
import Talos.Database.Machine
import Talos.Database.Table
import Talos.Idempotency.Model
import Talos.Idempotency.Exclusive
import Talos.Idempotency.Ownership
import Talos.Jobs.Model
import Talos.Jobs.Effects
import Talos.Jobs.Lease
import Talos.Jobs.Cancel
import Talos.Jobs.Budget
import Talos.Reconciler.Repair
import Talos.Reconciler.Scheduler
import Talos.Reconciler.Effects
import Talos.Reconciler.Finality
import Talos.Reconciler.Transitions
import Talos.Reconciler.LostRepairs
import Talos.Provisioning.Model
import Talos.Provisioning.Effects
import Talos.Provisioning.Consistency
import Talos.Provisioning.SingleWriter
import Talos.Provisioning.Resumable
import Talos.ContractEvents.Coverage
import Talos.Webhooks.Overlap
import Talos.Webhooks.Delivery
import Talos.Webhooks.Fencing
import Talos.RateLimit.Windows
import Talos.Encoding.Utf16
import Talos.Sdk.NameValidation
import Talos.Sdk.NameMirror
import Talos.Encoding.TextDecoder
import Talos.Sdk.EventStream
import Talos.Sdk.EventStreamCuts
import Talos.Sdk.Webhooks
import Talos.Sdk.WebhookReplay
import Talos.Webhooks.Framing
import Talos.Webhooks.SignatureHeader
import Talos.Database.Behavior
import Talos.Sdk.SigningController
import Talos.Sdk.SigningSlots
import Talos.Sdk.SigningProgress
import Talos.Sdk.Operations
import Talos.Sdk.OperationsOnce
import Talos.Agent.CircuitBreaker
import Talos.Agent.Recovery
import Talos.JobEffects.Store
import Talos.JobEffects.Writes
import Talos.JobEffects.Agreement
import Talos.JobEffects.Leases
import Talos.JobEffects.Dispatcher
import Talos.Database.Custody
import Talos.TokenSales.BuyToken
import Talos.TokenSales.Transfers
import Talos.Revenue.Buyback
import Talos.Revenue.BuybackTransfers
import Talos.TokenSales.Holdings
import Talos.Commerce.OnePurchase
import Talos.Revenue.Distribute
import Talos.Revenue.Shares
import Talos.Checkpoints.Store
import Talos.Checkpoints.Substitution
import Talos.AuditChain.Orderly
import Talos.Approvals
import Talos.Encoding.Double
import Talos.Transfers.Authorization
import Talos.Transfers.Once
import Talos.Encoding.Decimal
import Talos.Purchases.Price
import Talos.Purchases.Amounts
import Talos.Purchases.Budget
import Talos.Purchases.Cap
import Talos.Telegram.Queue
import Talos.Telegram.Pacing
import Talos.JobLeases.Model
import Talos.JobLeases.Completion
import Talos.JobLeases.Announced
import Talos.JobLeases.Eligibility
import Talos.Commerce.Answers
import Talos.Sdk.ConnectionLoop
import Talos.Governance.History
import Talos.StorageMigration.DryRun
import Talos.Dividends.Shares
import Talos.GuardianPauses
import Talos.PauseControl.Guarded
import Talos.PauseQueries
import Talos.Dividends.Claimable
import Talos.LifecycleEvents
import Talos.NameService.Availability
import Talos.Sdk.JobTracker
import Talos.Sdk.JobOutcomes
import Talos.Encoding.Segments
import Talos.NameService.Buffers
import Talos.NameService.Grammar
import Talos.NameService.Paging
import Talos.Reconciler.Inclusion
import Talos.Registry.ProtocolFee
import Talos.Database.TimeCursor
import Talos.AdminListing
import Talos.Webhooks.Acceptance
import Talos.Webhooks.Stranded
import Talos.Saga
import Talos.Provisioning.Turns
import Talos.Provisioning.Compensation
import Talos.Arrival
import Talos.RateLimit.Chunking
import Talos.Calendar
import Talos.Quota.Model
import Talos.Quota.Admission
import Talos.Sdk.Deduplication
import Talos.Encoding.JsonMembers
import Talos.Sdk.PayloadDigest
import Talos.Encoding.PlainDecimal
import Talos.Sdk.CanonicalDecimal
import Talos.Encoding.JsonText
import Talos.Sdk.IntentValidation
import Talos.Sdk.Pagination
import Talos.Encoding.Record
import Talos.Sdk.EventDecoder
import Talos.Sdk.WithIdempotency
import Talos.Sdk.OperationSlots
import Talos.Encoding.WellFormed
import Talos.Encoding.FormUrlencoded
import Talos.Encoding.Base64
import Talos.Encoding.Headers
import Talos.Sdk.CanonicalRequest
import Talos.Agent.PolicyEngine
import Talos.Agent.PolicyContext
import Talos.Encoding.Wildcards
import Talos.Agent.GlobConditions
import Talos.Agent.DurableBackoff
import Talos.Agent.Routing
import Talos.Checkpoints.Interleaving
import Talos.Database.TransactionRetry
import Talos.Commerce.ListedPrice
import Talos.Encoding.InternetAddress
import Talos.UrlGuards
import Talos.Agent.ToolPermissions
import Talos.Agent.QuoteExpiry
import Talos.Agent.Migrations
import Talos.Agent.ProviderCalls
