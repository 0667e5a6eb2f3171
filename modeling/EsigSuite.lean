import EsigSuite.Envelope.Core
import EsigSuite.Lib.Async
import EsigSuite.Lib.Register
import EsigSuite.Pdf.Agreement
import EsigSuite.Provisioning.BillingReducer
import EsigSuite.Provisioning.Convergence
import EsigSuite.Provisioning.PlanConvergence
import EsigSuite.Envelope.Changes
import EsigSuite.Envelope.Lifecycle
import EsigSuite.Lib.KeyedMutex
import EsigSuite.Lib.Table
import EsigSuite.Mcp.EnvelopeFile
import EsigSuite.Mcp.UpdateChain
import EsigSuite.Mcp.EnvelopeService
import EsigSuite.Mcp.IdentityRuns
import EsigSuite.Mcp.IdentityGate
import EsigSuite.Mcp.SignedIdentity
import EsigSuite.Mcp.Pins
import EsigSuite.Lib.Fence
import EsigSuite.Provisioning.Identifiers
import EsigSuite.Provisioning.MemoryStore
import EsigSuite.Provisioning.DynamoStore
import EsigSuite.Provisioning.Leases
import EsigSuite.Provisioning.Jobs
import EsigSuite.Lib.Transaction
import EsigSuite.Provisioning.Tenants
import EsigSuite.Provisioning.TenantInvariant
import EsigSuite.Provisioning.StripeEvents
import EsigSuite.Provisioning.Webhook
import EsigSuite.Provisioning.WebhookRuns
import EsigSuite.Provisioning.Calls
import EsigSuite.Provisioning.Orchestrator
import EsigSuite.Provisioning.StoreEffects
import EsigSuite.Provisioning.OrderHistory
import EsigSuite.Provisioning.OrchestratorCalls
import EsigSuite.Provisioning.Driver
import EsigSuite.Provisioning.RunRule
import EsigSuite.Provisioning.ProviderCalls
import EsigSuite.Provisioning.IrreversibleCalls
import EsigSuite.Provisioning.JobInvariant
import EsigSuite.Provisioning.StoreRefinement
import EsigSuite.Lib.Base64
import EsigSuite.Lib.Double
import EsigSuite.Lib.Json
import EsigSuite.Lib.Utf8
import EsigSuite.Pdf.PqEmbed
import EsigSuite.Pdf.SealRoundTrip
import EsigSuite.Pdf.VerifyDocument
import EsigSuite.Pdf.SealCoverage
import EsigSuite.Lib.Regex
import EsigSuite.Lib.Replace
import EsigSuite.Lib.JsRegex
import EsigSuite.Mcp.Sanitize
import EsigSuite.Mcp.Compose
import EsigSuite.Mcp.ComposedTags
import EsigSuite.Mcp.Sealing
import EsigSuite.Mcp.SignRoutes
import EsigSuite.Lib.Calendar
import EsigSuite.Lib.Digits
import EsigSuite.Lib.HashChain
import EsigSuite.Supabase.AuditTable
import EsigSuite.Supabase.AuditChain
import EsigSuite.Supabase.ChainRuns
import EsigSuite.Supabase.EpochMicros
import EsigSuite.Supabase.Tampering
import EsigSuite.Lib.Watch
import EsigSuite.Mcp.EventModel
import EsigSuite.Mcp.ServiceWorld
import EsigSuite.Mcp.ServiceEvents
import EsigSuite.Mcp.ServiceCalls
import EsigSuite.Mcp.Tracks
import EsigSuite.Mcp.EventLogRuns
import EsigSuite.Lib.Window
import EsigSuite.Mcp.EventLog
import EsigSuite.Mcp.ServiceSchedule
import EsigSuite.Mcp.NextReminder
import EsigSuite.Mcp.FailedUpdate
import EsigSuite.Mcp.ServiceRules
import EsigSuite.Mcp.ServiceLogic
import EsigSuite.Mcp.EventDuties
import EsigSuite.Mcp.IdentityDuties
import EsigSuite.Mcp.ClosingDuties
import EsigSuite.Mcp.ReminderDuties
import EsigSuite.Mcp.ServiceThreads
import EsigSuite.Mcp.TerminalStatus
import EsigSuite.Mcp.ExpiryEvents
import EsigSuite.Mcp.ReminderCounts
import EsigSuite.Mcp.ScheduledOrder
import EsigSuite.Gateway.Auth
import EsigSuite.Gateway.ReplayRuns
import EsigSuite.Exchange.Jcs
import EsigSuite.Lib.Radix
import EsigSuite.Exchange.Multibase
import EsigSuite.Exchange.Verify
import EsigSuite.Exchange.CreateExchange
import EsigSuite.Lib.Answers
import EsigSuite.Mcp.Badge
import EsigSuite.Mcp.IdentityLevels
import EsigSuite.Gateway.Semaphore
import EsigSuite.Lib.Replies
import EsigSuite.Mcp.HourlyRateLimiter
import EsigSuite.Gateway.TsaPool
import EsigSuite.Email.Smtp
import EsigSuite.Email.Framing
import EsigSuite.Email.StartTls
import EsigSuite.Lib.Polling
import EsigSuite.Mcp.EventPolling
import EsigSuite.Lib.Delimited
import EsigSuite.Lib.Prefixes
import EsigSuite.Mcp.WebhookTarget
import EsigSuite.Mcp.Sanitized
import EsigSuite.Lib.MapLast
import EsigSuite.Pdf.PemSigner
import EsigSuite.Pdf.SignPdf
import EsigSuite.Pdf.OverflowGuard
import EsigSuite.Lib.JsonOrder
import EsigSuite.Pdf.SigningInput
import EsigSuite.Exchange.JcsBinding
import EsigSuite.Lib.LargeInt
import EsigSuite.Pdf.EmbedUpdate
import EsigSuite.Pdf.Hole
import EsigSuite.Gateway.JwksCache
import EsigSuite.Lib.Quoted
import EsigSuite.Gateway.Xfcc
import EsigSuite.Lib.PosixPath
import EsigSuite.PillarBridge.ImportSpecifiers
import EsigSuite.PillarBridge.ImportGraph
import EsigSuite.Lib.JsSort
import EsigSuite.Lib.ToNumber
import EsigSuite.Worm.AuditRow
import EsigSuite.Worm.AuditExport
import EsigSuite.Lib.UtcTime
import EsigSuite.Pdf.Der
import EsigSuite.Pdf.PqCert
import EsigSuite.Pdf.CertRoundTrip
import EsigSuite.Pdf.TimestampBinding
import EsigSuite.Provisioning.KeyPreimages
import EsigSuite.Provisioning.HandoffPointers
import EsigSuite.Exchange.Revocation
import EsigSuite.Gateway.SignRequest
import EsigSuite.Pdf.DerSlice
import EsigSuite.Pdf.TlvBounds
import EsigSuite.Gateway.MutexRuns
import EsigSuite.Provisioning.MigrationRuns
import EsigSuite.Provisioning.QueueEnvelope
import EsigSuite.Provisioning.Snapshots
import EsigSuite.Provisioning.SnapshotRuns
import EsigSuite.Provisioning.Dedicated
import EsigSuite.Lib.Triple
import EsigSuite.Provisioning.DedicatedStops
import EsigSuite.Provisioning.DedicatedUnknown
import EsigSuite.Lib.IsoTime
import EsigSuite.Waitlist.Handler
import EsigSuite.Waitlist.Notifier
import EsigSuite.Waitlist.OutboxItems
import EsigSuite.Waitlist.OutboxRuns
import EsigSuite.Waitlist.Backfill
import EsigSuite.Waitlist.BackfillRuns
import EsigSuite.Mcp.DeliveryOrder
import EsigSuite.PillarBridge.ProofRates
import EsigSuite.Waitlist.NotifierBatch
import EsigSuite.Waitlist.Replay
import EsigSuite.Waitlist.ReplayRuns
import EsigSuite.Core.CertKeys
import EsigSuite.Core.CertRuns
import EsigSuite.Core.PdfStorage
