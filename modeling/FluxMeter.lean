import FluxMeter.Collections.Table
import FluxMeter.Transition.Runs
import FluxMeter.Collections.Cells
import FluxMeter.Transition.Replay
import FluxMeter.Model.UsageAggregate
import FluxMeter.Budget.Account
import FluxMeter.Budget.HoldConservation
import FluxMeter.Budget.Commitment
import FluxMeter.Budget.Overdraft
import FluxMeter.Budget.Accounting
import FluxMeter.Budget.Closers
import FluxMeter.Budget.DueExpiry
import FluxMeter.Budget.Enforcement
import FluxMeter.Budget.SpanHolds
import FluxMeter.Job.WindowAttribution
import FluxMeter.Job.Billable
import FluxMeter.Job.TokenUsageAggregator
import FluxMeter.Job.ExactlyOnce
import FluxMeter.Job.BilledOnce
import FluxMeter.Job.SpanAttribution
import FluxMeter.Job.SpanCap
import FluxMeter.Custody.BatcherDrain
import FluxMeter.Custody.Exclusion
import FluxMeter.Custody.Dispatcher
import FluxMeter.Custody.Attempt
import FluxMeter.Transition.Keyed
import FluxMeter.Transition.Decided
import FluxMeter.Custody.IdentityStore
import FluxMeter.Custody.Scripts
import FluxMeter.Custody.Publication
import FluxMeter.Custody.BatchCustody
import FluxMeter.Custody.TenantClaims
import FluxMeter.Wire.JsonText
import FluxMeter.Pricing.PricingCatalog
import FluxMeter.Usage.EventProjectionSink
import FluxMeter.Usage.UsageQuery
import FluxMeter.Transition.Unwinding
import FluxMeter.Usage.Footprints
import FluxMeter.Usage.Noninterference
import FluxMeter.Pricing.PriceBounds
import FluxMeter.Usage.Charges
import FluxMeter.Usage.Writes
import FluxMeter.Usage.RedisSink
import FluxMeter.Usage.ReplayOrder
import FluxMeter.Usage.Rerate
import FluxMeter.Usage.Monotone
import FluxMeter.Usage.BillingMonotone
import FluxMeter.Budget.TenantIsolation
import FluxMeter.Budget.TopUpMigration
import FluxMeter.Budget.AlertCrossings
import FluxMeter.Budget.Check
import FluxMeter.Budget.RateLimit
import FluxMeter.Budget.Receipts
import FluxMeter.Budget.Confinement
import FluxMeter.Collections.Brackets
import FluxMeter.Pricing.PricingLoader
import FluxMeter.Pricing.Graduated
import FluxMeter.Pricing.CatalogDocument
import FluxMeter.Pricing.PriceAgreement
import FluxMeter.Job.Lateness
import FluxMeter.Job.MonthlyVolume
import FluxMeter.Job.DeadLetterReplay
import FluxMeter.Sdk.HoldBalance
import FluxMeter.Gateway.Lifecycle
import FluxMeter.Gateway.OutboxCustody
import FluxMeter.Api.CustomerReads
import FluxMeter.Api.KeyRevocation
import FluxMeter.Billing.ExportBalance
import FluxMeter.Custody.Fingerprints
import FluxMeter.Gateway.StreamGuard
import FluxMeter.Gateway.StreamKill
import FluxMeter.Usage.PeriodAttribution
import FluxMeter.Job.TrustedFields
import FluxMeter.Job.DeadLetterRoundTrip
import FluxMeter.Billing.CostExport
import FluxMeter.Collections.Glob
import FluxMeter.Keys.ColonParts
import FluxMeter.Collections.Tally
import FluxMeter.Usage.PeriodReaders
import FluxMeter.Usage.PeriodTotals
import FluxMeter.Usage.DimensionTotals
import FluxMeter.Usage.ModelUsageRows
import FluxMeter.Usage.RowAttribution
import FluxMeter.Usage.RerateRepricing
import FluxMeter.Usage.Packages
import FluxMeter.Usage.TokenTotals
import FluxMeter.Gateway.OutboxDrain
import FluxMeter.Job.DlqReplay
import FluxMeter.Job.ReconcileBalances
import FluxMeter.Job.ReconcileRuns
import FluxMeter.Api.WebhookWorker
import FluxMeter.Api.PendingAlerts
import FluxMeter.Api.IntelAlerts
import FluxMeter.Collections.Readings
import FluxMeter.Usage.AccumulatorMerge
import FluxMeter.Api.BillingDims
import FluxMeter.Api.EventModel
import FluxMeter.Sdk.Streaming
import FluxMeter.Pricing.CatalogSnapshot
import FluxMeter.Custody.BatchVerdicts
import FluxMeter.Api.IngestBatch
import FluxMeter.Api.BatchPositions
import FluxMeter.Custody.Ledger
import FluxMeter.Custody.SerialCustody
import FluxMeter.Custody.BatchEntries
import FluxMeter.Custody.ShapeOnly
import FluxMeter.Custody.FlushOrder
import FluxMeter.Sdk.Delivery
import FluxMeter.Sdk.TrackedUsage
import FluxMeter.Usage.KeyTraffic
import FluxMeter.Intelligence.Dashboard
import FluxMeter.Intelligence.AlertRuns
import FluxMeter.ControlPlane.TenantLifecycle
import FluxMeter.ControlPlane.TenantLists
