import StellarTags.Library.Transactions
import StellarTags.Library.Triples
import StellarTags.Library.Integers
import StellarTags.Library.PrefixCodes
import StellarTags.Library.Runs
import StellarTags.Library.Holdings
import StellarTags.Library.Tokens
import StellarTags.Library.Approvals
import StellarTags.Library.Sequences
import StellarTags.Library.Dockets
import StellarTags.Library.StepFunctions
import StellarTags.Library.Twins
import StellarTags.Library.Allowances
import StellarTags.Library.PositionalNumerals
import StellarTags.Library.Apportionment
import StellarTags.Library.BaseEncodings
import StellarTags.Library.BinaryLogarithms
import StellarTags.Soroban.Values
import StellarTags.Router.State
import StellarTags.Router.Access
import StellarTags.Router.Administration
import StellarTags.Router.Multisig
import StellarTags.Router.Timelock
import StellarTags.Router.Configuration
import StellarTags.Router.Accounting
import StellarTags.Router.Payments
import StellarTags.Router.SignedMessages
import StellarTags.Router.Swaps
import StellarTags.Router.RecordMigration
import StellarTags.Router.Calls
import StellarTags.Router.Frames
import StellarTags.Router.RoleCoherence
import StellarTags.Router.Bootstrap
import StellarTags.Router.Gate
import StellarTags.Router.Custody
import StellarTags.Router.BatchRefinement
import StellarTags.Router.UpgradeQuorum
import StellarTags.Router.SignerRotation
import StellarTags.Router.Solvency
import StellarTags.Router.MetaAuthorisation
import StellarTags.Router.Journal
import StellarTags.Router.Succession
import StellarTags.Router.TimelockRuns
import StellarTags.Router.Checks
import StellarTags.Router.TransferGates
import StellarTags.Router.Settlement
import StellarTags.Router.RateLimits
import StellarTags.Router.RefundLedger
import StellarTags.Router.Archival
import StellarTags.Router.Receipts
import StellarTags.Router.FeeBounds
import StellarTags.Router.FeeAgreement
import StellarTags.Router.Conservation
import StellarTags.Router.Multihop
import StellarTags.Router.Records
import StellarTags.Router.ReplayProtection
import StellarTags.Router.SlippageBounds
import StellarTags.Router.DeadMansSwitch
import StellarTags.Router.ExpiryView
import StellarTags.Router.PriceFeed
import StellarTags.Router.Proceeds
import StellarTags.Router.Delivery
import StellarTags.Router.QuoteAgreement
import StellarTags.Proxy.State
import StellarTags.Proxy.Operations
import StellarTags.Proxy.Calls
import StellarTags.Proxy.Replay
import StellarTags.Proxy.Authorisation
import StellarTags.Proxy.Forwarding
import StellarTags.Proxy.Tolerance
import StellarTags.Delegation.Outlays
import StellarTags.Delegation.Metering
import StellarTags.Delegation.System
import StellarTags.Delegation.Sessions
import StellarTags.Oracle.State
import StellarTags.Oracle.Operations
import StellarTags.Oracle.Calls
import StellarTags.Oracle.History
import StellarTags.Oracle.Average
import StellarTags.Oracle.Independence
import StellarTags.Oracle.Logarithms
import StellarTags.Oracle.Breaker
import StellarTags.Oracle.Accumulators
import StellarTags.Oracle.Precision
import StellarTags.Token.State
import StellarTags.Token.Strkey
import StellarTags.Token.Operations
import StellarTags.Token.Calls
import StellarTags.Token.Supply
import StellarTags.Token.Allowances
import StellarTags.Token.Freezes
import StellarTags.Token.Permits
import StellarTags.Token.Partitions
import StellarTags.YieldEscrow.State
import StellarTags.YieldEscrow.Operations
import StellarTags.YieldEscrow.Calls
import StellarTags.YieldEscrow.Effects
import StellarTags.YieldEscrow.Sums
import StellarTags.YieldEscrow.Pools
import StellarTags.YieldEscrow.Redemption
import StellarTags.YieldEscrow.Reports
import StellarTags.YieldEscrow.Rebalancing
import StellarTags.YieldEscrow.Portfolios
import StellarTags.YieldEscrow.Drift
import StellarTags.YieldEscrow.Books
import StellarTags.YieldEscrow.Index
import StellarTags.YieldEscrow.Availability
import StellarTags.YieldEscrow.Settlements
import StellarTags.YieldEscrow.Emergency
import StellarTags.YieldEscrow.Unwinding
import StellarTags.YieldEscrow.Growth
import StellarTags.FlashLoan.Operations
import StellarTags.FlashLoan.Solvency
import StellarTags.FlashLoan.Fees
import StellarTags.TimelockEscrow.Operations
import StellarTags.TimelockEscrow.Solvency
import StellarTags.Bridge.Payload
import StellarTags.EventSourcing.Events
import StellarTags.EventSourcing.ReadModels
import StellarTags.EventSourcing.Commands
import StellarTags.EventSourcing.Races
import StellarTags.EventSourcing.Polling
import StellarTags.Platform.Unicode
import StellarTags.Platform.JsonText
import StellarTags.Platform.JsonValues
import StellarTags.Platform.Dates
import StellarTags.Platform.CanonicalJson
import StellarTags.Library.Keysets
import StellarTags.Library.DelimitedText
import StellarTags.Listing.Cursors
import StellarTags.Listing.Pages
import StellarTags.Listing.Exports
import StellarTags.Settlement.Merkle
import StellarTags.Settlement.Engine
import StellarTags.Settlement.Calls
import StellarTags.Settlement.Accounts
import StellarTags.Settlement.Receipts
import StellarTags.Settlement.Order
import StellarTags.Settlement.Enqueues
import StellarTags.Archive.Leaves
import StellarTags.Archive.Commitments
import StellarTags.Archive.Epochs
import StellarTags.Middleware.SlidingWindow
import StellarTags.Library.Tables
import StellarTags.Library.Freshness
import StellarTags.Library.RateLimits
import StellarTags.Middleware.TokenBucket
import StellarTags.Middleware.TokenBucketBound
import StellarTags.Middleware.TokenBucketAgreement
import StellarTags.Middleware.Idempotency
import StellarTags.Middleware.OnceOnly
import StellarTags.Batching.Queue
import StellarTags.Batching.Promises
import StellarTags.Batching.Transactions
import StellarTags.Routing.RulesEngine
import StellarTags.Routing.RuleSelection
import StellarTags.Routing.Exceptions
import StellarTags.Routing.Validation
import StellarTags.Registration.MultiSigner
import StellarTags.Registration.Thresholds
import StellarTags.Registration.Transfers
import StellarTags.Registration.Authentication
import StellarTags.WebAuthn.Verifications
import StellarTags.Federation.Lookups
import StellarTags.Webhooks.DeadLetters
import StellarTags.Webhooks.Breaker
import StellarTags.Webhooks.Transitions
import StellarTags.Webhooks.Deliveries
import StellarTags.Webhooks.Probes
import StellarTags.Webhooks.Recovery
import StellarTags.Webhooks.Dispatches
import StellarTags.Webhooks.Throttle
import StellarTags.Reconciliation.Passes
import StellarTags.Reconciliation.Paid
import StellarTags.Reconciliation.Starvation
import StellarTags.Reconciliation.Interleavings
import StellarTags.Reconciliation.Records
import StellarTags.Reconciliation.Matching
import StellarTags.Outbox.Worker
import StellarTags.Outbox.Effects
import StellarTags.Outbox.Leases
import StellarTags.Outbox.Recovery
import StellarTags.ZeroKnowledge.Codec
import StellarTags.ZeroKnowledge.Verification
import StellarTags.Library.ConstraintSystems
import StellarTags.ZeroKnowledge.PaymentCircuit
import StellarTags.ZeroKnowledge.PaymentContract
import StellarTags.Ethnum.Words
import StellarTags.Ethnum.Division
import StellarTags.Library.Subscriptions
import StellarTags.Streams.Registry
import StellarTags.Sessions.Rotation
import StellarTags.Library.RecencyMaps
import StellarTags.Fraud.Scorer
import StellarTags.Library.ConsumerGroups
import StellarTags.Fraud.Alerts
