import Pytitect.Core
import Pytitect.Lib.Dict
import Pytitect.Lib.Selection
import Pytitect.Lib.History
import Pytitect.Idempotency.Retention
import Pytitect.Lib.Program
import Pytitect.Batches.Durability
import Pytitect.Batches.Ledger
import Pytitect.Consumer.AtMostOnce
import Pytitect.Consumer.Termination
import Pytitect.Leases.Fencing
import Pytitect.EventSourcing.Paging
import Pytitect.Projections.Workers
import Pytitect.Processes.Updates
import Pytitect.Processes.TimerFencing
import Pytitect.Security.SingleUse
import Pytitect.Security.DPoPSingleUse
import Pytitect.Outbox.Lifecycle
import Pytitect.Aio.Uncertainty
import Pytitect.Django.Agreement
import Pytitect.Wire.RoundTrip
import Pytitect.Time
import Pytitect.Wire.Ordinary
import Pytitect.Sync.Limits
import Pytitect.Sync.Negotiation
import Pytitect.Sync.Conversion
import Pytitect.Sync.Boundaries
import Pytitect.Sync.Integrity
import Pytitect.Receipts.Store
import Pytitect.Receipts.Lifecycle
import Pytitect.Receipts.Tables
import Pytitect.Receipts.Agreement
import Pytitect.Django.Inbox
import Pytitect.Django.Outbox
import Pytitect.Django.OutboxAgreement
import Pytitect.Lib.Claims
import Pytitect.Jobs.Store
import Pytitect.Jobs.Steps
import Pytitect.Jobs.Fencing
import Pytitect.Jobs.Table
import Pytitect.Jobs.Agreement
import Pytitect.Lib.Blocks
import Pytitect.Checkpoints.Coordinator
import Pytitect.Checkpoints.Deferred
import Pytitect.Lib.Ledger
import Pytitect.Django.Transactions
import Pytitect.Django.Operations
import Pytitect.SqlAlchemy.Idempotency
import Pytitect.SqlAlchemy.Requests
import Pytitect.SqlAlchemy.Truthfulness
import Pytitect.Messaging.Model
import Pytitect.Jobs.Attempts
import Pytitect.Jobs.Runner
import Pytitect.Jobs.Schedules
import Pytitect.Jobs.Materialize
import Pytitect.Jobs.Capacity
import Pytitect.Projections.Capacity
import Pytitect.Projections.Rebuild
import Pytitect.Outbox.Custody
import Pytitect.Outbox.Dispatcher
import Pytitect.Outbox.Rounds
import Pytitect.Outbox.Budget
import Pytitect.Aio.Bounded
import Pytitect.Aio.Relay
import Pytitect.Aio.Accounting
import Pytitect.EventSourcing.Snapshots
import Pytitect.EventSourcing.Regression
import Pytitect.Checkpoints.Atomic
import Pytitect.Checkpoints.Commits
import Pytitect.Lib.Retention
import Pytitect.Maintenance
import Pytitect.Retention
import Pytitect.Aio.Resilience
import Pytitect.Lib.Layers
import Pytitect.Sync.Graph
import Pytitect.Sync.Ordering
import Pytitect.Sync.Closure
import Pytitect.Contracts.Resolver
import Pytitect.Contracts.Expansion
import Pytitect.Contracts.Cycles
import Pytitect.Contracts.Resolution
import Pytitect.Wire.Growth
import Pytitect.Security.Base64
import Pytitect.Contracts.Manifest
import Pytitect.Trace
import Pytitect.Sync.Timestamps
import Pytitect.Wire.Fingerprints
import Pytitect.Security.Totality
import Pytitect.Sync.Cursors
import Pytitect.Sync.CursorTotality
import Pytitect.Sync.CursorPages
import Pytitect.Contracts.Charging
import Pytitect.Messaging.Envelope
import Pytitect.Lib.Assoc
import Pytitect.Messaging.Codecs
import Pytitect.Messaging.ExactCodec
import Pytitect.Messaging.JsonCodec
import Pytitect.Messaging.Profiles
import Pytitect.Lib.RowLocks
import Pytitect.Lib.Sessions
import Pytitect.SqlAlchemy.Platform
import Pytitect.SqlAlchemy.Events
import Pytitect.SqlAlchemy.Projections
import Pytitect.SqlAlchemy.Folds
import Pytitect.SqlAlchemy.Interleavings
import Pytitect.Lib.RowRules
import Pytitect.SqlAlchemy.WorkflowTables
import Pytitect.SqlAlchemy.Workflows
import Pytitect.SqlAlchemy.Timers
import Pytitect.SqlAlchemy.Decisions
import Pytitect.SqlAlchemy.ProcessSessions
import Pytitect.SqlAlchemy.JobTables
import Pytitect.SqlAlchemy.Jobs
import Pytitect.SqlAlchemy.JobSessions
