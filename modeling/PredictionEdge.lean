import PredictionEdge.Activity.Aggregate
import PredictionEdge.Activity.Identity
import PredictionEdge.Activity.Parse
import PredictionEdge.Activity.Salvage
import PredictionEdge.Canary.Books
import PredictionEdge.Canary.Campaign
import PredictionEdge.Canary.Limits
import PredictionEdge.Canary.Standing
import PredictionEdge.Core.Types
import PredictionEdge.EventLog.Agreement
import PredictionEdge.EventLog.Appended
import PredictionEdge.EventLog.Bindings
import PredictionEdge.EventLog.Frame
import PredictionEdge.EventLog.Passes
import PredictionEdge.EventLog.Recovery
import PredictionEdge.EventLog.Resume
import PredictionEdge.EventLog.Retained
import PredictionEdge.EventLog.Retention
import PredictionEdge.EventLog.Walk
import PredictionEdge.EventLog.Writer
import PredictionEdge.Execution.Budget
import PredictionEdge.Execution.Closure
import PredictionEdge.Execution.ExactShares
import PredictionEdge.Execution.FeeReserve
import PredictionEdge.Execution.LadderAudit
import PredictionEdge.Execution.PlanSafety
import PredictionEdge.Ledger.Apply
import PredictionEdge.Ledger.Cells
import PredictionEdge.Ledger.Conservation
import PredictionEdge.Ledger.Decisions
import PredictionEdge.Ledger.DropCompleteness
import PredictionEdge.Ledger.Effect
import PredictionEdge.Ledger.EntryRun
import PredictionEdge.Ledger.Isolation
import PredictionEdge.Ledger.Locality
import PredictionEdge.Ledger.OrderProof
import PredictionEdge.Ledger.Rebound
import PredictionEdge.Ledger.Residual
import PredictionEdge.Ledger.Rollback
import PredictionEdge.Ledger.SameSide
import PredictionEdge.Ledger.Scoped
import PredictionEdge.Ledger.ScopedOrder
import PredictionEdge.Ledger.Second
import PredictionEdge.Ledger.Shortcut
import PredictionEdge.Ledger.Survivors
import PredictionEdge.Lib.Components
import PredictionEdge.Lib.Framing
import PredictionEdge.Lib.Json
import PredictionEdge.Lib.Local
import PredictionEdge.Lib.OrderedMap
import PredictionEdge.Lib.Orders
import PredictionEdge.Lib.Runs
import PredictionEdge.Lib.Worklist
import PredictionEdge.Live.AdmissionReplay
import PredictionEdge.Live.DispatchFacts
import PredictionEdge.Live.ExecutorRuns
import PredictionEdge.Live.ExecutorSafety
import PredictionEdge.Live.ExecutorWorld
import PredictionEdge.Live.ExpectedFee
import PredictionEdge.Live.Finality
import PredictionEdge.Live.FinalitySafety
import PredictionEdge.Live.Lifecycle
import PredictionEdge.Live.Receipt
import PredictionEdge.Live.RecoveryFold
import PredictionEdge.Live.RecoverySafety
import PredictionEdge.Live.RedemptionRuns
import PredictionEdge.Projection.Restricted
import PredictionEdge.Projection.WalletClassifier
import PredictionEdge.Reconciliation.Complete
import PredictionEdge.Reconciliation.Read
import PredictionEdge.Recovery.MarketParity
import PredictionEdge.Signal.Classifier
import PredictionEdge.Venue.ExactWalk
import PredictionEdge.Venue.Ladder
import PredictionEdge.Venue.Planned
