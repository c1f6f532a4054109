import BatchFabric.Library.OrderedMap
import BatchFabric.Library.Transition
import BatchFabric.Id
import BatchFabric.Compatibility
import BatchFabric.Safety.FormingRegistry
import BatchFabric.Safety.ActiveMembers
import BatchFabric.Safety.Agreement
import BatchFabric.Safety.AgreementRun
import BatchFabric.Safety.Attempts
import BatchFabric.Safety.Authority
import BatchFabric.Safety.Endings
import BatchFabric.Safety.ReportFrame
import BatchFabric.Safety.TerminalAttempts
import BatchFabric.Safety.WaitingIndex
import BatchFabric.Preimage
import BatchFabric.Safety.Compatible
import BatchFabric.Budget
import BatchFabric.CompatibilityDecision
import BatchFabric.Safety.Accounts
import BatchFabric.Safety.AccountsRun
import BatchFabric.Safety.AtMostOnce
import BatchFabric.Safety.PartialReports
import BatchFabric.Safety.WithinBudget
import BatchFabric.Coordinator.WorkerTable
import BatchFabric.Library.Layout
import BatchFabric.Persistence.Coherence
import BatchFabric.Persistence.Recovery
import BatchFabric.Persistence.WireSafety
import BatchFabric.Protocol.Canonical
import BatchFabric.Safety.BatchLifecycle
import BatchFabric.Safety.ClosedMembership
import BatchFabric.Safety.DuplicateReports
import BatchFabric.Safety.FailedOperations
import BatchFabric.Safety.RetryBounds
import BatchFabric.Library.Renaming
import BatchFabric.Safety.LiveDispatch
import BatchFabric.Safety.MergeContract
import BatchFabric.Safety.Observation
import BatchFabric.Safety.RenamedTick
import BatchFabric.Safety.SplitContract
import BatchFabric.Coordinator.DriverSubmit
import BatchFabric.Safety.RetryRule
import BatchFabric.Safety.Saturation
import BatchFabric.Safety.Cancellation
import BatchFabric.Safety.Expiry
import BatchFabric.Safety.FormingClock
import BatchFabric.Safety.MaxWait
import BatchFabric.CanonicalString
import BatchFabric.ExtensionOrder
import BatchFabric.Safety.FairShare
import BatchFabric.Safety.SealedOrder
import BatchFabric.Safety.Census
import BatchFabric.Safety.Contribution
import BatchFabric.Safety.EmptySeal
import BatchFabric.Safety.SealedBefore
import BatchFabric.Safety.TickReport
import BatchFabric.Safety.SealsInTime
import BatchFabric.Safety.KnownCapability
import BatchFabric.Safety.SizePass
import BatchFabric.Cursor
import BatchFabric.HashStandard
import BatchFabric.Persistence.Resumption
import BatchFabric.Protocol.Programs
import BatchFabric.Protocol.ReaderSafety
import BatchFabric.Safety.WorkerLoad
import BatchFabric.Transport
import BatchFabric.Safety.ExpiryOrder
import BatchFabric.Safety.Opening
import BatchFabric.Safety.Offers
import BatchFabric.Safety.Placements
import BatchFabric.Safety.FormationOrder
import BatchFabric.Safety.Counters
import BatchFabric.Safety.Flight
import BatchFabric.Executor
import BatchFabric.Cluster.System
import BatchFabric.Cluster.Rule
import BatchFabric.Cluster.Refinement
import BatchFabric.Cluster.Roles
import BatchFabric.Cluster.Frames
import BatchFabric.Cluster.Conservation
import BatchFabric.Cluster.Traffic
import BatchFabric.Cluster.Flights
import BatchFabric.Safety.Results
import BatchFabric.Cluster.Results
