import Megalos.ActiveSessions
import Megalos.AllOrNothing
import Megalos.ArgResolution
import Megalos.ArtifactKeys
import Megalos.ArtifactSteps
import Megalos.BackwardRefs
import Megalos.Bounded
import Megalos.BoundedStore
import Megalos.CallGraph
import Megalos.CapRaces
import Megalos.ClientRetry
import Megalos.ClientTrace
import Megalos.Completion
import Megalos.DefaultBranch
import Megalos.Delivery
import Megalos.DenyLog
import Megalos.DerivedFingerprint
import Megalos.Diagram
import Megalos.DiagramCoverage
import Megalos.DryRunBranch
import Megalos.DryRunScript
import Megalos.Ending
import Megalos.Escalation
import Megalos.Eviction
import Megalos.EvictionOrder
import Megalos.ExecutionOrder
import Megalos.ExecutorClient
import Megalos.Fingerprint
import Megalos.Guardrails
import Megalos.Identities
import Megalos.Interleaved
import Megalos.InterleavedStart
import Megalos.Isolation
import Megalos.Library.AnswerTable
import Megalos.Library.LexOrder
import Megalos.Library.Selection
import Megalos.Library.SlidingWindow
import Megalos.Library.TextLines
import Megalos.Linear
import Megalos.LoadOrder
import Megalos.McpClient
import Megalos.McpRegistry
import Megalos.Middleware
import Megalos.Migration
import Megalos.Observers
import Megalos.PanelRetry
import Megalos.PanelWorkers
import Megalos.Parked
import Megalos.PassedOver
import Megalos.PathAgreement
import Megalos.Predicates
import Megalos.Provenance
import Megalos.Races
import Megalos.RateCharges
import Megalos.RateHistory
import Megalos.RateWindow
import Megalos.RecordFile
import Megalos.RefGrammar
import Megalos.RegistryLoading
import Megalos.Revision
import Megalos.SessionBuckets
import Megalos.SessionCanon
import Megalos.SkippedAbsent
import Megalos.SkippedReport
import Megalos.SkippedSteps
import Megalos.Stack
import Megalos.StoreCalls
import Megalos.Stranded
import Megalos.Throttle
import Megalos.ThrottleWaits
import Megalos.Timestamps
import Megalos.Totality
import Megalos.Transparent
import Megalos.Versioning
import Megalos.Waiting
import Megalos.Walkthrough
