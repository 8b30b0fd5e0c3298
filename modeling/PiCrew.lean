import PiCrew.Merge.OrderIndependence
import PiCrew.TaskRunner.TerminalPreserve
import PiCrew.Runner.CancelSurvival
import PiCrew.Dispatch.Readiness
import PiCrew.Dispatch.Progress
import PiCrew.Dispatch.PathOverlap
import PiCrew.Scheduling.Semaphore
import PiCrew.EventLog.Polling
import PiCrew.Mailbox.Acknowledged
import PiCrew.Mailbox.Idempotent
import PiCrew.Coordination.Locks
import PiCrew.Broker.Outbound
import PiCrew.Broker.EventsSince
import PiCrew.Broker.ChallengeResponse
import PiCrew.Broker.OneAnswer
import PiCrew.Broker.RunBudget
import PiCrew.Recovery.IntentionalWaits
import PiCrew.Recovery.FinishedRuns
import PiCrew.GoalWorkflow.CallAccounts
import PiCrew.GoalWorkflow.StopWins
import PiCrew.GoalWorkflow.Lifecycle
import PiCrew.GoalWorkflow.GoalBudget
import PiCrew.Subagents.BatchNotices
import PiCrew.Delivery.Whereabouts
import PiCrew.Handoffs.Reachable
import PiCrew.Workflow.PhasesFollow
import PiCrew.Store.CacheCoherence
import PiCrew.Store.CoalescedWrites
import PiCrew.Coordination.WorkspaceExclusion
import PiCrew.Config.UserPolicy
import PiCrew.Scheduling.GraphAlgorithms
import PiCrew.Scheduling.SubtreeMoves
import PiCrew.Broker.Frames
import PiCrew.Plans.ApprovalGate
import PiCrew.Store.KeptRegistrations
import PiCrew.AgentRecords.KeptAgents
import PiCrew.Dispatch.RetriedUnit
import PiCrew.Coalescing.DispatchUnits
import PiCrew.Coalescing.GroupRun
import PiCrew.Coalescing.OutputSplitter
import PiCrew.EventLog.PoisonMarkers
import PiCrew.Scheduling.OnceJobs
import PiCrew.Network.IpLiteral
import PiCrew.Editing.Replace
import PiCrew.EventLog.Reconstruction
import PiCrew.Terminal.UntrustedLine
import PiCrew.Workflow.StepGraph
import PiCrew.Scheduling.CronSearch
import PiCrew.Workflow.ChainDsl
import PiCrew.Terminal.VisualWidth
import PiCrew.Terminal.WorkerFence
import PiCrew.Broker.StdinHandshake
import PiCrew.Compaction.ToolOutputs
import PiCrew.EventLog.LiveTail
import PiCrew.Paths.StrictContainment
import PiCrew.Workflow.ChainRunner
import PiCrew.Store.FailedWrites
import PiCrew.Models.SafetyRefusal
import PiCrew.Dispatch.InFlight
