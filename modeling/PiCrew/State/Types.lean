/-
**The records of a team run: tasks, artifacts and the graph node of a task.**

The task record of `state/types.ts`, cut down to the fields that the schedulers, the merge gate and
the task store read or write. An optional field of the source is an `Option`; a field typed by a
union of literals is an enumeration.

Two records are compared *by reference* in the source (`updated.resultArtifact !==
current.resultArtifact`), so an `ArtifactDescriptor` carries the identity of its object in `ref`:
two descriptors are the same object exactly when their `ref`s agree.
-/

import PiCrew.State.Contracts

namespace PiCrew.State

/-- A descriptor of a file a worker produced. `ref` is the identity of the JavaScript object. -/
structure ArtifactDescriptor where
  ref : Nat
  path : String := ""
  deriving DecidableEq, Repr

/-- The queue a task stands in (`TaskGraphNode["queue"]`). -/
inductive TaskQueue where
  | ready | blocked | running | done
  deriving DecidableEq, Repr

structure TaskGraphNode where
  taskId : String
  parentId : Option String := none
  children : List String := []
  dependencies : List String := []
  queue : TaskQueue
  deriving DecidableEq, Repr

structure ModelAttemptState where
  model : String
  success : Bool
  deriving DecidableEq, Repr

structure TaskAttemptState where
  startedAt : String
  endedAt : Option String := none
  deriving DecidableEq, Repr

structure UsageState where
  input : Option Nat := none
  output : Option Nat := none
  deriving DecidableEq, Repr

structure WorkerHeartbeatState where
  workerId : String
  lastSeenAt : String
  deriving DecidableEq, Repr

structure CrewAgentProgress where
  toolCount : Nat := 0
  lastActivityAt : Option String := none
  deriving DecidableEq, Repr

/-- How far a task had got when its checkpoint was written. -/
inductive CheckpointPhase where
  | started | childSpawned | childStdoutFinal | artifactWritten
  deriving DecidableEq, Repr

structure TaskCheckpointState where
  phase : CheckpointPhase
  updatedAt : String
  deriving DecidableEq, Repr

/-- The token budget a delegated task was granted and what it spent. -/
structure TaskAllocation where
  tokensGranted : Int
  tokensSpent : Int
  deriving DecidableEq, Repr

/-- The park of a task that waits for an answer. -/
structure TaskWaiting where
  questionId : String
  askedAt : String
  deadline : Nat
  options : Option (List String) := none
  deriving DecidableEq, Repr

/-- The filesystem failures a task can die of (`FatalFsCause`). -/
inductive FatalFsCause where
  | enospc | edquot | emfile | enfile
  deriving DecidableEq, Repr

/-- **A task of a run** (`TeamTaskState`). A task without `stepId` is a shadow task: it was spawned
by another task and stands outside the workflow. -/
structure TeamTaskState where
  id : String
  stepId : Option String := none
  role : String := ""
  status : TeamTaskStatus
  dependsOn : List String := []
  resultArtifact : Option ArtifactDescriptor := none
  startedAt : Option String := none
  finishedAt : Option String := none
  modelAttempts : Option (List ModelAttemptState) := none
  usage : Option UsageState := none
  jsonEvents : Option Nat := none
  agentProgress : Option CrewAgentProgress := none
  error : Option String := none
  failureCause : Option FatalFsCause := none
  heartbeat : Option WorkerHeartbeatState := none
  checkpoint : Option TaskCheckpointState := none
  attempts : Option (List TaskAttemptState) := none
  graph : Option TaskGraphNode := none
  allocation : Option TaskAllocation := none
  waiting : Option TaskWaiting := none
  deriving DecidableEq, Repr

/-- What the manifest says was decided on a plan (`PlanApprovalState["status"]`). -/
inductive ApprovalStatus where
  | pending | approved | cancelled
  deriving DecidableEq, Repr

/-- What the record of a plan says (`PlanApprovalRecord["status"]`). A deny is `rejected` there. -/
inductive RecordedApproval where
  | pending | approved | rejected
  deriving DecidableEq, Repr

structure PlanApprovalState where
  required : Bool
  status : ApprovalStatus
  deriving DecidableEq, Repr

structure PlanPointer where
  id : String
  version : Int
  deriving DecidableEq, Repr

/-- One revision of a plan, cut down to what the approval gate reads. -/
structure PlanRecord where
  id : String
  version : Int
  approval : Option RecordedApproval := none
  deriving DecidableEq, Repr

/-- **The manifest of a run** (`TeamRunManifest`). -/
structure TeamRunManifest where
  runId : String
  status : TeamRunStatus
  summary : Option String := none
  updatedAt : String := ""
  artifacts : List ArtifactDescriptor := []
  planApproval : Option PlanApprovalState := none
  plan : Option PlanPointer := none
  deriving DecidableEq, Repr

def truthyText (text : Option String) : Bool := text.any fun content => content != ""

end PiCrew.State
