/-
**What recovery reads of a run.**

The manifest and the tasks of a run, cut down to what `runtime/stale-reconciler.ts` and
`runtime/recovery/crash-recovery.ts` read, and what they see of the host: the clock, the processes, the
plans and the index of active runs.

* `TeamTaskState.quietFor` — how long a task has given no sign of life.

A date is the number of milliseconds that is read from it, and `none` where there is no date or it cannot
be read. A process id that is no whole number is not taken for one, like one that is not positive. The
records of the agents, the sweeps of the processes and the events are left out.
-/

import PiCrew.Dispatch.Limits

namespace PiCrew.Recovery

open State (PlanApprovalState PlanPointer PlanRecord TaskWaiting TeamRunStatus TeamTaskStatus)

structure WorkerHeartbeatState where
  lastSeenAt : Option Int
  alive : Option Bool := none
  pid : Option Int := none
  deriving DecidableEq

structure CrewAgentProgress where
  lastActivityAt : Option Int := none
  deriving DecidableEq

structure TaskCheckpointState where
  childPid : Option Int := none
  deriving DecidableEq

structure TeamTaskState where
  id : String
  status : TeamTaskStatus
  startedAt : Option Int := none
  finishedAt : Option Int := none
  error : Option String := none
  heartbeat : Option WorkerHeartbeatState := none
  agentProgress : Option CrewAgentProgress := none
  checkpoint : Option TaskCheckpointState := none
  waiting : Option TaskWaiting := none
  deriving DecidableEq

/-- The ask that a run is parked on. A park of an old run has no deadline. -/
structure WaitState where
  askedAt : Option Int
  deadline : Option Int := none
  deriving DecidableEq

/-- The runner of a run that has a process of its own. -/
structure AsyncRunner where
  pid : Option Int := none
  deriving DecidableEq

structure TeamRunManifest where
  runId : String
  status : TeamRunStatus
  summary : Option String := none
  updatedAt : Option Int := none
  ownerSessionId : Option String := none
  planApproval : Option PlanApprovalState := none
  plan : Option PlanPointer := none
  waitState : Option WaitState := none
  async : Option AsyncRunner := none
  deriving DecidableEq

def TeamRunManifest.runnerPid (manifest : TeamRunManifest) : Option Int := manifest.async.bind (·.pid)

structure RunFiles where
  manifest : TeamRunManifest
  tasks : List TeamTaskState := []
  deriving DecidableEq

structure ActiveRunRegistryEntry where
  runId : String
  cwd : String
  stateRoot : String
  manifestPath : String
  updatedAt : String
  deriving DecidableEq

/-- What the signal zero tells about a process. -/
inductive Probe where
  | delivered
  | denied
  | missing
  | failed (message : String)
  deriving DecidableEq

structure TeamHeartbeat where
  pid : Option Int := none
  «at» : Option Int := none
  mtime : Option Int := none

/-- **What recovery sees of the host.** `recycled` are the ids whose process changes while it is probed,
and `liveEntry` is what the index of active runs takes for a live claim. -/
structure Host where
  clock : Int
  probe : Int → Probe := fun _ => .missing
  recycled : Int → Bool := fun _ => false
  plans : String → List PlanRecord := fun _ => []
  liveEntry : String → Option ActiveRunRegistryEntry := fun _ => none
  teamHeartbeat : String → Option TeamHeartbeat := fun _ => none
  pathExists : String → Bool := fun _ => true
  symlinkSafe : String → Bool := fun _ => true

structure ProcessLiveness where
  alive : Bool
  detail : String
  deriving DecidableEq

/-- **Whether a process is there.** A process that may not be signalled is there. -/
def checkProcessLiveness (host : Host) (pid : Option Int) : ProcessLiveness :=
  match pid.filter (0 < ·) with
  | none => { alive := false, detail := "no pid recorded" }
  | some pid =>
    match host.probe pid with
    | .delivered => { alive := true, detail := "process is alive" }
    | .denied => { alive := true, detail := "process exists but permission is denied" }
    | .missing => { alive := false, detail := "process does not exist" }
    | .failed message => { alive := false, detail := message }

def waitingTtlMs : Int := 24 * 60 * 60 * 1000

def parkedAskGraceMs : Int := 60 * 60 * 1000

def isPlanApprovalPending (manifest : TeamRunManifest) : Bool := manifest.status = .blocked &&
    manifest.planApproval.any fun approval => approval.required && approval.status = .pending

def currentPlanRecord (host : Host) (manifest : TeamRunManifest) : Option PlanRecord :=
  Dispatch.getCurrentPlanRecord (host.plans manifest.runId)
    { runId := manifest.runId, status := manifest.status, plan := manifest.plan }

/-- **A run is blocked on the approval of its plan**, by the manifest or by the record of the plan. -/
def isPlanApprovalPendingEffective (host : Host) (manifest : TeamRunManifest) : Bool :=
  isPlanApprovalPending manifest || (manifest.status = .blocked &&
      (currentPlanRecord host manifest).bind (·.approval) = some .pending)

/-- **A run is parked on an ask**: it is not older than a day, and its deadline is not over for more than
an hour. -/
def isWaitAnswerPending (manifest : TeamRunManifest) (now : Int) : Bool :=
  match manifest.waitState with
  | none => false
  | some waitState =>
    match waitState.askedAt with
    | none => false
    | some askedAt =>
      if waitingTtlMs < now - askedAt then false
      else waitState.deadline.all fun deadline => now ≤ deadline + parkedAskGraceMs

def isIntentionalWait (host : Host) (manifest : TeamRunManifest) (now : Int) : Bool :=
  isPlanApprovalPendingEffective host manifest || isWaitAnswerPending manifest now

namespace TeamTaskState

variable (task : TeamTaskState)

def active : Bool := task.status = .running || task.status = .waiting

def unfinished : Bool := task.status = .running || task.status = .queued || task.status = .waiting

def lastSeenAt : Option Int := task.heartbeat.bind (·.lastSeenAt)

def lastActivityAt : Option Int := task.agentProgress.bind (·.lastActivityAt)

def workerPid : Option Int := (task.heartbeat.bind (·.pid)).or (task.checkpoint.bind (·.childPid))

def maxSafeInteger : Int := 9007199254740991

/-- **The time since the last sign of life** of a task, if it gave one. -/
def quietFor (now : Int) : Option Int :=
  if task.lastSeenAt.isNone && task.lastActivityAt.isNone then none
  else
    some (min ((task.lastSeenAt.map (now - ·)).getD maxSafeInteger)
      ((task.lastActivityAt.map (now - ·)).getD maxSafeInteger))

/-- A task with a sign of life that is not older than some time. -/
def activeWithin (ttl now : Int) : Bool := task.active &&
    ((task.heartbeat.bind (·.alive) ≠ some false &&
        task.lastSeenAt.any fun seen => now - seen ≤ ttl) ||
      task.lastActivityAt.any fun activity => now - activity ≤ ttl)

end TeamTaskState

end PiCrew.Recovery
