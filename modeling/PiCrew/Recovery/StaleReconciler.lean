/-
**The reconciliation of one run.**

`reconcileStaleRun` (`runtime/stale-reconciler.ts`). A run that waits for a person, or that a live entry of
the index of active runs claims, is left alone; a run whose tasks are all settled is finished. Any other run
is judged by its runner: by the process, where one is recorded, and by the signs of life of its tasks where
none is. What is judged dead is cancelled, the whole run or its stale tasks alone.

* `mem_repairStaleRun` — the tasks after a repair.
-/

import PiCrew.Recovery.Records

namespace PiCrew.Recovery

open State (TeamRunStatus TeamTaskStatus isTerminalTaskStatus)

def staleAlivePidMs : Int := 24 * 60 * 60 * 1000

def activeEvidenceTtlMs : Int := 5 * 60 * 1000

def noPidHeartbeatStaleMs : Int := 5 * 60 * 1000

def alivePidTrustCapMs : Int := 30 * 60 * 1000

def roundDiv (milliseconds unit : Int) : Int := (2 * milliseconds + unit) / (2 * unit)

inductive Verdict where
  | healthy
  | blockedAwaitingApproval
  | waitingAnswer
  | resultExists
  | pidDead
  | pidAliveStale
  | noStatus
  | requeuedNoClaim
  deriving DecidableEq

/-- **The result of a reconciliation.** `repairedTasks` are the tasks that the repair is about, and
`persistTasks` those to save, where these are not the same. -/
structure ReconcileResult where
  runId : String
  verdict : Verdict
  repaired : Bool
  detail : String
  repairedTasks : Option (List TeamTaskState) := none
  persistTasks : Option (List TeamTaskState) := none
  deriving DecidableEq

section

variable (host : Host)

/-- What the heartbeat file of a run adds to the detail of a runner that is dead. -/
def heartbeatNote (runId : String) (pid : Int) : String :=
  match host.teamHeartbeat runId with
  | none => ""
  | some heartbeat =>
    match heartbeat.at.filter (· ≠ 0) with
    | none => ""
    | some reported =>
      if heartbeat.pid = some pid then
        " (heartbeat was " ++ toString (roundDiv (host.clock - reported) 1000) ++ "s old)"
      else ""

/-- **Whether the runner of a run is there.** A process whose id was given to another one is not. -/
def checkPidLiveness (manifest : TeamRunManifest) : ProcessLiveness :=
  match manifest.runnerPid.filter (0 < ·) with
  | none => { alive := false, detail := "no pid recorded" }
  | some pid =>
    let liveness := checkProcessLiveness host (some pid)
    if host.recycled pid then { alive := false, detail := "pid_recycled" }
    else if liveness.alive then liveness
    else { alive := false, detail := liveness.detail ++ heartbeatNote host manifest.runId pid }

structure Staleness where
  stale : Bool
  reason : String
  deriving DecidableEq

/-- A run whose runner is dead is stale, and one that did not change for a day. -/
def evaluateStaleness (manifest : TeamRunManifest) (pidAlive : Bool) (now : Int) : Staleness :=
  if !pidAlive then { stale := true, reason := "pid_dead" }
  else
    match manifest.updatedAt with
    | none => { stale := false, reason := "updated_at_invalid" }
    | some updatedAt =>
      if staleAlivePidMs < now - updatedAt then
        { stale := true
          reason := "alive_but_stale_" ++ toString (roundDiv (now - updatedAt) 3600000) ++ "h" }
      else { stale := false, reason := "alive_and_recent" }

def hasRecentActiveEvidence (tasks : List TeamTaskState) (now : Int) : Bool :=
  tasks.any (·.activeWithin activeEvidenceTtlMs now)

/-- **A task is stale**: it gave a sign of life, not for five minutes, and its worker is dead or silent for
more than half an hour. -/
def isTaskHeartbeatStale (task : TeamTaskState) (now : Int) : Bool :=
  match task.quietFor now with
  | none => false
  | some elapsed =>
    if elapsed ≤ noPidHeartbeatStaleMs then false
    else
      !((checkProcessLiveness host task.workerPid).alive && elapsed ≤ alivePidTrustCapMs)

structure RunningStaleness where
  allStale : Bool
  staleTaskIds : List String
  deriving DecidableEq

def getRunningTaskStaleness (tasks : List TeamTaskState) (now : Int) : RunningStaleness :=
  let runningTasks := tasks.filter (·.active)
  if runningTasks = [] then { allStale := false, staleTaskIds := [] }
  else
    let staleTaskIds := (runningTasks.filter (isTaskHeartbeatStale host · now)).map (·.id)
    { allStale := staleTaskIds.length = runningTasks.length, staleTaskIds := staleTaskIds }

end

section

variable (host : Host)

/-- The error of a task that is cancelled because it is stale. -/
def buildStaleReconcileError (task : TeamTaskState) (reason : String) : String :=
  let age :=
    match task.lastSeenAt with
    | none => ""
    | some seen =>
      " Last heartbeat was " ++ toString (roundDiv (host.clock - seen) 1000) ++ "s ago."
  "Stale run reconciled (reason=" ++ reason ++ ")." ++ age
    ++ " The worker stopped heartbeating and was treated as dead/zombie."

/-- **Cancel the unfinished tasks of a run**, all of them or those with one of some ids. -/
def repairStaleRun (tasks : List TeamTaskState) (reason : String) (onlyTaskIds : Option (List String)) :
    List TeamTaskState :=
  tasks.map fun task =>
    if onlyTaskIds.all (task.id ∈ ·) && task.unfinished then
      { task with
        status := .cancelled
        finishedAt := some host.clock
        error := some (buildStaleReconcileError host task reason) }
    else task

def cancelledCount (tasks : List TeamTaskState) : Nat := tasks.countP (·.status = .cancelled)

/-- **A run whose tasks are all settled** is finished, as they ended. -/
def checkResultFile (manifest : TeamRunManifest) (tasks : List TeamTaskState) :
    Option TeamRunManifest :=
  if tasks ≠ [] ∧ tasks.all (isTerminalTaskStatus ·.status) then
    let hasFailed := tasks.any fun task => task.status = .failed || task.status = .needsAttention
    let onlyCancelledOrSkipped :=
      tasks.all fun task => task.status = .cancelled || task.status = .skipped
    some { manifest with
      status := if hasFailed then .failed else if onlyCancelledOrSkipped then .cancelled else .completed }
  else none

/-- **A run with no process of its own**, judged by the signs of life of its tasks. -/
def reconcileNoPid (manifest : TeamRunManifest) (tasks : List TeamTaskState) (now : Int) :
    ReconcileResult :=
  let unrepaired (detail : String) : ReconcileResult :=
    { runId := manifest.runId, verdict := .noStatus, repaired := false, detail := detail }
  let staleness := getRunningTaskStaleness host tasks now
  if hasRecentActiveEvidence tasks now then
    unrepaired "No PID recorded, but recent task heartbeat/progress exists; not repairing"
  else if staleness.allStale then
    let repaired := repairStaleRun host tasks "no_pid_heartbeat_stale" none
    { runId := manifest.runId
      verdict := .noStatus
      repaired := true
      detail :=
        "No PID; all running task heartbeats stale >" ++ toString (roundDiv noPidHeartbeatStaleMs 60000)
          ++ "min; repaired " ++ toString (cancelledCount repaired) ++ " tasks"
      repairedTasks := some repaired }
  else if staleness.staleTaskIds ≠ [] then
    -- the stale tasks alone are cancelled
    let repaired :=
      repairStaleRun host tasks "no_pid_individual_stale_task" (some staleness.staleTaskIds)
    { runId := manifest.runId
      verdict := .noStatus
      repaired := true
      detail :=
        "No PID; " ++ toString staleness.staleTaskIds.length ++ " individually stale task(s) repaired: "
          ++ ", ".intercalate staleness.staleTaskIds
      repairedTasks := some (repaired.filter (·.id ∈ staleness.staleTaskIds))
      persistTasks := some repaired }
  else
    match manifest.updatedAt.filter (staleAlivePidMs < now - ·) with
    | some updatedAt =>
      let repaired := repairStaleRun host tasks "no_pid_stale" none
      { runId := manifest.runId
        verdict := .noStatus
        repaired := true
        detail :=
          "No PID; stale " ++ toString (roundDiv (now - updatedAt) 3600000) ++ "h; repaired "
            ++ toString (cancelledCount repaired) ++ " tasks"
        repairedTasks := some repaired }
    | none => unrepaired "No PID recorded; not stale enough to repair"

/-- **A run with a process of its own**, judged by the process. -/
def reconcilePid (manifest : TeamRunManifest) (tasks : List TeamTaskState) (now : Int) :
    ReconcileResult :=
  let pidStatus := checkPidLiveness host manifest
  let staleness := evaluateStaleness manifest pidStatus.alive now
  let who := "PID " ++ toString (manifest.runnerPid.getD 0) ++ ": " ++ pidStatus.detail
  if !staleness.stale then
    { runId := manifest.runId, verdict := .healthy, repaired := false
      detail := who ++ ", " ++ staleness.reason }
  else
    let repaired := repairStaleRun host tasks staleness.reason none
    { runId := manifest.runId
      verdict := if pidStatus.alive then .pidAliveStale else .pidDead
      repaired := true
      detail :=
        who ++ "; " ++ staleness.reason ++ "; repaired " ++ toString (cancelledCount repaired) ++ " tasks"
      repairedTasks := some repaired }

/-- **Reconcile a run**: its manifest afterwards, which is saved where the run is finished, and the
result. -/
def reconcileStaleRun (manifest : TeamRunManifest) (tasks : List TeamTaskState) (now : Int) :
    TeamRunManifest × ReconcileResult :=
  let unrepaired (verdict : Verdict) (detail : String) : ReconcileResult :=
    { runId := manifest.runId, verdict := verdict, repaired := false, detail := detail }
  if isPlanApprovalPendingEffective host manifest then
    (manifest, unrepaired .blockedAwaitingApproval
      ("Plan approval is pending; blocked run is intentionally waiting and must not be "
        ++ "stale-repaired"))
  else if isWaitAnswerPending manifest now then
    (manifest, unrepaired .waitingAnswer
      ("Ask answer pending (manifest.waitState.askedAt within waiting TTL); run is intentionally "
        ++ "waiting and must not be stale-repaired"))
  else
    match host.liveEntry manifest.runId with
    | some entry =>
      (manifest, unrepaired .healthy
        ("Foreign-LIVE run: active-run registry entry is alive (cwd " ++ entry.cwd ++ ", updatedAt "
          ++ entry.updatedAt ++ "); reconcile skipped — a live session/runner owns this run, "
          ++ "nothing was changed"))
    | none =>
      match checkResultFile manifest tasks with
      | some finished =>
        (finished, unrepaired .resultExists "All tasks already terminal — no repair needed")
      | none =>
        if (checkPidLiveness host manifest).detail = "no pid recorded" then
          (manifest, reconcileNoPid host manifest tasks now)
        else (manifest, reconcilePid host manifest tasks now)

end

section

variable (host : Host) (manifest : TeamRunManifest) (tasks : List TeamTaskState) (now : Int)

def noPidRecorded : Bool := (checkPidLiveness host manifest).detail = "no pid recorded"

/-- **A run is judged**: it waits for no person, no live entry claims it, and it has a task that is not
settled. -/
def judged : Bool := !isIntentionalWait host manifest now && (host.liveEntry manifest.runId).isNone
    && (checkResultFile manifest tasks).isNone

/-- **The stale tasks of a run are repaired, and no others**: it has no process, shows no recent sign of
life, and some of its tasks are stale, but not all. -/
def repairsSubset : Bool :=
  judged host manifest tasks now && noPidRecorded host manifest && !hasRecentActiveEvidence tasks now
    && !(getRunningTaskStaleness host tasks now).allStale
    && (getRunningTaskStaleness host tasks now).staleTaskIds ≠ []

def oldManifest : Bool := manifest.updatedAt.any (staleAlivePidMs < now - ·)

/-- **A run is repaired as a whole**: its runner is dead, or did not change the manifest for a day; or it
has no process and shows no recent sign of life, and all its tasks are stale, or none is and the manifest
did not change for a day. -/
def repairsWhole : Bool := judged host manifest tasks now &&
    if noPidRecorded host manifest then
      !hasRecentActiveEvidence tasks now && ((getRunningTaskStaleness host tasks now).allStale
          || (getRunningTaskStaleness host tasks now).staleTaskIds = [] && oldManifest manifest now)
    else !(checkPidLiveness host manifest).alive || oldManifest manifest now

/-- **What a reconciliation comes to.** -/
inductive Reconciled : TeamRunManifest → ReconcileResult → Prop
  | spared {verdict : Verdict} {detail : String} (whole : repairsWhole host manifest tasks now = false)
      (subset : repairsSubset host manifest tasks now = false) (other : verdict ≠ .resultExists) :
      Reconciled manifest
        { runId := manifest.runId, verdict := verdict, repaired := false, detail := detail }
  | finished {detail : String} {finished : TeamRunManifest}
      (whole : repairsWhole host manifest tasks now = false)
      (subset : repairsSubset host manifest tasks now = false)
      (waits : isIntentionalWait host manifest now = false)
      (settled : checkResultFile manifest tasks = some finished) :
      Reconciled finished
        { runId := manifest.runId, verdict := .resultExists, repaired := false, detail := detail }
  | whole {verdict : Verdict} {detail : String} (reason : String)
      (whole : repairsWhole host manifest tasks now = true)
      (subset : repairsSubset host manifest tasks now = false) (other : verdict ≠ .resultExists) :
      Reconciled manifest
        { runId := manifest.runId, verdict := verdict, repaired := true, detail := detail
          repairedTasks := some (repairStaleRun host tasks reason none) }
  | subset {detail : String} (reason : String) (whole : repairsWhole host manifest tasks now = false)
      (subset : repairsSubset host manifest tasks now = true) :
      Reconciled manifest
        { runId := manifest.runId, verdict := .noStatus, repaired := true, detail := detail
          repairedTasks := some ((repairStaleRun host tasks reason
              (some (getRunningTaskStaleness host tasks now).staleTaskIds)).filter
                (·.id ∈ (getRunningTaskStaleness host tasks now).staleTaskIds))
          persistTasks := some (repairStaleRun host tasks reason
              (some (getRunningTaskStaleness host tasks now).staleTaskIds)) }

variable {host manifest tasks now}

theorem evaluateStaleness_stale (pidAlive : Bool) :
    (evaluateStaleness manifest pidAlive now).stale = (!pidAlive || oldManifest manifest now) := by
  unfold evaluateStaleness oldManifest
  cases pidAlive with
  | false => rfl
  | true =>
    cases manifest.updatedAt with
    | none => rfl
    | some updatedAt =>
      by_cases old : staleAlivePidMs < now - updatedAt
      · simp [old]
      · simp [old]

theorem oldManifest_eq :
    oldManifest manifest now = (manifest.updatedAt.filter (staleAlivePidMs < now - ·)).isSome := by
  unfold oldManifest
  cases manifest.updatedAt with
  | none => rfl
  | some updatedAt =>
    by_cases old : staleAlivePidMs < now - updatedAt
    · simp [old]
    · simp [old]

theorem unrepaired_of_unjudged (unjudged : judged host manifest tasks now = false) :
    repairsWhole host manifest tasks now = false ∧ repairsSubset host manifest tasks now = false := by
  unfold repairsWhole repairsSubset
  rw [unjudged]
  exact ⟨rfl, rfl⟩

theorem reconcileNoPid_reconciled (judge : judged host manifest tasks now = true)
    (unrecorded : noPidRecorded host manifest = true) :
    Reconciled host manifest tasks now manifest (reconcileNoPid host manifest tasks now) := by
  unfold reconcileNoPid
  dsimp only
  split_ifs with recent all part
  · exact .spared (by simp [repairsWhole, judge, unrecorded, recent])
      (by simp [repairsSubset, judge, unrecorded, recent]) (by decide)
  · exact .whole _ (by simp [repairsWhole, judge, unrecorded, recent, all])
      (by simp [repairsSubset, judge, unrecorded, recent, all]) (by decide)
  · exact .subset _ (by simp [repairsWhole, judge, unrecorded, recent, all, part])
      (by simp [repairsSubset, judge, unrecorded, recent, all, part])
  · have subset : repairsSubset host manifest tasks now = false := by
      simp [repairsSubset, part]
    have whole : repairsWhole host manifest tasks now = oldManifest manifest now := by
      simp [repairsWhole, judge, unrecorded, recent, all, not_not.mp part]
    cases old : manifest.updatedAt.filter (staleAlivePidMs < now - ·) with
    | none => exact .spared (by rw [whole, oldManifest_eq, old]; rfl) subset (by decide)
    | some updatedAt => exact .whole _ (by rw [whole, oldManifest_eq, old]; rfl) subset (by decide)

theorem reconcilePid_reconciled (judge : judged host manifest tasks now = true)
    (recorded : noPidRecorded host manifest = false) :
    Reconciled host manifest tasks now manifest (reconcilePid host manifest tasks now) := by
  have subset : repairsSubset host manifest tasks now = false := by simp [repairsSubset, recorded]
  have whole : repairsWhole host manifest tasks now
      = (evaluateStaleness manifest (checkPidLiveness host manifest).alive now).stale := by
    rw [evaluateStaleness_stale, repairsWhole, judge, recorded]
    rfl
  unfold reconcilePid
  dsimp only
  cases stale : (evaluateStaleness manifest (checkPidLiveness host manifest).alive now).stale with
  | false => exact .spared (whole.trans stale) subset (by decide)
  | true =>
    refine .whole _ (whole.trans stale) subset ?_
    split_ifs <;> decide

/-- **What a reconciliation comes to.** -/
theorem reconcileStaleRun_reconciled (host : Host) (manifest : TeamRunManifest)
    (tasks : List TeamTaskState) (now : Int) :
    Reconciled host manifest tasks now (reconcileStaleRun host manifest tasks now).1
      (reconcileStaleRun host manifest tasks now).2 := by
  have unjudged : judged host manifest tasks now = false →
      repairsWhole host manifest tasks now = false ∧ repairsSubset host manifest tasks now = false :=
    unrepaired_of_unjudged
  unfold reconcileStaleRun
  dsimp only
  by_cases plan : isPlanApprovalPendingEffective host manifest = true
  · rw [if_pos plan]
    obtain ⟨whole, subset⟩ := unjudged (by simp [judged, isIntentionalWait, plan])
    exact .spared whole subset (by decide)
  · rw [if_neg plan]
    by_cases wait : isWaitAnswerPending manifest now = true
    · rw [if_pos wait]
      obtain ⟨whole, subset⟩ := unjudged (by simp [judged, isIntentionalWait, wait])
      exact .spared whole subset (by decide)
    · rw [if_neg wait]
      have waits : isIntentionalWait host manifest now = false := by
        simp [isIntentionalWait, plan, wait]
      cases claimed : host.liveEntry manifest.runId with
      | some entry =>
        obtain ⟨whole, subset⟩ := unjudged (by simp [judged, claimed])
        exact .spared whole subset (by decide)
      | none =>
        cases settled : checkResultFile manifest tasks with
        | some finished =>
          obtain ⟨whole, subset⟩ := unjudged (by simp [judged, settled])
          exact .finished whole subset waits settled
        | none =>
          have judge : judged host manifest tasks now = true := by
            simp [judged, waits, claimed, settled]
          dsimp only
          by_cases unrecorded : (checkPidLiveness host manifest).detail = "no pid recorded"
          · rw [if_pos unrecorded]
            exact reconcileNoPid_reconciled judge (decide_eq_true unrecorded)
          · rw [if_neg unrecorded]
            exact reconcilePid_reconciled judge (decide_eq_false unrecorded)

/-- **A task after a repair**: it is cancelled, or what it was. -/
theorem mem_repairStaleRun {reason : String} {onlyTaskIds : Option (List String)}
    {task : TeamTaskState} (member : task ∈ repairStaleRun host tasks reason onlyTaskIds) :
    task.status = .cancelled ∨
      (task ∈ tasks ∧ ¬ (onlyTaskIds.all (task.id ∈ ·) = true ∧ task.unfinished = true)) := by
  obtain ⟨before, there, rfl⟩ := List.mem_map.mp member
  split_ifs with hit
  · exact Or.inl rfl
  · exact Or.inr ⟨there, fun both => hit (Bool.and_eq_true_iff.mpr both)⟩

end

end PiCrew.Recovery
