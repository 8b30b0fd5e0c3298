/-
**The passes of the recovery.**

`runtime/recovery/crash-recovery.ts`: `reconcileAllStaleRuns` settles the runs that are stale,
`cancelOrphanedRuns` cancels those whose session is gone, and `purgeStaleActiveRunIndex` takes those that
ended out of the index of active runs (`state/stores/active-run-registry.ts`). Each pass decides on what it
saw before, takes the lock of the run, reads the files again, and decides once more.

* `sweep_keeps` — what every turn keeps, the pass keeps.

The turns of different runs meet in the index of active runs alone, so a pass takes them in order. What the
host shows at the turn of a run is an input, and so is what a pass sees before it has the lock.
-/

import PiCrew.Recovery.StaleReconciler
import Mathlib.Logic.Function.Basic

namespace PiCrew.Recovery

open State (TeamRunStatus TeamTaskStatus canTransitionRunStatus)

/-- **The runs, the index of active runs**, which has one entry of a run, and the runs whose live agents
were told to end. -/
structure World where
  runs : String → Option RunFiles
  registry : List ActiveRunRegistryEntry
  distinct : (registry.map (·.runId)).Nodup
  terminated : List String := []

/-- **What the turn of a run leaves.** A manifest that is quarantined leaves no files. -/
structure Turn where
  files : Option RunFiles
  terminates : Bool := false
  unregisters : Bool := false
  deriving DecidableEq

def activeRunStaleMs : Int := 30 * 60 * 1000

def registryTerminalStatuses : List TeamRunStatus := [.completed, .failed, .cancelled, .blocked]

def registryStale (host : Host) (manifest : TeamRunManifest) : Bool :=
  manifest.updatedAt.any (activeRunStaleMs < host.clock - ·)

/-- **The index keeps an entry** (`filterAliveEntries`). -/
def countsAlive (host : Host) (files : Option RunFiles) (entry : ActiveRunRegistryEntry) : Bool :=
  host.pathExists entry.cwd && host.pathExists entry.manifestPath && host.symlinkSafe entry.stateRoot
    && host.symlinkSafe entry.manifestPath && files.any fun read =>
      read.manifest.status ∉ registryTerminalStatuses &&
        match read.manifest.async with
        | none => !registryStale host read.manifest
        | some runner =>
          match runner.pid.filter (· ≠ 0) with
          | none => true
          | some pid =>
            match host.probe pid with
            | .delivered => !registryStale host read.manifest
            | .missing => false
            | .denied | .failed _ => true

namespace World

/-- **Take a run out of the index**, with every entry that the index does not keep. -/
def unregister (world : World) (host : Host) (runId : String) : World :=
  { world with
    registry := world.registry.filter fun entry =>
      entry.runId ≠ runId && countsAlive host (world.runs entry.runId) entry
    distinct := world.distinct.sublist (List.filter_sublist.map _) }

def apply (world : World) (host : Host) (runId : String) (turn : Turn) : World :=
  let written : World :=
    { world with
      runs := Function.update world.runs runId turn.files
      terminated := if turn.terminates then world.terminated ++ [runId] else world.terminated }
  if turn.unregisters then written.unregister host runId else written

end World

/-- **A pass**: it visits some items in order, and reports something for each. -/
def sweep {α ρ : Type} (visit : World → α → World × List ρ) (world : World) :
    List α → World × List ρ
  | [] => (world, [])
  | item :: rest =>
    let first := visit world item
    let later := sweep visit first.1 rest
    (later.1, first.2 ++ later.2)

/-- **What every turn keeps, the pass keeps.** -/
theorem sweep_keeps {α ρ : Type} {visit : World → α → World × List ρ} {kept : World → Prop}
    {items : List α}
    (keeps : ∀ world, ∀ item ∈ items, kept world → kept (visit world item).1) {world : World}
    (initial : kept world) : kept (sweep visit world items).1 := by
  induction items generalizing world with
  | nil => exact initial
  | cons item rest ih =>
    refine ih (fun other later there => keeps other later (List.mem_cons_of_mem _ there)) ?_
    exact keeps world item List.mem_cons_self initial

/-- **Move a run to a status**, or throw. Every status that recovery writes is final, so that the store
does not put another one in its place. -/
def updateRunStatus (host : Host) (manifest : TeamRunManifest) (status : TeamRunStatus)
    (summary : String) : Option TeamRunManifest :=
  if canTransitionRunStatus manifest.status status then
    some { manifest with status := status, updatedAt := some host.clock, summary := some summary }
  else none

def saveRunTasks (files : RunFiles) (tasks : List TeamTaskState) : RunFiles :=
  if tasks.isEmpty && !files.tasks.isEmpty then files else { files with tasks := tasks }

def cancelUnfinished (tasks : List TeamTaskState) (error : String) (now : Int) : List TeamTaskState :=
  tasks.map fun task =>
    if task.unfinished then
      { task with status := .cancelled, finishedAt := some now, error := some error }
    else task

/-- **Cancel a run** that is running or blocked, with its tasks and its park. -/
def cancelRun (host : Host) (files : RunFiles) (error summary : String) (now : Int) : RunFiles where
  manifest :=
    { files.manifest with
      status := .cancelled, updatedAt := some host.clock, summary := some summary, waitState := none }
  tasks := cancelUnfinished files.tasks error now

section

variable (host : Host)

/-- The manifest or the heartbeat file of a run is not older than a threshold. -/
def hasRecentLifeEvidence (runId : String) (updatedAt : Option Int) (now staleThresholdMs : Int) :
    Bool :=
  (updatedAt.any fun updated => now - updated ≤ staleThresholdMs) ||
    ((host.teamHeartbeat runId).bind (·.mtime)).any fun written => now - written ≤ staleThresholdMs

def hasRecentTaskActivity (tasks : List TeamTaskState) (now staleThresholdMs : Int) : Bool :=
  tasks.any (·.activeWithin staleThresholdMs now)

/-- **A run came back to life**, by the files that were read under its lock. -/
def hasFreshLivenessEvidence (files : RunFiles) (now staleThresholdMs : Int) : Bool :=
  hasRecentLifeEvidence host files.manifest.runId files.manifest.updatedAt now staleThresholdMs
    || (checkProcessLiveness host files.manifest.runnerPid).alive
    || hasRecentTaskActivity files.tasks now staleThresholdMs

/-- **Somebody claims a run**: the index of active runs, or its runner. -/
def hasLiveRunClaim (manifest : TeamRunManifest) : Bool :=
  (host.liveEntry manifest.runId).isSome || (checkProcessLiveness host manifest.runnerPid).alive

end

section

variable (host : Host)

/-- **The fast path applies**: the runner is dead, nobody claims the run, it waits for no person, and a
worker was at a task, or a task was parked. -/
def fastPathApplies (files : RunFiles) (now : Int) : Bool :=
  files.manifest.runnerPid.any (0 < ·) && !(checkProcessLiveness host files.manifest.runnerPid).alive
    && !hasLiveRunClaim host files.manifest && !isIntentionalWait host files.manifest now
    && files.tasks.any (·.active)

def requeueIds (tasks : List TeamTaskState) : List String := (tasks.filter (·.active)).map (·.id)

/-- **A task goes back to the queue.** -/
def requeueTask (task : TeamTaskState) : TeamTaskState :=
  { task with
    status := .queued, startedAt := none, finishedAt := none, error := none, heartbeat := none
    waiting := none }

def requeueTasks (tasks : List TeamTaskState) : List TeamTaskState :=
  tasks.map fun task => if task.id ∈ requeueIds tasks then requeueTask task else task

/-- **The fast path**: requeue what was interrupted, and fail the run. A status that cannot be left throws,
with the tasks saved. -/
def applyReconcileAtOpenFastPath (files : RunFiles) (now : Int) :
    Option (Turn × Option ReconcileResult) :=
  if fastPathApplies host files now then
    let tasks := requeueTasks files.tasks
    let count := toString (requeueIds files.tasks).length
    match updateRunStatus host files.manifest .failed
        ("Interrupted: async runner dead (no live claim); " ++ count
          ++ " task(s) requeued for resume") with
    | none => some ({ files := some (saveRunTasks files tasks) }, none)
    | some failed =>
      some
        ({ files := some { manifest := failed, tasks := (saveRunTasks files tasks).tasks }
           unregisters := true },
          some {
            runId := files.manifest.runId
            verdict := .requeuedNoClaim
            repaired := true
            detail :=
              "No live claim (async pid " ++ toString (files.manifest.runnerPid.getD 0)
                ++ " dead, no live registry entry); requeued " ++ count
                ++ " interrupted task(s) (running or abandoned waiting) → queued for resume (attempt "
                ++ "state preserved); run marked failed so later reconcile passes leave it resumable"
            repairedTasks := some tasks })
  else none

/-- **Write what a reconciliation came to**, where it repaired or finished the run: the run fails. A status
that cannot be left throws, with the tasks saved. -/
def settleReconciled (files : RunFiles) (manifest : TeamRunManifest) (result : ReconcileResult) :
    Turn × Option ReconcileResult :=
  let reported := if result.verdict = .healthy then none else some result
  if result.repaired ∨ result.verdict = .resultExists then
    let saved :=
      match result.repairedTasks with
      | none => { files with manifest := manifest }
      | some repaired =>
        saveRunTasks { files with manifest := manifest } (result.persistTasks.getD repaired)
    match updateRunStatus host manifest .failed ("Stale run reconciled: " ++ result.detail) with
    | none => ({ files := some saved }, none)
    | some failed =>
      ({ files := some { saved with manifest := failed }, terminates := true, unregisters := true },
        reported)
  else ({ files := some files }, reported)

/-- **The turn of a run in `reconcileAllStaleRuns`**, on the files that are read under its lock. -/
def reconcileRun (files : RunFiles) (now : Int) : Turn × Option ReconcileResult :=
  if files.manifest.status ≠ .running ∧ files.manifest.status ≠ .blocked then
    ({ files := some files }, none)
  else if isPlanApprovalPendingEffective host files.manifest then
    ({ files := some files },
      some {
        runId := files.manifest.runId, verdict := .blockedAwaitingApproval, repaired := false
        detail := "Plan approval is pending; stale reconciliation skipped" })
  else
    match applyReconcileAtOpenFastPath host files now with
    | some requeued => requeued
    | none =>
      let reconciled := reconcileStaleRun host files.manifest files.tasks now
      settleReconciled host files reconciled.1 reconciled.2

/-- The runs that `reconcileAllStaleRuns` takes from the cache: not those of the session. -/
def staleCandidates (cached : List TeamRunManifest) (currentSessionId : Option String) : List String :=
  (cached.filter fun manifest =>
    (manifest.status = .running || manifest.status = .blocked) &&
      !(currentSessionId.any (· ≠ "") && manifest.ownerSessionId.any (· ≠ "") &&
        manifest.ownerSessionId = currentSessionId)).map (·.runId)

/-- The visit of a run. A run that cannot be read, or is locked for too long, is left out. -/
def visitStale (hosts : String → Host) (locked : String → Bool) (now : Int) (world : World)
    (runId : String) : World × List ReconcileResult :=
  match (world.runs runId).filter fun _ => locked runId with
  | none => (world, [])
  | some files =>
    let (turn, result) := reconcileRun (hosts runId) files now
    (world.apply (hosts runId) runId turn, result.toList)

def reconcileAllStaleRuns (hosts : String → Host) (locked : String → Bool)
    (cached : List TeamRunManifest) (now : Int) (currentSessionId : Option String) (world : World) :
    World × List ReconcileResult :=
  sweep (visitStale hosts locked now) world (staleCandidates cached currentSessionId)

end

section

variable (host : Host)

inductive OrphanReport where
  | cancelled (runId : String)
  | skipped (runId : String)
  deriving DecidableEq

/-- **The turn of a run in `cancelOrphanedRuns`**: its manifest in the cache, the tasks that were read
before the lock, and the files that are read under it. -/
def cancelOrphanedRun (cached : TeamRunManifest) (seen : List TeamTaskState) (files : RunFiles)
    (now staleThresholdMs : Int) (currentSessionId : String) : Turn × List OrphanReport :=
  let untouched : Turn := { files := some files }
  let skipped := (untouched, [OrphanReport.skipped cached.runId])
  let ownerId := cached.ownerSessionId.getD ""
  if cached.status ≠ .running ∧ cached.status ≠ .blocked then (untouched, [])
  else if isIntentionalWait host cached host.clock then skipped
  else if ownerId = "" ∨ ownerId = currentSessionId then (untouched, [])
  else if (checkProcessLiveness host cached.runnerPid).alive then skipped
  else if cached.async = none ∧ cached.updatedAt.any fun updated => now - updated ≤ staleThresholdMs then
    skipped
  else if hasRecentTaskActivity seen now staleThresholdMs then skipped
  else if files.manifest.status ≠ .running ∧ files.manifest.status ≠ .blocked then (untouched, [])
  else if hasFreshLivenessEvidence host files now staleThresholdMs then skipped
  else
    let reason := "Orphaned run: owner session " ++ ownerId ++ " no longer exists"
    ({ files := some (cancelRun host files reason reason now), terminates := true, unregisters := true },
      [.cancelled cached.runId])

/-- The visit of a run. `seen` are the tasks that were read before the lock, if the run was found. -/
def visitOrphan (hosts : String → Host) (seen : String → Option (List TeamTaskState))
    (now staleThresholdMs : Int) (currentSessionId : String) (world : World)
    (cached : TeamRunManifest) : World × List OrphanReport :=
  match world.runs cached.runId, seen cached.runId with
  | some files, some tasks =>
    let (turn, report) :=
      cancelOrphanedRun (hosts cached.runId) cached tasks files now staleThresholdMs currentSessionId
    (world.apply (hosts cached.runId) cached.runId turn, report)
  | _, _ => (world, [])

/-- **Cancel the runs whose session is gone.** -/
def cancelOrphanedRuns (hosts : String → Host) (seen : String → Option (List TeamTaskState))
    (cached : List TeamRunManifest) (now staleThresholdMs : Int) (currentSessionId : String)
    (world : World) : World × List OrphanReport :=
  sweep (visitOrphan hosts seen now staleThresholdMs currentSessionId) world cached

end

section

variable (host : Host)

inductive ReadFault where
  | transient
  | corrupt
  deriving DecidableEq

/-- What a purge sees of a run before its lock: the manifest as it is read, the status of the run as it is
loaded, and whether it gets the lock. -/
structure Sight where
  manifest : Except ReadFault TeamRunManifest
  loaded : Option TeamRunStatus
  locked : Bool

inductive PurgeReport where
  | purged (runId : String)
  | kept (runId : String)
  deriving DecidableEq

/-- What a purge does to a run that is running by its manifest, under the lock of the run. -/
inductive PurgeOutcome where
  | absent
  | changed
  | intentionalWait
  | freshLiveness
  | cancelled (files : RunFiles)

def purgeUnderLock (files : Option RunFiles) (error summary : String) (now staleThresholdMs : Int) :
    PurgeOutcome :=
  match files with
  | none => .absent
  | some fresh =>
    if fresh.manifest.status ≠ .running then .changed
    else if isIntentionalWait host fresh.manifest now then .intentionalWait
    else if hasFreshLivenessEvidence host fresh now staleThresholdMs then .freshLiveness
    else .cancelled (cancelRun host fresh error summary now)

def PurgeOutcome.keeps : PurgeOutcome → Bool
  | .intentionalWait | .freshLiveness => true
  | .absent | .changed | .cancelled _ => false

def PurgeOutcome.files (outcome : PurgeOutcome) (before : Option RunFiles) : Option RunFiles :=
  match outcome with
  | .cancelled after => some after
  | .absent | .changed | .intentionalWait | .freshLiveness => before

def orphanedWorkerError : String := "Orphaned run: worker process dead and no recent activity"

def orphanedWorkflowError : String :=
  "Orphaned run: workflow completed but manifest never updated to terminal status"

def orphanedWorkflowSummary (staleThresholdMs : Int) : String :=
  "Orphaned run: no async worker and no manifest update in over "
    ++ toString (roundDiv staleThresholdMs 60000) ++ " minutes"

def purgeTurn (files : Option RunFiles) (runId : String) : Turn × List PurgeReport :=
  ({ files := files, unregisters := true }, [.purged runId])

/-- A run that is kept, or taken out, as was decided under its lock. -/
def purgeDecided (outcome : PurgeOutcome) (files : Option RunFiles) (runId : String)
    (terminates : Bool) : Turn × List PurgeReport :=
  if outcome.keeps then ({ files := outcome.files files, terminates := terminates }, [.kept runId])
  else
    ({ files := outcome.files files, terminates := terminates, unregisters := true }, [.purged runId])

def purgeKept (files : Option RunFiles) (runId : String) : Turn × List PurgeReport :=
  ({ files := files }, [.kept runId])

section

variable (runId : String) (sight : Sight) (files : Option RunFiles) (manifest : TeamRunManifest)
  (now staleThresholdMs : Int)

/-- **A run whose runner is dead**, by its manifest. The live agents are spared for a run that came back to
life, and for no other. -/
def purgeAsync (pid : Int) : Turn × List PurgeReport :=
  if (checkProcessLiveness host (some pid)).alive
      ∨ hasRecentLifeEvidence host runId manifest.updatedAt now staleThresholdMs then
    purgeKept files runId
  else if sight.loaded = none ∨ !sight.locked then purgeTurn files runId
  else
    let outcome :=
      purgeUnderLock host files orphanedWorkerError orphanedWorkerError now staleThresholdMs
    let terminates :=
      match outcome with
      | .freshLiveness => false
      | .absent | .changed | .intentionalWait | .cancelled _ => true
    purgeDecided outcome files runId terminates

/-- **A run that has no runner**, by its manifest. -/
def purgeForeground : Turn × List PurgeReport :=
  if hasRecentLifeEvidence host runId manifest.updatedAt now staleThresholdMs then purgeKept files runId
  else if sight.loaded ≠ some .running ∨ !sight.locked then purgeTurn files runId
  else
    let outcome :=
      purgeUnderLock host files orphanedWorkflowError (orphanedWorkflowSummary staleThresholdMs) now
        staleThresholdMs
    let terminates :=
      match outcome with
      | .cancelled _ => true
      | .absent | .changed | .intentionalWait | .freshLiveness => false
    purgeDecided outcome files runId terminates

def purgeRunning : Turn × List PurgeReport :=
  match manifest.async with
  | none => purgeForeground host runId sight files manifest now staleThresholdMs
  | some runner =>
    match runner.pid with
    | none => purgeKept files runId
    | some pid => purgeAsync host runId sight files manifest now staleThresholdMs pid

def purgeRead (currentSessionId : Option String) : Turn × List PurgeReport :=
  if manifest.status ∈ registryTerminalStatuses then purgeTurn files runId
  else if currentSessionId.any (· ≠ "") ∧ manifest.ownerSessionId.any (· ≠ "")
      ∧ manifest.ownerSessionId = currentSessionId then purgeKept files runId
  else if manifest.status = .running then
    purgeRunning host runId sight files manifest now staleThresholdMs
  else purgeKept files runId

end

/-- **The turn of an entry in `purgeStaleActiveRunIndex`.** A run that is not found, or whose lock is not
got, is taken out of the index. -/
def purgeEntry (entry : ActiveRunRegistryEntry) (sight : Sight) (files : Option RunFiles)
    (now staleThresholdMs : Int) (currentSessionId : Option String) : Turn × List PurgeReport :=
  if !host.pathExists entry.manifestPath then purgeTurn files entry.runId
  else if !host.pathExists entry.cwd then purgeTurn files entry.runId
  else
    match sight.manifest with
    | .error .transient => ({ files := files }, [])
    | .error .corrupt => purgeTurn none entry.runId
    | .ok manifest =>
      purgeRead host entry.runId sight files manifest now staleThresholdMs currentSessionId

def visitEntry (hosts : String → Host) (sights : String → Sight) (now staleThresholdMs : Int)
    (currentSessionId : Option String) (world : World) (entry : ActiveRunRegistryEntry) :
    World × List PurgeReport :=
  let (turn, report) :=
    purgeEntry (hosts entry.runId) entry (sights entry.runId) (world.runs entry.runId) now
      staleThresholdMs currentSessionId
  (world.apply (hosts entry.runId) entry.runId turn, report)

def purgeStaleActiveRunIndex (hosts : String → Host) (sights : String → Sight)
    (now staleThresholdMs : Int) (currentSessionId : Option String) (world : World) :
    World × List PurgeReport :=
  sweep (visitEntry hosts sights now staleThresholdMs currentSessionId) world world.registry

end

end PiCrew.Recovery
