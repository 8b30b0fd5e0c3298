/-
**The steps of the team runner that write a run, and the cancel from outside.**

`runtime/merge-loop.ts` (`mergeUnitResult`), `runtime/budget-enforcement.ts`
(`terminaliseRunWithDrain`), `runtime/finalize-run.ts` (`finalizeRun`) and the locked part of
`handleCancel` in `extension/team-tool/cancel.ts`.

A step of the runner is a list of `RunnerAction`s. What a step does under one run lock, or in one
write, is one action; between two actions of a step another process may write. An action that
throws ends the step: `thrown` makes the later actions of the runner do nothing.

What the policy engine and the effectiveness guard say of a run is a parameter of `finalizeRun`.
-/

import PiCrew.Dispatch.Terminalise
import PiCrew.Store.RunStatus

namespace PiCrew.Runner

open PiCrew.State PiCrew.Scheduling PiCrew.Merge PiCrew.Store PiCrew.Dispatch

structure PendingUnit where
  unitKey : String
  taskIds : List String
  deriving DecidableEq, Repr

/-- **What the runner holds in memory**, cut down to what these steps use. -/
structure SchedulerContext where
  manifest : TeamRunManifest
  tasks : List TeamTaskState
  pendingUnits : List PendingUnit := []
  dispatchedTaskIds : List String := []
  deriving DecidableEq, Repr

/-- What a dispatch unit returns: the artifacts of its manifest, and its task list. -/
structure UnitResult where
  artifacts : List ArtifactDescriptor := []
  tasks : List TeamTaskState
  deriving DecidableEq, Repr

/-- Why a dispatch unit rejected, and the filesystem failure behind it. -/
structure UnitError where
  message : String
  failureCause : Option FatalFsCause := none
  deriving DecidableEq, Repr

def UnitResult.updates (result : UnitResult) : WorkerResult := { tasks := result.tasks }

/-- **A run with its runner**: the disk, the memory of the runner, and the move that a step threw
on. -/
structure RunState where
  disk : RunDisk
  ctx : SchedulerContext
  thrown : Option InvalidStatusTransition := none
  deriving DecidableEq, Repr

section

variable (dateMs : String → Option Int)

def isRunTerminalPreserved (status : TeamRunStatus) : Bool :=
  status == .cancelled || status == .failed || status == .completed

def mergeArtifacts (items : List ArtifactDescriptor) : List ArtifactDescriptor :=
  (items.map (·.path)).eraseDups.filterMap (Bindings.ofKeyed (·.path) items).get

/-- **Merge results into the run on disk**, under the run lock: the manifest and the tasks that the
runner goes on with, and the disk. The merge of a unit leaves a settled run status alone; the merge
of an abort drain does not look. -/
def mergeOnDisk (leaveSettled : Bool) (summary now : String) (disk : RunDisk)
    (results : List UnitResult) :
    Except InvalidStatusTransition (TeamRunManifest × List TeamTaskState × RunDisk) :=
  let mergedBase : TeamRunManifest := { disk.manifest with
      artifacts := mergeArtifacts (disk.manifest.artifacts ++ results.flatMap (·.artifacts)) }
  let moved : Except InvalidStatusTransition (TeamRunManifest × RunDisk) :=
    if leaveSettled && isRunTerminalPreserved disk.manifest.status then .ok (mergedBase, disk)
    else updateRunStatus disk mergedBase .running (some summary) now {}
  moved.map fun (resultManifest, written) =>
    let resultTasks :=
      mergeTaskUpdatesPreservingTerminal dateMs disk.tasks (results.map (·.updates))
    (resultManifest, resultTasks,
      saveRunTasks (saveRunManifest written resultManifest false).2 resultTasks)

/-- The result to merge for a unit. A unit that rejected has its tasks failed, whatever their
status in memory. -/
def resultToMerge (ctx : SchedulerContext) (completedUnit : PendingUnit)
    (settled : Except UnitError UnitResult) (now : String) : UnitResult :=
  match settled with
  | .ok result => result
  | .error error =>
    { artifacts := ctx.manifest.artifacts
      tasks := (cancelNonTerminalTasks ctx.tasks .failed error.message now
          (some fun task => completedUnit.taskIds.contains task.id)).map fun task =>
            if error.failureCause.isSome && task.status == .failed then
              { task with failureCause := error.failureCause }
            else task }

def validResults (ctx : SchedulerContext) (outcomes : List (Option UnitResult)) : List UnitResult :=
  if ctx.pendingUnits.isEmpty then [] else outcomes.filterMap id

end

inductive EffectivenessSeverity where
  | ok | warning | failed | blocked
  deriving DecidableEq, Repr

/-- **What finalisation reads beside the run**: the verdicts on the run and its tasks, the reports
it puts among the artifacts, the settings and the abort signal. -/
structure FinalizeInput where
  effectiveness : TeamRunManifest → List TeamTaskState → EffectivenessSeverity × Option String
  blockingDecision : TeamRunManifest → List TeamTaskState → Option String
  reportArtifacts : List ArtifactDescriptor → List ArtifactDescriptor := id
  executeWorkers : Bool := true
  signalAborted : Bool := false
  summaryArtifact : ArtifactDescriptor
  now : String

/-- A task in memory that runs or waits gives way to a settled version on disk. -/
def healTask (diskById : Bindings String TeamTaskState) (task : TeamTaskState) : TeamTaskState :=
  if task.status ≠ .running ∧ task.status ≠ .waiting then task
  else match diskById.get task.id with
    | some disk => if isTerminalTaskStatus disk.status then disk else task
    | none => task

/-- The tasks that finalisation decides on. The disk is read only when nothing is in flight. -/
def healedTasks (disk : RunDisk) (ctx : SchedulerContext) : List TeamTaskState :=
  if ctx.pendingUnits.isEmpty &&
      ctx.tasks.any (fun task => task.status == .running || task.status == .waiting) then
    ctx.tasks.map (healTask (taskById disk.tasks))
  else ctx.tasks

/-- The status and the summary that the tasks and the verdicts ask for; none when the run is left
as it is. -/
def derivedStatus (input : FinalizeInput) (manifest : TeamRunManifest)
    (tasks : List TeamTaskState) : Option (TeamRunStatus × String) :=
  let verdict := input.effectiveness manifest tasks
  match tasks.find? (·.status == .failed), tasks.find? (·.status == .waiting),
      tasks.find? (·.status == .running) with
  | some failed, _, _ => some (.failed, "Failed at task '" ++ failed.id ++ "'.")
  | none, some waiting, _ => some (.blocked, "Waiting for response to task '" ++ waiting.id ++ "'.")
  | none, none, some running => some (.blocked, "Task '" ++ running.id ++ "' is still running.")
  | none, none, none =>
    if verdict.1 = .failed then
      some (.failed, verdict.2.getD "Run effectiveness guard failed.")
    else if verdict.1 = .blocked then
      some (.blocked, verdict.2.getD "Run effectiveness guard blocked completion.")
    else match input.blockingDecision manifest tasks with
      | some message => some (.blocked, message)
      | none =>
        if tasks.any (·.status == .queued) then
          some (.blocked, "Run exited with queued tasks still pending.")
        else if manifest.status = .failed ∨ manifest.status = .cancelled then none
        else
          let needsAttentionCount := (tasks.filter (·.status == .needsAttention)).length
          some (.completed,
            if 0 < needsAttentionCount then
              "Team workflow completed with " ++ toString needsAttentionCount ++
                " task(s) needing attention (no result submitted)."
            else if input.executeWorkers then "Team workflow completed."
            else "Team workflow scaffold completed without launching child workers.")

/-- The manifest with its reports and with what the tasks and the verdicts ask for, in memory. -/
def derivedManifest (input : FinalizeInput) (manifest : TeamRunManifest)
    (tasks : List TeamTaskState) : TeamRunManifest :=
  let reported := { manifest with artifacts := input.reportArtifacts manifest.artifacts }
  match derivedStatus input manifest tasks with
  | some (status, summary) =>
    { reported with status := status, summary := some summary, updatedAt := input.now }
  | none => reported

/-- **The one write of finalisation**, under the run lock: the manifest and the tasks that the run
ends with, and the disk. A settled run on disk keeps its status and its tasks. -/
def saveFinal (input : FinalizeInput) (disk : RunDisk) (ctx : SchedulerContext) :
    Except InvalidStatusTransition (TeamRunManifest × List TeamTaskState × RunDisk) :=
  let derived := derivedManifest input ctx.manifest ctx.tasks
  let diskTerminal := isRunTerminalPreserved disk.manifest.status
  let resolved : Except InvalidStatusTransition (TeamRunManifest × List TeamTaskState × RunDisk) :=
    if diskTerminal || input.signalAborted then
      let preservedStatus := if diskTerminal then disk.manifest.status else .cancelled
      let summary :=
        if diskTerminal then disk.manifest.summary.or derived.summary
        else some "Run cancelled during finalization."
      .ok ({ derived with
        status := preservedStatus, summary := summary, updatedAt := input.now }, disk.tasks, disk)
    else if (derivedStatus input ctx.manifest ctx.tasks).isSome then
      -- the move is checked from the status that the run had before the chain
      (updateRunStatus disk { derived with status := ctx.manifest.status } derived.status
        derived.summary input.now {}).map fun (updated, written) => (updated, ctx.tasks, written)
    else .ok ({ derived with updatedAt := input.now }, ctx.tasks, disk)
  resolved.map fun (resolvedManifest, resolvedTasks, written) =>
    let final : TeamRunManifest := { resolvedManifest with
        updatedAt := input.now
        artifacts := resolvedManifest.artifacts ++ [input.summaryArtifact] }
    (final, resolvedTasks, saveRunTasks (saveRunManifest written final false).2 resolvedTasks)

section

variable (dateMs : String → Option Int)

structure AbortOptions where
  cancelMessage : String
  blockedMessage : String
  failedReason : String
  now : String
  deriving DecidableEq, Repr

inductive RunnerAction where
  | mergeUnit (completedUnit : PendingUnit) (settled : Except UnitError UnitResult) (now : String)
  | drainMerge (outcomes : List (Option UnitResult)) (now : String)
  | saveAborted (options : AbortOptions)
  | failRun (options : AbortOptions)
  | healFromDisk
  | saveFinal (input : FinalizeInput)

/-- The tasks of an aborted run: a dispatched task that did not settle is cancelled, and what is
still queued is skipped. -/
def abortedTasks (ctx : SchedulerContext) (options : AbortOptions) : List TeamTaskState :=
  markBlocked (cancelNonTerminalTasks ctx.tasks .cancelled options.cancelMessage options.now
      (some fun task =>
        ctx.dispatchedTaskIds.contains task.id && isNonTerminalTaskStatus task.status))
    options.blockedMessage options.now

/-- Take over a manifest, tasks and a disk, or the throw. -/
def RunState.adopt (state : RunState)
    (result : Except InvalidStatusTransition (TeamRunManifest × List TeamTaskState × RunDisk)) :
    RunState :=
  match result with
  | .error refusal => { state with thrown := some refusal }
  | .ok (manifest, tasks, disk) =>
    { state with disk := disk, ctx := { state.ctx with manifest := manifest, tasks := tasks } }

def act (state : RunState) : RunnerAction → RunState
  | .mergeUnit completedUnit settled now =>
    let ctx := { state.ctx with
      pendingUnits := state.ctx.pendingUnits.filter (·.unitKey != completedUnit.unitKey) }
    RunState.adopt { state with ctx := ctx }
      (mergeOnDisk dateMs true "Merged task updates from parallel batch." now state.disk
        [resultToMerge state.ctx completedUnit settled now])
  | .drainMerge outcomes now =>
    let results := validResults state.ctx outcomes
    let ctx := { state.ctx with pendingUnits := [] }
    if results.isEmpty then { state with ctx := ctx }
    else
      RunState.adopt { state with ctx := ctx }
        (mergeOnDisk dateMs false "Merged in-flight results during failed-task abort." now
          state.disk results)
  | .saveAborted options =>
    let tasks := abortedTasks state.ctx options
    { state with disk := saveRunTasks state.disk tasks, ctx := { state.ctx with tasks := tasks } }
  | .failRun options =>
    match updateRunStatus state.disk state.ctx.manifest .failed (some options.failedReason)
      options.now {} with
    | .error refusal => { state with thrown := some refusal }
    | .ok (manifest, disk) =>
      { state with disk := disk, ctx := { state.ctx with manifest := manifest } }
  | .healFromDisk => { state with ctx := { state.ctx with tasks := healedTasks state.disk state.ctx } }
  | .saveFinal input => state.adopt (saveFinal input state.disk state.ctx)

inductive RunnerStep where
  | mergeUnitResult (completedUnit : PendingUnit) (settled : Except UnitError UnitResult)
      (now : String)
  | terminaliseRunWithDrain (outcomes : List (Option UnitResult)) (options : AbortOptions)
  | finalizeRun (input : FinalizeInput)

def RunnerStep.actions : RunnerStep → List RunnerAction
  | .mergeUnitResult completedUnit settled now => [.mergeUnit completedUnit settled now]
  | .terminaliseRunWithDrain outcomes options =>
    [.drainMerge outcomes options.now, .saveAborted options, .failRun options]
  | .finalizeRun input => [.healFromDisk, .saveFinal input]

/-- **A cancel**: the tasks it may cancel, and what it tells. -/
structure CancelOrder where
  cancellableIds : List String
  message : String
  now : String
  deriving DecidableEq, Repr

/-- Cancel a task that the order names and that is not settled. -/
def cancelTask (order : CancelOrder) (task : TeamTaskState) : TeamTaskState :=
  if order.cancellableIds.contains task.id &&
      (task.status == .queued || task.status == .running || task.status == .waiting) then
    { task with status := .cancelled, finishedAt := some order.now, error := some order.message }
  else task

/-- **What `handleCancel` writes** under the run lock once it goes ahead: the tasks, then the
status. -/
def handleCancel (order : CancelOrder) (disk : RunDisk) : RunDisk :=
  let saved := saveRunTasks disk (disk.tasks.map (cancelTask order))
  match updateRunStatus saved disk.manifest .cancelled
    (some (order.message ++ " Already-finished worker processes are not retroactively changed."))
    order.now {} with
  | .error _ => saved
  | .ok (_, written) => written

/-- What happens to a run: an action of the runner, or a cancel from outside. -/
inductive RunMove where
  | runner (action : RunnerAction)
  | cancel (order : CancelOrder)

def runMove (state : RunState) : RunMove → RunState
  | .runner action => if state.thrown.isSome then state else act dateMs state action
  | .cancel order => { state with disk := handleCancel order state.disk }

/-- The moves of a step with a cancel after its first `position` actions. -/
def RunnerStep.cancelledAt (step : RunnerStep) (order : CancelOrder) (position : Nat) :
    List RunMove :=
  (step.actions.take position).map RunMove.runner
    ++ .cancel order :: (step.actions.drop position).map RunMove.runner

end

end PiCrew.Runner
