/-
**Whether a cancel from outside survives a step of the runner.**

The cancel lands on disk before, between or after the actions of a step. It survives when the run
is still cancelled on disk afterwards, and so is every task that the cancel set to cancelled.

The merge of a unit and the finalisation read the disk under the run lock, so the status survives
both, and the tasks survive unless the results carry versions of them that the merge gate takes. The
abort drain reads the disk only when it has results to merge: after that it saves the tasks it
holds in memory and moves the run from the status it holds in memory.

* `mergeOnDisk_spec`, `drainMerge_spec`, `abort_spec` — what the actions leave on disk;
* `cancel_survives_iff` — for every step and every position of the cancel, exactly when it survives;
* `abort_drain_overwrites_cancel` — an abort after a cancel that it did not see.
-/

import PiCrew.Merge.Integrity
import PiCrew.Runner.Steps

namespace PiCrew.Runner

open PiCrew.State PiCrew.Scheduling PiCrew.Merge PiCrew.Store PiCrew.Dispatch

section

variable (dateMs : String → Option Int)

@[simp]
theorem saveRunTasks_manifest (disk : RunDisk) (tasks : List TeamTaskState) :
    (saveRunTasks disk tasks).manifest = disk.manifest := by
  unfold saveRunTasks
  split <;> rfl

theorem saveRunTasks_tasks {disk : RunDisk} {tasks : List TeamTaskState}
    (real : tasks = [] → disk.tasks = []) : (saveRunTasks disk tasks).tasks = tasks := by
  unfold saveRunTasks
  cases tasks with
  | nil => rw [real rfl]; rfl
  | cons first rest => rfl

theorem saveRunTasks_nil (disk : RunDisk) : (saveRunTasks disk []).tasks = disk.tasks := by
  unfold saveRunTasks
  cases stored : disk.tasks with
  | nil => rfl
  | cons first rest => exact stored

theorem saveRunManifest_settles {disk : RunDisk} {manifest : TeamRunManifest}
    (same : disk.manifest.status = manifest.status) :
    (saveRunManifest disk manifest false).2.manifest.status = manifest.status := by
  have saved := saveRunManifest_status disk manifest
  rw [same, ite_self] at saved
  exact saved

def mergedStatus (status : TeamRunStatus) : TeamRunStatus :=
  if isRunTerminalPreserved status then status else .running

/-- **What a merge leaves.** It never throws; a settled status survives it, whether or not the
merge looks; the tasks on disk and in memory are those of the merge gate. -/
theorem mergeOnDisk_spec (leaveSettled : Bool) (summary now : String) (disk : RunDisk)
    (results : List UnitResult) :
    ∃ manifest written, mergeOnDisk dateMs leaveSettled summary now disk results = .ok (manifest,
            mergeTaskUpdatesPreservingTerminal dateMs disk.tasks (results.map (·.updates)),
            written) ∧
      manifest.status = mergedStatus disk.manifest.status ∧
      written.manifest.status = mergedStatus disk.manifest.status ∧
      written.tasks
        = mergeTaskUpdatesPreservingTerminal dateMs disk.tasks (results.map (·.updates)) := by
  have merged : ∀ base : RunDisk, base.tasks = disk.tasks →
      (saveRunTasks base (mergeTaskUpdatesPreservingTerminal dateMs disk.tasks
        (results.map (·.updates)))).tasks
        = mergeTaskUpdatesPreservingTerminal dateMs disk.tasks (results.map (·.updates)) := by
    intro base same
    apply saveRunTasks_tasks
    intro nothing
    rw [merge_eq] at nothing
    rw [same]
    simpa [refreshTaskGraphQueues] using nothing
  unfold mergeOnDisk
  by_cases left : (leaveSettled && isRunTerminalPreserved disk.manifest.status) = true
  · have settled : isRunTerminalPreserved disk.manifest.status = true := (Bool.and_eq_true_iff.mp left).2
    simp only [left, if_true]
    refine ⟨_, _, rfl, ?_, ?_, merged _ rfl⟩
    · simp only [mergedStatus, settled, if_true]
    · rw [saveRunTasks_manifest]
      refine Eq.trans (saveRunManifest_settles rfl) ?_
      simp only [mergedStatus, settled, if_true]
  · have allowed : canTransitionRunStatus disk.manifest.status .running = true := by
      cases disk.manifest.status <;> decide
    have status : (if preserves disk.manifest.status .running then disk.manifest.status
        else .running) = mergedStatus disk.manifest.status := by
      cases disk.manifest.status <;> rfl
    obtain ⟨returned, written, ended, tasks, same, after⟩ := updateRunStatus_allowed disk
      { disk.manifest with
        artifacts := mergeArtifacts (disk.manifest.artifacts ++ results.flatMap (·.artifacts)) }
      .running (some summary) now allowed
    rw [status] at after
    simp only [left, Bool.false_eq_true, if_false, ended]
    refine ⟨_, _, rfl, same.trans after, ?_, merged _ tasks⟩
    rw [saveRunTasks_manifest, saveRunManifest_settles same.symm]
    exact same.trans after

end

def Hits (order : CancelOrder) (tasks : List TeamTaskState) (id : String) : Prop :=
  ∃ held, (taskById tasks).get id = some held ∧ order.cancellableIds.contains id = true ∧
    isNonTerminalTaskStatus held.status = true

/-- **The decision survives**: the run is cancelled, and so is every task that the cancel hit on the
disk it found. -/
def DecisionSurvives (order : CancelOrder) (found final : RunDisk) : Prop :=
  final.manifest.status = .cancelled ∧
    ∀ id, Hits order found.tasks id → statusOf final.tasks id = some .cancelled

@[simp]
theorem cancelTask_id (order : CancelOrder) (task : TeamTaskState) :
    (cancelTask order task).id = task.id := by
  unfold cancelTask
  split <;> rfl

theorem cancelTask_hit {order : CancelOrder} {held : TeamTaskState}
    (named : order.cancellableIds.contains held.id = true)
    (open_ : isNonTerminalTaskStatus held.status = true) :
    cancelTask order held = { held with
          status := .cancelled, finishedAt := some order.now, error := some order.message } := by
  apply if_pos
  rw [named, Bool.true_and]
  exact open_

theorem handleCancel_spec (order : CancelOrder) (disk : RunDisk) :
    (handleCancel order disk).manifest.status = .cancelled ∧
      (handleCancel order disk).tasks = disk.tasks.map (cancelTask order) := by
  have saved : (saveRunTasks disk (disk.tasks.map (cancelTask order))).tasks
      = disk.tasks.map (cancelTask order) :=
    saveRunTasks_tasks fun nothing => List.map_eq_nil_iff.mp nothing
  have allowed : canTransitionRunStatus disk.manifest.status .cancelled = true := by
    cases disk.manifest.status <;> decide
  obtain ⟨returned, written, ended, tasks, -, after⟩ := updateRunStatus_allowed
    (saveRunTasks disk (disk.tasks.map (cancelTask order))) disk.manifest .cancelled
    (some (order.message ++ " Already-finished worker processes are not retroactively changed."))
    order.now allowed
  have cancelled : written.manifest.status = .cancelled := by
    rw [after, if_neg]
    rw [saveRunTasks_manifest]
    cases disk.manifest.status <;> decide
  unfold handleCancel
  simp only [ended]
  exact ⟨cancelled, tasks.trans saved⟩

theorem taskById_cancelled {order : CancelOrder} {tasks : List TeamTaskState} {id : String} :
    (taskById (tasks.map (cancelTask order))).get id
      = ((taskById tasks).get id).map (cancelTask order) :=
  taskById_map (cancelTask_id order) tasks id

theorem survives_last (order : CancelOrder) (disk : RunDisk) :
    DecisionSurvives order disk (handleCancel order disk) := by
  obtain ⟨status, tasks⟩ := handleCancel_spec order disk
  refine ⟨status, ?_⟩
  rintro id ⟨held, found, named, underway⟩
  have same := (Bindings.get_ofKeyed_mem found).2
  rw [tasks, statusOf, taskById_cancelled, found, Option.map_some, Option.map_some,
    cancelTask_hit (by rw [same]; exact named) underway]

section

variable (dateMs : String → Option Int)

/-- **Offered one after the other, the versions leave a cancelled task cancelled.** -/
inductive StaysCancelled : TeamTaskState → List TeamTaskState → Prop where
  | done {held : TeamTaskState} : held.status = .cancelled → StaysCancelled held []
  | refused {held version : TeamTaskState} {rest : List TeamTaskState} :
      shouldMergeTaskUpdate dateMs held version = false → StaysCancelled held rest →
      StaysCancelled held (version :: rest)
  | taken {held version : TeamTaskState} {rest : List TeamTaskState} :
      shouldMergeTaskUpdate dateMs held version = true → StaysCancelled version rest →
      StaysCancelled held (version :: rest)

theorem staysCancelled_iff (held : TeamTaskState) (versions : List TeamTaskState) :
    StaysCancelled dateMs held versions
      ↔ (GuardedMerge.offers (shouldMergeTaskUpdate dateMs) held versions).status = .cancelled := by
  induction versions generalizing held with
  | nil =>
    constructor
    · rintro (cancelled | _ | _)
      exact cancelled
    · exact fun cancelled => .done cancelled
  | cons version rest ih =>
    rw [GuardedMerge.offers_cons, GuardedMerge.offer]
    by_cases accepted : shouldMergeTaskUpdate dateMs held version = true
    · rw [if_pos accepted, ← ih]
      constructor
      · rintro (_ | ⟨refused, _⟩ | ⟨_, stays⟩)
        · rw [refused] at accepted
          exact absurd accepted Bool.false_ne_true
        · exact stays
      · exact fun stays => .taken accepted stays
    · rw [if_neg accepted, ← ih]
      constructor
      · rintro (_ | ⟨_, stays⟩ | ⟨taken, _⟩)
        · exact stays
        · exact absurd taken accepted
      · exact fun stays => .refused (Bool.eq_false_iff.mpr accepted) stays

/-- **The results spare the cancelled tasks**: the versions they carry of a task that the cancel
hits leave it cancelled. -/
def ResultsSpare (order : CancelOrder) (tasks : List TeamTaskState)
    (results : List UnitResult) : Prop :=
  ∀ id held, (taskById tasks).get id = some held → order.cancellableIds.contains id = true →
    isNonTerminalTaskStatus held.status = true →
    StaysCancelled dateMs (cancelTask order held) (updatesOf (results.map (·.updates)) id)

theorem merged_hit {order : CancelOrder} {tasks : List TeamTaskState} {id : String}
    {held : TeamTaskState} (found : (taskById tasks).get id = some held)
    (named : order.cancellableIds.contains id = true)
    (underway : isNonTerminalTaskStatus held.status = true) (results : List UnitResult) :
    ∃ version, (taskById (mergeTaskUpdatesPreservingTerminal dateMs (tasks.map (cancelTask order))
        (results.map (·.updates)))).get id = some version ∧
      isTerminalTaskStatus version.status = true ∧
      (version.status = .cancelled ↔
        StaysCancelled dateMs (cancelTask order held) (updatesOf (results.map (·.updates)) id)) := by
  obtain ⟨index, merged⟩ := taskById_merge dateMs (tasks.map (cancelTask order))
    (results.map (·.updates)) id
  have same := (Bindings.get_ofKeyed_mem found).2
  have cancelled : (cancelTask order held).status = .cancelled := by
    rw [cancelTask_hit (by rw [same]; exact named) underway]
  rw [taskById_cancelled, found, Option.map_some, Option.map_some] at merged
  refine ⟨_, merged, ?_, ?_⟩
  · rw [withQueue_status]
    apply mergedVersion_settled
    rw [cancelled]
    rfl
  · rw [withQueue_status, staysCancelled_iff, mergedVersion, cancelTask_id, same]

theorem merge_spares_iff (order : CancelOrder) (tasks : List TeamTaskState) (results : List UnitResult) :
    (∀ id, Hits order tasks id →
        statusOf (mergeTaskUpdatesPreservingTerminal dateMs (tasks.map (cancelTask order))
          (results.map (·.updates))) id = some .cancelled)
      ↔ ResultsSpare dateMs order tasks results := by
  constructor
  · intro survives id held found named underway
    obtain ⟨version, merged, -, stays⟩ := merged_hit dateMs found named underway results
    have status := survives id ⟨held, found, named, underway⟩
    rw [statusOf, merged, Option.map_some, Option.some_inj] at status
    exact stays.mp status
  · rintro spares id ⟨held, found, named, underway⟩
    obtain ⟨version, merged, -, stays⟩ := merged_hit dateMs found named underway results
    rw [statusOf, merged, Option.map_some, Option.some_inj]
    exact stays.mpr (spares id held found named underway)

end

section

variable (dateMs : String → Option Int)

theorem runMove_runner {state : RunState} (running : state.thrown = none) (action : RunnerAction) :
    runMove dateMs state (.runner action) = act dateMs state action := by
  apply if_neg
  rw [running]
  exact Bool.false_ne_true

def drainedStatus (disk : RunDisk) (ctx : SchedulerContext) (results : List UnitResult) :
    TeamRunStatus :=
  if results.isEmpty then ctx.manifest.status else mergedStatus disk.manifest.status

/-- The tasks that an abort drain goes on with, given those it had. -/
def drainedTasks (disk : RunDisk) (results : List UnitResult)
    (had : List TeamTaskState) : List TeamTaskState :=
  if results.isEmpty then had
  else mergeTaskUpdatesPreservingTerminal dateMs disk.tasks (results.map (·.updates))

/-- **What the drain of an abort leaves**: nothing new without results; with results, the merge in
memory and on disk. -/
theorem drainMerge_spec (disk : RunDisk) (ctx : SchedulerContext)
    (outcomes : List (Option UnitResult)) (now : String) :
    let results := validResults ctx outcomes
    ∃ manifest written pending, act dateMs { disk := disk, ctx := ctx } (.drainMerge outcomes now)
        = { disk := written
            ctx := { ctx with
                manifest := manifest, tasks := drainedTasks dateMs disk results ctx.tasks
                pendingUnits := pending } } ∧
      manifest.status = drainedStatus disk ctx results ∧
      written.tasks = drainedTasks dateMs disk results disk.tasks ∧
      written.manifest.status
        = if results.isEmpty then disk.manifest.status else mergedStatus disk.manifest.status := by
  intro results
  unfold drainedTasks drainedStatus
  simp only [act]
  by_cases nothing : (validResults ctx outcomes).isEmpty = true
  · rw [if_pos nothing]
    refine ⟨ctx.manifest, disk, [], ?_, ?_, ?_, ?_⟩
    · rw [if_pos nothing]
    · rw [if_pos nothing]
    · rw [if_pos nothing]
    · rw [if_pos nothing]
  · obtain ⟨manifest, written, merged, inMemory, onDisk, tasks⟩ := mergeOnDisk_spec
      dateMs false "Merged in-flight results during failed-task abort." now disk
      (validResults ctx outcomes)
    rw [if_neg nothing]
    refine ⟨manifest, written, [], ?_, ?_, ?_, ?_⟩
    · rw [if_neg nothing, merged, RunState.adopt]
    · rw [if_neg nothing, inMemory]
    · rw [if_neg nothing, tasks]
    · rw [if_neg nothing, onDisk]

theorem failRun_spec (state : RunState) (cancelled : state.disk.manifest.status = .cancelled)
    (options : AbortOptions) :
    (act dateMs state (.failRun options)).disk.tasks = state.disk.tasks ∧
      ((act dateMs state (.failRun options)).disk.manifest.status = .cancelled
        ↔ state.ctx.manifest.status = .completed ∨ state.ctx.manifest.status = .cancelled) := by
  have table : canTransitionRunStatus state.ctx.manifest.status .failed = false
      ↔ state.ctx.manifest.status = .completed ∨ state.ctx.manifest.status = .cancelled := by
    cases state.ctx.manifest.status <;> decide
  rw [← table]
  simp only [act]
  by_cases allowed : canTransitionRunStatus state.ctx.manifest.status .failed = true
  · obtain ⟨returned, written, ended, tasks, -, after⟩ := updateRunStatus_allowed state.disk
      state.ctx.manifest .failed (some options.failedReason) options.now allowed
    have failed : written.manifest.status = .failed := by
      rw [after, cancelled]
      rfl
    simp only [ended, failed, allowed]
    exact ⟨tasks, by decide⟩
  · have refused := Bool.eq_false_iff.mpr allowed
    simp only [updateRunStatus_refused state.disk state.ctx.manifest .failed
      (some options.failedReason) options.now refused, refused]
    exact ⟨trivial, iff_of_true cancelled trivial⟩

/-- **An abort from memory**, after a cancel that the memory does not show: the run stays cancelled
when memory says it is completed or cancelled already; the tasks stay cancelled when there are none
in memory to write, or when memory holds every task that the cancel hit as cancelled, or as
dispatched and under way. -/
def MemorySpares (status : TeamRunStatus) (memory : List TeamTaskState)
    (dispatched : List String) (order : CancelOrder) (tasks : List TeamTaskState) : Prop :=
  (status = .completed ∨ status = .cancelled) ∧
    (memory = [] ∨ ∀ id, Hits order tasks id → ∃ held, (taskById memory).get id = some held ∧
      (held.status = .cancelled ∨
        dispatched.contains id = true ∧ isNonTerminalTaskStatus held.status = true))

theorem taskById_abortedTasks (ctx : SchedulerContext) (options : AbortOptions) (id : String) :
    (taskById (abortedTasks ctx options)).get id = ((taskById ctx.tasks).get id).map fun held =>
          blockTask options.blockedMessage options.now
            (terminaliseTask .cancelled options.cancelMessage options.now (fun task =>
                ctx.dispatchedTaskIds.contains task.id && isNonTerminalTaskStatus task.status)
              held) := by
  unfold abortedTasks markBlocked cancelNonTerminalTasks
  rw [taskById_map (blockTask_id _ _), taskById_map (terminaliseTask_id _ _ _ _), Option.map_map]
  rfl

theorem aborted_cancelled_iff (ctx : SchedulerContext) (options : AbortOptions)
    (held : TeamTaskState) :
    (blockTask options.blockedMessage options.now
        (terminaliseTask .cancelled options.cancelMessage options.now (fun task =>
            ctx.dispatchedTaskIds.contains task.id && isNonTerminalTaskStatus task.status)
          held)).status = .cancelled
      ↔ held.status = .cancelled ∨ ctx.dispatchedTaskIds.contains held.id = true ∧
          isNonTerminalTaskStatus held.status = true := by
  by_cases picked : (ctx.dispatchedTaskIds.contains held.id &&
      isNonTerminalTaskStatus held.status) = true
  · have both := Bool.and_eq_true_iff.mp picked
    rw [terminaliseTask, if_pos picked]
    exact iff_of_true rfl (Or.inr both)
  · have other : ¬ (ctx.dispatchedTaskIds.contains held.id = true ∧
        isNonTerminalTaskStatus held.status = true) :=
      fun both => picked (Bool.and_eq_true_iff.mpr both)
    rw [terminaliseTask, if_neg picked, or_iff_left other, blockTask]
    split
    · rename_i queued
      rw [queued]
      exact iff_of_false (by simp) (by simp)
    · exact Iff.rfl

/-- **The abort after a cancel**: what its two last actions leave of the decision. -/
theorem abort_spec (order : CancelOrder) (disk : RunDisk) (ctx : SchedulerContext)
    (options : AbortOptions) :
    DecisionSurvives order disk
        (act dateMs (act dateMs { disk := handleCancel order disk, ctx := ctx }
          (.saveAborted options)) (.failRun options)).disk
      ↔ MemorySpares ctx.manifest.status ctx.tasks ctx.dispatchedTaskIds order disk.tasks := by
  obtain ⟨cancelled, landed⟩ := handleCancel_spec order disk
  obtain ⟨same, status⟩ := failRun_spec dateMs
    (act dateMs { disk := handleCancel order disk, ctx := ctx } (.saveAborted options))
    (by simp only [act, saveRunTasks_manifest]; exact cancelled) options
  unfold DecisionSurvives MemorySpares
  refine and_congr status ?_
  rw [same]
  show (∀ id, Hits order disk.tasks id →
    statusOf (saveRunTasks (handleCancel order disk) (abortedTasks ctx options)).tasks id
      = some .cancelled) ↔ _
  cases memory : ctx.tasks with
  | nil =>
    -- an empty list is not saved over the cancelled tasks
    have nothing : abortedTasks ctx options = [] := by
      simp only [abortedTasks, markBlocked, cancelNonTerminalTasks, memory, List.map_nil]
    rw [nothing, saveRunTasks_nil]
    exact iff_of_true (survives_last order disk).2 (Or.inl rfl)
  | cons first rest =>
    have written : (saveRunTasks (handleCancel order disk) (abortedTasks ctx options)).tasks
        = abortedTasks ctx options := by
      apply saveRunTasks_tasks
      intro nothing
      simp [abortedTasks, markBlocked, cancelNonTerminalTasks, memory] at nothing
    rw [written, or_iff_right (List.cons_ne_nil first rest), ← memory]
    refine forall₂_congr fun id hit => ?_
    rw [statusOf, taskById_abortedTasks, Option.map_map, Option.map_eq_some_iff]
    refine exists_congr fun held => and_congr_right fun found => ?_
    have named := (Bindings.get_ofKeyed_mem found).2
    rw [← named]
    exact aborted_cancelled_iff ctx options held

theorem saveAborted_settled {disk : RunDisk} {ctx : SchedulerContext} (options : AbortOptions)
    {id : String} {version : TeamTaskState} (found : (taskById ctx.tasks).get id = some version)
    (settled : isTerminalTaskStatus version.status = true) :
    statusOf (saveRunTasks disk (abortedTasks ctx options)).tasks id = some version.status := by
  have written : (saveRunTasks disk (abortedTasks ctx options)).tasks
      = abortedTasks ctx options := by
    apply saveRunTasks_tasks
    intro nothing
    have empty : ctx.tasks = [] := by
      simpa [abortedTasks, markBlocked, cancelNonTerminalTasks] using nothing
    rw [empty] at found
    cases found
  have resting : isNonTerminalTaskStatus version.status = false := by
    cases status : version.status <;> rw [status] at settled <;> revert settled <;> decide
  have kept : terminaliseTask .cancelled options.cancelMessage options.now
      (fun task => ctx.dispatchedTaskIds.contains task.id && isNonTerminalTaskStatus task.status)
      version = version := by
    apply if_neg
    show ¬ (ctx.dispatchedTaskIds.contains version.id
      && isNonTerminalTaskStatus version.status) = true
    rw [resting, Bool.and_false]
    exact Bool.false_ne_true
  rw [written, statusOf, taskById_abortedTasks, found, Option.map_some, Option.map_some, kept,
    blockTask_settled settled]

/-- **The abort after a cancel and a merge**: the run stays cancelled, and the tasks do exactly when
the merged results spare them. -/
theorem abort_merged_spec (order : CancelOrder) (disk : RunDisk) (ctx : SchedulerContext)
    (results : List UnitResult) (options : AbortOptions) {written : RunDisk}
    (memory : ctx.tasks = mergeTaskUpdatesPreservingTerminal dateMs
      (disk.tasks.map (cancelTask order)) (results.map (·.updates)))
    (known : ctx.manifest.status = .cancelled) (cancelled : written.manifest.status = .cancelled) :
    DecisionSurvives order disk
        (act dateMs (act dateMs { disk := written, ctx := ctx } (.saveAborted options))
          (.failRun options)).disk
      ↔ ResultsSpare dateMs order disk.tasks results := by
  obtain ⟨same, status⟩ := failRun_spec dateMs
    (act dateMs { disk := written, ctx := ctx } (.saveAborted options))
    (by simp only [act, saveRunTasks_manifest]; exact cancelled) options
  have saved : ∀ id held version, (taskById disk.tasks).get id = some held →
      (taskById ctx.tasks).get id = some version →
      isTerminalTaskStatus version.status = true →
      statusOf (act dateMs (act dateMs { disk := written, ctx := ctx } (.saveAborted options))
        (.failRun options)).disk.tasks id = some version.status := by
    intro id held version _ found settled
    rw [same]
    exact saveAborted_settled options found settled
  unfold DecisionSurvives
  rw [and_iff_right (status.mpr (Or.inr known))]
  constructor
  · intro survives id held found named underway
    obtain ⟨version, merged, settled, stays⟩ := merged_hit dateMs found named underway results
    rw [← memory] at merged
    have final := survives id ⟨held, found, named, underway⟩
    rw [saved id held version found merged settled, Option.some_inj] at final
    exact stays.mp final
  · rintro spares id ⟨held, found, named, underway⟩
    obtain ⟨version, merged, settled, stays⟩ := merged_hit dateMs found named underway results
    rw [← memory] at merged
    rw [saved id held version found merged settled, Option.some_inj]
    exact stays.mpr (spares id held found named underway)

end

section

variable (dateMs : String → Option Int)

theorem saveFinal_spec (state : RunState) (input : FinalizeInput)
    (cancelled : state.disk.manifest.status = .cancelled) :
    (act dateMs state (.saveFinal input)).disk.manifest.status = .cancelled ∧
      (act dateMs state (.saveFinal input)).disk.tasks = state.disk.tasks := by
  have terminal : isRunTerminalPreserved state.disk.manifest.status = true := by
    rw [cancelled]
    rfl
  simp only [act, saveFinal, terminal, Bool.true_or, if_true, Except.map, RunState.adopt]
  constructor
  · rw [saveRunTasks_manifest]
    refine Eq.trans (saveRunManifest_settles ?_) cancelled
    rfl
  · exact saveRunTasks_tasks fun nothing => nothing

theorem survives_late (order : CancelOrder) (start : RunState) (step : RunnerStep)
    (position : Nat) (late : step.actions.length ≤ position) :
    DecisionSurvives order
      (Runs.finish (runMove dateMs) start ((step.actions.take position).map RunMove.runner)).disk
      (Runs.finish (runMove dateMs) start (step.cancelledAt order position)).disk := by
  have last : Runs.finish (runMove dateMs) start (step.cancelledAt order position) = runMove dateMs
          (Runs.finish (runMove dateMs) start ((step.actions.take position).map RunMove.runner))
          (.cancel order) := by
    unfold Runs.finish RunnerStep.cancelledAt
    rw [List.drop_eq_nil_of_le late, List.foldl_append]
    rfl
  rw [last]
  exact survives_last order _

/-- **When a cancel outlives a step** that starts with a disk and a memory, by its position.

The merge of a unit, and an abort that merges results, spare the run, and the tasks when the results
do. An abort without results, or one that has merged already, writes from memory. An abort that has
saved its tasks only moves the run. Finalisation spares everything. -/
def CancelOutlives (disk : RunDisk) (ctx : SchedulerContext) (order : CancelOrder) :
    RunnerStep → Nat → Prop
  | .mergeUnitResult completedUnit settled now, 0 =>
    ResultsSpare dateMs order disk.tasks [resultToMerge ctx completedUnit settled now]
  | .terminaliseRunWithDrain outcomes _, 0 =>
    if (validResults ctx outcomes).isEmpty then
      MemorySpares ctx.manifest.status ctx.tasks ctx.dispatchedTaskIds order disk.tasks
    else ResultsSpare dateMs order disk.tasks (validResults ctx outcomes)
  | .terminaliseRunWithDrain outcomes _, 1 =>
    MemorySpares (drainedStatus disk ctx (validResults ctx outcomes))
      (drainedTasks dateMs disk (validResults ctx outcomes) ctx.tasks) ctx.dispatchedTaskIds order
      (drainedTasks dateMs disk (validResults ctx outcomes) disk.tasks)
  | .terminaliseRunWithDrain outcomes _, 2 =>
    drainedStatus disk ctx (validResults ctx outcomes) = .completed ∨
      drainedStatus disk ctx (validResults ctx outcomes) = .cancelled
  | _, _ => True

theorem mergeUnit_survives_iff (disk : RunDisk) (ctx : SchedulerContext) (order : CancelOrder)
    (completedUnit : PendingUnit) (settled : Except UnitError UnitResult) (now : String) :
    DecisionSurvives order disk (act dateMs { disk := handleCancel order disk, ctx := ctx }
          (.mergeUnit completedUnit settled now)).disk
      ↔ ResultsSpare dateMs order disk.tasks [resultToMerge ctx completedUnit settled now] := by
  obtain ⟨cancelled, landed⟩ := handleCancel_spec order disk
  obtain ⟨manifest, written, merged, -, onDisk, tasks⟩ := mergeOnDisk_spec dateMs true
    "Merged task updates from parallel batch." now (handleCancel order disk)
    [resultToMerge ctx completedUnit settled now]
  rw [cancelled] at onDisk
  rw [landed] at tasks
  simp only [act, merged, RunState.adopt]
  unfold DecisionSurvives
  have kept : written.manifest.status = .cancelled := onDisk
  rw [and_iff_right kept, tasks]
  exact merge_spares_iff dateMs order disk.tasks _

theorem abort_survives_iff (disk : RunDisk) (ctx : SchedulerContext) (order : CancelOrder)
    (outcomes : List (Option UnitResult)) (options : AbortOptions) :
    DecisionSurvives order disk (act dateMs (act dateMs
          (act dateMs { disk := handleCancel order disk, ctx := ctx }
            (.drainMerge outcomes options.now)) (.saveAborted options)) (.failRun options)).disk
      ↔ CancelOutlives dateMs disk ctx order (.terminaliseRunWithDrain outcomes options) 0 := by
  obtain ⟨cancelled, landed⟩ := handleCancel_spec order disk
  simp only [CancelOutlives]
  by_cases nothing : (validResults ctx outcomes).isEmpty = true
  · have unmoved : act dateMs { disk := handleCancel order disk, ctx := ctx }
        (.drainMerge outcomes options.now)
        = { disk := handleCancel order disk, ctx := { ctx with pendingUnits := [] } } := by
      simp only [act]
      rw [if_pos nothing]
    rw [if_pos nothing, unmoved]
    exact abort_spec dateMs order disk { ctx with pendingUnits := [] } options
  · obtain ⟨manifest, written, pending, drained, inMemory, -, onDisk⟩ := drainMerge_spec dateMs
      (handleCancel order disk) ctx outcomes options.now
    rw [drainedStatus, if_neg nothing, cancelled] at inMemory
    rw [if_neg nothing, cancelled] at onDisk
    rw [if_neg nothing, drained]
    apply abort_merged_spec dateMs order disk _ _ options _ inMemory onDisk
    show drainedTasks dateMs (handleCancel order disk) (validResults ctx outcomes) ctx.tasks = _
    rw [drainedTasks, if_neg nothing, landed]

theorem abort_before_save_iff (order : CancelOrder) (state : RunState)
    (running : state.thrown = none) (options : AbortOptions) :
    DecisionSurvives order state.disk
        (runMove dateMs (runMove dateMs (runMove dateMs state (.cancel order))
          (.runner (.saveAborted options))) (.runner (.failRun options))).disk
      ↔ MemorySpares state.ctx.manifest.status state.ctx.tasks state.ctx.dispatchedTaskIds order
          state.disk.tasks := by
  obtain ⟨disk, ctx, thrown⟩ := state
  obtain rfl : thrown = none := running
  have saved : runMove dateMs (runMove dateMs ⟨disk, ctx, none⟩ (.cancel order))
      (.runner (.saveAborted options))
      = act dateMs ⟨handleCancel order disk, ctx, none⟩ (.saveAborted options) :=
    runMove_runner dateMs rfl _
  rw [saved, runMove_runner dateMs rfl]
  exact abort_spec dateMs order disk ctx options

theorem abort_before_fail_iff (order : CancelOrder) (state : RunState)
    (running : state.thrown = none) (options : AbortOptions) :
    DecisionSurvives order state.disk
        (runMove dateMs (runMove dateMs state (.cancel order)) (.runner (.failRun options))).disk
      ↔ state.ctx.manifest.status = .completed ∨ state.ctx.manifest.status = .cancelled := by
  have failed : runMove dateMs (runMove dateMs state (.cancel order)) (.runner (.failRun options))
      = act dateMs (runMove dateMs state (.cancel order)) (.failRun options) := by
    apply runMove_runner
    exact running
  rw [failed]
  obtain ⟨same, status⟩ := failRun_spec dateMs (runMove dateMs state (.cancel order))
    (handleCancel_spec order state.disk).1 options
  unfold DecisionSurvives
  rw [same]
  exact (and_iff_left (survives_last order state.disk).2).trans status

theorem finalize_survives (order : CancelOrder) (state : RunState) (found : RunDisk)
    (landed : state.disk = handleCancel order found) (running : state.thrown = none)
    (input : FinalizeInput) :
    DecisionSurvives order found (runMove dateMs state (.runner (.saveFinal input))).disk := by
  obtain ⟨status, tasks⟩ := handleCancel_spec order found
  rw [← landed] at status
  obtain ⟨stays, same⟩ := saveFinal_spec dateMs state input status
  rw [runMove_runner dateMs running]
  refine ⟨stays, ?_⟩
  rw [same, landed]
  exact (survives_last order found).2

/-- **When a cancel survives a step of the runner.** For every run on disk, every memory of the
runner, every step and every position of the cancel among its actions: the run and the tasks that
the cancel set to cancelled are cancelled after the step exactly when `CancelOutlives` says so. -/
theorem cancel_survives_iff (disk : RunDisk) (ctx : SchedulerContext) (order : CancelOrder)
    (step : RunnerStep) (position : Nat) :
    DecisionSurvives order
        (Runs.finish (runMove dateMs) { disk := disk, ctx := ctx }
          ((step.actions.take position).map RunMove.runner)).disk
        (Runs.finish (runMove dateMs) { disk := disk, ctx := ctx }
          (step.cancelledAt order position)).disk
      ↔ CancelOutlives dateMs disk ctx order step position := by
  have late := survives_late dateMs order { disk := disk, ctx := ctx } step position
  cases step with
  | mergeUnitResult completedUnit settled now =>
    match position with
    | 0 => exact mergeUnit_survives_iff dateMs disk ctx order completedUnit settled now
    | position + 1 => exact iff_of_true (late (Nat.le_add_left 1 position)) trivial
  | terminaliseRunWithDrain outcomes options =>
    obtain ⟨manifest, written, pending, drained, inMemory, tasks, -⟩ := drainMerge_spec dateMs
      disk ctx outcomes options.now
    match position with
    | 0 =>
      obtain ⟨_, _, _, merged, -⟩ := drainMerge_spec dateMs (handleCancel order disk) ctx
        outcomes options.now
      refine Iff.trans (iff_of_eq (congrArg (DecisionSurvives order disk) ?_))
        (abort_survives_iff dateMs disk ctx order outcomes options)
      show (runMove dateMs (runMove dateMs
        (act dateMs { disk := handleCancel order disk, ctx := ctx }
          (.drainMerge outcomes options.now)) (.runner (.saveAborted options)))
        (.runner (.failRun options))).disk = _
      rw [merged]
      rfl
    | 1 =>
      show DecisionSurvives order
        (act dateMs { disk := disk, ctx := ctx } (.drainMerge outcomes options.now)).disk
        (runMove dateMs (runMove dateMs (runMove dateMs
          (act dateMs { disk := disk, ctx := ctx } (.drainMerge outcomes options.now))
          (.cancel order)) (.runner (.saveAborted options))) (.runner (.failRun options))).disk
        ↔ MemorySpares _ _ _ order _
      rw [abort_before_save_iff dateMs order _ (by rw [drained]) options, drained, ← inMemory,
        ← tasks]
    | 2 =>
      show DecisionSurvives order
        (runMove dateMs
          (act dateMs { disk := disk, ctx := ctx } (.drainMerge outcomes options.now))
          (.runner (.saveAborted options))).disk
        (runMove dateMs (runMove dateMs (runMove dateMs
          (act dateMs { disk := disk, ctx := ctx } (.drainMerge outcomes options.now))
          (.runner (.saveAborted options))) (.cancel order)) (.runner (.failRun options))).disk
        ↔ drainedStatus disk ctx (validResults ctx outcomes) = .completed ∨
          drainedStatus disk ctx (validResults ctx outcomes) = .cancelled
      rw [runMove_runner dateMs (by rw [drained]),
        abort_before_fail_iff dateMs order _ (by rw [drained]; rfl) options, drained, ← inMemory]
      rfl
    | position + 3 => exact iff_of_true (late (Nat.le_add_left 3 position)) trivial
  | finalizeRun input =>
    match position with
    | 0 =>
      have healed := finalize_survives dateMs order
        (act dateMs { disk := handleCancel order disk, ctx := ctx } .healFromDisk) disk rfl rfl
        input
      exact iff_of_true healed trivial
    | 1 =>
      have healed := finalize_survives dateMs order
        (runMove dateMs (act dateMs { disk := disk, ctx := ctx } .healFromDisk) (.cancel order))
        disk rfl rfl input
      exact iff_of_true healed trivial
    | position + 2 => exact iff_of_true (late (Nat.le_add_left 2 position)) trivial

/-- **An abort overwrites a cancel that it did not see**: nothing is in flight, so the drain reads
nothing; the run that was cancelled ends failed, and its cancelled task ends skipped. -/
theorem abort_drain_overwrites_cancel :
    let queued : TeamTaskState := { id := "b", stepId := some "b", status := .queued }
    let manifest : TeamRunManifest := { runId := "run", status := .running }
    let order : CancelOrder := { cancellableIds := ["b"], message := "stop", now := "t1" }
    let abort : RunnerStep := .terminaliseRunWithDrain []
      { cancelMessage := "cancelled", blockedMessage := "blocked", failedReason := "budget"
        now := "t2" }
    let final := (Runs.finish (runMove sampleDateMs)
      { disk := { manifest := manifest, tasks := [queued] }
        ctx := { manifest := manifest, tasks := [queued] } } (abort.cancelledAt order 0)).disk
    ¬ DecisionSurvives order { manifest := manifest, tasks := [queued] } final ∧
      final.manifest.status = .failed ∧ statusOf final.tasks "b" = some .skipped := by
  refine ⟨?_, by decide, by decide⟩
  rintro ⟨cancelled, -⟩
  revert cancelled
  decide

end

end PiCrew.Runner
