/-
**The selection of a dispatch batch.**

`runtime/dispatch-batch.ts` (`dagReadyTaskIds`, `selectDispatchBatch`). One tick of the scheduler asks the wave
planner which tasks are ready, or takes the ready queue of the snapshot where no task has a dependency or the
planner reports a cycle. It drops shadow tasks and what is in flight, and keeps as many as there are slots. A tick
that selects nothing with nothing in flight blocks the run.

* `selectReady_idle` — with nothing in flight, a ready id keeps the tick from skipping tasks.

The sweeps that reload the run from disk are a parameter.
-/

import PiCrew.Dispatch.Limits
import PiCrew.Runner.Steps
import PiCrew.Scheduling.TaskGraph

namespace PiCrew.Dispatch

open PiCrew.State PiCrew.Scheduling PiCrew.Store PiCrew.TaskGraph Waves

section

variable (tasks : List TeamTaskState)

def isDelegateShadowTask (task : TeamTaskState) : Bool := task.stepId.isNone

def workflowTasks : List TeamTaskState := tasks.filter fun task => !isDelegateShadowTask task

def shadowTaskIds : List String := (tasks.filter isDelegateShadowTask).map (·.id)

def stepToTaskId : Bindings String String :=
  Bindings.ofEntries ((workflowTasks tasks).filterMap fun task =>
    (task.stepId.filter fun step => step != "").map fun step => (step, task.id))

def resolveDependency (dependency : String) : String :=
  ((stepToTaskId tasks).get dependency).getD dependency

def dagNodes : List TaskNode :=
  (workflowTasks tasks).map fun task =>
    { id := task.id, dependsOn := task.dependsOn.map (resolveDependency tasks) }

def hasExplicitDeps : Bool := tasks.any fun task => !task.dependsOn.isEmpty

def isCompletedTask (task : TeamTaskState) : Bool :=
  task.status == .completed || task.status == .needsAttention

def completedTaskIds : List String := (tasks.filter isCompletedTask).map (·.id)

/-- **The ready ids of the wave planner**: none when it does not apply. -/
def dagReadyTaskIds (completedIds : List String) : Except String (Option (List String)) :=
  if !hasExplicitDeps tasks then .ok none
  else
    (buildExecutionPlan (dagNodes tasks)).map fun plan =>
      if plan.hasCycle then none else some (TaskGraph.getReadyTasks plan completedIds)

end

section

/-- **What the scheduler holds at a tick**: the runner's memory, the index of the task list at the
end of the last tick, and the plan revisions on file. -/
structure TickContext extends Runner.SchedulerContext where
  queueIndex : TaskGraphIndex
  planRevisions : List PlanRecord := []

inductive SchedulerDecision where
  | returned (manifest : TeamRunManifest) (tasks : List TeamTaskState)
  | dispatch (batch : List TeamTaskState) (concurrency : BatchConcurrencyDecision)
      (snapshot : TaskGraphSchedulerSnapshot) (approvalPending coalesceEnabled : Bool)
  deriving DecidableEq, Repr

inductive SelectError where
  | selfDependency (message : String)
  | statusTransition (refusal : InvalidStatusTransition)
  deriving DecidableEq, Repr

/-- **A finished selection**: what it decided or threw, and what it left in memory and on disk. -/
structure Selection where
  outcome : Except SelectError SchedulerDecision
  ctx : TickContext
  disk : RunDisk

def Selection.batch (selection : Selection) : Option (List TeamTaskState) :=
  match selection.outcome with
  | .ok (.dispatch batch _ _ _ _) => some batch
  | _ => none

variable (settings : BatchSettings) (ctx : TickContext) (ready : List String)

def inFlightTaskIds : List String := ctx.pendingUnits.flatMap (·.taskIds)

def approvalPending : Bool := isPlanApprovalPendingEffective ctx.planRevisions ctx.manifest

def plannedReady (dagReady : Option (List String)) : List String :=
  dagReady.getD (taskGraphSnapshot ctx.tasks (some ctx.queueIndex)).ready

def readyBeforeFilter (dagReady : Option (List String)) : List String :=
  (plannedReady ctx dagReady).filter fun taskId => !(shadowTaskIds ctx.tasks).contains taskId

def batchConcurrency : BatchConcurrencyDecision :=
  resolveBatchConcurrency settings.workerCap {
    workflowName := settings.workflow.name
    workflowMaxConcurrency := settings.workflow.maxConcurrency
    teamMaxConcurrency := settings.teamMaxConcurrency
    limitMaxConcurrentWorkers := settings.limits.maxConcurrentWorkers
    allowUnboundedConcurrency := settings.limits.allowUnboundedConcurrency
    readyCount := ready.length }

def slotsAvailable : Nat :=
  (max 0 ((batchConcurrency settings ready).maxConcurrent - ctx.pendingUnits.length)).toNat

/-- The ready ids that may go now: no two write one file, and none is in flight. -/
def dispatchableReady : List String :=
  (filterReadyByWriteOverlap ready ctx.tasks settings.workflow
    (batchConcurrency settings ready).maxConcurrent settings.limits.serializeOnPathOverlap).filter
      fun taskId => !(inFlightTaskIds ctx).contains taskId

/-- The tasks that may go now. Those that wait for an approval are counted later. -/
def candidateBatch : List TeamTaskState :=
  (if approvalPending ctx then dispatchableReady settings ctx ready
    else (dispatchableReady settings ctx ready).take (slotsAvailable settings ctx ready)).filterMap
      (taskById ctx.tasks).get

/-- The tasks that go. While an approval is pending no task that may write goes. -/
def readyBatch : List TeamTaskState :=
  if approvalPending ctx then
    ((candidateBatch settings ctx ready).filter fun task => !isMutatingTask task).take
      (slotsAvailable settings ctx ready)
  else candidateBatch settings ctx ready

def blockRun (now : String) (disk : RunDisk) (tasks : List TeamTaskState) (summary : String) :
    Selection :=
  let saved := saveRunTasks disk tasks
  let kept := { ctx with tasks := tasks }
  match updateRunStatus saved ctx.manifest .blocked (some summary) now {} with
  | .error refusal => { outcome := .error (.statusTransition refusal), ctx := kept, disk := saved }
  | .ok (manifest, written) =>
    { outcome := .ok (.returned manifest tasks), ctx := { kept with manifest := manifest }
      disk := written }

def noReadyTask : String := "No ready queued task; dependency graph may be invalid."

/-- **Select a batch from the ready ids**, or block the run. -/
def selectReady (now : String) (disk : RunDisk) : Selection :=
  let batch := readyBatch settings ctx ready
  if !batch.isEmpty || !ctx.pendingUnits.isEmpty then
    { outcome := .ok (.dispatch batch (batchConcurrency settings ready)
        (taskGraphSnapshot ctx.tasks (some ctx.queueIndex)) (approvalPending ctx)
        settings.workflow.coalesceMicroTasks)
      ctx := ctx, disk := disk }
  else if approvalPending ctx && (candidateBatch settings ctx ready).any isMutatingTask then
    blockRun ctx now disk ctx.tasks "Plan approval required before mutating implementation tasks run."
  else blockRun ctx now disk (markBlocked ctx.tasks noReadyTask now) "No ready queued task."

/-- **One selection**: the sweeps, the planners, the batch. A task that depends on itself makes the
wave planner throw. -/
def selectDispatchBatch (sweeps : RunDisk → TickContext → RunDisk × TickContext) (now : String)
    (disk : RunDisk) : Selection :=
  let swept := sweeps disk ctx
  match dagReadyTaskIds swept.2.tasks (completedTaskIds swept.2.tasks) with
  | .error message =>
    { outcome := .error (.selfDependency message), ctx := swept.2, disk := swept.1 }
  | .ok dagReady => selectReady settings swept.2 (readyBeforeFilter swept.2 dagReady) now swept.1

end

section

variable {tasks : List TeamTaskState}

theorem mem_workflowTasks {task : TeamTaskState} :
    task ∈ workflowTasks tasks ↔ task ∈ tasks ∧ task.stepId ≠ none := by
  simp [workflowTasks, isDelegateShadowTask, Option.isSome_iff_ne_none]

theorem listed_of_workflow {task : TeamTaskState} (workflow : task ∈ workflowTasks tasks) :
    task ∈ tasks :=
  (mem_workflowTasks.mp workflow).1

theorem mem_shadowTaskIds {id : String} :
    id ∈ shadowTaskIds tasks ↔ ∃ task ∈ tasks, task.stepId = none ∧ task.id = id := by
  simp [shadowTaskIds, isDelegateShadowTask, and_assoc]

theorem mem_completedTaskIds {id : String} :
    id ∈ completedTaskIds tasks ↔ ∃ task ∈ tasks, isCompletedTask task = true ∧ task.id = id := by
  simp [completedTaskIds, and_assoc]

theorem ids_dagNodes (tasks : List TeamTaskState) :
    ids (dagNodes tasks) = (workflowTasks tasks).map (·.id) := by
  rw [ids, dagNodes, List.map_map]
  rfl

def DependsOnItself (tasks : List TeamTaskState) : Prop :=
  ∃ task ∈ workflowTasks tasks, ∃ dependency ∈ task.dependsOn,
    resolveDependency tasks dependency = task.id

/-- **The wave planner orders the list**: some task has a dependency, and the workflow can be
ordered. -/
structure WavesApply (tasks : List TeamTaskState) : Prop where
  explicit : hasExplicitDeps tasks = true
  plannable : Plannable (dagNodes tasks)

theorem dependsOnItself_iff :
    DependsOnItself tasks ↔ ∃ node ∈ dagNodes tasks, node.id ∈ node.dependsOn := by
  simp [DependsOnItself, dagNodes]

theorem WavesApply.not_self (applies : WavesApply tasks) : ¬ DependsOnItself tasks := by
  rw [dependsOnItself_iff]
  rintro ⟨node, member, names⟩
  exact applies.plannable.not_self member names

/-- **An unfinished id with the shortest chain of dependencies** of all unfinished ones. -/
def Foremost (tasks : List TeamTaskState) (id : String) : Prop :=
  id ∉ completedTaskIds tasks ∧ ∃ n, Within (dagNodes tasks) n id ∧
    ∀ other ∈ workflowTasks tasks, other.id ∉ completedTaskIds tasks →
      ∀ m < n, ¬ Within (dagNodes tasks) m other.id

/-- **Which planner decides.** The wave planner throws, or gives the foremost tasks, or leaves the
decision to the snapshot. -/
theorem dagReadyTaskIds_cases (tasks : List TeamTaskState) :
    (∃ message, dagReadyTaskIds tasks (completedTaskIds tasks) = .error message ∧
        hasExplicitDeps tasks = true ∧ DependsOnItself tasks) ∨
      (∃ ready, dagReadyTaskIds tasks (completedTaskIds tasks) = .ok (some ready) ∧
        WavesApply tasks ∧
        ∀ id, id ∈ ready ↔ (∃ task ∈ workflowTasks tasks, task.id = id) ∧ Foremost tasks id) ∨
      (dagReadyTaskIds tasks (completedTaskIds tasks) = .ok none ∧ ¬ WavesApply tasks ∧
        (hasExplicitDeps tasks = true → ¬ DependsOnItself tasks)) := by
  unfold dagReadyTaskIds
  by_cases explicit : hasExplicitDeps tasks = true
  · rw [explicit, Bool.not_true, if_neg Bool.false_ne_true]
    rcases buildExecutionPlan_spec (dagNodes tasks) with
      ⟨message, threw, self⟩ | ⟨plan, built, apart, numbered, acyclic⟩
    · exact Or.inl ⟨message, by rw [threw]; rfl, rfl, dependsOnItself_iff.mpr self⟩
    · refine Or.inr ?_
      have none_self : ¬ DependsOnItself tasks := by
        rw [dependsOnItself_iff]
        rintro ⟨node, member, names⟩
        exact apart node member names
      rw [built]
      show (∃ ready, Except.ok (ite _ _ _) = Except.ok (some ready) ∧ _) ∨
        Except.ok (ite _ _ _) = Except.ok none ∧ _
      cases cyclic : plan.hasCycle with
      | true =>
        rw [if_pos rfl]
        refine Or.inr ⟨rfl, fun applies => ?_, fun _ => none_self⟩
        rw [acyclic.mpr applies.plannable] at cyclic
        cases cyclic
      | false =>
        have plannable := acyclic.mp cyclic
        rw [if_neg Bool.false_ne_true]
        refine Or.inl ⟨_, rfl, ⟨explicit, plannable⟩, fun id => ?_⟩
        rw [mem_getReadyTasks_iff numbered cyclic plannable, ids_dagNodes, List.mem_map,
          Foremost]
        simp only [List.forall_mem_map]
  · have absent := Bool.eq_false_iff.mpr explicit
    rw [absent, Bool.not_false, if_pos rfl]
    exact Or.inr (Or.inr ⟨rfl, fun applies => explicit applies.explicit,
      fun impossible => absurd impossible Bool.false_ne_true⟩)

/-- **A task that the snapshot finds ready**: queued, in the graph, its dependencies satisfied. -/
structure SnapshotReady (index : TaskGraphIndex) (task : TeamTaskState) : Prop where
  queued : task.status = .queued
  placed : task.graph.isSome = true
  satisfied :
    dependencySatisfied task index.doneSteps index.idMap index.stepToTaskId = true

theorem mem_snapshot_ready {index : TaskGraphIndex} {id : String} :
    id ∈ (taskGraphSnapshot tasks (some index)).ready
      ↔ ∃ task ∈ tasks, task.id = id ∧ SnapshotReady index task := by
  have placed : ∀ task : TeamTaskState, task.status = .queued →
      ((withQueue task index).graph.map (·.queue) = some .ready ↔ task.graph.isSome = true ∧
        dependencySatisfied task index.doneSteps index.idMap index.stepToTaskId = true) := by
    intro task queued
    rw [withQueue_eq, resolvedQueue, if_pos queued]
    cases task.graph with
    | none | some node => simp
  simp only [taskGraphSnapshot, refreshTaskGraphQueues, ensureIndex, Option.getD_some,
    List.mem_map, List.mem_filter, Bool.and_eq_true, beq_iff_eq]
  constructor
  · rintro ⟨moved, ⟨⟨task, member, rfl⟩, queued, ready⟩, rfl⟩
    rw [withQueue_status] at queued
    obtain ⟨node, satisfied⟩ := (placed task queued).mp ready
    exact ⟨task, member, (withQueue_id task index).symm, queued, node, satisfied⟩
  · rintro ⟨task, member, rfl, queued, node, satisfied⟩
    exact ⟨withQueue task index, ⟨⟨task, member, rfl⟩, (withQueue_status task index).trans queued,
      (placed task queued).mpr ⟨node, satisfied⟩⟩, withQueue_id task index⟩

end

section

variable {settings : BatchSettings} {ctx : TickContext} {ready : List String}

/-- **A task that may go**: it is held under a ready id that is not in flight, and no approval
holds it back. -/
def MayGo (ctx : TickContext) (ready : List String) (task : TeamTaskState) : Prop :=
  (∃ id ∈ ready, id ∉ inFlightTaskIds ctx ∧ (taskById ctx.tasks).get id = some task) ∧
    (approvalPending ctx = true → isMutatingTask task = false)

variable {task : TeamTaskState}

theorem mem_candidateBatch (chosen : task ∈ candidateBatch settings ctx ready) :
    ∃ id ∈ filterReadyByWriteOverlap ready ctx.tasks settings.workflow
        (batchConcurrency settings ready).maxConcurrent settings.limits.serializeOnPathOverlap,
      id ∉ inFlightTaskIds ctx ∧ (taskById ctx.tasks).get id = some task := by
  obtain ⟨id, listed, held⟩ := List.mem_filterMap.mp chosen
  have dispatchable : id ∈ dispatchableReady settings ctx ready := by
    split at listed
    · exact listed
    · exact List.mem_of_mem_take listed
  obtain ⟨filtered, free⟩ := List.mem_filter.mp dispatchable
  exact ⟨id, filtered, by simpa using free, held⟩

theorem chosen_of_mem_readyBatch (member : task ∈ readyBatch settings ctx ready) :
    task ∈ candidateBatch settings ctx ready ∧
      (approvalPending ctx = true → isMutatingTask task = false) := by
  unfold readyBatch at member
  split at member
  · obtain ⟨chosen, harmless⟩ := List.mem_filter.mp (List.mem_of_mem_take member)
    exact ⟨chosen, fun _ => by simpa using harmless⟩
  · rename_i approved
    exact ⟨member, fun pending => absurd pending approved⟩

theorem mayGo_of_mem_readyBatch (member : task ∈ readyBatch settings ctx ready) :
    MayGo ctx ready task := by
  obtain ⟨chosen, harmless⟩ := chosen_of_mem_readyBatch member
  obtain ⟨id, filtered, free, held⟩ := mem_candidateBatch chosen
  exact ⟨⟨id, filterReadyByWriteOverlap_subset _ _ _ _ _ filtered, free, held⟩, harmless⟩

/-- Settings under which nothing is held back for want of workers. -/
def wideSettings (ctx : TickContext) (ready : List String) : BatchSettings where
  workflow := { name := "default" }
  limits :=
    { maxConcurrentWorkers := some (ctx.pendingUnits.length + ready.length)
      allowUnboundedConcurrency := true }
  workerCap := ⟨1, Int.one_pos⟩

theorem wideSettings_slots (ctx : TickContext) (ready : List String) :
    ready.length ≤ slotsAvailable (wideSettings ctx ready) ctx ready := by
  have limit : (batchConcurrency (wideSettings ctx ready) ready).maxConcurrent
      = max 1 ((ctx.pendingUnits.length : Int) + ready.length) := rfl
  rw [slotsAvailable, limit]
  omega

theorem mem_readyBatch_of_room {settings : BatchSettings} {id : String}
    (filtered : id ∈ filterReadyByWriteOverlap ready ctx.tasks settings.workflow
      (batchConcurrency settings ready).maxConcurrent settings.limits.serializeOnPathOverlap)
    (free : id ∉ inFlightTaskIds ctx) (held : (taskById ctx.tasks).get id = some task)
    (harmless : approvalPending ctx = true → isMutatingTask task = false)
    (room : (dispatchableReady settings ctx ready).length ≤ slotsAvailable settings ctx ready) :
    task ∈ readyBatch settings ctx ready := by
  have dispatchable : id ∈ dispatchableReady settings ctx ready :=
    List.mem_filter.mpr ⟨filtered, by simpa using free⟩
  have candidate : task ∈ candidateBatch settings ctx ready := by
    refine List.mem_filterMap.mpr ⟨id, ?_, held⟩
    split
    · exact dispatchable
    · rw [List.take_of_length_le room]
      exact dispatchable
  unfold readyBatch
  split
  · rename_i pending
    have few : ((candidateBatch settings ctx ready).filter fun task => !isMutatingTask task).length
        ≤ (dispatchableReady settings ctx ready).length := by
      refine (List.length_filter_le _ _).trans ?_
      unfold candidateBatch
      rw [if_pos pending]
      exact List.length_filterMap_le _ _
    rw [List.take_of_length_le (few.trans room)]
    exact List.mem_filter.mpr ⟨candidate, by rw [harmless pending]; rfl⟩
  · exact candidate

theorem mem_readyBatch_wide (may : MayGo ctx ready task) :
    task ∈ readyBatch (wideSettings ctx ready) ctx ready := by
  obtain ⟨⟨id, listed, free, held⟩, harmless⟩ := may
  have shorter : (dispatchableReady (wideSettings ctx ready) ctx ready).length ≤ ready.length :=
    List.length_filter_le _ _
  exact mem_readyBatch_of_room listed free held harmless
    (shorter.trans (wideSettings_slots ctx ready))

theorem blockRun_spec (ctx : TickContext) (now : String) (disk : RunDisk)
    (tasks : List TeamTaskState) (summary : String) :
    (blockRun ctx now disk tasks summary).ctx.tasks = tasks ∧
      (blockRun ctx now disk tasks summary).batch = none := by
  unfold blockRun
  dsimp only
  split
  · exact ⟨rfl, rfl⟩
  · exact ⟨rfl, rfl⟩

theorem selectReady_dispatch {now : String} {disk : RunDisk} {batch : List TeamTaskState}
    (decided : (selectReady settings ctx ready now disk).batch = some batch) :
    batch = readyBatch settings ctx ready ∧ (selectReady settings ctx ready now disk).ctx = ctx := by
  unfold selectReady at decided ⊢
  dsimp only at decided ⊢
  split at decided
  · rename_i goes
    rw [if_pos goes]
    exact ⟨(Option.some_inj.mp decided).symm, rfl⟩
  · split at decided
    · rw [(blockRun_spec _ _ _ _ _).2] at decided
      cases decided
    · rw [(blockRun_spec _ _ _ _ _).2] at decided
      cases decided

theorem selectReady_of_mem (settings : BatchSettings) (now : String) (disk : RunDisk)
    (member : task ∈ readyBatch settings ctx ready) :
    (selectReady settings ctx ready now disk).batch = some (readyBatch settings ctx ready) ∧
      (selectReady settings ctx ready now disk).ctx = ctx := by
  have goes : (!(readyBatch settings ctx ready).isEmpty || !ctx.pendingUnits.isEmpty) = true := by
    rw [Bool.or_eq_true, Bool.not_eq_true', List.isEmpty_eq_false_iff_exists_mem]
    exact Or.inl ⟨task, member⟩
  unfold selectReady
  rw [if_pos goes]
  exact ⟨rfl, rfl⟩

theorem selectReady_nothing (settings : BatchSettings) (now : String) (disk : RunDisk)
    (idle : ctx.pendingUnits = []) :
    (selectReady settings ctx [] now disk).ctx.tasks = markBlocked ctx.tasks noReadyTask now := by
  have nothing : dispatchableReady settings ctx [] = [] := by
    refine List.eq_nil_iff_forall_not_mem.mpr fun id member => ?_
    exact List.not_mem_nil
      (filterReadyByWriteOverlap_subset _ _ _ _ _ (List.mem_filter.mp member).1)
  have none_chosen : candidateBatch settings ctx [] = [] := by
    unfold candidateBatch
    rw [nothing, List.take_nil, ite_self, List.filterMap_nil]
  have empty : readyBatch settings ctx [] = [] := by
    unfold readyBatch
    rw [none_chosen, List.filter_nil, List.take_nil, ite_self]
  unfold selectReady
  rw [empty, idle, none_chosen, List.any_nil, Bool.and_false, if_neg Bool.false_ne_true]
  exact (blockRun_spec _ _ _ _ _).1

theorem slotsAvailable_pos (settings : BatchSettings) (ready : List String)
    (idle : ctx.pendingUnits = []) : 0 < slotsAvailable settings ctx ready := by
  have some_worker : 0 < (batchConcurrency settings ready).maxConcurrent :=
    resolveBatchConcurrency_pos settings.workerCap _
  rw [slotsAvailable, idle, List.length_nil]
  omega

theorem candidateBatch_ne_nil (settings : BatchSettings) (idle : ctx.pendingUnits = [])
    (some_ready : ready ≠ []) (held : ∀ id ∈ ready, ∃ task, (taskById ctx.tasks).get id = some task) :
    candidateBatch settings ctx ready ≠ [] := by
  have slots := slotsAvailable_pos settings ready idle
  have free : dispatchableReady settings ctx ready
      = filterReadyByWriteOverlap ready ctx.tasks settings.workflow
        (batchConcurrency settings ready).maxConcurrent settings.limits.serializeOnPathOverlap := by
    refine List.filter_eq_self.mpr fun id _ => ?_
    rw [inFlightTaskIds, idle]
    rfl
  obtain ⟨first, rest, split⟩ := List.exists_cons_of_ne_nil
    (filterReadyByWriteOverlap_ne_nil some_ready ctx.tasks settings.workflow
      (batchConcurrency settings ready).maxConcurrent settings.limits.serializeOnPathOverlap)
  have listed : first ∈ ready := by
    apply filterReadyByWriteOverlap_subset
    rw [split]
    exact List.mem_cons_self
  obtain ⟨task, found⟩ := held first listed
  have chosen : task ∈ candidateBatch settings ctx ready := by
    refine List.mem_filterMap.mpr ⟨first, ?_, found⟩
    rw [free, split]
    obtain ⟨more, count⟩ := Nat.exists_eq_add_of_lt slots
    rw [Nat.zero_add] at count
    rw [count, List.take_succ_cons]
    split
    · exact List.mem_cons_self
    · exact List.mem_cons_self
  exact List.ne_nil_of_mem chosen

/-- **With nothing in flight, a ready id keeps the tick from skipping tasks.** -/
theorem selectReady_idle (settings : BatchSettings) (now : String) (disk : RunDisk)
    (idle : ctx.pendingUnits = []) (some_ready : ready ≠ [])
    (held : ∀ id ∈ ready, ∃ task, (taskById ctx.tasks).get id = some task) :
    (selectReady settings ctx ready now disk).ctx.tasks = ctx.tasks := by
  have chosen := candidateBatch_ne_nil settings idle some_ready held
  unfold selectReady
  dsimp only
  split
  · rfl
  · rename_i nothing
    -- nothing goes, so an approval is pending and the chosen tasks may all write
    have empty : readyBatch settings ctx ready = [] := by
      rw [idle] at nothing
      simpa using nothing
    have pending : approvalPending ctx = true := by
      by_contra approved
      rw [readyBatch, if_neg approved] at empty
      exact chosen empty
    have mutating : (candidateBatch settings ctx ready).any isMutatingTask = true := by
      obtain ⟨task, member⟩ := List.exists_mem_of_ne_nil _ chosen
      rw [readyBatch, if_pos pending, List.take_eq_nil_iff] at empty
      have slots := slotsAvailable_pos settings ready idle
      have writing := List.filter_eq_nil_iff.mp (empty.resolve_left (by omega)) task member
      exact List.any_eq_true.mpr ⟨task, member, by simpa using writing⟩
    rw [pending, mutating, Bool.and_self, if_pos rfl]
    exact (blockRun_spec _ _ _ _ _).1

end

end PiCrew.Dispatch
