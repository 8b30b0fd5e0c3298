/-
**Whether the two planners agree on progress.**

Both planners are asked about one list, with distinct ids, without cycles and with nothing in flight. A wave with
a skipped, cancelled, failed or waiting task is not finished, so nothing behind it comes up. And a selection skips
what is queued when it has no ready id: with the snapshot, when a task that could start has no graph node, or the
index is of an older list.

* `progress_iff` — the planners agree, and no task that could start is skipped, exactly when the
  state offers progress;
* `waves_stop_behind_skipped_task` — a skipped root beside a completed one.
-/

import PiCrew.Dispatch.Batch

namespace PiCrew.Dispatch

open PiCrew.State PiCrew.Scheduling PiCrew.Store Waves

/-- **A task that could start**: queued, of the workflow, its dependencies met. -/
structure Startable (tasks : List TeamTaskState) (task : TeamTaskState) : Prop where
  workflow : task ∈ workflowTasks tasks
  queued : task.status = .queued
  met : ∀ dependency ∈ task.dependsOn, DependencyMet tasks dependency

/-- **The planners agree on progress**: when the snapshot has a ready task, the ids that a selection
goes by have a queued one. -/
def PlannersAgree (tasks : List TeamTaskState) : Prop :=
  ∀ planned, dagReadyTaskIds tasks (completedTaskIds tasks) = .ok planned →
    (taskGraphSnapshot tasks none).ready ≠ [] → ∃ task ∈ tasks, task.status = .queued ∧
        task.id ∈ planned.getD (taskGraphSnapshot tasks none).ready

/-- **A selection skips a queued task** for want of a ready one. -/
def SkipsQueued (tasks : List TeamTaskState) (selection : Selection) : Prop :=
  ∃ task ∈ tasks, task.status = .queued ∧ ∃ moved ∈ selection.ctx.tasks,
    moved.id = task.id ∧ moved.status = .skipped ∧ moved.error = some noReadyTask

/-- **Progress is not lost**: the planners agree, and nothing is skipped while a task could start. -/
structure KeepsProgress (tasks : List TeamTaskState) (selection : Selection) : Prop where
  agree : PlannersAgree tasks
  spared : (∃ task, Startable tasks task) → ¬ SkipsQueued tasks selection

/-- **A state that offers progress.** Where the waves decide and the snapshot finds a task ready, one
of the foremost tasks is queued. Where the snapshot decides and a task could start, one of the
workflow is ready by the index at hand. -/
structure OffersProgress (ctx : TickContext) : Prop where
  waves : WavesApply ctx.tasks →
    (∃ task ∈ ctx.tasks, SnapshotReady (buildTaskGraphIndex ctx.tasks) task) →
      ∃ task ∈ workflowTasks ctx.tasks, task.status = .queued ∧ Foremost ctx.tasks task.id
  snapshot : ¬ WavesApply ctx.tasks → (∃ task, Startable ctx.tasks task) →
    ∃ task ∈ workflowTasks ctx.tasks, SnapshotReady ctx.queueIndex task

section

variable {tasks : List TeamTaskState} (distinct : (tasks.map (·.id)).Nodup)

include distinct

theorem unshadowed {task : TeamTaskState} (member : task ∈ tasks) :
    task.id ∉ shadowTaskIds tasks ↔ task ∈ workflowTasks tasks := by
  rw [mem_shadowTaskIds, mem_workflowTasks, and_iff_right member]
  constructor
  · intro alone shadow
    exact alone ⟨task, member, shadow, rfl⟩
  · rintro workflow ⟨other, listed, shadow, same⟩
    rw [List.inj_on_of_nodup_map distinct listed member same] at shadow
    exact workflow shadow

theorem queued_unfinished {task : TeamTaskState} (member : task ∈ tasks)
    (queued : task.status = .queued) : task.id ∉ completedTaskIds tasks := by
  rw [mem_completedTaskIds]
  rintro ⟨other, listed, completed, same⟩
  rw [List.inj_on_of_nodup_map distinct listed member same, isCompletedTask, queued] at completed
  exact absurd completed (by decide)

theorem not_skipsQueued {selection : Selection} (kept : selection.ctx.tasks = tasks) :
    ¬ SkipsQueued tasks selection := by
  rintro ⟨task, member, queued, moved, listed, same, skipped, -⟩
  rw [kept] at listed
  rw [List.inj_on_of_nodup_map distinct listed member same, queued] at skipped
  cases skipped

theorem exists_foremost (acyclic : Acyclic (dagNodes tasks)) {task : TeamTaskState}
    (member : task ∈ workflowTasks tasks) (queued : task.status = .queued) :
    ∃ other ∈ workflowTasks tasks, Foremost tasks other.id := by
  have known : task.id ∈ ids (dagNodes tasks) := by
    rw [ids_dagNodes]
    exact List.mem_map_of_mem member
  obtain ⟨n, within⟩ := acyclic.bounded known
  have unfinished := queued_unfinished distinct (listed_of_workflow member) queued
  obtain ⟨id, m, ⟨⟨other, listed, rfl⟩, left⟩, reached, shortest⟩ :=
    exists_shortest (p := fun id => (∃ other ∈ workflowTasks tasks, other.id = id) ∧
      id ∉ completedTaskIds tasks) ⟨n, task.id, ⟨⟨task, member, rfl⟩, unfinished⟩, within⟩
  exact ⟨other, listed, left, m, reached, fun earlier present open_ =>
    shortest earlier.id ⟨⟨earlier, present, rfl⟩, open_⟩⟩

end

section

variable {ctx : TickContext} {dagReady : Option (List String)}

theorem readyBeforeFilter_ne_nil_iff (distinct : (ctx.tasks.map (·.id)).Nodup)
    (listed : ∀ id ∈ plannedReady ctx dagReady, ∃ task ∈ ctx.tasks, task.id = id) :
    readyBeforeFilter ctx dagReady ≠ []
      ↔ ∃ task ∈ workflowTasks ctx.tasks, task.id ∈ plannedReady ctx dagReady := by
  constructor
  · intro some_ready
    obtain ⟨id, member⟩ := List.exists_mem_of_ne_nil _ some_ready
    obtain ⟨ready, alone⟩ := List.mem_filter.mp member
    obtain ⟨task, present, rfl⟩ := listed id ready
    exact ⟨task, (unshadowed distinct present).mp (by simpa using alone), ready⟩
  · rintro ⟨task, workflow, ready⟩
    have alone := (unshadowed distinct (listed_of_workflow workflow)).mpr workflow
    exact List.ne_nil_of_mem (List.mem_filter.mpr ⟨ready, by simpa using alone⟩)

theorem spared_iff (settings : BatchSettings) (now : String) (disk : RunDisk)
    (distinct : (ctx.tasks.map (·.id)).Nodup) (idle : ctx.pendingUnits = [])
    (listed : ∀ id ∈ plannedReady ctx dagReady, ∃ task ∈ ctx.tasks, task.id = id) :
    ((∃ task, Startable ctx.tasks task) →
        ¬ SkipsQueued ctx.tasks (selectReady settings ctx (readyBeforeFilter ctx dagReady) now disk))
      ↔ ((∃ task, Startable ctx.tasks task) →
        ∃ task ∈ workflowTasks ctx.tasks, task.id ∈ plannedReady ctx dagReady) := by
  rw [← readyBeforeFilter_ne_nil_iff distinct listed]
  refine imp_congr_right fun ⟨task, starts⟩ => ?_
  constructor
  · intro spared nothing
    apply spared
    rw [SkipsQueued, nothing, selectReady_nothing settings now disk idle]
    have listed_task := listed_of_workflow starts.workflow
    refine ⟨task, listed_task, starts.queued, blockTask noReadyTask now task,
      List.mem_map_of_mem listed_task, blockTask_id _ _ _, ?_⟩
    rw [blockTask, if_pos starts.queued]
    exact ⟨rfl, rfl⟩
  · intro some_ready
    refine not_skipsQueued distinct (selectReady_idle settings now disk idle some_ready ?_)
    intro id member
    obtain ⟨present, held, rfl⟩ := listed id (List.mem_filter.mp member).1
    exact ⟨present, Bindings.get_ofKeyed_nodup distinct held⟩

end

section

variable {tasks : List TeamTaskState}

theorem snapshot_ready_ne_nil_iff {index : TaskGraphIndex} :
    (taskGraphSnapshot tasks (some index)).ready ≠ [] ↔ ∃ task ∈ tasks, SnapshotReady index task := by
  constructor
  · intro some_ready
    obtain ⟨id, member⟩ := List.exists_mem_of_ne_nil _ some_ready
    obtain ⟨task, listed, -, ready⟩ := mem_snapshot_ready.mp member
    exact ⟨task, listed, ready⟩
  · rintro ⟨task, listed, ready⟩
    exact List.ne_nil_of_mem (mem_snapshot_ready.mpr ⟨task, listed, rfl, ready⟩)

theorem workflow_ready_iff (distinct : (tasks.map (·.id)).Nodup) {index : TaskGraphIndex} :
    (∃ task ∈ workflowTasks tasks, task.id ∈ (taskGraphSnapshot tasks (some index)).ready)
      ↔ ∃ task ∈ workflowTasks tasks, SnapshotReady index task := by
  refine exists_congr fun task => and_congr_right fun workflow => ?_
  rw [mem_snapshot_ready]
  constructor
  · rintro ⟨other, listed, same, ready⟩
    rwa [← List.inj_on_of_nodup_map distinct listed (listed_of_workflow workflow) same]
  · exact fun ready => ⟨task, listed_of_workflow workflow, rfl, ready⟩

theorem plannersAgree_waves (distinct : (tasks.map (·.id)).Nodup) {ready : List String}
    (planned : dagReadyTaskIds tasks (completedTaskIds tasks) = .ok (some ready))
    (foremost : ∀ id, id ∈ ready ↔
      (∃ task ∈ workflowTasks tasks, task.id = id) ∧ Foremost tasks id) :
    PlannersAgree tasks ↔ ((∃ task ∈ tasks, SnapshotReady (buildTaskGraphIndex tasks) task) →
        ∃ task ∈ workflowTasks tasks, task.status = .queued ∧ Foremost tasks task.id) := by
  have queued_ready : (∃ task ∈ tasks, task.status = .queued ∧ task.id ∈ ready)
      ↔ ∃ task ∈ workflowTasks tasks, task.status = .queued ∧ Foremost tasks task.id := by
    constructor
    · rintro ⟨task, member, queued, listed⟩
      obtain ⟨⟨other, workflow, same⟩, front⟩ := (foremost task.id).mp listed
      obtain rfl := List.inj_on_of_nodup_map distinct (listed_of_workflow workflow) member same
      exact ⟨other, workflow, queued, front⟩
    · rintro ⟨task, workflow, queued, front⟩
      exact ⟨task, listed_of_workflow workflow, queued,
        (foremost task.id).mpr ⟨⟨task, workflow, rfl⟩, front⟩⟩
  rw [← queued_ready, ← snapshot_ready_ne_nil_iff]
  constructor
  · exact fun agree => agree (some ready) planned
  · intro agree other decided some_ready
    rw [planned] at decided
    obtain rfl := Except.ok.inj decided
    exact agree some_ready

theorem plannersAgree_snapshot
    (planned : dagReadyTaskIds tasks (completedTaskIds tasks) = .ok none) : PlannersAgree tasks := by
  intro other decided some_ready
  rw [planned] at decided
  obtain rfl := Except.ok.inj decided
  obtain ⟨id, member⟩ := List.exists_mem_of_ne_nil _ some_ready
  obtain ⟨task, listed, rfl, ready⟩ := mem_snapshot_ready.mp member
  exact ⟨task, listed, ready.queued, member⟩

end

/-- A skipped root, a completed root, and a queued task below the completed one. -/
def stalledTasks : List TeamTaskState :=
  [{ id := "01_assess", stepId := some "assess", role := "planner", status := .skipped
     graph := some { taskId := "01_assess", queue := .done } },
   { id := "02_explore", stepId := some "explore", role := "explorer", status := .completed
     graph := some { taskId := "02_explore", children := ["03_execute"], queue := .done } },
   { id := "03_execute", stepId := some "execute", role := "executor", status := .queued
     dependsOn := ["explore"]
     graph := some { taskId := "03_execute", dependencies := ["02_explore"], queue := .ready } }]

def stalled : TickContext where
  manifest := { runId := "run", status := .running }
  tasks := stalledTasks
  queueIndex := buildTaskGraphIndex stalledTasks

theorem stalled_acyclic : Acyclic (dagNodes stalledTasks) :=
  acyclic_of_rank (fun id => if id = "03_execute" then 1 else 0) (by decide)

section

variable (sweeps : RunDisk → TickContext → RunDisk × TickContext)

/-- **The planners agree on progress, and no task that could start is skipped**, exactly when the
state that the sweeps leave offers progress. -/
theorem progress_iff (settings : BatchSettings) (ctx : TickContext) (now : String) (disk : RunDisk)
    (distinct : ((sweeps disk ctx).2.tasks.map (·.id)).Nodup)
    (acyclic : Acyclic (dagNodes (sweeps disk ctx).2.tasks))
    (idle : (sweeps disk ctx).2.pendingUnits = []) :
    KeepsProgress (sweeps disk ctx).2.tasks (selectDispatchBatch settings ctx sweeps now disk)
      ↔ OffersProgress (sweeps disk ctx).2 := by
  have split : KeepsProgress (sweeps disk ctx).2.tasks
      (selectDispatchBatch settings ctx sweeps now disk) ↔ PlannersAgree (sweeps disk ctx).2.tasks ∧
        ((∃ task, Startable (sweeps disk ctx).2.tasks task) → ¬ SkipsQueued (sweeps disk ctx).2.tasks
          (selectDispatchBatch settings ctx sweeps now disk)) :=
    ⟨fun keeps => ⟨keeps.agree, keeps.spared⟩, fun both => ⟨both.1, both.2⟩⟩
  rw [split]
  unfold selectDispatchBatch
  dsimp only
  generalize sweeps disk ctx = swept at *
  rcases dagReadyTaskIds_cases swept.2.tasks with
    ⟨message, threw, explicit, self⟩ | ⟨ready, planned, applies, foremost⟩ |
      ⟨planned, leaves, apart⟩
  · obtain ⟨node, member, names⟩ := dependsOnItself_iff.mp self
    refine absurd (Relation.TransGen.single ?_) (acyclic node.id)
    exact ⟨List.mem_map_of_mem member, node, member, rfl, names⟩
  · rw [planned]
    dsimp only
    rw [plannersAgree_waves distinct planned foremost,
      spared_iff settings now swept.1 distinct idle fun id member => by
        obtain ⟨⟨task, workflow, same⟩, -⟩ := (foremost id).mp member
        exact ⟨task, listed_of_workflow workflow, same⟩]
    constructor
    · rintro ⟨agree, -⟩
      exact ⟨fun _ => agree, fun leaves => absurd applies leaves⟩
    · intro offers
      refine ⟨offers.waves applies, fun ⟨task, starts⟩ => ?_⟩
      obtain ⟨other, workflow, front⟩ := exists_foremost distinct acyclic starts.workflow starts.queued
      exact ⟨other, workflow, (foremost other.id).mpr ⟨⟨other, workflow, rfl⟩, front⟩⟩
  · rw [planned]
    dsimp only
    rw [and_iff_right (plannersAgree_snapshot planned),
      spared_iff settings now swept.1 distinct idle fun id member => by
        obtain ⟨task, listed, same, -⟩ := mem_snapshot_ready.mp member
        exact ⟨task, listed, same⟩]
    have ready_iff := @workflow_ready_iff _ distinct swept.2.queueIndex
    constructor
    · intro spared
      exact ⟨fun applies => absurd applies leaves, fun _ starts => ready_iff.mp (spared starts)⟩
    · exact fun offers starts => ready_iff.mpr (offers.snapshot leaves starts)

theorem progress_iff_stalled :
    let settings : BatchSettings := { workflow := { name := "default" }, workerCap := ⟨2, by decide⟩ }
    let disk : RunDisk := { manifest := stalled.manifest, tasks := stalled.tasks }
    KeepsProgress stalled.tasks
        (selectDispatchBatch settings stalled (fun disk ctx => (disk, ctx)) "now" disk)
      ↔ OffersProgress stalled :=
  progress_iff (fun disk ctx => (disk, ctx)) _ stalled "now" _ (by decide) stalled_acyclic rfl

/-- **A skipped task stops the waves**: the snapshot has a task ready behind a completed one, and
the wave planner gives the skipped task and nothing else. -/
theorem waves_stop_behind_skipped_task :
    let settings : BatchSettings := { workflow := { name := "default" }, workerCap := ⟨2, by decide⟩ }
    let disk : RunDisk := { manifest := stalled.manifest, tasks := stalled.tasks }
    (stalled.tasks.map (·.id)).Nodup ∧ Acyclic (dagNodes stalled.tasks) ∧
      stalled.pendingUnits = [] ∧ (taskGraphSnapshot stalled.tasks none).ready = ["03_execute"] ∧
      dagReadyTaskIds stalled.tasks (completedTaskIds stalled.tasks) = .ok (some ["01_assess"]) ∧
      ¬ KeepsProgress stalled.tasks
        (selectDispatchBatch settings stalled (fun disk ctx => (disk, ctx)) "now" disk) := by
  intro settings disk
  have planned : dagReadyTaskIds stalled.tasks (completedTaskIds stalled.tasks)
      = .ok (some ["01_assess"]) := by rfl
  have snapshot : (taskGraphSnapshot stalled.tasks none).ready = ["03_execute"] := by decide
  refine ⟨by decide, stalled_acyclic, rfl, snapshot, planned, fun keeps => ?_⟩
  have agreed := keeps.agree (some ["01_assess"]) planned (by rw [snapshot]; exact List.cons_ne_nil _ _)
  exact absurd agreed (by decide)

end

end PiCrew.Dispatch
