/-
**What a selection may dispatch, and what it dispatches.**

A task may be dispatched when it is queued and its dependencies are done (`Dispatchable`). The snapshot planner
looks for exactly that. The wave planner hands out every unfinished task of the earliest unfinished wave, whatever
its status.

* `batch_dispatchable_iff` — a selection dispatches only what may be dispatched, under any settings,
  exactly when the state *offers* nothing else;
* `skipped_task_is_dispatched_again` — a skipped root with a queued task below it.
-/

import PiCrew.Dispatch.Batch

namespace PiCrew.Dispatch

open PiCrew.State PiCrew.Scheduling PiCrew.Store Waves

/-- **A dependency that is done**: a completed task has it for its step, or for its id once steps
are resolved. -/
def DependencyDone (tasks : List TeamTaskState) (dependency : String) : Prop :=
  ∃ task ∈ tasks, isCompletedTask task = true ∧
    (task.stepId = some dependency ∨ task.id = resolveDependency tasks dependency)

/-- **A task that may be dispatched.** -/
structure Dispatchable (tasks : List TeamTaskState) (task : TeamTaskState) : Prop where
  queued : task.status = .queued
  met : ∀ dependency ∈ task.dependsOn, DependencyDone tasks dependency

/-- **Every task of a batch may be dispatched**, in the list that the selection leaves. -/
def DispatchesOnlyDispatchable (selection : Selection) : Prop :=
  ∀ batch, selection.batch = some batch → ∀ task ∈ batch, Dispatchable selection.ctx.tasks task

/-- A task that no shadow task, no unit in flight and no approval keeps from going. -/
structure Unclaimed (ctx : TickContext) (task : TeamTaskState) : Prop where
  workflow : task.id ∉ shadowTaskIds ctx.tasks
  landed : task.id ∉ inFlightTaskIds ctx
  approved : approvalPending ctx = true → isMutatingTask task = false

/-- **A state that offers only tasks that may be dispatched.** Where the waves decide, the foremost
tasks are queued, and a dependency that the workflow does not know is done. Where the snapshot
decides, the version it dispatches is the one it looked at, or as good. -/
structure OffersOnlyDispatchable (ctx : TickContext) : Prop where
  waves : WavesApply ctx.tasks → ∀ task ∈ workflowTasks ctx.tasks,
    Foremost ctx.tasks task.id → Unclaimed ctx task →
      task.status = .queued ∧ ∀ dependency ∈ task.dependsOn,
        resolveDependency ctx.tasks dependency ∉ ids (dagNodes ctx.tasks) →
          DependencyDone ctx.tasks dependency
  snapshot : ¬ WavesApply ctx.tasks →
    (hasExplicitDeps ctx.tasks = true → ¬ DependsOnItself ctx.tasks) →
      ∀ task ∈ ctx.tasks, SnapshotReady ctx.queueIndex task →
        ∀ held, (taskById ctx.tasks).get task.id = some held → Unclaimed ctx held →
          Dispatchable ctx.tasks held

section

variable {tasks : List TeamTaskState} {ctx : TickContext}

theorem Foremost.known_done {task : TeamTaskState} (member : task ∈ workflowTasks tasks)
    (foremost : Foremost tasks task.id) {dependency : String} (names : dependency ∈ task.dependsOn)
    (known : resolveDependency tasks dependency ∈ ids (dagNodes tasks)) :
    DependencyDone tasks dependency := by
  obtain ⟨-, n, within, shortest⟩ := foremost
  have edge : DependsOn (dagNodes tasks) task.id (resolveDependency tasks dependency) :=
    ⟨_, List.mem_map_of_mem member, rfl, List.mem_map_of_mem names⟩
  have finished : resolveDependency tasks dependency ∈ completedTaskIds tasks := by
    by_contra unfinished
    rw [ids_dagNodes] at known
    obtain ⟨other, listed, same⟩ := List.mem_map.mp known
    rw [← same] at edge unfinished
    have there : other.id ∈ ids (dagNodes tasks) := by
      rw [ids_dagNodes]
      exact List.mem_map_of_mem listed
    cases n with
    | zero => exact within other.id there edge
    | succ n =>
      exact shortest other listed unfinished n (Nat.lt_succ_self n) (within other.id there edge)
  obtain ⟨done, listed, completed, same⟩ := mem_completedTaskIds.mp finished
  exact ⟨done, listed, completed, Or.inr same⟩

theorem WavesApply.held (applies : WavesApply tasks) {task : TeamTaskState}
    (member : task ∈ workflowTasks tasks) (unshadowed : task.id ∉ shadowTaskIds tasks) :
    (taskById tasks).get task.id = some task := by
  have distinct := applies.plannable.distinct
  rw [ids_dagNodes] at distinct
  have listed := listed_of_workflow member
  cases found : (taskById tasks).get task.id with
  | none => exact absurd rfl (Bindings.get_ofKeyed_eq_none.mp found task listed)
  | some held =>
    obtain ⟨present, same⟩ := Bindings.get_ofKeyed_mem found
    have workflow : held ∈ workflowTasks tasks := by
      refine mem_workflowTasks.mpr ⟨present, fun shadow => ?_⟩
      exact unshadowed (mem_shadowTaskIds.mpr ⟨held, present, shadow, same⟩)
    rw [List.inj_on_of_nodup_map distinct workflow member same]

end

section

variable {ctx : TickContext}

def GoesOnlyDispatchable (ctx : TickContext) (dagReady : Option (List String)) : Prop :=
  ∀ task, MayGo ctx (readyBeforeFilter ctx dagReady) task → Dispatchable ctx.tasks task

theorem mayGo_iff {dagReady : Option (List String)} {task : TeamTaskState} :
    MayGo ctx (readyBeforeFilter ctx dagReady) task
      ↔ task.id ∈ plannedReady ctx dagReady ∧ (taskById ctx.tasks).get task.id = some task ∧
        Unclaimed ctx task := by
  constructor
  · rintro ⟨⟨id, listed, landed, found⟩, approved⟩
    obtain rfl := (Bindings.get_ofKeyed_mem found).2
    obtain ⟨ready, workflow⟩ := List.mem_filter.mp listed
    exact ⟨ready, found, by simpa using workflow, landed, approved⟩
  · rintro ⟨ready, found, workflow, landed, approved⟩
    exact ⟨⟨task.id, List.mem_filter.mpr ⟨ready, by simpa using workflow⟩, landed, found⟩, approved⟩

theorem goesOnlyDispatchable_waves {ready : List String} (applies : WavesApply ctx.tasks)
    (foremost : ∀ id, id ∈ ready ↔
      (∃ task ∈ workflowTasks ctx.tasks, task.id = id) ∧ Foremost ctx.tasks id) :
    GoesOnlyDispatchable ctx (some ready) ↔ OffersOnlyDispatchable ctx := by
  constructor
  · intro goes
    refine ⟨fun _ task member front unclaimed => ?_, fun leaves => absurd applies leaves⟩
    have dispatchable := goes task (mayGo_iff.mpr
      ⟨(foremost task.id).mpr ⟨⟨task, member, rfl⟩, front⟩,
        applies.held member unclaimed.workflow, unclaimed⟩)
    exact ⟨dispatchable.queued, fun dependency names _ => dispatchable.met dependency names⟩
  · intro offers task may
    obtain ⟨ready, found, unclaimed⟩ := mayGo_iff.mp may
    obtain ⟨⟨other, member, same⟩, front⟩ := (foremost task.id).mp ready
    have shared : other = task := by
      have held := applies.held member (by rw [same]; exact unclaimed.workflow)
      rw [same, found] at held
      exact (Option.some_inj.mp held).symm
    subst shared
    obtain ⟨queued, outside⟩ := offers.waves applies other member front unclaimed
    refine ⟨queued, fun dependency names => ?_⟩
    by_cases known : resolveDependency ctx.tasks dependency ∈ ids (dagNodes ctx.tasks)
    · exact front.known_done member names known
    · exact outside dependency names known

theorem goesOnlyDispatchable_snapshot (leaves : ¬ WavesApply ctx.tasks)
    (apart : hasExplicitDeps ctx.tasks = true → ¬ DependsOnItself ctx.tasks) :
    GoesOnlyDispatchable ctx none ↔ OffersOnlyDispatchable ctx := by
  constructor
  · intro goes
    refine ⟨fun applies => absurd applies leaves, fun _ _ task member ready held found unclaimed => ?_⟩
    have same := (Bindings.get_ofKeyed_mem found).2
    refine goes held (mayGo_iff.mpr ⟨?_, by rw [same]; exact found, unclaimed⟩)
    exact mem_snapshot_ready.mpr ⟨task, member, same.symm, ready⟩
  · intro offers held may
    obtain ⟨listed, found, unclaimed⟩ := mayGo_iff.mp may
    obtain ⟨task, member, same, ready⟩ := mem_snapshot_ready.mp listed
    exact offers.snapshot leaves apart task member ready held (by rw [same]; exact found) unclaimed

end

section

variable (sweeps : RunDisk → TickContext → RunDisk × TickContext)

theorem selectReady_dispatchable_iff (ctx : TickContext) (ready : List String) (now : String)
    (disk : RunDisk) :
    (∀ settings, DispatchesOnlyDispatchable (selectReady settings ctx ready now disk))
      ↔ ∀ task, MayGo ctx ready task → Dispatchable ctx.tasks task := by
  constructor
  · intro dispatches task may
    have member := mem_readyBatch_wide may
    obtain ⟨decided, kept⟩ := selectReady_of_mem (wideSettings ctx ready) now disk member
    have dispatchable := dispatches _ _ decided task member
    rwa [kept] at dispatchable
  · intro goes settings batch decided task member
    obtain ⟨rfl, kept⟩ := selectReady_dispatch decided
    rw [kept]
    exact goes task (mayGo_of_mem_readyBatch member)

/-- **A selection dispatches only tasks that may be dispatched**, under any settings, exactly when
the state that the sweeps leave offers nothing else. -/
theorem batch_dispatchable_iff (ctx : TickContext) (now : String) (disk : RunDisk) :
    (∀ settings, DispatchesOnlyDispatchable (selectDispatchBatch settings ctx sweeps now disk))
      ↔ OffersOnlyDispatchable (sweeps disk ctx).2 := by
  unfold selectDispatchBatch
  dsimp only
  rcases dagReadyTaskIds_cases (sweeps disk ctx).2.tasks with
    ⟨message, threw, explicit, self⟩ | ⟨ready, planned, applies, foremost⟩ |
      ⟨planned, leaves, apart⟩
  · rw [threw]
    refine iff_of_true (fun settings batch => nofun) ?_
    exact ⟨fun applies => absurd self applies.not_self, fun _ apart => absurd self (apart explicit)⟩
  · rw [planned]
    exact (selectReady_dispatchable_iff _ _ _ _).trans (goesOnlyDispatchable_waves applies foremost)
  · rw [planned]
    exact (selectReady_dispatchable_iff _ _ _ _).trans (goesOnlyDispatchable_snapshot leaves apart)

/-- **A skipped task is dispatched again**, with a queued task waiting for it: it is in the first
wave and it is not finished. -/
theorem skipped_task_is_dispatched_again :
    let assess : TeamTaskState :=
      { id := "01_assess", stepId := some "assess", role := "planner", status := .skipped
        graph := some { taskId := "01_assess", children := ["02_execute"], queue := .done } }
    let execute : TeamTaskState :=
      { id := "02_execute", stepId := some "execute", role := "executor", status := .queued
        dependsOn := ["assess"]
        graph := some { taskId := "02_execute", dependencies := ["01_assess"], queue := .blocked } }
    let ctx : TickContext :=
      { manifest := { runId := "run", status := .running }, tasks := [assess, execute]
        queueIndex := buildTaskGraphIndex [assess, execute] }
    let selection := selectDispatchBatch
      { workflow := { name := "default" }, workerCap := ⟨2, by decide⟩ } ctx
      (fun disk ctx => (disk, ctx)) "now" { manifest := ctx.manifest, tasks := ctx.tasks }
    selection.batch = some [assess] ∧ ¬ DispatchesOnlyDispatchable selection := by
  intro assess execute ctx selection
  have decided : selection.batch = some [assess] := by decide
  refine ⟨decided, fun dispatches => ?_⟩
  have queued := (dispatches _ decided assess (List.mem_singleton_self assess)).queued
  exact absurd queued (by decide)

end

end PiCrew.Dispatch
