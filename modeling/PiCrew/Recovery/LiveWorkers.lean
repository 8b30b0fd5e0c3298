/-
**Recovery and the workers that live on.**

A worker whose process is there, and that gave a sign of life in the last half hour, is at its task still.
Where a run has no process of its own, its task is spared. A runner that is dead is taken for the death of
the run, whatever its workers do.

* `reconcileStaleRun_spares` — a reconciliation cancels such a task for a dead runner, or for a manifest
  that did not change for a day;
* `live_worker_spared` — the fast path, and the reconciliation;
* `surviving_worker_requeued` — a worker that outlives its runner.
-/

import PiCrew.Recovery.CrashRecovery

namespace PiCrew.Recovery

section

variable (host : Host)

/-- **A worker is at its task still.** -/
def liveWorker (task : TeamTaskState) (now : Int) : Bool :=
  task.active && (checkProcessLiveness host task.workerPid).alive
    && (task.quietFor now).any (· ≤ alivePidTrustCapMs)

def savedTasks (tasks : List TeamTaskState) (result : ReconcileResult) : List TeamTaskState :=
  (result.persistTasks.or result.repairedTasks).getD tasks

/-- **The runner of a run is gone**: a process is recorded for it that is not there, and no live entry
claims the run. -/
structure RunnerGone (manifest : TeamRunManifest) : Prop where
  recorded : ∃ pid ∈ manifest.runnerPid, 0 < pid
  dead : (checkProcessLiveness host manifest.runnerPid).alive = false
  unclaimed : host.liveEntry manifest.runId = none

def runnerDead (manifest : TeamRunManifest) : Bool :=
  !noPidRecorded host manifest && !(checkPidLiveness host manifest).alive

end

section

variable {host : Host} {manifest : TeamRunManifest} {tasks : List TeamTaskState} {task : TeamTaskState}
  {now : Int}

theorem not_stale_of_live (live : liveWorker host task now = true) :
    isTaskHeartbeatStale host task now = false := by
  simp only [liveWorker, Bool.and_eq_true] at live
  obtain ⟨⟨-, alive⟩, recent⟩ := live
  unfold isTaskHeartbeatStale
  cases quiet : task.quietFor now with
  | none => rfl
  | some elapsed =>
    rw [quiet, Option.any_some] at recent
    dsimp only
    split_ifs
    · rfl
    · rw [alive, recent]
      rfl

theorem active_of_live (live : liveWorker host task now = true) : task.active = true := by
  simp only [liveWorker, Bool.and_eq_true] at live
  exact live.1.1

theorem not_allStale_of_live (member : task ∈ tasks) (live : liveWorker host task now = true) :
    (getRunningTaskStaleness host tasks now).allStale = false := by
  unfold getRunningTaskStaleness
  dsimp only
  split_ifs with none
  · rfl
  · have running : task ∈ tasks.filter (·.active) :=
      List.mem_filter.mpr ⟨member, active_of_live live⟩
    refine decide_eq_false fun same => ?_
    rw [List.length_map] at same
    have all := List.length_filter_eq_length_iff.mp same task running
    rw [not_stale_of_live live] at all
    exact Bool.false_ne_true all

theorem mem_staleTaskIds {id : String}
    (member : id ∈ (getRunningTaskStaleness host tasks now).staleTaskIds) :
    ∃ stale ∈ tasks, stale.id = id ∧ isTaskHeartbeatStale host stale now = true := by
  unfold getRunningTaskStaleness at member
  dsimp only at member
  split_ifs at member
  · cases member
  · obtain ⟨stale, there, rfl⟩ := List.mem_map.mp member
    obtain ⟨running, hit⟩ := List.mem_filter.mp there
    exact ⟨stale, (List.mem_filter.mp running).1, rfl, hit⟩

/-- **A reconciliation cancels the task of a worker that lives** for a runner that is dead, or for a manifest
that did not change for a day, and for nothing else. -/
theorem reconcileStaleRun_spares (member : task ∈ tasks) (live : liveWorker host task now = true)
    (own : ∀ other ∈ tasks, other.id = task.id → other = task)
    (cancelled : task ∉ savedTasks tasks (reconcileStaleRun host manifest tasks now).2) :
    runnerDead host manifest = true ∨ oldManifest manifest now = true := by
  have reconciled := reconcileStaleRun_reconciled host manifest tasks now
  generalize reconcileStaleRun host manifest tasks now = outcome at reconciled cancelled
  obtain ⟨after, result⟩ := outcome
  dsimp only at reconciled cancelled
  cases reconciled with
  | spared _ _ _ | finished _ _ _ _ => exact absurd member cancelled
  | whole _ whole _ _ =>
    unfold repairsWhole at whole
    obtain ⟨-, whole⟩ := Bool.and_eq_true_iff.mp whole
    split_ifs at whole with unrecorded
    · simp only [not_allStale_of_live member live, Bool.false_or, Bool.and_eq_true] at whole
      exact Or.inr whole.2.2
    · rcases Bool.or_eq_true_iff.mp whole with dead | old
      · exact Or.inl (by simp [runnerDead, unrecorded, dead])
      · exact Or.inr old
  | subset _ _ _ =>
    refine absurd ?_ cancelled
    have other : task.id ∉ (getRunningTaskStaleness host tasks now).staleTaskIds := by
      intro there
      obtain ⟨stale, inside, same, hit⟩ := mem_staleTaskIds there
      rw [own stale inside same, not_stale_of_live live] at hit
      exact Bool.false_ne_true hit
    refine List.mem_map.mpr ⟨task, member, ?_⟩
    rw [Option.all_some, decide_eq_false other, Bool.false_and, if_neg Bool.false_ne_true]

theorem fastPath_runnerGone {files : RunFiles} {outcome : Turn × Option ReconcileResult}
    (applied : applyReconcileAtOpenFastPath host files now = some outcome) :
    RunnerGone host files.manifest ∧ isIntentionalWait host files.manifest now = false := by
  unfold applyReconcileAtOpenFastPath at applied
  split_ifs at applied with applies
  simp only [fastPathApplies, hasLiveRunClaim, Bool.and_eq_true, Bool.not_eq_true',
    Bool.or_eq_false_iff] at applies
  obtain ⟨⟨⟨⟨recorded, dead⟩, claim⟩, waits⟩, -⟩ := applies
  obtain ⟨pid, same, positive⟩ := Option.any_eq_true _ _ |>.mp recorded
  exact ⟨⟨⟨pid, same, of_decide_eq_true positive⟩, dead, Option.isSome_eq_false_iff.mp claim.1 |>
    Option.isNone_iff_eq_none.mp⟩, waits⟩

/-- **The task of a worker that lives is spared**, but for a runner that is gone, or a manifest that did not
change for a day. -/
theorem live_worker_spared {files : RunFiles} (member : task ∈ files.tasks)
    (live : liveWorker host task now = true)
    (own : ∀ other ∈ files.tasks, other.id = task.id → other = task) :
    (∀ outcome, applyReconcileAtOpenFastPath host files now = some outcome →
      RunnerGone host files.manifest ∧ isIntentionalWait host files.manifest now = false) ∧
    (task ∉ savedTasks files.tasks (reconcileStaleRun host files.manifest files.tasks now).2 →
      runnerDead host files.manifest = true ∨ oldManifest files.manifest now = true) :=
  ⟨fun _ applied => fastPath_runnerGone applied,
    fun cancelled => reconcileStaleRun_spares member live own cancelled⟩

def workerHost : Host where
  clock := 600000
  probe pid := if pid = 20 then .delivered else .missing

/-- A task whose worker, the process 20, was seen ten minutes ago. -/
def workerTask : TeamTaskState where
  id := "task"
  status := .running
  heartbeat := some { lastSeenAt := some 0, pid := some 20 }

def workerRun (runner : Option AsyncRunner) : RunFiles where
  manifest := { runId := "run", status := .running, updatedAt := some 0, async := runner }
  tasks := [workerTask]

/-- **The task of a worker that lives is spared**, in a run that has no process of its own. -/
theorem live_worker_spared_foreground :
    liveWorker workerHost workerTask 600000 = true ∧
      applyReconcileAtOpenFastPath workerHost (workerRun none) 600000 = none ∧
      workerTask ∈ savedTasks (workerRun none).tasks
        (reconcileStaleRun workerHost (workerRun none).manifest (workerRun none).tasks 600000).2 := by
  have live : liveWorker workerHost workerTask 600000 = true := by decide
  have member : workerTask ∈ (workerRun none).tasks := List.mem_cons_self
  obtain ⟨path, reconciled⟩ := live_worker_spared member live
    fun other there _ => List.mem_singleton.mp there
  refine ⟨live, ?_, ?_⟩
  · cases applied : applyReconcileAtOpenFastPath workerHost (workerRun none) 600000 with
    | none => rfl
    | some outcome =>
      obtain ⟨pid, recorded, -⟩ := (path outcome applied).1.recorded
      cases recorded
  · by_contra cancelled
    exact absurd (reconciled cancelled) (by decide)

/-- **A worker that outlives its runner**: its task is requeued. -/
theorem surviving_worker_requeued :
    liveWorker workerHost workerTask 600000 = true ∧
      workerTask ∈ (workerRun (some { pid := some 10 })).tasks ∧
      (applyReconcileAtOpenFastPath workerHost (workerRun (some { pid := some 10 })) 600000).map
          (fun outcome => outcome.1.files.map fun files => files.tasks.map (·.status))
        = some (some [.queued]) :=
  ⟨by decide, List.mem_cons_self, by decide⟩

end

end PiCrew.Recovery
