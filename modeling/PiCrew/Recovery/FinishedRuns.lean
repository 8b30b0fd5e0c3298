/-
**What is left running in a run that recovery finishes.**

A run that recovery fails or cancels has no task that is running or parked, and a repair of the stale tasks
alone leaves the run and its other workers as they are. The repair of the stale tasks does the second to the
tasks, and not to the run: the sweep and the scan of the temporary directory finish a run for each repair.

* `reconcileRun_settles_iff`, `reconcileTempRun_settles_iff` — the turn keeps it, but for a repair of the
  stale tasks;
* `finished_runs_settled` — the same over whole passes;
* `worker_left_running` — a run that is failed, and cancelled, with a worker at its task.
-/

import PiCrew.Recovery.LiveWorkers
import PiCrew.Recovery.TempWorkspaces

namespace PiCrew.Recovery

open State (TeamRunStatus TeamTaskStatus canTransitionRunStatus isTerminalTaskStatus)

section

variable (host : Host) (now : Int)

/-- **What a turn is to keep**, with what it reports: a run that it finishes has no task that is running or
parked, and a repair that has tasks to save beside the repaired ones leaves the run unfinished, its live
agents, and the tasks that are not stale. -/
structure Settles (before after : RunFiles) (result : Option ReconcileResult) (terminates : Bool) :
    Prop where
  finished : after.manifest.status ≠ before.manifest.status →
    after.manifest.status ∈ [TeamRunStatus.failed, .cancelled] → ∀ task ∈ after.tasks, task.active = false
  part : ∀ repair, result = some repair → repair.persistTasks.isSome = true →
    after.manifest.status ∉ [TeamRunStatus.completed, .failed, .cancelled] ∧ terminates = false ∧
      ∀ task ∈ before.tasks, task.active = true → isTaskHeartbeatStale host task now = false →
        task ∈ after.tasks

/-- **The sweep repairs the stale tasks of a run**, and fails the run. -/
def failsOnPart (files : RunFiles) : Bool :=
  (files.manifest.status = .running || files.manifest.status = .blocked)
    && !fastPathApplies host files now && repairsSubset host files.manifest files.tasks now

def RunDir.files (run : RunDir) : Option RunFiles :=
  (loadManifestWithRecovery run.manifest).1.map fun manifest =>
    { manifest := manifest, tasks := (loadTasksWithRecovery run.tasks).1 }

/-- **The scan repairs the stale tasks of a run**, and cancels the run. -/
def cancelsOnPart (run : RunDir) : Bool :=
  run.directory && run.tasks ≠ .missing && run.files.any fun files =>
    files.manifest.status = .running && repairsSubset host files.manifest files.tasks now

/-- The visits of a pass: the world before each one, and the item. -/
def sweepVisits {α ρ : Type} (visit : World → α → World × List ρ) (world : World) :
    List α → List (World × α)
  | [] => []
  | item :: rest => (world, item) :: sweepVisits visit (visit world item).1 rest

def TurnSettles (files : RunFiles) : Prop :=
  ∀ after, (reconcileRun host files now).1.files = some after →
    Settles host now files after (reconcileRun host files now).2 (reconcileRun host files now).1.terminates

def ScanSettles (run : RunDir) : Prop :=
  ∀ before after, run.files = some before → (reconcileTempRun host run now).run.files = some after →
    Settles host now before after (reconcileTempRun host run now).result false

end

section

variable {host : Host} {now : Int} {before after files : RunFiles} {result : Option ReconcileResult}
  {terminates : Bool}

theorem Settles.unchanged (whole : ∀ repair, result = some repair → repair.persistTasks = none) :
    Settles host now before before result terminates where
  finished changed := absurd rfl changed
  part repair reported part := by
    rw [whole repair reported] at part
    cases part

theorem Settles.quiet (quiet : ∀ task ∈ after.tasks, task.active = false)
    (whole : ∀ repair, result = some repair → repair.persistTasks = none) :
    Settles host now before after result terminates where
  finished _ _ := quiet
  part repair reported part := by
    rw [whole repair reported] at part
    cases part

theorem active_eq_false {task : TeamTaskState} (ended : task.unfinished = false) :
    task.active = false := by
  simp only [TeamTaskState.unfinished, Bool.or_eq_false_iff] at ended
  simp only [TeamTaskState.active, ended.1.1, ended.2, Bool.or_self]

variable {tasks : List TeamTaskState}

theorem repairStaleRun_quiet {reason : String} :
    ∀ task ∈ repairStaleRun host tasks reason none, task.active = false := by
  intro task member
  rcases mem_repairStaleRun member with cancelled | ⟨-, kept⟩
  · simp [TeamTaskState.active, cancelled]
  · refine active_eq_false (Bool.eq_false_iff.mpr fun unfinished => kept ⟨rfl, unfinished⟩)

theorem checkResultFile_quiet {manifest finished : TeamRunManifest}
    (settled : checkResultFile manifest tasks = some finished) : ∀ task ∈ tasks, task.active = false := by
  unfold checkResultFile at settled
  split_ifs at settled with all
  intro task member
  have terminal := List.all_eq_true.mp all.2 task member
  unfold TeamTaskState.active
  cases status : task.status with
  | queued | running | waiting =>
    rw [status] at terminal
    exact absurd terminal (by decide)
  | completed | failed | cancelled | skipped | needsAttention => rfl

theorem requeueTasks_quiet :
    ∀ task ∈ requeueTasks tasks, task.active = false := by
  intro task member
  obtain ⟨old, there, rfl⟩ := List.mem_map.mp member
  split_ifs with hit
  · rfl
  · refine Bool.eq_false_iff.mpr fun active => hit ?_
    exact List.mem_map_of_mem (List.mem_filter.mpr ⟨there, active⟩)

theorem saveRunTasks_tasks (same : tasks.length = files.tasks.length) :
    (saveRunTasks files tasks).tasks = tasks := by
  unfold saveRunTasks
  split_ifs with empty
  · rw [Bool.and_eq_true, Bool.not_eq_true', List.isEmpty_iff] at empty
    rw [empty.1, List.length_nil] at same
    rw [List.length_eq_zero_iff.mp same.symm] at empty
    cases empty.2
  · rfl

end

section

variable {host : Host} {now : Int} {files : RunFiles}

theorem fastPath_settles {outcome : Turn × Option ReconcileResult} {after : RunFiles}
    (applied : applyReconcileAtOpenFastPath host files now = some outcome)
    (left : outcome.1.files = some after) :
    Settles host now files after outcome.2 outcome.1.terminates := by
  have saved : (saveRunTasks files (requeueTasks files.tasks)).tasks = requeueTasks files.tasks :=
    saveRunTasks_tasks (List.length_map _)
  unfold applyReconcileAtOpenFastPath at applied
  split_ifs at applied
  dsimp only at applied
  cases moved : updateRunStatus host files.manifest .failed _ with
  | none =>
    rw [moved] at applied
    cases applied
    cases left
    refine Settles.quiet ?_ nofun
    rw [saved]
    exact requeueTasks_quiet
  | some failed =>
    rw [moved] at applied
    cases applied
    cases left
    refine Settles.quiet ?_ ?_
    · rw [saved]
      exact requeueTasks_quiet
    · rintro _ ⟨⟩
      rfl

variable {manifest : TeamRunManifest} {result repair : ReconcileResult} {after : RunFiles}

theorem settleReconciled_reported
    (reported : (settleReconciled host files manifest result).2 = some repair) : repair = result := by
  unfold settleReconciled at reported
  dsimp only at reported
  by_cases acts : result.repaired = true ∨ result.verdict = .resultExists
  · rw [if_pos acts] at reported
    cases moved : updateRunStatus host manifest .failed ("Stale run reconciled: " ++ result.detail) with
    | none =>
      rw [moved] at reported
      cases reported
    | some failed =>
      rw [moved] at reported
      dsimp only at reported
      split_ifs at reported
      exact (Option.some.inj reported).symm
  · rw [if_neg acts] at reported
    dsimp only at reported
    split_ifs at reported
    exact (Option.some.inj reported).symm

theorem settleReconciled_tasks (acts : result.repaired = true ∨ result.verdict = .resultExists)
    (left : (settleReconciled host files manifest result).1.files = some after) :
    after.tasks = match result.repairedTasks with
      | none => files.tasks
      | some repaired =>
        (saveRunTasks { files with manifest := manifest } (result.persistTasks.getD repaired)).tasks := by
  unfold settleReconciled at left
  dsimp only at left
  rw [if_pos acts] at left
  cases moved : updateRunStatus host manifest .failed ("Stale run reconciled: " ++ result.detail) with
  | none =>
    rw [moved] at left
    cases left
    cases result.repairedTasks <;> rfl
  | some failed =>
    rw [moved] at left
    cases left
    cases result.repairedTasks <;> rfl

theorem settleReconciled_idle (acts : ¬ (result.repaired = true ∨ result.verdict = .resultExists))
    (left : (settleReconciled host files manifest result).1.files = some after) : after = files := by
  unfold settleReconciled at left
  dsimp only at left
  rw [if_neg acts] at left
  exact (Option.some.inj left).symm

theorem settleReconciled_settles (reconciled : Reconciled host files.manifest files.tasks now manifest result)
    (whole : repairsSubset host files.manifest files.tasks now = false)
    (left : (settleReconciled host files manifest result).1.files = some after) :
    Settles host now files after (settleReconciled host files manifest result).2
      (settleReconciled host files manifest result).1.terminates := by
  cases reconciled with
  | spared _ _ other =>
    have idle := settleReconciled_idle (by simp [other]) left
    rw [idle]
    refine Settles.unchanged fun repair reported => ?_
    rw [settleReconciled_reported reported]
  | finished _ _ _ settled =>
    have kept := settleReconciled_tasks (Or.inr rfl) left
    refine Settles.quiet ?_ fun repair reported => ?_
    · rw [kept]
      exact checkResultFile_quiet settled
    · rw [settleReconciled_reported reported]
  | whole reason _ _ _ =>
    have saved := settleReconciled_tasks (Or.inl rfl) left
    refine Settles.quiet ?_ fun repair reported => ?_
    · rw [saved]
      have written : (saveRunTasks files (repairStaleRun host files.tasks reason none)).tasks
          = repairStaleRun host files.tasks reason none := saveRunTasks_tasks (List.length_map _)
      dsimp only
      rw [Option.getD_none]
      exact fun task member => repairStaleRun_quiet task (written ▸ member)
    · rw [settleReconciled_reported reported]
  | subset _ _ part =>
    rw [part] at whole
    cases whole

theorem settleReconciled_fails (status : files.manifest.status = .running ∨ files.manifest.status = .blocked)
    (reconciled : Reconciled host files.manifest files.tasks now manifest result)
    (part : repairsSubset host files.manifest files.tasks now = true) :
    ∃ after, (settleReconciled host files manifest result).1.files = some after ∧
      ¬ Settles host now files after (settleReconciled host files manifest result).2
        (settleReconciled host files manifest result).1.terminates := by
  cases reconciled with
  | spared _ whole _ | finished _ whole _ _ | whole _ _ whole _ =>
    rw [part] at whole
    cases whole
  | subset reason _ _ =>
    have allowed : canTransitionRunStatus files.manifest.status .failed = true := by
      rcases status with running | blocked
      · rw [running]
        decide
      · rw [blocked]
        decide
    unfold settleReconciled updateRunStatus
    dsimp only
    rw [if_pos (Or.inl rfl), if_pos allowed]
    refine ⟨_, rfl, fun settles => ?_⟩
    exact (settles.part _ rfl rfl).1 (List.mem_cons_of_mem _ List.mem_cons_self)

/-- **The turn of a run settles it, but for a repair of its stale tasks.** -/
theorem reconcileRun_settles_iff : TurnSettles host now files ↔ failsOnPart host now files = false := by
  unfold TurnSettles reconcileRun failsOnPart
  by_cases ended : files.manifest.status ≠ .running ∧ files.manifest.status ≠ .blocked
  · rw [if_pos ended]
    simp only [ended.1, ended.2, decide_false, Bool.or_self, Bool.false_and, iff_true]
    rintro after ⟨⟩
    exact Settles.unchanged nofun
  · rw [if_neg ended]
    have status : files.manifest.status = .running ∨ files.manifest.status = .blocked := by
      by_contra neither
      exact ended ⟨fun running => neither (Or.inl running), fun blocked => neither (Or.inr blocked)⟩
    by_cases plan : isPlanApprovalPendingEffective host files.manifest = true
    · rw [if_pos plan]
      have unjudged : judged host files.manifest files.tasks now = false := by
        simp [judged, isIntentionalWait, plan]
      simp only [(unrepaired_of_unjudged unjudged).2, Bool.and_false, iff_true]
      rintro after ⟨⟩
      refine Settles.unchanged ?_
      rintro _ ⟨⟩
      rfl
    · rw [if_neg plan]
      cases path : applyReconcileAtOpenFastPath host files now with
      | some outcome =>
        have applies : fastPathApplies host files now = true := by
          unfold applyReconcileAtOpenFastPath at path
          split_ifs at path with applies
          exact applies
        simp only [applies, Bool.not_true, Bool.and_false, Bool.false_and, iff_true]
        exact fun after left => fastPath_settles path left
      | none =>
        have idle : fastPathApplies host files now = false := by
          unfold applyReconcileAtOpenFastPath at path
          split_ifs at path with applies
          · dsimp only at path
            split at path <;> cases path
          · exact Bool.eq_false_iff.mpr applies
        have reconciled := reconcileStaleRun_reconciled host files.manifest files.tasks now
        generalize reconcileStaleRun host files.manifest files.tasks now = outcome at reconciled ⊢
        dsimp only
        cases part : repairsSubset host files.manifest files.tasks now with
        | false =>
          simp only [Bool.and_false, iff_true]
          exact fun after left => settleReconciled_settles reconciled part left
        | true =>
          obtain ⟨after, left, fails⟩ := settleReconciled_fails status reconciled part
          have acts : (decide (files.manifest.status = .running)
              || decide (files.manifest.status = .blocked)) = true := by simpa using status
          simp only [acts, idle, Bool.not_false, Bool.and_self, Bool.true_eq_false, iff_false]
          exact fun settles => fails (settles after left)

end

section

variable {host : Host} {now : Int} {run : RunDir}

theorem loadTasksWithRecovery_again (file : TasksFile) :
    (loadTasksWithRecovery (loadTasksWithRecovery file).2).1 = (loadTasksWithRecovery file).1 := by
  cases file with
  | missing | unreadable | readable => rfl
  | corrupt recovered => cases recovered <;> rfl

theorem scanSettles_idle (idle : reconcileTempRun host run now = { run := run }) :
    ScanSettles host now run := by
  intro before after read left
  rw [idle] at left ⊢
  rw [read] at left
  cases left
  exact Settles.unchanged nofun

theorem reconcileTempRun_running {manifest : TeamRunManifest} (directory : run.directory = true)
    (there : run.tasks ≠ .missing) (read : run.manifest = .readable manifest)
    (running : manifest.status = .running) :
    reconcileTempRun host run now =
      { run :=
          settleTempRun { run with tasks := (loadTasksWithRecovery run.tasks).2 }
            (reconcileStaleRun host manifest (loadTasksWithRecovery run.tasks).1 now).1
            (reconcileStaleRun host manifest (loadTasksWithRecovery run.tasks).1 now).2 now
        result := some (reconcileStaleRun host manifest (loadTasksWithRecovery run.tasks).1 now).2 } := by
  unfold reconcileTempRun
  simp only [directory, read, there, decide_false, Bool.not_true, Bool.or_self, reduceCtorEq,
    loadManifestWithRecovery, running, ne_eq, not_true_eq_false, if_false, Bool.false_eq_true]

theorem settleTempRun_unrepaired {written : TeamRunManifest} {result : ReconcileResult}
    (unrepaired : result.repairedTasks = none) :
    (settleTempRun run written result now).tasks = run.tasks ∧
      (result.verdict ≠ .resultExists → settleTempRun run written result now = run) := by
  unfold settleTempRun
  rw [unrepaired, Option.filter_none]
  dsimp only
  split_ifs with finished
  · exact ⟨rfl, fun other => absurd finished.1 other⟩
  · exact ⟨rfl, fun _ => rfl⟩

theorem RunDir.files_tasks {files : RunFiles} (read : run.files = some files) :
    files.tasks = (loadTasksWithRecovery run.tasks).1 := by
  obtain ⟨manifest, -, rfl⟩ := Option.map_eq_some_iff.mp read
  rfl

theorem settleTempRun_settles_iff {before : RunFiles} {written : TeamRunManifest}
    {result : ReconcileResult} (read : run.files = some before)
    (reconciled : Reconciled host before.manifest before.tasks now written result) :
    (∀ after, (settleTempRun run written result now).files = some after →
        Settles host now before after (some result) false) ↔
      repairsSubset host before.manifest before.tasks now = false := by
  cases reconciled with
  | spared _ subset other =>
    simp only [subset, iff_true]
    intro after left
    rw [(settleTempRun_unrepaired rfl).2 other, read] at left
    cases left
    refine Settles.unchanged ?_
    rintro _ ⟨⟩
    rfl
  | finished _ subset _ settled =>
    simp only [subset, iff_true]
    intro after left
    have kept : after.tasks = before.tasks := by
      rw [RunDir.files_tasks left, RunDir.files_tasks read, (settleTempRun_unrepaired rfl).1]
    refine Settles.quiet ?_ ?_
    · rw [kept]
      exact checkResultFile_quiet settled
    · rintro _ ⟨⟩
      rfl
  | whole reason _ subset _ =>
    simp only [subset, iff_true]
    rintro after ⟨⟩
    refine Settles.quiet repairStaleRun_quiet ?_
    rintro _ ⟨⟩
    rfl
  | subset reason _ part =>
    simp only [part, Bool.true_eq_false, iff_false]
    intro settles
    exact ((settles _ rfl).part _ rfl rfl).1
      (List.mem_cons_of_mem _ (List.mem_cons_of_mem _ List.mem_cons_self))

theorem scanSettles_running_iff {manifest : TeamRunManifest} (directory : run.directory = true)
    (there : run.tasks ≠ .missing) (read : run.manifest = .readable manifest)
    (running : manifest.status = .running) :
    ScanSettles host now run ↔
      repairsSubset host manifest (loadTasksWithRecovery run.tasks).1 now = false := by
  have files : ∀ file, (loadTasksWithRecovery file).1 = (loadTasksWithRecovery run.tasks).1 →
      RunDir.files { run with tasks := file }
        = some { manifest := manifest, tasks := (loadTasksWithRecovery run.tasks).1 } := by
    intro file same
    rw [RunDir.files, read, same]
    rfl
  have turn := settleTempRun_settles_iff (files _ (loadTasksWithRecovery_again run.tasks))
    (reconcileStaleRun_reconciled host manifest (loadTasksWithRecovery run.tasks).1 now)
  refine Iff.trans ?_ turn
  unfold ScanSettles
  rw [files run.tasks rfl, reconcileTempRun_running directory there read running]
  constructor
  · exact fun settles after left => settles _ after rfl left
  · rintro settles before after ⟨⟩ left
    exact settles after left

/-- **The turn of a run in a scan settles it, but for a repair of its stale tasks.** -/
theorem reconcileTempRun_settles_iff : ScanSettles host now run ↔ cancelsOnPart host now run = false := by
  by_cases visited : run.directory = true ∧ run.tasks ≠ .missing
  · obtain ⟨directory, there⟩ := visited
    cases read : run.manifest with
    | missing | unreadable | corrupt =>
      have unread : run.files = none := by
        rw [RunDir.files, read]
        rfl
      refine iff_of_true (fun before _ found => ?_) ?_
      · rw [unread] at found
        cases found
      · rw [cancelsOnPart, unread, Option.any_none, Bool.and_false]
    | readable manifest =>
      by_cases running : manifest.status = .running
      · rw [scanSettles_running_iff directory there read running]
        simp [cancelsOnPart, directory, there, RunDir.files, read, loadManifestWithRecovery, running]
      · refine iff_of_true (scanSettles_idle ?_) ?_
        · simp [reconcileTempRun, directory, there, read, loadManifestWithRecovery, running]
        · simp [cancelsOnPart, RunDir.files, read, loadManifestWithRecovery, running]
  · have passed : (run.directory && decide (run.tasks ≠ .missing)) = false := by
      refine Bool.eq_false_iff.mpr fun both => visited ?_
      rw [Bool.and_eq_true, decide_eq_true_eq] at both
      exact both
    refine iff_of_true (scanSettles_idle ?_) ?_
    · unfold reconcileTempRun
      refine if_pos ?_
      rcases Bool.and_eq_false_iff.mp passed with link | missing
      · rw [link]
        rfl
      · rw [decide_eq_false_iff_not, not_not] at missing
        simp [missing]
    · rw [cancelsOnPart, passed, Bool.false_and]

end

section

variable (hosts : String → Host) (locked : String → Bool) (now : Int)

/-- **Every turn of a sweep settles its run.** -/
def SweepSettles (cached : List TeamRunManifest) (currentSessionId : Option String) (world : World) :
    Prop :=
  ∀ visit ∈ sweepVisits (visitStale hosts locked now) world (staleCandidates cached currentSessionId),
    ∀ files, (visit.1.runs visit.2).filter (fun _ => locked visit.2) = some files →
      TurnSettles (hosts visit.2) now files

/-- The sweep repairs the stale tasks of no run alone. -/
def SweepRepairsNoPart (cached : List TeamRunManifest) (currentSessionId : Option String)
    (world : World) : Prop :=
  ∀ visit ∈ sweepVisits (visitStale hosts locked now) world (staleCandidates cached currentSessionId),
    ∀ files, (visit.1.runs visit.2).filter (fun _ => locked visit.2) = some files →
      failsOnPart (hosts visit.2) now files = false

variable (tempHosts : String → String → Host) (meanwhile : String → Meanwhile) (options : TempOptions)
  (localeCompare : String → String → Bool)

/-- The entries that a scan reconciles, with their workspaces. -/
def scannedRuns (tempDir : Option (List Workspace)) : List (Workspace × RunDir) :=
  (reconcileOrphanedTempWorkspaces tempHosts meanwhile now options localeCompare tempDir).flatMap
    fun visit =>
      match findRunStateDir visit.workspace with
      | none => []
      | some layout => (visit.workspace.runs layout).entries.map (visit.workspace, ·)

/-- **Every turn of a scan settles its run.** -/
def TempSettles (tempDir : Option (List Workspace)) : Prop :=
  ∀ item ∈ scannedRuns now tempHosts meanwhile options localeCompare tempDir,
    ScanSettles (tempHosts item.1.name item.2.name) now item.2

def TempRepairsNoPart (tempDir : Option (List Workspace)) : Prop :=
  ∀ item ∈ scannedRuns now tempHosts meanwhile options localeCompare tempDir,
    cancelsOnPart (tempHosts item.1.name item.2.name) now item.2 = false

/-- **Recovery settles what it finishes, but for a repair of the stale tasks**: over a sweep of the runs, and
over a scan of the temporary directory. -/
theorem finished_runs_settled (cached : List TeamRunManifest) (currentSessionId : Option String)
    (world : World) (tempDir : Option (List Workspace)) :
    (SweepSettles hosts locked now cached currentSessionId world ↔
      SweepRepairsNoPart hosts locked now cached currentSessionId world) ∧
    (TempSettles now tempHosts meanwhile options localeCompare tempDir ↔
      TempRepairsNoPart now tempHosts meanwhile options localeCompare tempDir) :=
  ⟨forall₂_congr fun _ _ => forall₂_congr fun _ _ => reconcileRun_settles_iff,
    forall₂_congr fun _ _ => reconcileTempRun_settles_iff⟩

end

/-- A task whose worker was seen twenty minutes before, and is dead. -/
def zombieTask : TeamTaskState where
  id := "zombie"
  status := .running
  heartbeat := some { lastSeenAt := some 0 }

/-- A run with no process of its own: the worker of one task is there, and that of another is not. -/
def partRun : RunFiles where
  manifest := { runId := "run", status := .running, updatedAt := some 0 }
  tasks := [workerTask, zombieTask]

def partRunDir : RunDir where
  name := "run"
  manifest := .readable partRun.manifest
  tasks := .readable partRun.tasks

/-- **A run is failed, and cancelled, with a worker at its task.** -/
theorem worker_left_running :
    (reconcileRun workerHost partRun 1200000).1.files.map
        (fun files => (files.manifest.status, files.tasks.map (·.status)))
      = some (.failed, [.running, .cancelled]) ∧
    (reconcileRun workerHost partRun 1200000).1.terminates = true ∧
    (reconcileTempRun workerHost partRunDir 1200000).run.files.map
        (fun files => (files.manifest.status, files.tasks.map (·.status)))
      = some (.cancelled, [.running, .cancelled]) ∧
    ¬ TurnSettles workerHost 1200000 partRun ∧ ¬ ScanSettles workerHost 1200000 partRunDir := by
  refine ⟨by decide, by decide, by decide, ?_, ?_⟩
  · rw [reconcileRun_settles_iff]
    decide
  · rw [reconcileTempRun_settles_iff]
    decide

end PiCrew.Recovery
