/-
**The workspaces in the temporary directory.**

`reconcileOrphanedTempWorkspaces` (`runtime/stale-reconciler.ts`). A scan takes the next batch of the
directories `pi-crew-*`, reconciles the runs of each, and removes a directory where no run is running: it
lists the runs of a workspace three times, the last time right before it is removed.

* `visitWorkspace` — the visit of a workspace;
* `running_spared` — a workspace that is removed has no run that is running, at the last listing;
* `queued_run_removed` — a run that did not start is removed with its workspace.

What others do to the runs of a workspace between two listings is an input, a write that fails included.
What a removal that fails has taken, and the times of change that a visit leaves, are left out.
-/

import PiCrew.Recovery.CrashRecovery

namespace PiCrew.Recovery

open State (PlanApprovalState TeamRunStatus)

/-- The manifest of a run, as it is found. What is no object is corrupt. -/
inductive ManifestFile where
  | missing
  | unreadable
  | corrupt
  | readable (manifest : TeamRunManifest)
  deriving DecidableEq

/-- The tasks of a run, as they are found. From a corrupt file, some are recovered by the events. -/
inductive TasksFile where
  | missing
  | unreadable
  | corrupt (recovered : List TeamTaskState)
  | readable (tasks : List TeamTaskState)
  deriving DecidableEq

/-- **An entry of the directory of the runs.** `directory` is not set for a symbolic link, and `ownRoot` is
set where the manifest is saved in this directory. -/
structure RunDir where
  name : String
  directory : Bool := true
  ownRoot : Bool := true
  manifest : ManifestFile
  tasks : TasksFile := .readable []
  deriving DecidableEq

inductive RunsDir where
  | gone
  | unreadable
  | listed (runs : List RunDir)
  deriving DecidableEq

/-- Where a workspace holds its runs: in `.crew`, or in `.pi/teams`. -/
inductive RunStateLayout where
  | crew
  | pi
  deriving DecidableEq

/-- **A workspace.** The runs of a layout are gone where a part of their path is a symbolic link. `sentinel`
is when the sentinel of a cleanup was written, `creates` and `reclaims` tell whether one can be, at first
and in the place of one that is old, and `removable` whether the directory can be removed. -/
structure Workspace where
  name : String
  directory : Bool := true
  crewRuns : RunsDir := .gone
  piRuns : RunsDir := .gone
  mtime : Option Int
  sentinel : Option Int := none
  creates : Bool := true
  reclaims : Bool := true
  removable : Bool := true
  deriving DecidableEq

def Workspace.runs (workspace : Workspace) : RunStateLayout → RunsDir
  | .crew => workspace.crewRuns
  | .pi => workspace.piRuns

def findRunStateDir (workspace : Workspace) : Option RunStateLayout :=
  [RunStateLayout.crew, .pi].find? (workspace.runs · ≠ .gone)

/-- **Read a manifest.** A corrupt one is quarantined. -/
def loadManifestWithRecovery : ManifestFile → Option TeamRunManifest × ManifestFile
  | .missing => (none, .missing)
  | .unreadable => (none, .unreadable)
  | .corrupt => (none, .missing)
  | .readable manifest => (some manifest, .readable manifest)

/-- **Read the tasks.** A corrupt file is quarantined, and what could be recovered is written. -/
def loadTasksWithRecovery : TasksFile → List TeamTaskState × TasksFile
  | .missing => ([], .missing)
  | .unreadable => ([], .unreadable)
  | .corrupt recovered => (recovered, if recovered.isEmpty then .missing else .readable recovered)
  | .readable tasks => (tasks, .readable tasks)

section

variable (host : Host)

/-- **What the turn of a run leaves**: its files, and the result, if it was reconciled. -/
structure RunScan where
  run : RunDir
  result : Option ReconcileResult := none
  deriving DecidableEq

def RunScan.repaired (scan : RunScan) : Bool :=
  scan.result.any fun result => result.repaired && result.repairedTasks.isSome

def RunScan.hasRunning (scan : RunScan) : Bool := scan.result.any fun result =>
    result.verdict = .healthy || result.verdict = .waitingAnswer
      || (result.verdict = .noStatus && !result.repaired)

/-- A run that was repaired, by the result: it is cancelled. -/
def cancelledBy (manifest : TeamRunManifest) (result : ReconcileResult) (now : Int) : TeamRunManifest :=
  { manifest with
    status := .cancelled
    updatedAt := some now
    summary := some ("Stale run reconciled: " ++ result.detail) }

/-- **Write what a reconciliation came to.** A run that is finished was saved where its manifest says. -/
def settleTempRun (run : RunDir) (manifest : TeamRunManifest) (result : ReconcileResult) (now : Int) :
    RunDir :=
  match result.repairedTasks.filter fun _ => result.repaired with
  | some repaired =>
    { run with
      manifest := .readable (cancelledBy manifest result now)
      tasks := .readable (result.persistTasks.getD repaired) }
  | none =>
    if result.verdict = .resultExists ∧ run.ownRoot then { run with manifest := .readable manifest }
    else run

/-- **The turn of a run in the first listing.** -/
def reconcileTempRun (run : RunDir) (now : Int) : RunScan :=
  if !run.directory || run.manifest = .missing || run.tasks = .missing then { run := run }
  else
    match loadManifestWithRecovery run.manifest with
    | (none, file) => { run := { run with manifest := file } }
    | (some manifest, _) =>
      if manifest.status ≠ .running then { run := run }
      else
        let (tasks, file) := loadTasksWithRecovery run.tasks
        let (written, result) := reconcileStaleRun host manifest tasks now
        { run := settleTempRun { run with tasks := file } written result now, result := some result }

end

/-- What a listing leaves, and whether it keeps the workspace. -/
structure Listing where
  runs : RunsDir
  keeps : Bool
  repaired : Nat := 0

/-- **The first listing** reconciles the runs. What cannot be listed keeps the workspace. -/
def firstListing (hosts : String → Host) (runs : RunsDir) (now : Int) : Listing :=
  match runs with
  | .gone | .unreadable => { runs := runs, keeps := true }
  | .listed runs =>
    let scans := runs.map fun run => reconcileTempRun (hosts run.name) run now
    { runs := .listed (scans.map (·.run))
      keeps := scans.any (·.hasRunning)
      repaired := scans.countP (·.repaired) }

def RunDir.load (run : RunDir) : Option TeamRunManifest × ManifestFile :=
  if run.directory then loadManifestWithRecovery run.manifest else (none, run.manifest)

/-- **Look for a run that is running**, up to the first one. -/
def findRunning : List RunDir → List RunDir × Bool
  | [] => ([], false)
  | run :: rest =>
    let read := run.load
    if read.1.any (·.status = .running) then (run :: rest, true)
    else
      let (left, found) := findRunning rest
      ({ run with manifest := read.2 } :: left, found)

/-- **A later listing** looks for a run that is running. -/
def laterListing (runs : RunsDir) (keepsUnreadable : Bool) : Listing :=
  match runs with
  | .gone => { runs := .gone, keeps := false }
  | .unreadable => { runs := .unreadable, keeps := keepsUnreadable }
  | .listed runs =>
    let (left, found) := findRunning runs
    { runs := .listed left, keeps := found }

section

def orphanTempDirAgeThresholdMs : Int := 60 * 60 * 1000

def sentinelStaleReclaimMs : Int := 10 * 60 * 1000

def orphanReconcileTickMs : Int := 60000

def orphanTempScanBatchSize : Nat := 50

/-- **A visit gets the sentinel** of the cleanup: none is there, or one that is old. -/
def Workspace.takesSentinel (workspace : Workspace) (now : Int) : Bool :=
  if workspace.sentinel.isNone && workspace.creates then true
  else if workspace.sentinel.any (now - · ≤ sentinelStaleReclaimMs) then false
  else workspace.reclaims

structure TempOptions where
  cleanupOrphanedTempDirs : Bool := true
  scanBatchSize : Nat := orphanTempScanBatchSize

/-- What others do to the runs of a workspace, after the first listing and after the second one. -/
structure Meanwhile where
  beforeRescan : RunsDir → RunsDir := id
  beforeRemoval : RunsDir → RunsDir := id

/-- **What a visit leaves.** `runs` are those of the last listing. -/
structure Visit where
  workspace : Workspace
  runs : RunsDir := .gone
  repaired : Nat := 0
  removed : Bool := false
  failed : Bool := false

variable (hosts : String → String → Host) (meanwhile : String → Meanwhile) (now : Int)
  (options : TempOptions)

/-- **The age of a workspace**, before the sentinel is written. -/
def Workspace.dirAge (workspace : Workspace) : Int :=
  if options.cleanupOrphanedTempDirs then (workspace.mtime.map (now - ·)).getD 0 else 0

/-- **Remove a workspace** that two listings did not keep, by its age and by the last listing. -/
def removeWorkspace (workspace : Workspace) (second : RunsDir) (repaired : Nat) : Visit :=
  if orphanTempDirAgeThresholdMs < workspace.dirAge now options then
    let third := laterListing ((meanwhile workspace.name).beforeRemoval second) true
    let removed := !third.keeps
    { workspace := workspace, runs := third.runs, repaired := repaired
      removed := removed && workspace.removable, failed := removed && !workspace.removable }
  else { workspace := workspace, runs := second, repaired := repaired }

def visitWorkspace (workspace : Workspace) : Visit :=
  match findRunStateDir workspace with
  | none => { workspace := workspace }
  | some layout =>
    let first := firstListing (hosts workspace.name) (workspace.runs layout) now
    let kept : Visit := { workspace := workspace, runs := first.runs, repaired := first.repaired }
    if first.keeps || !workspace.takesSentinel now then kept
    else
      let second := laterListing ((meanwhile workspace.name).beforeRescan first.runs) false
      if second.keeps then { kept with runs := second.runs }
      else removeWorkspace meanwhile now options workspace second.runs first.repaired

def sliceIndex (length : Nat) (index : Int) : Nat :=
  if index < 0 then (length + index).toNat else min index.toNat length

def slice {α : Type} (items : List α) (start stop : Int) : List α :=
  (items.take (sliceIndex items.length stop)).drop (sliceIndex items.length start)

def candidates (localeCompare : String → String → Bool) (entries : List Workspace) : List Workspace :=
  (entries.filter fun entry =>
    entry.directory && "pi-crew-".toList.isPrefixOf entry.name.toList).mergeSort
      fun first second => localeCompare first.name second.name

/-- **The batch of a scan**: the next one, by the clock. -/
def selected (candidates : List Workspace) : List Workspace :=
  let scanBatch := options.scanBatchSize
  let batches := max 1 ((candidates.length + scanBatch - 1) / scanBatch)
  let start := (now / orphanReconcileTickMs).tmod batches * scanBatch
  slice candidates start (start + scanBatch)

/-- The visits of a scan. It ends where a removal fails. -/
def visitWorkspaces : List Workspace → List Visit
  | [] => []
  | workspace :: rest =>
    let visit := visitWorkspace hosts meanwhile now options workspace
    if visit.failed then [visit] else visit :: visitWorkspaces rest

/-- **A scan of the temporary directory**, if it can be listed: its visits. -/
def reconcileOrphanedTempWorkspaces (localeCompare : String → String → Bool)
    (tempDir : Option (List Workspace)) : List Visit :=
  match tempDir with
  | none => []
  | some entries =>
    visitWorkspaces hosts meanwhile now options (selected now options (candidates localeCompare entries))

structure OrphanReconcileResult where
  repaired : Nat
  cleanedDirs : Nat
  deriving DecidableEq

def orphanReconcileResult (visits : List Visit) : OrphanReconcileResult where
  repaired := (visits.map (·.repaired)).sum
  cleanedDirs := visits.countP (·.removed)

end

def RunsDir.entries : RunsDir → List RunDir
  | .gone | .unreadable => []
  | .listed runs => runs

/-- **Every run that can be read has a status of some kind.** -/
def EveryRun (kind : TeamRunStatus → Prop) (runs : List RunDir) : Prop :=
  ∀ run ∈ runs, run.directory = true →
    ∀ manifest, run.manifest = .readable manifest → kind manifest.status

section

variable {hosts : String → String → Host} {meanwhile : String → Meanwhile} {now : Int}
  {options : TempOptions} {workspace : Workspace}

theorem not_running_of_load {run : RunDir} {manifest : TeamRunManifest} (directory : run.directory = true)
    (quiet : ¬ run.load.1.any (·.status = .running) = true) (left : run.load.2 = .readable manifest) :
    manifest.status ≠ .running := by
  intro running
  rw [RunDir.load, if_pos directory] at quiet left
  cases file : run.manifest with
  | missing | unreadable | corrupt =>
    rw [file] at left
    cases left
  | readable found =>
    rw [file] at quiet left
    have same : found = manifest := ManifestFile.readable.inj left
    refine quiet ?_
    rw [same]
    exact decide_eq_true running

theorem findRunning_spared {runs : List RunDir} (none : (findRunning runs).2 = false) :
    EveryRun (· ≠ .running) (findRunning runs).1 := by
  induction runs with
  | nil => exact fun _ member => nomatch member
  | cons run rest ih =>
    rw [findRunning] at none ⊢
    dsimp only at none ⊢
    by_cases found : run.load.1.any (·.status = .running) = true
    · rw [if_pos found] at none
      cases none
    · rw [if_neg found] at none ⊢
      intro other member directory manifest left
      rcases List.mem_cons.mp member with rfl | later
      · have isDirectory : run.directory = true := directory
        exact not_running_of_load isDirectory found left
      · exact ih none other later directory manifest left

theorem laterListing_spared {runs : RunsDir} (passed : (laterListing runs true).keeps = false) :
    EveryRun (· ≠ .running) (laterListing runs true).runs.entries := by
  cases runs with
  | gone => exact fun _ member => nomatch member
  | unreadable => cases passed
  | listed runs => exact findRunning_spared passed

theorem of_dirAge (age : orphanTempDirAgeThresholdMs < workspace.dirAge now options) :
    options.cleanupOrphanedTempDirs = true ∧
      ∃ mtime, workspace.mtime = some mtime ∧ orphanTempDirAgeThresholdMs < now - mtime := by
  unfold Workspace.dirAge at age
  split_ifs at age with cleanup
  · refine ⟨cleanup, ?_⟩
    cases changed : workspace.mtime with
    | none =>
      rw [changed, Option.map_none, Option.getD_none] at age
      exact absurd age (by decide)
    | some mtime =>
      rw [changed] at age
      exact ⟨mtime, rfl, age⟩
  · exact absurd age (by decide)

/-- **A workspace that may be removed**: the cleanup is not turned off, it did not change for an hour, and
the last listing found no run that is running. -/
structure Removable (now : Int) (options : TempOptions) (visit : Visit) : Prop where
  cleanup : options.cleanupOrphanedTempDirs = true
  old : ∃ mtime, visit.workspace.mtime = some mtime ∧ orphanTempDirAgeThresholdMs < now - mtime
  quiet : EveryRun (· ≠ .running) visit.runs.entries

theorem removeWorkspace_removable {second : RunsDir} {repaired : Nat}
    (removed : (removeWorkspace meanwhile now options workspace second repaired).removed = true) :
    Removable now options (removeWorkspace meanwhile now options workspace second repaired) := by
  unfold removeWorkspace at removed ⊢
  split_ifs at removed ⊢ with age
  · obtain ⟨cleanup, old⟩ := of_dirAge age
    rw [Bool.and_eq_true, Bool.not_eq_true'] at removed
    exact ⟨cleanup, old, laterListing_spared removed.1⟩

theorem visitWorkspace_removable
    (removed : (visitWorkspace hosts meanwhile now options workspace).removed = true) :
    Removable now options (visitWorkspace hosts meanwhile now options workspace) := by
  unfold visitWorkspace at removed ⊢
  cases found : findRunStateDir workspace with
  | none =>
    rw [found] at removed
    cases removed
  | some layout =>
    rw [found] at removed
    dsimp only at removed ⊢
    split_ifs at removed ⊢
    exact removeWorkspace_removable removed

theorem mem_visitWorkspaces {entries : List Workspace} {visit : Visit}
    (member : visit ∈ visitWorkspaces hosts meanwhile now options entries) :
    ∃ workspace ∈ entries, visit = visitWorkspace hosts meanwhile now options workspace := by
  induction entries with
  | nil => nomatch member
  | cons workspace rest ih =>
    unfold visitWorkspaces at member
    dsimp only at member
    split_ifs at member with failed
    · exact ⟨workspace, List.mem_cons_self, List.mem_singleton.mp member⟩
    · rcases List.mem_cons.mp member with here | later
      · exact ⟨workspace, List.mem_cons_self, here⟩
      · obtain ⟨other, there, same⟩ := ih later
        exact ⟨other, List.mem_cons_of_mem _ there, same⟩

/-- **A workspace that is removed may be removed**, whatever the temporary directory holds, and whatever
others do meanwhile. -/
theorem running_spared (hosts : String → String → Host) (meanwhile : String → Meanwhile) (now : Int)
    (options : TempOptions) (localeCompare : String → String → Bool)
    (tempDir : Option (List Workspace)) :
    ∀ visit ∈ reconcileOrphanedTempWorkspaces hosts meanwhile now options localeCompare tempDir,
      visit.removed = true → Removable now options visit := by
  intro visit member removed
  cases tempDir with
  | none => nomatch member
  | some entries =>
    obtain ⟨workspace, -, rfl⟩ := mem_visitWorkspaces member
    exact visitWorkspace_removable removed

end

def pendingPlan : PlanApprovalState := { required := true, status := .pending }

def quietWorkspace : Workspace where
  name := "pi-crew-a"
  crewRuns := .listed [
    { name := "queued", manifest := .readable { runId := "queued", status := .queued } },
    { name := "blocked"
      manifest :=
        .readable { runId := "blocked", status := .blocked, planApproval := some pendingPlan } }]
  mtime := some 0

def quietScan : List Visit :=
  reconcileOrphanedTempWorkspaces (fun _ _ => { clock := 7200000 }) (fun _ => {}) 7200000 {}
    (fun first second => decide (first ≤ second)) (some [quietWorkspace])

theorem quietScan_eq :
    quietScan = [visitWorkspace (fun _ _ => { clock := 7200000 }) (fun _ => {}) 7200000 {} quietWorkspace] := by
  have one : candidates (fun first second => decide (first ≤ second)) [quietWorkspace]
      = [quietWorkspace] := List.mergeSort_singleton _
  unfold quietScan reconcileOrphanedTempWorkspaces
  dsimp only
  rw [one]
  rfl

theorem running_spared_of_quiet : ∃ visit ∈ quietScan, visit.removed = true ∧
    Removable 7200000 {} visit := by
  have member : visitWorkspace (fun _ _ => { clock := 7200000 }) (fun _ => {}) 7200000 {} quietWorkspace
      ∈ quietScan := by
    rw [quietScan_eq]
    exact List.mem_cons_self
  have removed : (visitWorkspace (fun _ _ => { clock := 7200000 }) (fun _ => {}) 7200000 {}
      quietWorkspace).removed = true := by decide
  exact ⟨_, member, removed, running_spared _ _ _ _ _ _ _ member removed⟩

/-- **A run that did not start, and one that waits for a person, are removed with their workspace.** -/
theorem queued_run_removed :
    ¬ ∀ visit ∈ quietScan, visit.removed = true →
      EveryRun (fun status => status ∈ [.completed, .failed, .cancelled]) visit.runs.entries := by
  intro finished
  rw [quietScan_eq] at finished
  have kinds := finished _ List.mem_cons_self (by decide)
  exact absurd (kinds _ List.mem_cons_self rfl _ rfl) (by decide)

end PiCrew.Recovery
