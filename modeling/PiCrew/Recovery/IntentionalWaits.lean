/-
**Recovery spares the runs that wait for a person.**

A run that is blocked on the approval of its plan, or parked on an ask, is not taken for one that crashed
by any pass that finds it so under the lock of the run. Its entry in the index of active runs stays as long
as the index itself takes the run for active, which it does not of a run that is blocked.

* `Spared.apply` — the turn of another run, and one that leaves the run alone;
* `recovery_spares_waits` — the passes;
* `purge_drops_blocked_wait` — the entry of a run that is blocked on an approval is dropped.
-/

import PiCrew.Recovery.CrashRecovery

namespace PiCrew.Recovery

open State (TeamRunStatus TeamTaskStatus)

section

variable {host : Host} {files : RunFiles} {now : Int}

section

variable (waits : isIntentionalWait host files.manifest now = true)

include waits

theorem unjudged_of_waits : judged host files.manifest files.tasks now = false := by
  simp [judged, waits]

theorem fastPath_waits :
    applyReconcileAtOpenFastPath host files now = none := by
  have unfit : fastPathApplies host files now = false := by simp [fastPathApplies, waits]
  rw [applyReconcileAtOpenFastPath, unfit]
  rfl

/-- **The turn of a run that waits, in `reconcileAllStaleRuns`.** -/
theorem reconcileRun_waits : (reconcileRun host files now).1 = { files := some files } := by
  obtain ⟨whole, subset⟩ := unrepaired_of_unjudged (unjudged_of_waits waits)
  have reconciled := reconcileStaleRun_reconciled host files.manifest files.tasks now
  unfold reconcileRun
  rw [fastPath_waits waits]
  dsimp only
  by_cases other : files.manifest.status ≠ .running ∧ files.manifest.status ≠ .blocked
  · rw [if_pos other]
  · rw [if_neg other]
    by_cases plan : isPlanApprovalPendingEffective host files.manifest = true
    · rw [if_pos plan]
    · rw [if_neg plan]
      generalize reconcileStaleRun host files.manifest files.tasks now = outcome at reconciled ⊢
      obtain ⟨manifest, result⟩ := outcome
      dsimp only at reconciled ⊢
      cases reconciled with
      | spared _ _ other => rw [settleReconciled, if_neg (by simp [other])]
      | finished _ _ unparked _ => exact absurd (waits.symm.trans unparked) Bool.noConfusion
      | whole _ hit _ _ => exact absurd (hit.symm.trans whole) Bool.noConfusion
      | subset _ _ hit => exact absurd (hit.symm.trans subset) Bool.noConfusion

end

/-- **The turn of a run whose cached manifest waits, in `cancelOrphanedRuns`.** -/
theorem cancelOrphanedRun_waits {cached : TeamRunManifest} {seen : List TeamTaskState}
    {staleThresholdMs : Int} {currentSessionId : String}
    (waits : isIntentionalWait host cached host.clock = true) :
    (cancelOrphanedRun host cached seen files now staleThresholdMs currentSessionId).1
      = { files := some files } := by
  unfold cancelOrphanedRun
  dsimp only
  by_cases other : cached.status ≠ .running ∧ cached.status ≠ .blocked
  · rw [if_pos other]
  · rw [if_neg other, if_pos waits]

theorem purgeUnderLock_waits {error summary : String} {staleThresholdMs : Int}
    (waits : isIntentionalWait host files.manifest now = true) :
    purgeUnderLock host (some files) error summary now staleThresholdMs
      = if files.manifest.status ≠ .running then .changed else .intentionalWait := by
  unfold purgeUnderLock
  dsimp only
  rw [if_pos waits]

section

variable {runId : String} {sight : Sight} {manifest : TeamRunManifest} {staleThresholdMs : Int}
  {currentSessionId : Option String}

/-- What a purge sees of a run is what is there, and it gets the lock. -/
structure Sight.Current (sight : Sight) (files : RunFiles) : Prop where
  manifest : sight.manifest = .ok files.manifest
  loaded : sight.loaded = some files.manifest.status
  locked : sight.locked = true

/-- **The index lists a run, and a purge sees it as it is.** -/
structure Listed (host : Host) (entry : ActiveRunRegistryEntry) (sight : Sight) (files : RunFiles) :
    Prop where
  current : sight.Current files
  alive : countsAlive host (some files) entry = true

/-- **The turn of a run leaves it alone**: its files stay, and its entry, where that is listed. -/
structure LeavesAlone (listed : Prop) (before : RunFiles) (turn : Turn) : Prop where
  files : turn.files = some before
  entry : listed → turn.unregisters = false

variable {listed : Prop}

theorem purgeKept_alone : LeavesAlone listed files (purgeKept (some files) runId).1 where
  files := rfl
  entry _ := rfl

theorem purgeDecided_alone {error summary : String} {terminates : Bool}
    (waits : isIntentionalWait host files.manifest now = true)
    (running : listed → files.manifest.status = .running) :
    LeavesAlone listed files
      (purgeDecided (purgeUnderLock host (some files) error summary now staleThresholdMs) (some files)
        runId terminates).1 := by
  rw [purgeUnderLock_waits waits]
  split_ifs with changed
  · exact ⟨rfl, fun there => absurd (running there) changed⟩
  · exact ⟨rfl, fun _ => rfl⟩

section

variable (waits : isIntentionalWait host files.manifest now = true)
  (current : listed → sight.Current files) (running : listed → files.manifest.status = .running)
include waits current running

theorem purgeAsync_alone (pid : Int) : LeavesAlone listed files
      (purgeAsync host runId sight (some files) manifest now staleThresholdMs pid).1 := by
  unfold purgeAsync
  split_ifs with alive unlocked
  · exact purgeKept_alone
  · refine ⟨rfl, fun there => ?_⟩
    simp [(current there).loaded, (current there).locked] at unlocked
  · exact purgeDecided_alone waits running

theorem purgeForeground_alone : LeavesAlone listed files
      (purgeForeground host runId sight (some files) manifest now staleThresholdMs).1 := by
  unfold purgeForeground
  split_ifs with alive unlocked
  · exact purgeKept_alone
  · refine ⟨rfl, fun there => ?_⟩
    simp [(current there).loaded, (current there).locked, running there] at unlocked
  · exact purgeDecided_alone waits running

theorem purgeRunning_alone : LeavesAlone listed files
      (purgeRunning host runId sight (some files) manifest now staleThresholdMs).1 := by
  unfold purgeRunning
  cases manifest.async with
  | none => exact purgeForeground_alone waits current running
  | some runner =>
    obtain ⟨pid⟩ := runner
    cases pid with
    | none => exact purgeKept_alone
    | some pid => exact purgeAsync_alone waits current running pid

end

theorem countsAlive_there {entry : ActiveRunRegistryEntry}
    (alive : countsAlive host (some files) entry = true) :
    host.pathExists entry.manifestPath = true ∧ host.pathExists entry.cwd = true ∧
      files.manifest.status ∉ registryTerminalStatuses := by
  simp only [countsAlive, Option.any_some, Bool.and_eq_true, decide_eq_true_eq] at alive
  exact ⟨alive.1.1.1.2, alive.1.1.1.1, alive.2.1⟩

theorem purgeEntry_waits {entry : ActiveRunRegistryEntry}
    (waits : isIntentionalWait host files.manifest now = true)
    (readable : sight.manifest ≠ .error .corrupt) :
    LeavesAlone (Listed host entry sight files) files
      (purgeEntry host entry sight (some files) now staleThresholdMs currentSessionId).1 := by
  unfold purgeEntry
  split_ifs with gone moved
  · refine ⟨rfl, fun there => ?_⟩
    simp [(countsAlive_there there.alive).1] at gone
  · refine ⟨rfl, fun there => ?_⟩
    simp [(countsAlive_there there.alive).2.1] at moved
  · cases read : sight.manifest with
    | error fault =>
      cases fault with
      | transient => exact ⟨rfl, fun _ => rfl⟩
      | corrupt => exact absurd read readable
    | ok manifest =>
      have same : Listed host entry sight files → manifest = files.manifest :=
        fun there => Except.ok.inj (read.symm.trans there.current.manifest)
      dsimp only
      unfold purgeRead
      split_ifs with ended own running
      · refine ⟨rfl, fun there => ?_⟩
        rw [same there] at ended
        exact absurd ended (countsAlive_there there.alive).2.2
      · exact purgeKept_alone
      · refine purgeRunning_alone waits (fun there => there.current) fun there => ?_
        rw [← same there]
        exact running
      · exact purgeKept_alone

end

end

section

variable {hosts : String → Host} {runId : String} {files : RunFiles}

/-- **A run is spared**: its files stay, its live agents are not told to end, and its entry stays as long as
the index takes the run for active. The last two are said where `agents` and `listed` hold. -/
structure Spared (hosts : String → Host) (runId : String) (files : RunFiles) (agents listed : Prop)
    (before after : World) : Prop where
  unchanged : after.runs runId = some files
  unharmed : agents → runId ∈ after.terminated → runId ∈ before.terminated
  entry : listed → ∀ entry ∈ before.registry, entry.runId = runId →
    (∀ other, countsAlive (hosts other) (some files) entry = true) → entry ∈ after.registry

variable {agents listed : Prop} {before world : World} {other : String} {turn : Turn}

theorem apply_runs (host : Host) :
    (world.apply host other turn).runs = Function.update world.runs other turn.files := by
  unfold World.apply
  dsimp only
  split_ifs <;> rfl

theorem apply_terminated (host : Host) : (world.apply host other turn).terminated
      = if turn.terminates then world.terminated ++ [other] else world.terminated := by
  unfold World.apply
  dsimp only
  split_ifs <;> rfl

theorem mem_apply_registry {host : Host} {entry : ActiveRunRegistryEntry} (there : entry ∈ world.registry)
    (alive : countsAlive host ((world.apply host other turn).runs entry.runId) entry = true)
    (apart : turn.unregisters = true → entry.runId ≠ other) :
    entry ∈ (world.apply host other turn).registry := by
  rw [apply_runs] at alive
  unfold World.apply
  dsimp only
  by_cases unregisters : turn.unregisters = true
  · rw [if_pos unregisters]
    refine List.mem_filter.mpr ⟨there, ?_⟩
    rw [decide_eq_true (apart unregisters), Bool.true_and]
    exact alive
  · rw [if_neg unregisters]
    exact there

/-- **The turn of a run spares a run**, if it is another one, or is left alone. -/
theorem Spared.apply (spared : Spared hosts runId files agents listed before world)
    (alone : other = runId → turn.files = some files ∧ (agents → turn.terminates = false) ∧
      (listed → ∀ entry ∈ before.registry, entry.runId = runId →
        (∀ host, countsAlive (hosts host) (some files) entry = true) → turn.unregisters = false)) :
    Spared hosts runId files agents listed before (world.apply (hosts other) other turn) := by
  have kept : (world.apply (hosts other) other turn).runs runId = some files := by
    rw [apply_runs]
    by_cases own : other = runId
    · subst own
      rw [Function.update_self]
      exact (alone rfl).1
    · rw [Function.update_of_ne (Ne.symm own)]
      exact spared.unchanged
  refine ⟨kept, fun told there => ?_, fun stays entry member same alive => ?_⟩
  · rw [apply_terminated] at there
    split_ifs at there with terminates
    · rcases List.mem_append.mp there with old | new
      · exact spared.unharmed told old
      · have own := (List.mem_singleton.mp new).symm
        exact absurd ((alone own).2.1 told) (by simp [terminates])
    · exact spared.unharmed told there
  · refine mem_apply_registry (spared.entry stays entry member same alive) ?_ fun unregisters own => ?_
    · rw [same, kept]
      exact alive other
    · have alone' := (alone (own.symm.trans same)).2.2 stays entry member same alive
      exact absurd alone' (by simp [unregisters])

theorem Spared.start (read : before.runs runId = some files) :
    Spared hosts runId files agents listed before before where
  unchanged := read
  unharmed _ there := there
  entry _ _ member _ _ := member

theorem Spared.untouched (spared : Spared hosts runId files agents listed before world)
    (alone : other = runId → turn = { files := some files }) :
    Spared hosts runId files agents listed before (world.apply (hosts other) other turn) := by
  refine spared.apply fun own => ?_
  rw [alone own]
  exact ⟨rfl, fun _ => rfl, fun _ _ _ _ _ => rfl⟩

/-- **`reconcileAllStaleRuns` spares a run that waits.** -/
theorem reconcileAllStaleRuns_spares (locked : String → Bool) (cached : List TeamRunManifest)
    {now : Int} (currentSessionId : Option String) (read : before.runs runId = some files)
    (waits : isIntentionalWait (hosts runId) files.manifest now = true) :
    Spared hosts runId files True True before
      (reconcileAllStaleRuns hosts locked cached now currentSessionId before).1 := by
  refine sweep_keeps (fun world other _ spared => ?_) (Spared.start read)
  unfold visitStale
  cases found : (world.runs other).filter fun _ => locked other with
  | none => exact spared
  | some fresh =>
    refine spared.untouched fun own => ?_
    subst own
    obtain rfl : fresh = files := by
      have there := (Option.filter_eq_some_iff.mp found).1
      exact Option.some.inj (there.symm.trans spared.unchanged)
    exact reconcileRun_waits waits

/-- **`cancelOrphanedRuns` spares a run** whose manifest in the cache waits. -/
theorem cancelOrphanedRuns_spares (seen : String → Option (List TeamTaskState))
    {cached : List TeamRunManifest} (now staleThresholdMs : Int) (currentSessionId : String)
    (read : before.runs runId = some files) (waits : ∀ manifest ∈ cached, manifest.runId = runId →
      isIntentionalWait (hosts runId) manifest (hosts runId).clock = true) :
    Spared hosts runId files True True before
      (cancelOrphanedRuns hosts seen cached now staleThresholdMs currentSessionId before).1 := by
  refine sweep_keeps (fun world manifest member spared => ?_) (Spared.start read)
  unfold visitOrphan
  cases found : world.runs manifest.runId with
  | none => exact spared
  | some fresh =>
    cases seen manifest.runId with
    | none => exact spared
    | some tasks =>
      refine spared.untouched fun own => ?_
      obtain rfl : fresh = files := by
        rw [own] at found
        exact Option.some.inj (found.symm.trans spared.unchanged)
      refine cancelOrphanedRun_waits ?_
      rw [own]
      exact waits manifest member own

/-- **`purgeStaleActiveRunIndex` spares a run that waits**, its live agents left aside. -/
theorem purgeStaleActiveRunIndex_spares {sights : String → Sight} {now : Int} (staleThresholdMs : Int)
    (currentSessionId : Option String) (read : before.runs runId = some files)
    (waits : isIntentionalWait (hosts runId) files.manifest now = true)
    (readable : (sights runId).manifest ≠ .error .corrupt) :
    Spared hosts runId files False ((sights runId).Current files) before
      (purgeStaleActiveRunIndex hosts sights now staleThresholdMs currentSessionId before).1 := by
  refine sweep_keeps (fun world visited member spared => ?_) (Spared.start read)
  unfold visitEntry
  refine spared.apply fun own => ?_
  subst own
  have turn : LeavesAlone (Listed (hosts visited.runId) visited (sights visited.runId) files) files
      (purgeEntry (hosts visited.runId) visited (sights visited.runId) (world.runs visited.runId) now
        staleThresholdMs currentSessionId).1 := by
    rw [spared.unchanged]
    exact purgeEntry_waits waits readable
  refine ⟨turn.files, fun never => never.elim, fun current entry there same alive => ?_⟩
  have one : visited = entry := List.inj_on_of_nodup_map before.distinct member there same.symm
  exact turn.entry ⟨current, one ▸ alive visited.runId⟩

/-- **Recovery spares the runs that wait for a person.** -/
theorem recovery_spares_waits (hosts : String → Host) (before : World) {runId : String} {files : RunFiles} {now : Int}
    (read : before.runs runId = some files)
    (waits : isIntentionalWait (hosts runId) files.manifest now = true) :
    (∀ locked cached currentSessionId, Spared hosts runId files True True before
      (reconcileAllStaleRuns hosts locked cached now currentSessionId before).1) ∧
    (∀ seen cached staleThresholdMs currentSessionId,
      (∀ manifest ∈ cached, manifest.runId = runId →
        isIntentionalWait (hosts runId) manifest (hosts runId).clock = true) →
      Spared hosts runId files True True before
        (cancelOrphanedRuns hosts seen cached now staleThresholdMs currentSessionId before).1) ∧
    ∀ sights staleThresholdMs currentSessionId, (sights runId).manifest ≠ .error .corrupt →
      Spared hosts runId files False ((sights runId).Current files) before
        (purgeStaleActiveRunIndex hosts sights now staleThresholdMs currentSessionId before).1 :=
  ⟨fun locked cached session => reconcileAllStaleRuns_spares locked cached session read waits,
    fun seen _ threshold session parked =>
      cancelOrphanedRuns_spares seen now threshold session read parked,
    fun _ threshold session readable =>
      purgeStaleActiveRunIndex_spares threshold session read waits readable⟩

def quietHost : Host where
  clock := 600000

def listedEntry : ActiveRunRegistryEntry where
  runId := "run"
  cwd := "/work"
  stateRoot := "/work/.crew/state/runs/run"
  manifestPath := "/work/.crew/state/runs/run/manifest.json"
  updatedAt := "2026-10-17T00:00:00.000Z"

def worldOf (files : RunFiles) : World where
  runs runId := if runId = "run" then some files else none
  registry := [listedEntry]
  distinct := by decide

def clearSight (files : RunFiles) : Sight where
  manifest := .ok files.manifest
  loaded := some files.manifest.status
  locked := true

/-- A run without a runner, that is parked on an ask and silent since. -/
def askedRun : RunFiles where
  manifest := {
    runId := "run", status := .running, updatedAt := some 0
    waitState := some { askedAt := some 0, deadline := some 3600000 } }
  tasks := [{ id := "task", status := .waiting }]

/-- A run that is blocked on the approval of its plan. -/
def unapprovedRun : RunFiles where
  manifest := {
    runId := "run", status := .blocked, updatedAt := some 0
    planApproval := some { required := true, status := .pending } }
  tasks := [{ id := "task", status := .queued }]

/-- **A run that is parked on an ask** is spared by each pass, though it is silent for ten minutes. -/
theorem recovery_spares_ask :
    (∀ cached ∈ [askedRun.manifest], isIntentionalWait quietHost cached 600000 = true) ∧
      let purged :=
        (purgeStaleActiveRunIndex (fun _ => quietHost) (fun _ => clearSight askedRun) 600000 300000 none
          (worldOf askedRun)).1
      purged.runs "run" = some askedRun ∧ listedEntry ∈ purged.registry := by
  have waits : isIntentionalWait quietHost askedRun.manifest 600000 = true := by decide
  refine ⟨fun cached member => List.mem_singleton.mp member ▸ waits, ?_⟩
  have read : (worldOf askedRun).runs "run" = some askedRun := by decide
  have spared := (recovery_spares_waits (fun _ => quietHost) (worldOf askedRun) read waits).2.2
    (fun _ => clearSight askedRun) 300000 none nofun
  exact ⟨spared.unchanged, spared.entry ⟨rfl, rfl, rfl⟩ listedEntry List.mem_cons_self rfl
    fun _ => by decide⟩

/-- **The entry of a run that waits for an approval is dropped**: it is blocked, and the index does not
list it. -/
theorem purge_drops_blocked_wait :
    isIntentionalWait quietHost unapprovedRun.manifest 600000 = true ∧
      listedEntry ∈ (worldOf unapprovedRun).registry ∧
      (purgeStaleActiveRunIndex (fun _ => quietHost) (fun _ => clearSight unapprovedRun) 600000 300000
        none (worldOf unapprovedRun)).1.registry = [] :=
  ⟨by decide, List.mem_cons_self, by decide⟩

end

end PiCrew.Recovery
