/-
**The status of a run on disk, under writers with stale copies.**

`state/stores/state-store.ts`. A writer holds a manifest it read some time ago. `updateRunStatus`
checks the move from the status *it remembers* and saves; `saveRunManifest` saves whatever it is
given. Below both stands one guard, `preserveDiskTerminalStatus`: a write that is not `cancelled`,
`failed` or `completed` never takes the place of one of these on disk.

Neither check compares two settled statuses, so the table of the run lifecycle is kept by a write
only if the writer's memory, the guard or luck sees to it:

* `storeStep_legal_iff` — one call changes the status on disk along an edge of the table exactly
  when `RespectsDisk` says so: it is refused, or the guard preserves the disk, or the table has the
  move from the status on disk;
* `statusHistory_legal_iff` — the same for any sequence of calls by any holders;
* `stale_writer_completes_cancelled_run` — a holder that remembers `running` completes a run that
  is cancelled on disk.

The model is of a run that exists on disk. The creation of a run writes its files directly.
-/

import PiCrew.State.Types
import PiCrew.Library.Runs

namespace PiCrew.Store

open PiCrew.State

/-- The events the store appends about the status of a run. -/
inductive RunEvent where
  | status (status : TeamRunStatus) (message : Option String)
  | terminalPreserved (preserved refused : TeamRunStatus) (message : String)
  deriving DecidableEq, Repr

/-- **A run on disk**: its manifest, its tasks, its events, and whether the index of active runs
lists it. -/
structure RunDisk where
  manifest : TeamRunManifest
  tasks : List TeamTaskState := []
  events : List RunEvent := []
  active : Bool := true
  deriving DecidableEq, Repr

/-- A move that the run lifecycle does not have. -/
structure InvalidStatusTransition where
  origin : TeamRunStatus
  target : TeamRunStatus
  deriving DecidableEq, Repr

def statusText : TeamRunStatus → String
  | .queued => "queued"
  | .planning => "planning"
  | .running => "running"
  | .blocked => "blocked"
  | .completed => "completed"
  | .failed => "failed"
  | .cancelled => "cancelled"

/-- The statuses that the write layer preserves (`DISK_TERMINAL_STATUSES`). A blocked run is not
among them: it can be unblocked. -/
def diskTerminalStatuses : List TeamRunStatus := [.cancelled, .failed, .completed]

/-- What is saved for an incoming manifest: itself, or itself with the settled status of the
disk. -/
def preserveDiskTerminalStatus (disk : RunDisk) (manifest : TeamRunManifest)
    (allowTerminalExit : Bool) : TeamRunManifest :=
  if allowTerminalExit then manifest
  else if diskTerminalStatuses.contains manifest.status then manifest
  else if !diskTerminalStatuses.contains disk.manifest.status ||
      disk.manifest.status == manifest.status then manifest
  else
    { manifest with
      status := disk.manifest.status, summary := disk.manifest.summary
      updatedAt := disk.manifest.updatedAt }

/-- Save a manifest, and say what was saved. -/
def saveRunManifest (disk : RunDisk) (manifest : TeamRunManifest) (allowTerminalExit : Bool) :
    TeamRunManifest × RunDisk :=
  let effective := preserveDiskTerminalStatus disk manifest allowTerminalExit
  (effective, { disk with manifest := effective })

def saveRunTasks (disk : RunDisk) (tasks : List TeamTaskState) : RunDisk :=
  if tasks.isEmpty && !disk.tasks.isEmpty then disk else { disk with tasks := tasks }

/-- The options of `updateRunStatus`. -/
structure UpdateRunStatusOptions where
  allowTerminalExit : Bool := false

/-- **Move a run to a status**, from the status the caller remembers. -/
def updateRunStatus (disk : RunDisk) (manifest : TeamRunManifest) (status : TeamRunStatus)
    (summary : Option String) (now : String) (options : UpdateRunStatusOptions) :
    Except InvalidStatusTransition (TeamRunManifest × RunDisk) :=
  if !canTransitionRunStatus manifest.status status then
    .error { origin := manifest.status, target := status }
  else
    let updated : TeamRunManifest := { manifest with
        status := status, updatedAt := now, summary := summary.or manifest.summary }
    let saved := saveRunManifest disk updated options.allowTerminalExit
    if saved.1.status ≠ status then
      -- the disk was settled: the refusal is recorded and the settled state returned
      .ok (saved.1, { saved.2 with
          events := saved.2.events ++ [.terminalPreserved saved.1.status status
              ("Preserved terminal status '" ++ statusText saved.1.status ++
                "'; refused in-memory transition to '" ++ statusText status ++ "'.")] })
    else
      .ok (updated, { saved.2 with
          active := saved.2.active &&
            !(status == .completed || status == .failed || status == .cancelled)
          events := saved.2.events ++ [.status status summary] })

/-- **A call by some holder** of a manifest, fresh or stale. -/
inductive StoreCall where
  | save (manifest : TeamRunManifest)
  | update (manifest : TeamRunManifest) (status : TeamRunStatus) (summary : Option String)
      (now : String)

/-- What a call leaves on disk. A call that throws leaves the disk alone. -/
def storeStep (disk : RunDisk) : StoreCall → RunDisk
  | .save manifest => (saveRunManifest disk manifest false).2
  | .update manifest status summary now =>
    match updateRunStatus disk manifest status summary now {} with
    | .ok result => result.2
    | .error _ => disk

def StoreCall.incoming : StoreCall → TeamRunStatus
  | .save manifest => manifest.status
  | .update _ status _ _ => status

def StoreCall.refused : StoreCall → Bool
  | .save _ => false
  | .update manifest status _ _ => !canTransitionRunStatus manifest.status status

def preserves (stored incoming : TeamRunStatus) : Bool :=
  diskTerminalStatuses.contains stored && !diskTerminalStatuses.contains incoming

theorem saveRunManifest_status (disk : RunDisk) (manifest : TeamRunManifest) :
    (saveRunManifest disk manifest false).1.status
      = if preserves disk.manifest.status manifest.status then disk.manifest.status
        else manifest.status := by
  unfold saveRunManifest preserveDiskTerminalStatus preserves
  by_cases incoming : diskTerminalStatuses.contains manifest.status = true
  · simp only [incoming, if_true, Bool.not_true, Bool.and_false, Bool.false_eq_true, if_false]
  · by_cases stored : diskTerminalStatuses.contains disk.manifest.status = true
    · by_cases same : disk.manifest.status = manifest.status
      · rw [same] at stored
        exact absurd stored incoming
      · simp only [incoming, stored, same, beq_iff_eq, Bool.false_eq_true, if_false, Bool.not_true,
          Bool.false_or, Bool.not_false, Bool.and_true, if_true]
    · simp only [incoming, stored, Bool.false_eq_true, if_false, Bool.not_false, Bool.true_or,
        if_true, Bool.false_and]

theorem updateRunStatus_allowed (disk : RunDisk) (manifest : TeamRunManifest)
    (status : TeamRunStatus) (summary : Option String) (now : String)
    (allowed : canTransitionRunStatus manifest.status status = true) :
    ∃ returned written, updateRunStatus disk manifest status summary now {} = .ok (returned, written) ∧
      written.tasks = disk.tasks ∧ returned.status = written.manifest.status ∧
      written.manifest.status
        = if preserves disk.manifest.status status then disk.manifest.status else status := by
  have saved := saveRunManifest_status disk
    { manifest with status := status, updatedAt := now, summary := summary.or manifest.summary }
  unfold updateRunStatus
  rw [allowed, Bool.not_true, if_neg Bool.false_ne_true]
  simp only
  split
  · exact ⟨_, _, rfl, rfl, rfl, saved⟩
  · rename_i kept
    exact ⟨_, _, rfl, rfl, (not_not.mp kept).symm, saved⟩

theorem updateRunStatus_refused (disk : RunDisk) (manifest : TeamRunManifest)
    (status : TeamRunStatus) (summary : Option String) (now : String)
    (refused : canTransitionRunStatus manifest.status status = false) :
    updateRunStatus disk manifest status summary now {}
      = .error { origin := manifest.status, target := status } := by
  unfold updateRunStatus
  rw [refused, Bool.not_false, if_pos rfl]

theorem storeStep_status (disk : RunDisk) (call : StoreCall) : (storeStep disk call).manifest.status
      = if call.refused || preserves disk.manifest.status call.incoming then disk.manifest.status
        else call.incoming := by
  cases call with
  | save manifest => exact saveRunManifest_status disk manifest
  | update manifest status summary now =>
    simp only [storeStep, StoreCall.refused, StoreCall.incoming]
    by_cases allowed : canTransitionRunStatus manifest.status status = true
    · obtain ⟨returned, written, ended, -, -, after⟩ :=
        updateRunStatus_allowed disk manifest status summary now allowed
      simp only [allowed, ended, Bool.not_true, Bool.false_or]
      exact after
    · have refused := Bool.eq_false_iff.mpr allowed
      simp only [updateRunStatus_refused disk manifest status summary now refused, refused,
        Bool.not_false, Bool.true_or, if_true]

def LegalChange (before after : RunDisk) : Prop := before.manifest.status ≠ after.manifest.status →
    after.manifest.status ∈ teamRunStatusTransitions before.manifest.status

/-- **A call respects the disk**: its holder's memory refuses it, or the guard preserves the status
on disk, or the lifecycle has the move from the status on disk. -/
def RespectsDisk (disk : RunDisk) (call : StoreCall) : Prop :=
  call.refused = true ∨ preserves disk.manifest.status call.incoming = true ∨
    canTransitionRunStatus disk.manifest.status call.incoming = true

theorem storeStep_legal_iff (disk : RunDisk) (call : StoreCall) :
    LegalChange disk (storeStep disk call) ↔ RespectsDisk disk call := by
  unfold LegalChange RespectsDisk
  rw [storeStep_status]
  by_cases kept : (call.refused || preserves disk.manifest.status call.incoming) = true
  · have either : call.refused = true ∨ preserves disk.manifest.status call.incoming = true := by
      simpa using kept
    rw [if_pos kept]
    constructor
    · exact fun _ => either.imp id Or.inl
    · exact fun _ changed => absurd rfl changed
  · have neither : ¬ call.refused = true ∧ ¬ preserves disk.manifest.status call.incoming = true := by
      simpa using kept
    rw [if_neg kept, or_iff_right neither.1, or_iff_right neither.2]
    simp only [canTransitionRunStatus, Bool.or_eq_true, beq_iff_eq, List.contains_iff_mem]
    exact or_iff_not_imp_left.symm

/-- **The history of a run's status.** For every sequence of calls by holders of any manifests:
every change of the status on disk is an edge of the run lifecycle exactly when every call respects
the disk it finds. -/
theorem statusHistory_legal_iff (disk : RunDisk) (calls : List StoreCall) :
    (∀ taken ∈ Runs.transitions storeStep disk calls, LegalChange taken.before taken.after)
      ↔ ∀ taken ∈ Runs.transitions storeStep disk calls, RespectsDisk taken.before taken.action :=
  Runs.transitions_iff storeStep storeStep_legal_iff disk calls

theorem storeStep_settled_iff (disk : RunDisk) (call : StoreCall) :
    (storeStep disk call).manifest.status ∈ diskTerminalStatuses ↔
      disk.manifest.status ∈ diskTerminalStatuses ∨
        call.refused = false ∧ call.incoming ∈ diskTerminalStatuses := by
  rw [storeStep_status]
  by_cases kept : (call.refused || preserves disk.manifest.status call.incoming) = true
  · rw [if_pos kept]
    simp only [preserves, Bool.or_eq_true, Bool.and_eq_true, Bool.not_eq_true',
      List.contains_eq_mem, decide_eq_true_eq, decide_eq_false_iff_not] at kept
    grind
  · rw [if_neg kept]
    simp only [preserves, Bool.or_eq_true, Bool.and_eq_true, Bool.not_eq_true',
      List.contains_eq_mem, decide_eq_true_eq, decide_eq_false_iff_not] at kept
    grind

/-- **A settled run stays settled**, whatever the holders remember: a run is settled in the end exactly
when it was, or when a call that its holder's memory allows settles it. -/
theorem settled_iff (disk : RunDisk) (calls : List StoreCall) :
    (Runs.finish storeStep disk calls).manifest.status ∈ diskTerminalStatuses ↔
      disk.manifest.status ∈ diskTerminalStatuses ∨
        ∃ call ∈ calls, call.refused = false ∧ call.incoming ∈ diskTerminalStatuses := by
  induction calls generalizing disk with
  | nil => simp [Runs.finish]
  | cons call rest ih =>
    show (Runs.finish storeStep (storeStep disk call) rest).manifest.status ∈ _ ↔ _
    rw [ih, storeStep_settled_iff, List.exists_mem_cons_iff, or_assoc]

/-- **A stale writer completes a cancelled run**: it remembers `running`, so its own check lets the
move pass, and the guard does not compare settled statuses. -/
theorem stale_writer_completes_cancelled_run :
    let disk : RunDisk := { manifest := { runId := "run", status := .cancelled } }
    let call : StoreCall := .update { runId := "run", status := .running } .completed none "now"
    (storeStep disk call).manifest.status = .completed ∧
      TeamRunStatus.completed ∉ teamRunStatusTransitions .cancelled ∧
      ¬ LegalChange disk (storeStep disk call) := by
  refine ⟨by decide, by decide, fun legal => ?_⟩
  exact absurd (legal (by decide)) (by decide)

end PiCrew.Store
