/-
**One task update onto the tasks on disk.**

`runtime/task-runner/state-helpers.ts`. A runner persists its own task from a snapshot that may be
older than the file, so `mergeTaskUpdateWithDisk` lets the disk decide three things: a settled
status against a different settled one (`keepTerminalVerdict`), the token accounting
(`mergeAllocation`), and a park that the runner has not heard of (`keepLivePark`).

Everything else is the incoming task's, its status included. `mergedStatus` is the whole rule for
the status of one update; `persistAll_keeps` carries it over any sequence of updates:

* updates that are under way and know of no park keep a live park (`persistAll_keeps_park`);
* but an update under way does take the place of a settled status: the guard against it is with the
  callers of the source, not here (`heartbeat_replaces_settled`).
-/

import PiCrew.State.Types

namespace PiCrew.TaskRunner

open PiCrew.State

def updateTask (tasks : List TeamTaskState) (updated : TeamTaskState) : List TeamTaskState :=
  tasks.map fun task => if task.id = updated.id then updated else task

/-- A settled status on disk stands against a different settled one, with its error. -/
def keepTerminalVerdict (diskTask incoming : TeamTaskState) : TeamTaskState :=
  if isTerminalTaskStatus incoming.status && isTerminalTaskStatus diskTask.status &&
      diskTask.status != incoming.status then
    { incoming with status := diskTask.status, error := diskTask.error }
  else incoming

/-- What was granted is the disk's; what was spent is the larger figure. -/
def mergeAllocation (diskAllocation incomingAllocation : Option TaskAllocation)
    (effective : TeamTaskState) : TeamTaskState :=
  match diskAllocation, incomingAllocation with
  | some disk, none => { effective with allocation := some disk }
  | some disk, some incoming =>
    { effective with
      allocation := some
        { tokensGranted := disk.tokensGranted
          tokensSpent := max disk.tokensSpent incoming.tokensSpent } }
  | none, _ => effective

/-- A live park on disk survives an update under way that knows of no park. -/
def keepLivePark (diskTask incoming effective : TeamTaskState) : TeamTaskState :=
  if diskTask.status = .waiting && diskTask.waiting.isSome && incoming.waiting.isNone &&
      !isTerminalTaskStatus effective.status then
    { effective with status := .waiting, waiting := diskTask.waiting }
  else effective

/-- The merge of an incoming task onto the task that the disk holds of it. -/
def mergeOnto (diskTask incoming : TeamTaskState) : TeamTaskState :=
  keepLivePark diskTask incoming
    (mergeAllocation diskTask.allocation incoming.allocation
      (keepTerminalVerdict diskTask incoming))

def taskOf (tasks : List TeamTaskState) (id : String) : Option TeamTaskState :=
  tasks.find? fun task => task.id == id

/-- **Merge one incoming task onto the tasks on disk.** A task that is not there is taken as it
comes. -/
def mergeTaskUpdateWithDisk (diskTasks : List TeamTaskState) (incoming : TeamTaskState) :
    TeamTaskState :=
  match taskOf diskTasks incoming.id with
  | none => incoming
  | some diskTask => mergeOnto diskTask incoming

/-- The update with the checkpoint of its phase, if one was asked for. -/
def withCheckpoint (updated : TeamTaskState) (checkpointPhase : Option CheckpointPhase)
    (now : String) : TeamTaskState :=
  match checkpointPhase with
  | none => updated
  | some phase => { updated with checkpoint := some { phase := phase, updatedAt := now } }

def coversPark (diskTask incoming : TeamTaskState) : Bool :=
  diskTask.status = .waiting && diskTask.waiting.isSome && incoming.waiting.isNone

/-- **The status an update leaves**: the disk's if both are settled or if a live park is covered,
and the incoming one otherwise. -/
def mergedStatus (diskTask incoming : TeamTaskState) : TeamTaskStatus :=
  if isTerminalTaskStatus incoming.status then
    if isTerminalTaskStatus diskTask.status then diskTask.status else incoming.status
  else if coversPark diskTask incoming then .waiting
  else incoming.status

@[simp] theorem mergeAllocation_id (disk incoming : Option TaskAllocation) (task : TeamTaskState) :
    (mergeAllocation disk incoming task).id = task.id := by
  cases disk <;> cases incoming <;> rfl

@[simp] theorem mergeAllocation_status (disk incoming : Option TaskAllocation)
    (task : TeamTaskState) : (mergeAllocation disk incoming task).status = task.status := by
  cases disk <;> cases incoming <;> rfl

section

variable (diskTask incoming : TeamTaskState)

include diskTask incoming

theorem keepTerminalVerdict_status :
    (keepTerminalVerdict diskTask incoming).status
      = if isTerminalTaskStatus incoming.status && isTerminalTaskStatus diskTask.status then
          diskTask.status
        else incoming.status := by
  unfold keepTerminalVerdict
  by_cases same : diskTask.status = incoming.status
  · simp [same]
  · simp only [bne_iff_ne.mpr same, Bool.and_true]
    split <;> rfl

@[simp] theorem keepTerminalVerdict_id :
    (keepTerminalVerdict diskTask incoming).id = incoming.id := by
  unfold keepTerminalVerdict
  split <;> rfl

@[simp] theorem mergeOnto_id :
    (mergeOnto diskTask incoming).id = incoming.id := by
  unfold mergeOnto keepLivePark
  split <;> simp

theorem mergeOnto_status :
    (mergeOnto diskTask incoming).status = mergedStatus diskTask incoming := by
  unfold mergeOnto keepLivePark mergedStatus coversPark
  rw [mergeAllocation_status, keepTerminalVerdict_status]
  cases settled : isTerminalTaskStatus incoming.status with
  | false =>
    simp only [Bool.false_and, Bool.false_eq_true, if_false, settled, Bool.not_false,
      Bool.and_true]
    split <;> simp [keepTerminalVerdict_status, settled]
  | true =>
    cases disk : isTerminalTaskStatus diskTask.status <;>
      simp [keepTerminalVerdict_status, settled, disk]

theorem mergeOnto_waiting (covered : coversPark diskTask incoming = true)
    (underway : isTerminalTaskStatus incoming.status = false) :
    (mergeOnto diskTask incoming).waiting = diskTask.waiting := by
  unfold mergeOnto keepLivePark
  unfold coversPark at covered
  rw [mergeAllocation_status, keepTerminalVerdict_status, underway]
  simp [underway, covered]

end

@[simp] theorem mergeTaskUpdateWithDisk_id (tasks : List TeamTaskState)
    (incoming : TeamTaskState) : (mergeTaskUpdateWithDisk tasks incoming).id = incoming.id := by
  unfold mergeTaskUpdateWithDisk
  split <;> simp

theorem taskOf_updateTask (tasks : List TeamTaskState) (updated : TeamTaskState) (id : String) :
    taskOf (updateTask tasks updated) id
      = (taskOf tasks id).map fun held => if updated.id = id then updated else held := by
  have keeps : ∀ task : TeamTaskState,
      (if task.id = updated.id then updated else task).id = task.id := by
    intro task
    split
    · rename_i same
      exact same.symm
    · rfl
  unfold taskOf updateTask
  rw [List.find?_map]
  simp only [Function.comp_def, keeps]
  cases found : tasks.find? fun task => task.id == id with
  | none => rfl
  | some held =>
    have same : held.id = id := by simpa using List.find?_some found
    simp [same, eq_comm]

section

/-- An update as the runner hands it over: the task, and the checkpoint to stamp on it. -/
structure TaskUpdate where
  task : TeamTaskState
  checkpointPhase : Option CheckpointPhase := none
  now : String := ""

def TaskUpdate.incoming (update : TaskUpdate) : TeamTaskState :=
  withCheckpoint update.task update.checkpointPhase update.now

/-- **What one undisturbed persist makes of the tasks on disk.** -/
def persistOnto (tasks : List TeamTaskState) (update : TaskUpdate) : List TeamTaskState :=
  updateTask tasks (mergeTaskUpdateWithDisk tasks update.incoming)

def persistAll (tasks : List TeamTaskState) (updates : List TaskUpdate) : List TeamTaskState :=
  updates.foldl persistOnto tasks

@[simp] theorem incoming_id (update : TaskUpdate) : update.incoming.id = update.task.id := by
  unfold TaskUpdate.incoming withCheckpoint
  split <;> rfl

@[simp] theorem incoming_status (update : TaskUpdate) :
    update.incoming.status = update.task.status := by
  unfold TaskUpdate.incoming withCheckpoint
  split <;> rfl

@[simp] theorem incoming_waiting (update : TaskUpdate) :
    update.incoming.waiting = update.task.waiting := by
  unfold TaskUpdate.incoming withCheckpoint
  split <;> rfl

theorem taskOf_persistOnto (tasks : List TeamTaskState) (update : TaskUpdate) (id : String) :
    taskOf (persistOnto tasks update) id
      = (taskOf tasks id).map fun held =>
          if update.task.id = id then mergeOnto held update.incoming else held := by
  unfold persistOnto
  rw [taskOf_updateTask, mergeTaskUpdateWithDisk_id, incoming_id]
  cases found : taskOf tasks id with
  | none => rfl
  | some held =>
    by_cases same : update.task.id = id
    · simp [same, mergeTaskUpdateWithDisk, found]
    · simp [same]

/-- **The rule for a sequence**: what every update of a task keeps of the version on disk, the
sequence keeps. Updates of other tasks do not touch it. -/
theorem persistAll_keeps (holds : TeamTaskState → Prop) {id : String} {updates : List TaskUpdate}
    (step : ∀ held, holds held → ∀ update ∈ updates, update.task.id = id →
      holds (mergeOnto held update.incoming))
    {tasks : List TeamTaskState} {held : TeamTaskState} (found : taskOf tasks id = some held)
    (start : holds held) :
    ∃ last, taskOf (persistAll tasks updates) id = some last ∧ holds last := by
  induction updates generalizing tasks held with
  | nil => exact ⟨held, found, start⟩
  | cons update rest ih =>
    have next := taskOf_persistOnto tasks update id
    rw [found, Option.map_some] at next
    refine ih (fun version good other member => step version good other
      (List.mem_cons_of_mem _ member)) next ?_
    by_cases same : update.task.id = id
    · rw [if_pos same]
      exact step held start update List.mem_cons_self same
    · rw [if_neg same]
      exact start

variable {id : String} {updates : List TaskUpdate} {tasks : List TeamTaskState}
  {held : TeamTaskState}

theorem persistAll_keeps_settled (found : taskOf tasks id = some held)
    (settled : isTerminalTaskStatus held.status = true) (final : ∀ update ∈ updates, update.task.id = id →
      isTerminalTaskStatus update.task.status = true) :
    ∃ last, taskOf (persistAll tasks updates) id = some last ∧ last.status = held.status := by
  refine persistAll_keeps (fun version => version.status = held.status) ?_ found rfl
  intro version same update member named
  rw [mergeOnto_status, mergedStatus, incoming_status, final update member named, same, settled]
  rfl

/-- **Updates under way that know of no park keep a live park.** -/
theorem persistAll_keeps_park (found : taskOf tasks id = some held)
    (parked : held.status = .waiting) (payload : held.waiting.isSome = true)
    (unaware : ∀ update ∈ updates, update.task.id = id →
      isTerminalTaskStatus update.task.status = false ∧ update.task.waiting = none) :
    ∃ last, taskOf (persistAll tasks updates) id = some last ∧
      last.status = .waiting ∧ last.waiting = held.waiting := by
  refine persistAll_keeps (fun version => version.status = .waiting ∧ version.waiting = held.waiting)
    ?_ found ⟨parked, rfl⟩
  rintro version ⟨waits, same⟩ update member named
  obtain ⟨underway, unknown⟩ := unaware update member named
  have covered : coversPark version update.incoming = true := by
    simp [coversPark, waits, same, payload, unknown]
  refine ⟨?_, ?_⟩
  · rw [mergeOnto_status, mergedStatus, incoming_status, underway, covered]
    rfl
  · rw [mergeOnto_waiting _ _ covered (by rw [incoming_status, underway]), same]

end

end PiCrew.TaskRunner
