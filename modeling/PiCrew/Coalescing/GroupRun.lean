/-
**What a group of tasks writes over the run's task list.**

`runCoalescedTaskGroup` of `runtime/scheduling/run-coalesced-task-group.ts`. `repairGroupTerminalWrite` puts the
group's own copies in place, before the worker starts and after it has ended, and `persistGroupHeartbeats` stamps
the heartbeats in between. Both read the list afresh under the run's lock, and pass over a task that is completed,
failed or cancelled there. A skipped task, or one that needs attention, is settled too, and it is overwritten.

* `repair_keeps_iff` — a write keeps what is settled exactly where no member is skipped or needs attention;
* `groupRun_keeps_iff` — the same for whole runs, with other writers in between.
-/

import PiCrew.Coalescing.Groups
import PiCrew.Library.Runs

namespace PiCrew.Coalescing

open PiCrew.State (TeamTaskStatus ArtifactDescriptor WorkerHeartbeatState isTerminalTaskStatus)

/-! ### The writes -/

/-- What a call of `runCoalescedTaskGroup` is given. -/
structure GroupInput where
  tasks : List TeamTaskState
  groupTasks : List TeamTaskState
  deriving Repr

def GroupInput.taskIds (input : GroupInput) : List String := input.groupTasks.map (·.id)

def GroupInput.groupId (input : GroupInput) : String := "+".intercalate input.taskIds

/-- What the worker's run comes to: the parts of its output, and how it ended. -/
structure GroupOutcome where
  split : List SplitResult
  success : Bool
  cancelled : Bool
  finishedAt : String
  artifact : String → ArtifactDescriptor

section

variable (taskIds : List String)

def startTask (now : String) (task : TeamTaskState) : TeamTaskState :=
  if task.id ∈ taskIds ∧ task.status ≠ .running then
    { task with status := .running, startedAt := some now }
  else task

def createWorkerHeartbeat (taskId now : String) : WorkerHeartbeatState where
  workerId := taskId
  lastSeenAt := now

def touchWorkerHeartbeat (heartbeat : WorkerHeartbeatState) (now : String) : WorkerHeartbeatState :=
  { heartbeat with lastSeenAt := now }

def withHeartbeat (now : String) (task : TeamTaskState) : TeamTaskState :=
  if task.id ∈ taskIds then
    { task with heartbeat := some (task.heartbeat.getD (createWorkerHeartbeat task.id now)) }
  else task

def isGuarded (status : TeamTaskStatus) : Bool :=
  status == .completed || status == .failed || status == .cancelled

/-- **`persistGroupHeartbeats`**, on the tasks it has read. -/
def persistGroupHeartbeats (now : String) (disk : List TeamTaskState) : List TeamTaskState :=
  disk.map fun task =>
    if task.id ∉ taskIds then task
    else if isGuarded task.status then task
    else
      { task with
        heartbeat := some (touchWorkerHeartbeat
          (task.heartbeat.getD (createWorkerHeartbeat task.id now)) now) }

/-- **`repairGroupTerminalWrite`**, on the tasks it has read. -/
def repairGroupTerminalWrite (updatedTasks disk : List TeamTaskState) : List TeamTaskState :=
  disk.map fun task =>
    if task.id ∉ taskIds then task
    else if isGuarded task.status then task
    else ((taskById updatedTasks).get task.id).getD task

/-- The text that stands for a result that could not be told from the others. -/
def unpartitionableText (groupId taskId : String) : String :=
  "[coalesced-output-unpartitionable] task " ++ taskId
    ++ ": worker output could not be partitioned (partial delimiter hit) — per-task result withheld "
    ++ "(G20 fail-closed); see deadletter entry for group " ++ groupId

def settleTask (groupId : String) (outcome : GroupOutcome) (task : TeamTaskState) : TeamTaskState :=
  if task.id ∉ taskIds then task
  else if outcome.split.any fun entry => entry.strategy == .deadletter then
    { task with
      status := .failed, finishedAt := some outcome.finishedAt
      resultArtifact := some (outcome.artifact task.id)
      result := some { text := unpartitionableText groupId task.id, producer := groupId,
                       strategy := .deadletter } }
  else
    let entry := outcome.split.find? fun entry => entry.taskId == task.id
    let ok := outcome.success && (entry.map (·.text)).getD "" != ""
    let text := (entry.map (·.text)).getD
      ("[no partition entry for task " ++ task.id ++ " — result withheld]")
    { task with
      status := if ok then .completed else if outcome.cancelled then .cancelled else .failed
      finishedAt := some outcome.finishedAt
      resultArtifact := some (outcome.artifact task.id)
      result := some { text := text, producer := groupId,
                       strategy := (entry.map (·.strategy)).getD .broadcast } }

end

/-! ### A run of a group among other writers -/

/-- Where the call stands. -/
inductive GroupPhase where
  | fresh | started | working | settled
  deriving DecidableEq, Repr

/-- The task list on disk, where the run has not been pruned, and the call with its own copies. -/
structure GroupState where
  disk : Option (List TeamTaskState)
  phase : GroupPhase := .fresh
  updatedTasks : List TeamTaskState

/-- What happens: another writer replaces the list; the call sets its members running, gives them
heartbeats, refreshes these, learns its outcome, and writes it, at its end or behind a late heartbeat. -/
inductive GroupAction where
  | other (disk : Option (List TeamTaskState))
  | start (now : String)
  | firstHeartbeats (now : String)
  | heartbeats (now : String)
  | settle (outcome : GroupOutcome)
  | write

/-- **One step.** A step that the call cannot take where it stands changes nothing. -/
def groupStep (input : GroupInput) (state : GroupState) : GroupAction → GroupState
  | .other disk => { state with disk := disk }
  | .start now =>
    if state.phase = .fresh then
      let updated := state.updatedTasks.map (startTask input.taskIds now)
      { disk := state.disk.map (repairGroupTerminalWrite input.taskIds updated)
        phase := .started, updatedTasks := updated }
    else state
  | .firstHeartbeats now =>
    if state.phase = .started then
      let updated := state.updatedTasks.map (withHeartbeat input.taskIds now)
      { disk := state.disk.map (repairGroupTerminalWrite input.taskIds updated)
        phase := .working, updatedTasks := updated }
    else state
  | .heartbeats now =>
    if state.phase = .working ∨ state.phase = .settled then
      { state with disk := state.disk.map (persistGroupHeartbeats input.taskIds now) }
    else state
  | .settle outcome =>
    if state.phase = .working then
      { state with
        phase := .settled
        updatedTasks := state.updatedTasks.map (settleTask input.taskIds input.groupId outcome) }
    else state
  | .write =>
    if state.phase = .settled then
      { state with
        disk := state.disk.map (repairGroupTerminalWrite input.taskIds state.updatedTasks) }
    else state

/-! ### The copies of the call -/

section

variable (taskIds : List String)

def givenStatuses : List TeamTaskStatus := [.running, .completed, .failed, .cancelled]

@[simp] theorem startTask_id (now : String) (task : TeamTaskState) :
    (startTask taskIds now task).id = task.id := by
  unfold startTask
  split <;> rfl

@[simp] theorem withHeartbeat_id (now : String) (task : TeamTaskState) :
    (withHeartbeat taskIds now task).id = task.id := by
  unfold withHeartbeat
  split <;> rfl

@[simp] theorem withHeartbeat_status (now : String) (task : TeamTaskState) :
    (withHeartbeat taskIds now task).status = task.status := by
  unfold withHeartbeat
  split <;> rfl

@[simp] theorem settleTask_id (groupId : String) (outcome : GroupOutcome) (task : TeamTaskState) :
    (settleTask taskIds groupId outcome task).id = task.id := by
  unfold settleTask
  split
  · rfl
  · split <;> rfl

theorem startTask_status {now : String} {task : TeamTaskState} (member : task.id ∈ taskIds) :
    (startTask taskIds now task).status = .running := by
  unfold startTask
  split
  · rfl
  · rename_i running
    simpa [member] using running

theorem settleTask_status {groupId : String} {outcome : GroupOutcome} {task : TeamTaskState}
    (member : task.id ∈ taskIds) :
    (settleTask taskIds groupId outcome task).status ∈ givenStatuses := by
  rw [settleTask, if_neg (not_not_intro member)]
  split
  · simp [givenStatuses]
  · dsimp only
    split_ifs <;> simp [givenStatuses]

end

/-! ### What a write keeps -/

/-- A task as a write may leave it: another's as it is, and a settled one with its status. -/
structure KeepsSettled (taskIds : List String) (old new : TeamTaskState) : Prop where
  sameId : new.id = old.id
  outside : old.id ∉ taskIds → new = old
  settled : isTerminalTaskStatus old.status = true → new.status = old.status

def NoneSetAside (taskIds known : List String) (disk : List TeamTaskState) : Prop :=
  ∀ task ∈ disk, task.id ∈ taskIds → task.id ∈ known →
    task.status ≠ .skipped ∧ task.status ≠ .needsAttention

section

variable (taskIds : List String)

theorem KeepsSettled.refl (task : TeamTaskState) : KeepsSettled taskIds task task :=
  ⟨rfl, fun _ => rfl, fun _ => rfl⟩

theorem heartbeats_keep (now : String) (disk : List TeamTaskState) :
    List.Forall₂ (KeepsSettled taskIds) disk (persistGroupHeartbeats taskIds now disk) := by
  refine List.forall₂_map_right_iff.mpr (List.forall₂_same.mpr fun task _ => ?_)
  split
  · exact .refl taskIds task
  · rename_i member
    split
    · exact .refl taskIds task
    · exact ⟨rfl, fun outside => absurd outside member, fun _ => rfl⟩

/-- **A write of the call's copies** keeps what is settled exactly where no member is set aside. -/
theorem repair_keeps_iff {updatedTasks : List TeamTaskState} (disk : List TeamTaskState)
    (given : ∀ task ∈ updatedTasks, task.id ∈ taskIds → task.status ∈ givenStatuses) :
    List.Forall₂ (KeepsSettled taskIds) disk (repairGroupTerminalWrite taskIds updatedTasks disk)
      ↔ NoneSetAside taskIds (updatedTasks.map (·.id)) disk := by
  rw [repairGroupTerminalWrite, List.forall₂_map_right_iff, List.forall₂_same]
  refine forall₂_congr fun task _ => ?_
  by_cases member : task.id ∈ taskIds
  · rw [if_neg (not_not_intro member)]
    by_cases guarded : isGuarded task.status = true
    · rw [if_pos guarded]
      refine iff_of_true (.refl taskIds task) fun _ _ => ?_
      constructor <;> rintro same <;> rw [same] at guarded <;> cases guarded
    · rw [if_neg guarded]
      cases found : (taskById updatedTasks).get task.id with
      | none =>
        refine iff_of_true (.refl taskIds task) fun _ known => ?_
        obtain ⟨copy, copied, same⟩ := List.mem_map.mp known
        exact absurd same (Bindings.get_ofKeyed_eq_none.mp found copy copied)
      | some copy =>
        obtain ⟨copied, same⟩ := Bindings.get_ofKeyed_mem found
        have status := given copy copied (same ▸ member)
        have known : task.id ∈ updatedTasks.map (·.id) := same ▸ List.mem_map_of_mem copied
        rw [Option.getD_some]
        constructor
        · intro keeps _ _
          -- the copy has none of the two statuses, and both are settled ones
          have kept := keeps.settled
          constructor <;> intro aside <;> rw [aside] at kept <;>
            rw [kept (by decide)] at status <;> exact absurd status (by decide)
        · intro free
          obtain ⟨notSkipped, notAttention⟩ := free member known
          refine ⟨same, fun outside => absurd member outside, fun settled => absurd settled ?_⟩
          revert guarded notSkipped notAttention
          cases task.status <;> decide
  · rw [if_pos member]
    exact iff_of_true (.refl taskIds task) fun inside => absurd inside member

end

/-! ### Whole runs -/

/-- What a step of the call keeps of the list on disk. A pruned run stays so. -/
def KeepsDisk (taskIds : List String) : Option (List TeamTaskState) → Option (List TeamTaskState) → Prop
  | some before, some after => List.Forall₂ (KeepsSettled taskIds) before after
  | none, none => True
  | _, _ => False

def GroupAction.own : GroupAction → Prop
  | .other _ => False
  | _ => True

/-- A step after which the call writes its copies. -/
def writesCopies (state : GroupState) : GroupAction → Prop
  | .start _ => state.phase = .fresh
  | .firstHeartbeats _ => state.phase = .started
  | .write => state.phase = .settled
  | _ => False

section

variable (input : GroupInput)

/-- **The condition of a step**: where copies are written, no member is set aside on disk. -/
def SetsNothingAside (state : GroupState) (action : GroupAction) : Prop :=
  writesCopies state action → ∀ disk, state.disk = some disk →
    NoneSetAside input.taskIds (input.tasks.map (·.id)) disk

/-- The copies are of the tasks of the input, and members have statuses that the call gives. -/
structure GroupInvariant (state : GroupState) : Prop where
  copies : state.updatedTasks.map (·.id) = input.tasks.map (·.id)
  given : state.phase ≠ .fresh →
    ∀ task ∈ state.updatedTasks, task.id ∈ input.taskIds → task.status ∈ givenStatuses

theorem copies_map {state : GroupState} (invariant : GroupInvariant input state)
    {change : TeamTaskState → TeamTaskState} (keeps : ∀ task, (change task).id = task.id) :
    (state.updatedTasks.map change).map (·.id) = input.tasks.map (·.id) := by
  rw [List.map_map, ← invariant.copies]
  exact List.map_congr_left fun task _ => keeps task

variable {updatedTasks : List TeamTaskState}

theorem given_start (now : String) :
    ∀ task ∈ updatedTasks.map (startTask input.taskIds now), task.id ∈ input.taskIds →
      task.status ∈ givenStatuses := by
  intro task member inGroup
  obtain ⟨old, _, rfl⟩ := List.mem_map.mp member
  rw [startTask_id] at inGroup
  rw [startTask_status _ inGroup]
  decide

theorem given_heartbeats (now : String)
    (given : ∀ task ∈ updatedTasks, task.id ∈ input.taskIds → task.status ∈ givenStatuses) :
    ∀ task ∈ updatedTasks.map (withHeartbeat input.taskIds now), task.id ∈ input.taskIds →
      task.status ∈ givenStatuses := by
  intro task member inGroup
  obtain ⟨old, isOld, rfl⟩ := List.mem_map.mp member
  rw [withHeartbeat_id] at inGroup
  rw [withHeartbeat_status]
  exact given old isOld inGroup

theorem groupStep_invariant (state : GroupState) (action : GroupAction)
    (invariant : GroupInvariant input state) : GroupInvariant input (groupStep input state action) := by
  cases action with
  | other disk => exact ⟨invariant.copies, invariant.given⟩
  | start now =>
    rw [groupStep]
    split
    · exact ⟨copies_map input invariant (startTask_id _ now), fun _ => given_start input now⟩
    · exact invariant
  | firstHeartbeats now =>
    rw [groupStep]
    split
    · rename_i started
      exact ⟨copies_map input invariant (withHeartbeat_id _ now),
        fun _ => given_heartbeats input now (invariant.given (by rw [started]; decide))⟩
    · exact invariant
  | heartbeats now =>
    rw [groupStep]
    split
    · exact ⟨invariant.copies, invariant.given⟩
    · exact invariant
  | settle outcome =>
    rw [groupStep]
    split
    · refine ⟨copies_map input invariant (settleTask_id _ _ outcome), fun _ task member inGroup => ?_⟩
      obtain ⟨old, _, rfl⟩ := List.mem_map.mp member
      rw [settleTask_id] at inGroup
      exact settleTask_status _ inGroup
    · exact invariant
  | write =>
    rw [groupStep]
    split
    · exact ⟨invariant.copies, invariant.given⟩
    · exact invariant

theorem keepsDisk_refl (taskIds : List String) (disk : Option (List TeamTaskState)) :
    KeepsDisk taskIds disk disk := by
  cases disk with
  | none => trivial
  | some tasks => exact List.forall₂_same.mpr fun task _ => .refl taskIds task

theorem repair_keepsDisk_iff (disk : Option (List TeamTaskState))
    (copies : updatedTasks.map (·.id) = input.tasks.map (·.id))
    (given : ∀ task ∈ updatedTasks, task.id ∈ input.taskIds → task.status ∈ givenStatuses) :
    KeepsDisk input.taskIds disk (disk.map (repairGroupTerminalWrite input.taskIds updatedTasks))
      ↔ ∀ tasks, disk = some tasks → NoneSetAside input.taskIds (input.tasks.map (·.id)) tasks := by
  cases disk with
  | none => exact iff_of_true trivial fun tasks gone => nomatch gone
  | some tasks =>
    rw [← copies]
    refine (repair_keeps_iff input.taskIds tasks given).trans ⟨fun free other same => ?_, fun free => ?_⟩
    · cases same
      exact free
    · exact free tasks rfl

/-- **One step of the call keeps what is settled** exactly where it sets nothing aside. -/
theorem groupStep_keeps_iff (state : GroupState) (action : GroupAction)
    (invariant : GroupInvariant input state) :
    (action.own → KeepsDisk input.taskIds state.disk (groupStep input state action).disk)
      ↔ SetsNothingAside input state action := by
  cases action with
  | other disk => exact iff_of_true (fun own => own.elim) fun writes => writes.elim
  | start now =>
    rw [groupStep]
    split
    · rename_i fresh
      have keeps := repair_keepsDisk_iff input state.disk
        (copies_map input invariant (startTask_id _ now)) (given_start input now)
      exact ⟨fun all _ => keeps.mp (all trivial), fun free _ => keeps.mpr (free fresh)⟩
    · rename_i late
      exact iff_of_true (fun _ => keepsDisk_refl _ _) fun fresh => absurd fresh late
  | firstHeartbeats now =>
    rw [groupStep]
    split
    · rename_i started
      have keeps := repair_keepsDisk_iff input state.disk
        (copies_map input invariant (withHeartbeat_id _ now))
        (given_heartbeats input now (invariant.given (by rw [started]; decide)))
      exact ⟨fun all _ => keeps.mp (all trivial), fun free _ => keeps.mpr (free started)⟩
    · rename_i late
      exact iff_of_true (fun _ => keepsDisk_refl _ _) fun started => absurd started late
  | heartbeats now =>
    refine iff_of_true (fun _ => ?_) fun writes => writes.elim
    rw [groupStep]
    split
    · cases state.disk with
      | none => trivial
      | some tasks => exact heartbeats_keep input.taskIds now tasks
    · exact keepsDisk_refl _ _
  | settle outcome =>
    refine iff_of_true (fun _ => ?_) fun writes => writes.elim
    rw [groupStep]
    split <;> exact keepsDisk_refl _ _
  | write =>
    rw [groupStep]
    split
    · rename_i settled
      have keeps := repair_keepsDisk_iff input state.disk invariant.copies
        (invariant.given (by rw [settled]; decide))
      exact ⟨fun all _ => keeps.mp (all trivial), fun free _ => keeps.mpr (free settled)⟩
    · rename_i early
      exact iff_of_true (fun _ => keepsDisk_refl _ _) fun settled => absurd settled early

/-- **A whole run of a group**, among other writers, keeps the tasks of others and the status of
every settled task in all its own writes, exactly where none of them finds a member skipped or in
need of attention. -/
theorem groupRun_keeps_iff (disk : Option (List TeamTaskState)) (actions : List GroupAction) :
    let start : GroupState := { disk := disk, updatedTasks := input.tasks }
    (∀ taken ∈ Runs.transitions (groupStep input) start actions,
        taken.action.own → KeepsDisk input.taskIds taken.before.disk taken.after.disk)
      ↔ ∀ taken ∈ Runs.transitions (groupStep input) start actions,
        SetsNothingAside input taken.before taken.action := by
  intro start
  have initial : GroupInvariant input start := ⟨rfl, fun late => absurd rfl late⟩
  have held : ∀ taken ∈ Runs.transitions (groupStep input) start actions,
      GroupInvariant input taken.before := fun taken member =>
    (Runs.forall_transitions (groupStep input)
      (fun state action invariant (_ : True) => groupStep_invariant input state action invariant)
      initial (fun _ _ => trivial) taken member).1
  refine forall₂_congr fun taken member => ?_
  rw [Runs.transition_after (groupStep input) member]
  exact groupStep_keeps_iff input taken.before taken.action (held taken member)

end

def pairedTasks (first second : TeamTaskStatus) : List TeamTaskState :=
  [{ id := "01_look", status := first }, { id := "02_look", status := second }]

def pairedInput : GroupInput where
  tasks := pairedTasks .queued .queued
  groupTasks := pairedTasks .queued .queued

def pairedOutcome : GroupOutcome where
  split := [{ taskId := "01_look", text := "first", strategy := .delimiter },
    { taskId := "02_look", text := "second", strategy := .delimiter }]
  success := true
  cancelled := false
  finishedAt := "10:05"
  artifact _ := { ref := 0 }

def skippedMeanwhile : List GroupAction :=
  [.start "10:00", .firstHeartbeats "10:00", .other (some (pairedTasks .skipped .running)),
    .settle pairedOutcome, .write]

/-- **The group completes a task that was skipped.** -/
theorem skipped_task_completed :
    ¬ ∀ taken ∈ Runs.transitions (groupStep pairedInput)
        { disk := some (pairedTasks .queued .queued), updatedTasks := pairedInput.tasks } skippedMeanwhile,
      taken.action.own → KeepsDisk pairedInput.taskIds taken.before.disk taken.after.disk := by
  intro all
  have last := all _ (.tail _ (.tail _ (.tail _ (.tail _ (.head _))))) trivial
  have first : KeepsSettled pairedInput.taskIds _ _ := (List.forall₂_cons.mp last).1
  exact absurd (first.settled (by decide)) (by decide +kernel)

end PiCrew.Coalescing
