/-
**The gate that parallel task updates pass.**

`runtime/merge-gate.ts`. Workers of a batch start from the same snapshot and each returns a whole
task list, so a result carries stale copies of every sibling. `shouldMergeTaskUpdate` decides
whether one version may replace the version held; `mergeTaskUpdatesPreservingTerminal` offers every
task of every result to the base and refreshes the queues.

The gate reads a finish time as `new Date(text).getTime()`. The reading is a parameter `dateMs`,
`none` standing for `NaN`; the results hold of every such function.

* `shouldMerge_not_rejected`, `shouldMerge_finished` — what an accepted update satisfies.
-/

import PiCrew.Library.GuardedMerge
import PiCrew.Scheduling.QueueConsistency

namespace PiCrew.Merge

open PiCrew.State PiCrew.Scheduling

def isNonTerminalTaskStatus (status : TeamTaskStatus) : Bool :=
  status == .queued || status == .running || status == .waiting

def statusMergeKey (origin target : TeamTaskStatus) : TeamTaskStatus × TeamTaskStatus :=
  (origin, target)

/-- The terminal-to-terminal flips that touch `completed`. -/
def completedIntegrityFlips : List (TeamTaskStatus × TeamTaskStatus) :=
  [(.completed, .failed), (.completed, .needsAttention), (.failed, .completed),
    (.cancelled, .completed), (.needsAttention, .completed)]

/-- **The status pairs that a merge rejects outright**: a settled task never comes back to life,
a waiting task is not set running by a stale copy, and success is not flipped. -/
def rejectedStatusMergeTransitions : List (TeamTaskStatus × TeamTaskStatus) :=
  (teamTaskStatuses.filter isTerminalTaskStatus).flatMap (fun origin =>
      (teamTaskStatuses.filter fun target => !isTerminalTaskStatus target).map fun target =>
        statusMergeKey origin target)
    ++ [statusMergeKey .waiting .running]
    ++ completedIntegrityFlips.map fun flip => statusMergeKey flip.1 flip.2

section

variable (dateMs : String → Option Int)

/-- The time a task finished, as the source orders it: `-Infinity` for a task that has not, and
`Infinity` for a finish time that does not parse. -/
inductive FinishTime where
  | never
  | instant (ms : Int)
  | malformed
  deriving DecidableEq, Repr

/-- The `<` of the two times as numbers. -/
def FinishTime.before : FinishTime → FinishTime → Bool
  | .never, .never => false
  | .never, _ => true
  | .instant first, .instant second => first < second
  | .instant _, .malformed => true
  | _, _ => false

def safeFinishedAt (task : TeamTaskState) : FinishTime :=
  if !truthyText task.finishedAt then .never
  else match task.finishedAt.bind dateMs with
    | none => .malformed
    | some ms => .instant ms

/-- `Number.isFinite`. -/
def isFinite : FinishTime → Bool
  | .instant _ => true
  | _ => false

def isMalformedFinishedAtReplacement (currentTime updatedTime : FinishTime) : Bool :=
  !isFinite currentTime && isFinite updatedTime

/-- Whether an update says anything that the current version does not. -/
def hasMeaningfulUpdate (current updated : TeamTaskState) : Bool :=
  updated.status != current.status ||
  updated.finishedAt != current.finishedAt ||
  updated.startedAt != current.startedAt ||
  updated.resultArtifact.isSome != current.resultArtifact.isSome ||
  (updated.resultArtifact.isSome && updated.resultArtifact != current.resultArtifact) ||
  truthyText updated.error ||
  updated.modelAttempts.any (fun attempts => attempts.length != 0) ||
  updated.usage.isSome ||
  updated.attempts.any (fun attempts => attempts.length != 0) ||
  updated.heartbeat.map (·.lastSeenAt) != current.heartbeat.map (·.lastSeenAt) ||
  updated.jsonEvents != current.jsonEvents ||
  updated.agentProgress.bind (·.lastActivityAt) != current.agentProgress.bind (·.lastActivityAt)

/-- **Whether an update may replace the current version of a task.** -/
def shouldMergeTaskUpdate (current updated : TeamTaskState) : Bool :=
  if rejectedStatusMergeTransitions.contains (statusMergeKey current.status updated.status) then
    false
  -- a running or completed task that holds a result is not replaced by a copy without one
  else if current.status = updated.status && updated.status = .running &&
      current.resultArtifact.isSome && updated.resultArtifact.isNone then
    false
  else if current.status = updated.status && current.status = .completed &&
      current.resultArtifact.isSome && updated.resultArtifact.isNone then
    false
  -- the finish times are compared only when both are there; a malformed one gives way
  else if current.finishedAt.isSome && updated.finishedAt.isSome &&
      isMalformedFinishedAtReplacement (safeFinishedAt dateMs current)
        (safeFinishedAt dateMs updated) then
    true
  else if current.finishedAt.isSome && updated.finishedAt.isSome &&
      (safeFinishedAt dateMs updated).before (safeFinishedAt dateMs current) then
    false
  else if !truthyText updated.finishedAt && !isNonTerminalTaskStatus updated.status then
    false
  else hasMeaningfulUpdate current updated

structure WorkerResult where
  tasks : List TeamTaskState
  deriving DecidableEq, Repr

/-- The versions held after all tasks of all results were offered in order. -/
def mergeIndex (base : List TeamTaskState) (results : List WorkerResult) :
    Bindings String TeamTaskState :=
  (results.flatMap (·.tasks)).foldl (GuardedMerge.put (·.id) (shouldMergeTaskUpdate dateMs))
    (Bindings.ofKeyed (·.id) base)

/-- **Merge worker results into a base list.** The order is the one of the base, and a task that
the base does not know is dropped. -/
def mergeTaskUpdatesPreservingTerminal (base : List TeamTaskState) (results : List WorkerResult) :
    List TeamTaskState :=
  refreshTaskGraphQueues
    (base.map fun task => ((mergeIndex dateMs base results).get task.id).getD task) none

end

section

variable {dateMs : String → Option Int} {current updated : TeamTaskState}

def updatesOf (results : List WorkerResult) (id : String) : List TeamTaskState :=
  (results.flatMap (·.tasks)).filter fun task => task.id == id

theorem mem_updatesOf {results : List WorkerResult} {id : String} {task : TeamTaskState} :
    task ∈ updatesOf results id ↔ (∃ result ∈ results, task ∈ result.tasks) ∧ task.id = id := by
  simp [updatesOf]

theorem get_mergeIndex (base : List TeamTaskState) (results : List WorkerResult) (id : String) :
    (mergeIndex dateMs base results).get id = ((taskById base).get id).map fun held =>
          GuardedMerge.offers (shouldMergeTaskUpdate dateMs) held (updatesOf results id) :=
  GuardedMerge.get_fold ..

def heldVersion (base : List TeamTaskState) (task : TeamTaskState) : TeamTaskState :=
  ((taskById base).get task.id).getD task

def mergedVersion (dateMs : String → Option Int) (results : List WorkerResult)
    (held : TeamTaskState) : TeamTaskState :=
  GuardedMerge.offers (shouldMergeTaskUpdate dateMs) held (updatesOf results held.id)

theorem taskById_heldVersion {base : List TeamTaskState} {task : TeamTaskState} (member : task ∈ base) :
    (taskById base).get task.id = some (heldVersion base task) ∧
      (heldVersion base task).id = task.id := by
  cases found : (taskById base).get task.id with
  | none => exact absurd rfl (Bindings.get_ofKeyed_eq_none.mp found task member)
  | some held =>
    have same : heldVersion base task = held := by rw [heldVersion, found, Option.getD_some]
    rw [same]
    exact ⟨rfl, (Bindings.get_ofKeyed_mem found).2⟩

theorem merge_eq (base : List TeamTaskState) (results : List WorkerResult) :
    mergeTaskUpdatesPreservingTerminal dateMs base results = refreshTaskGraphQueues
          (base.map fun task => mergedVersion dateMs results (heldVersion base task)) none := by
  unfold mergeTaskUpdatesPreservingTerminal
  congr 1
  refine List.map_congr_left fun task member => ?_
  obtain ⟨found, same⟩ := taskById_heldVersion member
  rw [get_mergeIndex, found, Option.map_some, Option.getD_some, mergedVersion, same]

theorem mergedVersion_id (results : List WorkerResult) (held : TeamTaskState) :
    (mergedVersion dateMs results held).id = held.id := by
  refine GuardedMerge.offers_keep (shouldMergeTaskUpdate dateMs)
    (fun version => version.id = held.id) (fun _ _ version member _ => (mem_updatesOf.mp member).2) rfl

theorem mem_merge {base : List TeamTaskState} {results : List WorkerResult}
    {held merged : TeamTaskState} (found : (taskById base).get held.id = some held)
    (member : merged ∈ mergeTaskUpdatesPreservingTerminal dateMs base results)
    (same : merged.id = held.id) :
    ∃ index, merged = withQueue (mergedVersion dateMs results held) index := by
  rw [merge_eq] at member
  unfold refreshTaskGraphQueues at member
  obtain ⟨version, present, rfl⟩ := List.mem_map.mp member
  obtain ⟨first, listed, rfl⟩ := List.mem_map.mp present
  rw [withQueue_id, mergedVersion_id, (taskById_heldVersion listed).2] at same
  have version : heldVersion base first = held := by
    rw [heldVersion, same, found, Option.getD_some]
  rw [version]
  exact ⟨_, rfl⟩

theorem shouldMerge_not_rejected (accepted : shouldMergeTaskUpdate dateMs current updated = true) :
    (current.status, updated.status) ∉ rejectedStatusMergeTransitions := by
  intro listed
  unfold shouldMergeTaskUpdate at accepted
  rw [if_pos (by simpa [statusMergeKey] using listed)] at accepted
  cases accepted

theorem truthyText_of_isFinite (finite : isFinite (safeFinishedAt dateMs updated) = true) :
    truthyText updated.finishedAt = true := by
  by_contra missing
  have never : safeFinishedAt dateMs updated = .never := by simp [safeFinishedAt, missing]
  rw [never] at finite
  cases finite

theorem shouldMerge_finished (accepted : shouldMergeTaskUpdate dateMs current updated = true)
    (settled : isNonTerminalTaskStatus updated.status = false) :
    truthyText updated.finishedAt = true := by
  unfold shouldMergeTaskUpdate at accepted
  split at accepted
  · cases accepted
  split at accepted
  · cases accepted
  split at accepted
  · cases accepted
  split at accepted
  · rename_i replaced
    simp only [isMalformedFinishedAtReplacement, Bool.and_eq_true] at replaced
    exact truthyText_of_isFinite replaced.2.2
  split at accepted
  · cases accepted
  split at accepted
  · cases accepted
  · rename_i stamped
    simpa [settled] using stamped

end

end PiCrew.Merge
