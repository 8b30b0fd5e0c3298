/-
**Settling tasks that will not run any more.**

`runtime/dispatch-batch.ts`. `markBlocked` skips what is still queued; `cancelNonTerminalTasks`
cancels or fails the tasks a filter picks. Both move every task by itself and keep its names, so
the version held of an id moves as the task does.
-/

import PiCrew.Merge.Gate

namespace PiCrew.Dispatch

open PiCrew.State PiCrew.Scheduling PiCrew.Merge

def blockTask (reason now : String) (task : TeamTaskState) : TeamTaskState :=
  if task.status = .queued then
    { task with
      status := .skipped, error := some reason, finishedAt := some now
      graph := task.graph.map fun node => { node with queue := .blocked } }
  else task

def markBlocked (tasks : List TeamTaskState) (reason now : String) : List TeamTaskState :=
  tasks.map (blockTask reason now)

def terminaliseTask (status : TeamTaskStatus) (reason now : String) (filter : TeamTaskState → Bool)
    (task : TeamTaskState) : TeamTaskState :=
  if filter task then
    { task with status := status, finishedAt := some now, error := some reason }
  else task

/-- **Cancel or fail tasks of a list.** A caller's filter takes the place of the check that a task
is not settled. -/
def cancelNonTerminalTasks (tasks : List TeamTaskState) (status : TeamTaskStatus)
    (reason now : String) (filter : Option (TeamTaskState → Bool)) : List TeamTaskState :=
  tasks.map (terminaliseTask status reason now
    (filter.getD fun task => isNonTerminalTaskStatus task.status))

@[simp]
theorem blockTask_id (reason now : String) (task : TeamTaskState) :
    (blockTask reason now task).id = task.id := by
  unfold blockTask
  split <;> rfl

@[simp]
theorem terminaliseTask_id (status : TeamTaskStatus) (reason now : String)
    (filter : TeamTaskState → Bool) (task : TeamTaskState) :
    (terminaliseTask status reason now filter task).id = task.id := by
  unfold terminaliseTask
  split <;> rfl

theorem blockTask_settled {reason now : String} {task : TeamTaskState}
    (settled : isTerminalTaskStatus task.status = true) : blockTask reason now task = task := by
  apply if_neg
  intro queued
  rw [queued] at settled
  exact absurd settled (by decide)

def statusOf (tasks : List TeamTaskState) (id : String) : Option TeamTaskStatus :=
  ((taskById tasks).get id).map (·.status)

theorem taskById_map {move : TeamTaskState → TeamTaskState}
    (keeps : ∀ task, (move task).id = task.id) (tasks : List TeamTaskState) (id : String) :
    (taskById (tasks.map move)).get id = ((taskById tasks).get id).map move :=
  Bindings.get_ofKeyed_map keeps tasks id

theorem taskById_merge (dateMs : String → Option Int) (base : List TeamTaskState)
    (results : List WorkerResult) (id : String) :
    ∃ index, (taskById (mergeTaskUpdatesPreservingTerminal dateMs base results)).get id
      = ((taskById base).get id).map fun held =>
          withQueue (mergedVersion dateMs results held) index := by
  have heldId : ∀ task, (heldVersion base task).id = task.id := by
    intro task
    unfold heldVersion
    cases found : (taskById base).get task.id with
    | none => rfl
    | some held => exact (Bindings.get_ofKeyed_mem found).2
  have keeps : ∀ task, (mergedVersion dateMs results (heldVersion base task)).id = task.id :=
    fun task => (mergedVersion_id results _).trans (heldId task)
  refine ⟨ensureIndex
    (base.map fun task => mergedVersion dateMs results (heldVersion base task)) none, ?_⟩
  rw [merge_eq]
  unfold refreshTaskGraphQueues
  rw [taskById_map fun task => withQueue_id task _, taskById_map keeps]
  cases found : (taskById base).get id with
  | none => rfl
  | some held =>
    have same : heldVersion base held = held := by
      have named := (Bindings.get_ofKeyed_mem found).2
      rw [heldVersion, named, found, Option.getD_some]
    rw [Option.map_some, Option.map_some, Option.map_some, same]

end PiCrew.Dispatch
