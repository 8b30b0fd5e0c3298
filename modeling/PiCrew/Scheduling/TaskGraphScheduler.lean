/-
**The queue of a task: what dictates it and what refreshes it.**

`runtime/scheduling/task-graph-scheduler.ts`. Every task with a graph node stands in one of four
queues. `resolvedQueue` says which, from the status of the task and, for a queued task, from whether
its dependencies are met in an *index* of a task list; `refreshTaskGraphQueues` writes the answer
into every node of a list. The source memoises the index on the identity of the list, which changes
no result, so the model builds it afresh.

### Which list the index is of

Four operations move tasks and then refresh the queues. All four are `refreshTaskGraphQueues` of a
moved list (`markTaskRunning_eq`, and by definition for the others); they differ in the list whose
index they resolve against.

* `markTaskRunning` and `markTaskDone` index the list they were *given*. Their queues are right
  exactly when the move changes the readiness of no queued task (`refresh_consistent_iff`), which
  `CompletesNoDependency` and `WithdrawsNoDependency` say of the given list.
-/

import PiCrew.State.Types
import PiCrew.Library.Bindings
import PiCrew.Library.Walk

namespace PiCrew.Scheduling

open PiCrew.State

/-- **What a task list says about completion**: the steps done, the tasks by id and the task of
every step. A later task hides an earlier one with its id or its step. -/
structure TaskGraphIndex where
  doneSteps : List String
  idMap : Bindings String TeamTaskState
  stepToTaskId : Bindings String String

def buildTaskGraphIndex (tasks : List TeamTaskState) : TaskGraphIndex where
  doneSteps := (tasks.filter fun task => task.status == .completed).filterMap (·.stepId)
  idMap := Bindings.ofKeyed (·.id) tasks
  stepToTaskId := Bindings.ofEntries
    (tasks.filterMap fun task => task.stepId.map fun step => (step, task.id))

def taskById (tasks : List TeamTaskState) : Bindings String TeamTaskState :=
  Bindings.ofKeyed (·.id) tasks

/-- Whether every dependency of a task is a done step or the id, or the step, of a completed
task. -/
def dependencySatisfied (task : TeamTaskState) (doneStepIds : List String)
    (idMap : Bindings String TeamTaskState) (stepMap : Bindings String String) : Bool :=
  task.dependsOn.all fun dependency =>
    doneStepIds.contains dependency ||
      (idMap.get ((stepMap.get dependency).getD dependency)).map (·.status) == some .completed

/-- The queue that a status and an index dictate. -/
def resolvedQueue (task : TeamTaskState) (index : TaskGraphIndex) : TaskQueue :=
  if task.status = .queued then
    if dependencySatisfied task index.doneSteps index.idMap index.stepToTaskId then .ready
    else .blocked
  else if task.status = .running then .running
  else if task.status = .completed ∨ task.status = .skipped ∨ task.status = .needsAttention then
    .done
  else .blocked

def withQueue (task : TeamTaskState) (index : TaskGraphIndex) : TeamTaskState :=
  if task.graph.map (·.queue) = some (resolvedQueue task index) then task
  else { task with graph := task.graph.map fun node => { node with queue := resolvedQueue task index } }

def ensureIndex (tasks : List TeamTaskState) (index : Option TaskGraphIndex) : TaskGraphIndex :=
  index.getD (buildTaskGraphIndex tasks)

/-- **Put every task of a list into its queue.** -/
def refreshTaskGraphQueues (tasks : List TeamTaskState) (index : Option TaskGraphIndex) :
    List TeamTaskState :=
  tasks.map fun task => withQueue task (ensureIndex tasks index)

/-- The queued tasks that stand in the ready queue, at most `maxCount` of them. -/
def getReadyTasks (tasks : List TeamTaskState) (maxCount : Int) (index : Option TaskGraphIndex) :
    List TeamTaskState :=
  ((refreshTaskGraphQueues tasks index).filter fun task =>
    task.status == .queued && task.graph.map (·.queue) == some .ready).take (max 0 maxCount).toNat

def markTaskRunning (tasks : List TeamTaskState) (taskId : String) (now : String)
    (index : Option TaskGraphIndex) : List TeamTaskState :=
  let resolved := ensureIndex tasks index
  (refreshTaskGraphQueues tasks (some resolved)).map fun task =>
    if task.id = taskId then
      withQueue { task with status := .running, startedAt := some (task.startedAt.getD now) } resolved
    else task

/-- Mark a task completed, and resolve all queues against the given list. -/
def markTaskDone (tasks : List TeamTaskState) (taskId : String) (now : String)
    (index : Option TaskGraphIndex) : List TeamTaskState :=
  let resolved := ensureIndex tasks index
  refreshTaskGraphQueues (tasks.map fun task =>
      if task.id = taskId then
        { task with status := .completed, finishedAt := some (task.finishedAt.getD now) }
      else task)
    (some resolved)

def graphChildren (ids : Bindings String TeamTaskState) (taskId : String) : List String :=
  ((ids.get taskId).bind (·.graph)).elim [] (·.children)

def graphFuel (tasks : List TeamTaskState) (height : Nat) : Nat :=
  height + ((tasks.map (·.id)).map fun id => (graphChildren (taskById tasks) id).length).sum

def graphWalk (tasks : List TeamTaskState) (stack : List String) : List String :=
  Walk.walk (graphChildren (taskById tasks)) (· == "") (graphFuel tasks stack.length) stack []

def cancelTaskSubtree (tasks : List TeamTaskState) (rootTaskId : String) (reason : String)
    (now : String) : List TeamTaskState :=
  let toCancel := graphWalk tasks [rootTaskId]
  refreshTaskGraphQueues (tasks.map fun task =>
      if !toCancel.contains task.id then task
      else if task.status = .completed then task
      else
        { task with
          status := .cancelled, error := some reason
          finishedAt := some (task.finishedAt.getD now) })
    none

def failTaskAndBlockChildren (tasks : List TeamTaskState) (rootTaskId : String) (reason : String)
    (now : String) : List TeamTaskState :=
  let blocked := graphWalk tasks (graphChildren (taskById tasks) rootTaskId).reverse
  refreshTaskGraphQueues (tasks.map fun task =>
      if task.id = rootTaskId then
        { task with
          status := .failed, error := some reason
          finishedAt := some (task.finishedAt.getD now) }
      else if blocked.contains task.id && task.status == .queued then
        { task with
          status := .skipped
          error := some ("Blocked by failed task '" ++ rootTaskId ++ "'.")
          finishedAt := some (task.finishedAt.getD now) }
      else task)
    none

/-- The ids of a run by what they are doing (`TaskGraphSchedulerSnapshot`). -/
structure TaskGraphSchedulerSnapshot where
  ready : List String
  blocked : List String
  running : List String
  done : List String
  failed : List String
  cancelled : List String
  deriving DecidableEq, Repr

/-- **The snapshot planner**: queues refreshed, then read. -/
def taskGraphSnapshot (tasks : List TeamTaskState) (index : Option TaskGraphIndex) :
    TaskGraphSchedulerSnapshot :=
  let refreshed := refreshTaskGraphQueues tasks index
  { ready := (refreshed.filter fun task =>
      task.status == .queued && task.graph.map (·.queue) == some .ready).map (·.id)
    blocked := (refreshed.filter fun task =>
      task.status == .queued && task.graph.map (·.queue) == some .blocked).map (·.id)
    running := (refreshed.filter fun task => task.status == .running).map (·.id)
    done := (refreshed.filter fun task =>
      task.status == .completed || task.status == .skipped).map (·.id)
    failed := (refreshed.filter fun task => task.status == .failed).map (·.id)
    cancelled := (refreshed.filter fun task => task.status == .cancelled).map (·.id) }

end PiCrew.Scheduling
