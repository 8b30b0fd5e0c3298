/-
**When the queues of a moved list are the ones it dictates.**

A list is `QueueConsistent` when refreshing it against its own index changes nothing. Every
operation of the task graph moves some tasks — it changes their statuses and keeps their ids, steps
and dependencies — and refreshes the queues against some index.

* `mem_graphWalk_iff`: the walk of the two subtree operations reaches every descendant.
-/

import PiCrew.Scheduling.TaskGraphScheduler

namespace PiCrew.Scheduling

open PiCrew.State

section

/-- **Every task stands in the queue its own list dictates.** -/
def QueueConsistent (tasks : List TeamTaskState) : Prop := refreshTaskGraphQueues tasks none = tasks

instance (tasks : List TeamTaskState) : Decidable (QueueConsistent tasks) :=
  inferInstanceAs (Decidable (_ = _))

variable (task : TeamTaskState)

include task

section

variable (index : TaskGraphIndex)

include index

theorem withQueue_eq :
    withQueue task index = { task with
          graph := task.graph.map fun node => { node with queue := resolvedQueue task index } } := by
  unfold withQueue
  split
  · rename_i already
    obtain ⟨node, present, same⟩ := Option.map_eq_some_iff.mp already
    rw [present, Option.map_some, ← same, ← present]
  · rfl

@[simp] theorem withQueue_id : (withQueue task index).id = task.id := by rw [withQueue_eq]

@[simp] theorem withQueue_stepId :
    (withQueue task index).stepId = task.stepId := by rw [withQueue_eq]

@[simp] theorem withQueue_status :
    (withQueue task index).status = task.status := by rw [withQueue_eq]

@[simp] theorem withQueue_dependsOn :
    (withQueue task index).dependsOn = task.dependsOn := by rw [withQueue_eq]

end

@[simp] theorem resolvedQueue_withQueue (index other : TaskGraphIndex) :
    resolvedQueue (withQueue task index) other = resolvedQueue task other := by
  simp [resolvedQueue, dependencySatisfied]

theorem withQueue_eq_self_iff (index : TaskGraphIndex) :
    withQueue task index = task
      ↔ ∀ node, task.graph = some node → node.queue = resolvedQueue task index := by
  rw [withQueue_eq]
  constructor
  · intro same node present
    have graphs := congrArg TeamTaskState.graph same
    simp only [present, Option.map_some, Option.some.injEq] at graphs
    exact (congrArg TaskGraphNode.queue graphs).symm
  · intro settled
    cases present : task.graph with
    | none => rw [Option.map_none, ← present]
    | some node => rw [Option.map_some, ← settled node present, ← present]

theorem withQueue_settles (index other : TaskGraphIndex) :
    withQueue (withQueue task index) other = withQueue task index
      ↔ (task.graph.isSome → resolvedQueue task index = resolvedQueue task other) := by
  rw [withQueue_eq_self_iff, resolvedQueue_withQueue, withQueue_eq]
  cases task.graph with
  | none | some node => simp

end

def namedTask (tasks : List TeamTaskState) (dependency : String) : Option TeamTaskState :=
  (taskById tasks).get (((buildTaskGraphIndex tasks).stepToTaskId.get dependency).getD dependency)

/-- **A dependency is met**: its step is done, or the task it names is completed. -/
def DependencyMet (tasks : List TeamTaskState) (dependency : String) : Prop :=
  (∃ task ∈ tasks, task.status = .completed ∧ task.stepId = some dependency) ∨
    ∃ task, namedTask tasks dependency = some task ∧ task.status = .completed

theorem dependencySatisfied_iff (task : TeamTaskState) (tasks : List TeamTaskState) :
    dependencySatisfied task (buildTaskGraphIndex tasks).doneSteps
        (buildTaskGraphIndex tasks).idMap (buildTaskGraphIndex tasks).stepToTaskId = true
      ↔ ∀ dependency ∈ task.dependsOn, DependencyMet tasks dependency := by
  unfold dependencySatisfied
  rw [List.all_eq_true]
  refine forall₂_congr fun dependency _ => ?_
  simp only [Bool.or_eq_true, List.contains_iff_mem, beq_iff_eq, Option.map_eq_some_iff]
  refine or_congr ?_ Iff.rfl
  simp [buildTaskGraphIndex, and_assoc]

theorem resolvedQueue_eq_iff (task : TeamTaskState) (first second : List TeamTaskState) :
    resolvedQueue task (buildTaskGraphIndex first) = resolvedQueue task (buildTaskGraphIndex second)
      ↔ (task.status = .queued → ((∀ dependency ∈ task.dependsOn, DependencyMet first dependency)
            ↔ ∀ dependency ∈ task.dependsOn, DependencyMet second dependency)) := by
  rw [← dependencySatisfied_iff task first, ← dependencySatisfied_iff task second]
  unfold resolvedQueue
  by_cases queued : task.status = .queued
  · simp only [queued, if_true, true_implies]
    split <;> split <;> simp_all
  · simp [queued]

def KeepsNames (move : TeamTaskState → TeamTaskState) : Prop :=
  ∀ task, (move task).id = task.id ∧ (move task).stepId = task.stepId

theorem namedTask_moved {move : TeamTaskState → TeamTaskState} (keeps : KeepsNames move)
    (tasks : List TeamTaskState) (dependency : String) :
    namedTask (tasks.map move) dependency = (namedTask tasks dependency).map move := by
  have steps : (buildTaskGraphIndex (tasks.map move)).stepToTaskId
      = (buildTaskGraphIndex tasks).stepToTaskId := by
    simp only [buildTaskGraphIndex, List.filterMap_map]
    congr 2
    funext task
    simp [(keeps task).1, (keeps task).2]
  unfold namedTask taskById
  rw [steps, Bindings.get_ofKeyed_map fun task => (keeps task).1]

theorem dependencyMet_moved {move : TeamTaskState → TeamTaskState} (keeps : KeepsNames move)
    (tasks : List TeamTaskState) (dependency : String) :
    DependencyMet (tasks.map move) dependency
      ↔ (∃ task ∈ tasks, (move task).status = .completed ∧ task.stepId = some dependency) ∨
        ∃ task, namedTask tasks dependency = some task ∧ (move task).status = .completed := by
  unfold DependencyMet
  rw [namedTask_moved keeps]
  refine or_congr ?_ ?_
  · simp [fun task => (keeps task).2]
  · simp [Option.map_eq_some_iff]

theorem dependencyMet_refresh (tasks : List TeamTaskState) (index : Option TaskGraphIndex)
    (dependency : String) :
    DependencyMet (refreshTaskGraphQueues tasks index) dependency
      ↔ DependencyMet tasks dependency := by
  unfold refreshTaskGraphQueues
  rw [dependencyMet_moved fun task => ⟨withQueue_id _ _, withQueue_stepId _ _⟩]
  simp only [withQueue_status]
  exact Iff.rfl

theorem queueConsistent_iff (tasks : List TeamTaskState) : QueueConsistent tasks
      ↔ ∀ task ∈ tasks, withQueue task (buildTaskGraphIndex tasks) = task := by
  show refreshTaskGraphQueues tasks none = tasks
    ↔ ∀ task ∈ tasks, withQueue task (buildTaskGraphIndex tasks) = id task
  rw [← List.map_inj_left, List.map_id]
  exact Iff.rfl

theorem refresh_consistent_iff (moved given : List TeamTaskState) :
    QueueConsistent (refreshTaskGraphQueues moved (some (buildTaskGraphIndex given)))
      ↔ ∀ task ∈ moved, task.graph.isSome → task.status = .queued →
          ((∀ dependency ∈ task.dependsOn, DependencyMet given dependency)
            ↔ ∀ dependency ∈ task.dependsOn, DependencyMet moved dependency) := by
  have pointwise : QueueConsistent (refreshTaskGraphQueues moved (some (buildTaskGraphIndex given)))
      ↔ ∀ task ∈ moved, withQueue (withQueue task (buildTaskGraphIndex given)) (buildTaskGraphIndex
            (refreshTaskGraphQueues moved (some (buildTaskGraphIndex given))))
        = withQueue task (buildTaskGraphIndex given) := by
    rw [queueConsistent_iff]
    simp only [refreshTaskGraphQueues, ensureIndex, Option.getD_some, List.forall_mem_map]
  rw [pointwise]
  refine forall₂_congr fun task _ => ?_
  rw [withQueue_settles, resolvedQueue_eq_iff]
  simp only [dependencyMet_refresh]

theorem refresh_queueConsistent (tasks : List TeamTaskState) :
    QueueConsistent (refreshTaskGraphQueues tasks none) := by
  have own : refreshTaskGraphQueues tasks none
      = refreshTaskGraphQueues tasks (some (buildTaskGraphIndex tasks)) := rfl
  rw [own, refresh_consistent_iff]
  exact fun task _ _ _ => Iff.rfl

def NamesTask (tasks : List TeamTaskState) (taskId dependency : String) : Prop :=
  (∃ task ∈ tasks, task.id = taskId ∧ task.stepId = some dependency) ∨
    ∃ task, namedTask tasks dependency = some task ∧ task.id = taskId

def MetWithout (tasks : List TeamTaskState) (taskId dependency : String) : Prop :=
  (∃ task ∈ tasks, task.id ≠ taskId ∧ task.status = .completed ∧ task.stepId = some dependency) ∨
    ∃ task, namedTask tasks dependency = some task ∧ task.id ≠ taskId ∧ task.status = .completed

/-- **Completing the task completes no dependency list**: of every other queued task with a graph
node, if each dependency is met or names the task, then each was met already. -/
def CompletesNoDependency (tasks : List TeamTaskState) (taskId : String) : Prop :=
  ∀ task ∈ tasks, task.id ≠ taskId → task.status = .queued → task.graph.isSome →
    (∀ dependency ∈ task.dependsOn,
      DependencyMet tasks dependency ∨ NamesTask tasks taskId dependency) →
    ∀ dependency ∈ task.dependsOn, DependencyMet tasks dependency

/-- **Restarting the task withdraws no dependency**: every other queued task with a graph node
whose dependencies are all met has them all met by other tasks. -/
def WithdrawsNoDependency (tasks : List TeamTaskState) (taskId : String) : Prop :=
  ∀ task ∈ tasks, task.id ≠ taskId → task.status = .queued → task.graph.isSome →
    (∀ dependency ∈ task.dependsOn, DependencyMet tasks dependency) →
    ∀ dependency ∈ task.dependsOn, MetWithout tasks taskId dependency

/-- The move of `markTaskDone`. -/
def completeTask (taskId now : String) (task : TeamTaskState) : TeamTaskState :=
  if task.id = taskId then
    { task with status := .completed, finishedAt := some (task.finishedAt.getD now) }
  else task

/-- The move of `markTaskRunning`. -/
def startTask (taskId now : String) (task : TeamTaskState) : TeamTaskState :=
  if task.id = taskId then
    { task with status := .running, startedAt := some (task.startedAt.getD now) }
  else task

theorem completeTask_keepsNames (taskId now : String) : KeepsNames (completeTask taskId now) := by
  intro task
  unfold completeTask
  split <;> exact ⟨rfl, rfl⟩

theorem startTask_keepsNames (taskId now : String) : KeepsNames (startTask taskId now) := by
  intro task
  unfold startTask
  split <;> exact ⟨rfl, rfl⟩

/-- `markTaskDone` is a refresh of the moved list against the index of the given one. -/
theorem markTaskDone_eq (tasks : List TeamTaskState) (taskId now : String)
    (index : Option TaskGraphIndex) :
    markTaskDone tasks taskId now index
      = refreshTaskGraphQueues (tasks.map (completeTask taskId now))
          (some (ensureIndex tasks index)) := rfl

/-- So is `markTaskRunning`: the queue its target had before the move is overwritten. -/
theorem markTaskRunning_eq (tasks : List TeamTaskState) (taskId now : String)
    (index : Option TaskGraphIndex) :
    markTaskRunning tasks taskId now index
      = refreshTaskGraphQueues (tasks.map (startTask taskId now))
          (some (ensureIndex tasks index)) := by
  unfold markTaskRunning refreshTaskGraphQueues
  simp only [List.map_map]
  refine List.map_congr_left fun task _ => ?_
  simp only [Function.comp_apply, ensureIndex, Option.getD_some, withQueue_id, startTask]
  split
  · simp [withQueue_eq, resolvedQueue]
    cases task.graph <;> rfl
  · rfl

theorem completeTask_met (tasks : List TeamTaskState) (taskId now dependency : String) :
    DependencyMet (tasks.map (completeTask taskId now)) dependency
      ↔ DependencyMet tasks dependency ∨ NamesTask tasks taskId dependency := by
  have moved : ∀ task, (completeTask taskId now task).status = .completed
      ↔ task.status = .completed ∨ task.id = taskId := by
    intro task
    by_cases same : task.id = taskId <;> simp [completeTask, same]
  rw [dependencyMet_moved (completeTask_keepsNames taskId now)]
  simp only [moved, DependencyMet, NamesTask, or_and_right, and_or_left, exists_or]
  exact or_or_or_comm

theorem startTask_met (tasks : List TeamTaskState) (taskId now dependency : String) :
    DependencyMet (tasks.map (startTask taskId now)) dependency
      ↔ MetWithout tasks taskId dependency := by
  have moved : ∀ task, (startTask taskId now task).status = .completed
      ↔ task.id ≠ taskId ∧ task.status = .completed := by
    intro task
    by_cases same : task.id = taskId <;> simp [startTask, same]
  rw [dependencyMet_moved (startTask_keepsNames taskId now)]
  simp only [moved, MetWithout, and_assoc]

theorem metWithout_met {tasks : List TeamTaskState} {taskId dependency : String}
    (met : MetWithout tasks taskId dependency) : DependencyMet tasks dependency := by
  rcases met with ⟨task, member, -, completed, step⟩ | ⟨task, named, -, completed⟩
  · exact Or.inl ⟨task, member, completed, step⟩
  · exact Or.inr ⟨task, named, completed⟩

/-- **`markTaskDone` keeps the queues exactly when it makes no queued task ready.** -/
theorem markTaskDone_consistent_iff (tasks : List TeamTaskState) (taskId now : String) :
    QueueConsistent (markTaskDone tasks taskId now (some (buildTaskGraphIndex tasks)))
      ↔ CompletesNoDependency tasks taskId := by
  rw [markTaskDone_eq, ensureIndex, Option.getD_some, refresh_consistent_iff, List.forall_mem_map]
  refine forall₂_congr fun task _ => ?_
  simp only [completeTask_met]
  by_cases same : task.id = taskId
  · simp [completeTask, same]
  · simp only [completeTask, same, if_false, ne_eq, not_false_eq_true, true_implies]
    constructor
    · intro agree queued node met
      exact (agree node queued).mpr met
    · intro completes node queued
      exact ⟨fun met dependency member => Or.inl (met dependency member), completes queued node⟩

/-- **`markTaskRunning` keeps the queues exactly when it makes no queued task unready.** -/
theorem markTaskRunning_consistent_iff (tasks : List TeamTaskState) (taskId now : String) :
    QueueConsistent (markTaskRunning tasks taskId now (some (buildTaskGraphIndex tasks)))
      ↔ WithdrawsNoDependency tasks taskId := by
  rw [markTaskRunning_eq, ensureIndex, Option.getD_some, refresh_consistent_iff,
    List.forall_mem_map]
  refine forall₂_congr fun task _ => ?_
  simp only [startTask_met]
  by_cases same : task.id = taskId
  · simp [startTask, same]
  · simp only [startTask, same, if_false, ne_eq, not_false_eq_true, true_implies]
    constructor
    · intro agree queued node met
      exact (agree node queued).mp met
    · intro withdraws node queued
      exact ⟨withdraws queued node,
        fun met dependency member => metWithout_met (met dependency member)⟩

theorem mem_graphWalk_iff (tasks : List TeamTaskState) (stack : List String) (taskId : String) :
    taskId ∈ graphWalk tasks stack ↔ ∃ start ∈ stack, (start == "") = false ∧
      Relation.ReflTransGen (Walk.Edge (graphChildren (taskById tasks)) (· == "")) start taskId := by
  refine Walk.mem_walk_iff _ _ (tasks.map (·.id)) ?_ ?_ taskId
  · intro id
    refine or_iff_not_imp_left.mpr fun unknown => ?_
    have absent : (taskById tasks).get id = none :=
      Bindings.get_ofKeyed_eq_none.mpr fun task member same =>
        unknown (List.mem_map.mpr ⟨task, member, same⟩)
    simp [graphChildren, absent]
  · simp [Walk.potential, graphFuel]

/-- **Which operations keep the queues of the returned list.** Cancelling and failing always do.
Marking a task done or running does so, with or without the caller's index of the list, exactly
when the move changes the readiness of no other queued task. -/
theorem operations_queueConsistent_iff (tasks : List TeamTaskState) (taskId reason now : String)
    (index : Option TaskGraphIndex)
    (supplied : index = none ∨ index = some (buildTaskGraphIndex tasks)) :
    (QueueConsistent (markTaskDone tasks taskId now index) ↔ CompletesNoDependency tasks taskId) ∧
      (QueueConsistent (markTaskRunning tasks taskId now index)
        ↔ WithdrawsNoDependency tasks taskId) ∧
      QueueConsistent (cancelTaskSubtree tasks taskId reason now) ∧
      QueueConsistent (failTaskAndBlockChildren tasks taskId reason now) := by
  have done_iff := markTaskDone_consistent_iff tasks taskId now
  have running_iff := markTaskRunning_consistent_iff tasks taskId now
  rw [markTaskDone_eq] at done_iff ⊢
  rw [markTaskRunning_eq] at running_iff ⊢
  have same : ensureIndex tasks index = buildTaskGraphIndex tasks := by
    rcases supplied with rfl | rfl <;> rfl
  rw [same]
  exact ⟨done_iff, running_iff, refresh_queueConsistent _, refresh_queueConsistent _⟩

/-- A running task and a queued one that waits for it, each in its right queue. -/
def pairTasks : List TeamTaskState :=
  [{ id := "a", status := .running, graph := some { taskId := "a", queue := .running } },
   { id := "b", status := .queued, dependsOn := ["a"],
     graph := some { taskId := "b", queue := .blocked } }]

theorem operations_queueConsistent_iff_pair :
    (QueueConsistent (markTaskRunning pairTasks "a" "now" none)
      ↔ WithdrawsNoDependency pairTasks "a") ∧
    QueueConsistent (cancelTaskSubtree pairTasks "a" "stop" "now") :=
  have settled := operations_queueConsistent_iff pairTasks "a" "stop" "now" none (Or.inl rfl)
  ⟨settled.2.1, settled.2.2.1⟩

theorem markTaskDone_leaves_dependent_blocked :
    QueueConsistent pairTasks ∧
      ¬ QueueConsistent (markTaskDone pairTasks "a" "now" none) ∧
      (markTaskDone pairTasks "a" "now" none).map (fun task => task.graph.map (·.queue))
        = [some .done, some .blocked] ∧
      (refreshTaskGraphQueues (markTaskDone pairTasks "a" "now" none) none).map
          (fun task => task.graph.map (·.queue))
        = [some .done, some .ready] := by
  decide

end PiCrew.Scheduling
