/-
**What cancelling and failing do to a subtree.**

`runtime/scheduling/task-graph-scheduler.ts` (`cancelTaskSubtree`, `failTaskAndBlockChildren`) and
`state/contracts.ts` (`TEAM_TASK_STATUS_TRANSITIONS`). Both walk down the children of the graph from a root, over
cycles, diamonds and unknown ids, and then move tasks. Both refresh all queues.

* `failTaskAndBlockChildren_moves` — it fails the root and skips the queued tasks below it; what runs or waits
  there goes on;
* `subtree_moves` — both, for every list and root;
* `subtree_moves_otherwise` — what neither of the two does.

The task of an id is the last one that carries it. An empty id is never followed.
-/

import PiCrew.Scheduling.QueueConsistency

namespace PiCrew.Scheduling

open PiCrew.State Relation

section

def Below (tasks : List TeamTaskState) (root id : String) : Prop :=
  ReflTransGen (Walk.Edge (graphChildren (taskById tasks)) (· == "")) root id

def Requeued (before after : TeamTaskState) : Prop :=
  ∃ index, after = withQueue before index

def LegalMove (before after : TeamTaskState) : Prop :=
  after.status ≠ before.status → after.status ∈ teamTaskStatusTransitions before.status

variable (tasks : List TeamTaskState) (root : String)

/-- **Cancelling the subtree of a root** does this to a task. -/
structure CancelMoves (before after : TeamTaskState) : Prop where
  outside : ¬ Below tasks root before.id → Requeued before after
  cancelled : root ≠ "" → Below tasks root before.id → isTerminalTaskStatus before.status = false →
    after.status = .cancelled
  completed : before.status = .completed → Requeued before after
  legal : before.status ≠ .needsAttention → LegalMove before after

/-- **Failing a root** does this to a task. -/
structure FailMoves (before after : TeamTaskState) : Prop where
  outside : ¬ Below tasks root before.id → Requeued before after
  failed : before.id = root → after.status = .failed
  skipped : before.id ≠ root → Below tasks root before.id → before.status = .queued → after.status = .skipped
  others : before.id ≠ root → before.status ≠ .queued → Requeued before after
  legal : (before.id = root → isTerminalTaskStatus before.status = false) → LegalMove before after

/-- What is claimed of either: only the subtree changes, all that is open in it does, and along the table. -/
structure ClaimedMoves (before after : TeamTaskState) : Prop where
  outside : ¬ Below tasks root before.id → Requeued before after
  changed : Below tasks root before.id → isTerminalTaskStatus before.status = false →
    after.status ≠ before.status
  legal : LegalMove before after

variable {tasks root}

theorem mem_cancelled_iff {id : String} :
    id ∈ graphWalk tasks [root] ↔ root ≠ "" ∧ Below tasks root id := by
  rw [mem_graphWalk_iff]
  simp [Below]

theorem below_of_blocked {id : String}
    (blocked : id ∈ graphWalk tasks (graphChildren (taskById tasks) root).reverse) : Below tasks root id := by
  obtain ⟨child, member, wanted, path⟩ := (mem_graphWalk_iff tasks _ id).mp blocked
  exact .head ⟨List.mem_reverse.mp member, wanted⟩ path

theorem blocked_of_below {id : String} (apart : id ≠ root) (below : Below tasks root id) :
    id ∈ graphWalk tasks (graphChildren (taskById tasks) root).reverse := by
  rcases ReflTransGen.cases_head below with same | ⟨child, edge, path⟩
  · exact absurd same.symm apart
  · exact (mem_graphWalk_iff tasks _ id).mpr ⟨child, List.mem_reverse.mpr edge.1, edge.2, path⟩

theorem forall₂_refresh {move : TeamTaskState → TeamTaskState} {Moves : TeamTaskState → TeamTaskState → Prop}
    (each : ∀ task ∈ tasks, ∀ index, Moves task (withQueue (move task) index)) :
    List.Forall₂ Moves tasks (refreshTaskGraphQueues (tasks.map move) none) := by
  rw [refreshTaskGraphQueues, List.map_map, List.forall₂_map_right_iff, List.forall₂_same]
  exact fun task member => each task member _

theorem legal_withQueue (task : TeamTaskState) (index : TaskGraphIndex) :
    LegalMove task (withQueue task index) :=
  fun changed => absurd (withQueue_status task index) changed

theorem cancelled_allowed {status : TeamTaskStatus} (unfinished : status ≠ .completed)
    (attended : status ≠ .needsAttention) (fresh : status ≠ .cancelled) :
    .cancelled ∈ teamTaskStatusTransitions status := by
  cases status <;> first | decide | contradiction

theorem failed_allowed {status : TeamTaskStatus} (unsettled : isTerminalTaskStatus status = false) :
    .failed ∈ teamTaskStatusTransitions status := by
  cases status <;> first | decide | exact absurd unsettled (by decide)

theorem cancelTaskSubtree_moves (tasks : List TeamTaskState) (root reason now : String) :
    List.Forall₂ (CancelMoves tasks root) tasks (cancelTaskSubtree tasks root reason now) := by
  refine forall₂_refresh fun task member index => ?_
  by_cases inside : task.id ∈ graphWalk tasks [root]
  case neg =>
    have kept : (!(graphWalk tasks [root]).contains task.id) = true := by simpa using inside
    rw [if_pos kept]
    exact
      { outside := fun _ => ⟨index, rfl⟩
        cancelled := fun named below _ => absurd (mem_cancelled_iff.mpr ⟨named, below⟩) inside
        completed := fun _ => ⟨index, rfl⟩
        legal := fun _ => legal_withQueue task index }
  case pos =>
    have below := (mem_cancelled_iff.mp inside).2
    have moved : ¬ (!(graphWalk tasks [root]).contains task.id) = true := by simpa using inside
    rw [if_neg moved]
    split
    case isTrue completed =>
      exact
        { outside := fun _ => ⟨index, rfl⟩
          cancelled := fun _ _ unsettled => absurd unsettled (by rw [completed]; decide)
          completed := fun _ => ⟨index, rfl⟩
          legal := fun _ => legal_withQueue task index }
    case isFalse unfinished =>
      refine ⟨fun outside => absurd below outside, fun _ _ _ => withQueue_status _ index,
        fun completed => absurd completed unfinished, fun attended changed => ?_⟩
      rw [withQueue_status] at changed ⊢
      exact cancelled_allowed unfinished attended fun already => changed already.symm

theorem failTaskAndBlockChildren_moves (tasks : List TeamTaskState) (root reason now : String) :
    List.Forall₂ (FailMoves tasks root) tasks (failTaskAndBlockChildren tasks root reason now) := by
  refine forall₂_refresh fun task member index => ?_
  by_cases same : task.id = root
  case pos =>
    rw [if_pos same]
    refine ⟨fun outside => absurd (same ▸ .refl) outside, fun _ => withQueue_status _ index,
      fun apart => absurd same apart, fun apart => absurd same apart, fun unsettled changed => ?_⟩
    rw [withQueue_status]
    exact failed_allowed (unsettled same)
  case neg =>
    rw [if_neg same]
    split
    case isTrue blocked =>
      simp only [Bool.and_eq_true, List.contains_iff_mem, beq_iff_eq] at blocked
      have below := below_of_blocked blocked.1
      refine ⟨fun outside => absurd below outside, fun isRoot => absurd isRoot same,
        fun _ _ _ => withQueue_status _ index, fun _ other => absurd blocked.2 other, fun _ _ => ?_⟩
      rw [withQueue_status, blocked.2]
      exact (by decide : TeamTaskStatus.skipped ∈ teamTaskStatusTransitions .queued)
    case isFalse free =>
      refine ⟨fun _ => ⟨index, rfl⟩, fun isRoot => absurd isRoot same, fun apart below queued => ?_,
        fun _ _ => ⟨index, rfl⟩, fun _ => legal_withQueue task index⟩
      simp [blocked_of_below apart below, queued] at free

/-- **What the two operations do**, to every list and from every root. -/
theorem subtree_moves (tasks : List TeamTaskState) (root reason now : String) :
    List.Forall₂ (CancelMoves tasks root) tasks (cancelTaskSubtree tasks root reason now) ∧
      List.Forall₂ (FailMoves tasks root) tasks (failTaskAndBlockChildren tasks root reason now) :=
  ⟨cancelTaskSubtree_moves tasks root reason now, failTaskAndBlockChildren_moves tasks root reason now⟩

def rootAndChild (root child : TeamTaskStatus) : List TeamTaskState :=
  [{ id := "root", status := root, graph := some { taskId := "root", children := ["child"], queue := .running } },
    { id := "child", status := child, graph := some { taskId := "child", queue := .running } }]

theorem subtree_moves_otherwise :
    ¬ List.Forall₂ (ClaimedMoves (rootAndChild .running .running) "root") (rootAndChild .running .running)
        (failTaskAndBlockChildren (rootAndChild .running .running) "root" "boom" "now") ∧
      ¬ List.Forall₂ (ClaimedMoves (rootAndChild .running .needsAttention) "root")
        (rootAndChild .running .needsAttention)
        (cancelTaskSubtree (rootAndChild .running .needsAttention) "root" "stop" "now") ∧
      ¬ List.Forall₂ (ClaimedMoves (rootAndChild .completed .queued) "root") (rootAndChild .completed .queued)
        (failTaskAndBlockChildren (rootAndChild .completed .queued) "root" "boom" "now") := by
  refine ⟨fun claimed => ?_, fun claimed => ?_, fun claimed => ?_⟩
  · have child := claimed.get (i := 1) (by decide) (by decide)
    have below : Below (rootAndChild .running .running) "root" "child" := .single ⟨by decide, by decide⟩
    exact child.changed below (by decide) (by decide)
  · have child := claimed.get (i := 1) (by decide) (by decide)
    exact absurd (child.legal (by decide)) (by decide)
  · have root := claimed.get (i := 0) (by decide) (by decide)
    exact absurd (root.legal (by decide)) (by decide)

end

end PiCrew.Scheduling
