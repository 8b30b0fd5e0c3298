/-
**Groups of small tasks for one worker.**

`planCoalescedGroups` of `runtime/scheduling/coalesce-tasks.ts`. The ready tasks that may share a worker are put
into buckets by role and working directory, a bucket is split so that no two tasks of a part write the same
output, and a part is cut where it gets too long or its prompt too big.

* `planCoalescedGroups_partition` — **the groups are a partition of the tasks that may be grouped**, by
  `Partition.refine` from the three splits;
* `coalescible_sublist` — the tasks that may be grouped are ready ones, in their order.
-/

import PiCrew.Dispatch.Limits
import PiCrew.Library.Partitions
import PiCrew.Plans.PlanStore

namespace PiCrew.Coalescing

open PiCrew.Dispatch (permissionForRole)
open PiCrew.Plans (textLength)
open Partitions

/-! ### Tasks and steps -/

/-- How a worker's output was split (`SplitResult["strategy"]`). -/
inductive SplitStrategy where
  | delimiter | sections | broadcast | deadletter
  deriving DecidableEq, Repr

/-- The part of a worker's output that a task gets. -/
structure SplitResult where
  taskId : String
  text : String
  strategy : SplitStrategy
  deriving DecidableEq, Repr

structure TaskResult where
  text : String
  producer : String
  strategy : SplitStrategy
  deriving DecidableEq, Repr

structure TeamTaskState extends State.TeamTaskState where
  cwd : String := ""
  result : Option TaskResult := none
  deriving DecidableEq, Repr

/-- The output of a step: not declared, `false`, or a path. -/
inductive StepOutput where
  | undeclared
  | off
  | path (text : String)
  deriving DecidableEq, Repr

structure WorkflowStep where
  id : String
  task : String := ""
  worktree : Bool := false
  specRefs : List String := []
  specStrict : Bool := false
  preStepScript : String := ""
  verify : Bool := false
  output : StepOutput := .undeclared
  deriving DecidableEq, Repr

structure WorkflowConfig where
  steps : List WorkflowStep
  deriving DecidableEq, Repr

structure CoalescedGroup where
  id : String
  role : String
  cwd : String
  tasks : List TeamTaskState
  deriving DecidableEq, Repr

/-! ### Planning the groups -/

def taskById (tasks : List TeamTaskState) : Bindings String TeamTaskState :=
  Bindings.ofKeyed (·.id) tasks

def stepById (workflow : WorkflowConfig) : Bindings String WorkflowStep :=
  Bindings.ofKeyed (·.id) workflow.steps

def StepOutput.declared : StepOutput → Bool
  | .undeclared | .off => false
  | .path text => text != ""

def hasOwnConcern (step : WorkflowStep) : Bool :=
  step.worktree || !step.specRefs.isEmpty || step.specStrict || step.preStepScript != "" || step.verify
    || step.output.declared

/-- The task of a ready id, where it may be grouped. -/
def coalescibleTask (tasks : List TeamTaskState) (workflow : WorkflowConfig) (taskId : String) :
    Option TeamTaskState := do
  let task ← (taskById tasks).get taskId
  let stepId ← task.stepId.filter (· != "")
  let step ← (stepById workflow).get stepId
  if permissionForRole task.role = .readOnly ∧ hasOwnConcern step = false then some task else none

def coalescible (readyTaskIds : List String) (tasks : List TeamTaskState) (workflow : WorkflowConfig) :
    List TeamTaskState :=
  readyTaskIds.filterMap (coalescibleTask tasks workflow)

def bucketKey (task : TeamTaskState) : String := task.role ++ "\x00" ++ task.cwd

structure Bucket where
  key : String
  tasks : List TeamTaskState

/-- **The buckets**: a task goes to the one with its key, or opens it. -/
def bucketsOf (tasks : List TeamTaskState) : List Bucket :=
  tasks.foldl (firstFit (fun bucket task => bucket.key == bucketKey task)
      (fun bucket task => { bucket with tasks := bucket.tasks ++ [task] })
      fun task => { key := bucketKey task, tasks := [task] })
    []

def stepOf (workflow : WorkflowConfig) (task : TeamTaskState) : Option WorkflowStep :=
  (task.stepId.filter (· != "")).bind (stepById workflow).get

def writePath (workflow : WorkflowConfig) (task : TeamTaskState) : Option String :=
  match stepOf workflow task with
  | some { output := .path text, .. } => some text
  | _ => none

def conflicts (workflow : WorkflowConfig) (task other : TeamTaskState) : Bool :=
  match writePath workflow task, writePath workflow other with
  | some mine, some theirs => mine == theirs
  | _, _ => false

/-- **Splitting a bucket** so that no two tasks of a part write the same path. -/
def splitByWriteSafety (workflow : WorkflowConfig) (tasks : List TeamTaskState) :
    List (List TeamTaskState) :=
  tasks.foldl
    (firstFit (fun part task => !part.any (conflicts workflow task)) (fun part task => part ++ [task])
      fun task => [task])
    []

def estimateTaskPromptSize (step : Option WorkflowStep) : Nat :=
  (step.map fun step => textLength step.task).getD 0 + 500 + 200

section

variable (workflow : WorkflowConfig) (maxGroupSize maxGroupBytes : Int)

/-- **Cutting a part**: the chunk so far with its bytes, and the tasks that are left. -/
def chunk (chunkTasks : List TeamTaskState) (chunkBytes : Int) :
    List TeamTaskState → List (List TeamTaskState)
  | [] => if chunkTasks.isEmpty then [] else [chunkTasks]
  | task :: rest =>
    let taskSize : Int := estimateTaskPromptSize (stepOf workflow task)
    let overCount := (chunkTasks.length : Int) + 1 > maxGroupSize
    let overBytes := chunkBytes + taskSize > maxGroupBytes
    if (overCount ∨ overBytes) ∧ chunkTasks ≠ [] then chunkTasks :: chunk [task] taskSize rest
    else chunk (chunkTasks ++ [task]) (chunkBytes + taskSize) rest

def buildGroup (tasks : List TeamTaskState) (role cwd : String) : CoalescedGroup where
  id :=
    match tasks with
    | [only] => only.id
    | _ => "+".intercalate (tasks.map (·.id))
  role := role
  cwd := cwd
  tasks := tasks

/-- The two halves of a bucket's key, as `split` finds them. -/
def splitKey (key : String) : String × String :=
  let parts := (key.toList.splitOn '\x00').map String.ofList
  (parts.getD 0 "", parts.getD 1 "")

def bucketPieces (tasks : List TeamTaskState) : List (List TeamTaskState) :=
  (splitByWriteSafety workflow tasks).flatMap (chunk workflow maxGroupSize maxGroupBytes [] 0)

def planCoalescedGroups (readyTaskIds : List String) (tasks : List TeamTaskState) (enabled : Bool) :
    List CoalescedGroup :=
  if !enabled || readyTaskIds.isEmpty then []
  else
    (bucketsOf (coalescible readyTaskIds tasks workflow)).flatMap fun bucket =>
      (bucketPieces workflow maxGroupSize maxGroupBytes bucket.tasks).map fun piece =>
        buildGroup piece (splitKey bucket.key).1 (splitKey bucket.key).2

/-! ### What is grouped -/

theorem coalescibleTask_id {tasks : List TeamTaskState} {taskId : String} {task : TeamTaskState}
    (found : coalescibleTask tasks workflow taskId = some task) : task.id = taskId := by
  simp only [coalescibleTask, Option.bind_eq_bind, Option.bind_eq_some_iff] at found
  obtain ⟨held, inMap, _, _, _, _, picked⟩ := found
  split at picked
  · cases picked
    exact (Bindings.get_ofKeyed_mem inMap).2
  · cases picked

theorem coalescible_sublist (readyTaskIds : List String) (tasks : List TeamTaskState) :
    ((coalescible readyTaskIds tasks workflow).map (·.id)).Sublist readyTaskIds := by
  unfold coalescible
  induction readyTaskIds with
  | nil => exact List.Sublist.slnil
  | cons taskId rest ih =>
    cases found : coalescibleTask tasks workflow taskId with
    | none =>
      rw [List.filterMap_cons_none found]
      exact ih.cons taskId
    | some task =>
      rw [List.filterMap_cons_some found, List.map_cons, coalescibleTask_id workflow found]
      exact ih.cons_cons taskId

/-! ### The three splits -/

theorem bucketsOf_partition (tasks : List TeamTaskState) :
    Partition ((bucketsOf tasks).map (·.tasks)) tasks :=
  foldl_firstFit_partition _ _ _ _ (fun _ _ => rfl) (fun _ => rfl) tasks

theorem bucketsOf_key (tasks : List TeamTaskState) :
    ∀ bucket ∈ bucketsOf tasks, ∀ task ∈ bucket.tasks, bucketKey task = bucket.key := by
  refine foldl_firstFit_forall _ _ _ (fun task other member => ?_) (fun bucket task taken held => ?_)
    tasks (fun bucket member => absurd member List.not_mem_nil)
  · rw [List.mem_singleton.mp member]
  · intro other member
    rcases List.mem_append.mp member with old | new
    · exact held other old
    · rw [List.mem_singleton.mp new]
      exact (beq_iff_eq.mp taken).symm

theorem splitByWriteSafety_partition (tasks : List TeamTaskState) :
    Partition (splitByWriteSafety workflow tasks) tasks := by
  have split := foldl_firstFit_partition (fun part task => !part.any (conflicts workflow task))
    (fun part task => part ++ [task]) (fun task => [task]) id (fun _ _ => rfl)
    (fun _ => rfl) tasks
  rwa [List.map_id] at split

theorem chunk_flatten (chunkTasks rest : List TeamTaskState) (chunkBytes : Int) :
    (chunk workflow maxGroupSize maxGroupBytes chunkTasks chunkBytes rest).flatten
      = chunkTasks ++ rest := by
  induction rest generalizing chunkTasks chunkBytes with
  | nil => cases chunkTasks <;> simp [chunk]
  | cons task rest ih =>
    rw [chunk]
    split
    · rw [List.flatten_cons, ih, List.singleton_append]
    · rw [ih, List.append_assoc, List.singleton_append]

theorem chunk_length_le (admitted : 1 ≤ maxGroupSize) (rest : List TeamTaskState)
    {chunkTasks : List TeamTaskState} (short : (chunkTasks.length : Int) ≤ maxGroupSize)
    (chunkBytes : Int) :
    ∀ piece ∈ chunk workflow maxGroupSize maxGroupBytes chunkTasks chunkBytes rest,
      (piece.length : Int) ≤ maxGroupSize := by
  induction rest generalizing chunkTasks chunkBytes with
  | nil =>
    intro piece member
    rw [chunk] at member
    split at member
    · exact absurd member List.not_mem_nil
    · rw [List.mem_singleton.mp member]
      exact short
  | cons task rest ih =>
    intro piece member
    rw [chunk] at member
    split at member
    · rcases List.mem_cons.mp member with rfl | later
      · exact short
      · exact ih (by simpa using admitted) _ piece later
    · rename_i fits
      refine ih ?_ _ piece member
      rw [List.length_append, List.length_singleton]
      -- either the chunk was empty, or it was not over the count
      by_cases empty : chunkTasks = []
      · simpa [empty] using admitted
      · have room : ¬ ((chunkTasks.length : Int) + 1 > maxGroupSize) :=
          fun tooMany => fits ⟨.inl tooMany, empty⟩
        omega

theorem bucketPieces_partition (tasks : List TeamTaskState) :
    Partition (bucketPieces workflow maxGroupSize maxGroupBytes tasks) tasks :=
  (splitByWriteSafety_partition workflow tasks).refine fun part _ =>
    .of_flatten (chunk_flatten workflow maxGroupSize maxGroupBytes [] part 0)

/-! ### The groups -/

section

variable {readyTaskIds : List String} {tasks : List TeamTaskState} {enabled : Bool}
  {group : CoalescedGroup}

theorem mem_planCoalescedGroups
    (member : group ∈ planCoalescedGroups workflow maxGroupSize maxGroupBytes readyTaskIds tasks enabled) :
    ∃ bucket ∈ bucketsOf (coalescible readyTaskIds tasks workflow),
      group.tasks ∈ bucketPieces workflow maxGroupSize maxGroupBytes bucket.tasks
        ∧ group = buildGroup group.tasks (splitKey bucket.key).1 (splitKey bucket.key).2 := by
  unfold planCoalescedGroups at member
  split at member
  · exact absurd member List.not_mem_nil
  · obtain ⟨bucket, inBuckets, inPieces⟩ := List.mem_flatMap.mp member
    obtain ⟨piece, isPiece, rfl⟩ := List.mem_map.mp inPieces
    exact ⟨bucket, inBuckets, isPiece, rfl⟩

/-- **The groups are a partition of the tasks that may be grouped.** -/
theorem planCoalescedGroups_partition :
    Partition ((planCoalescedGroups workflow maxGroupSize maxGroupBytes readyTaskIds tasks true).map
      (·.tasks)) (coalescible readyTaskIds tasks workflow) := by
  have pieces := (bucketsOf_partition (coalescible readyTaskIds tasks workflow)).refine
    fun bucket _ => bucketPieces_partition workflow maxGroupSize maxGroupBytes bucket
  unfold planCoalescedGroups
  split
  · rename_i none_ready
    have empty : readyTaskIds = [] := by simpa using none_ready
    rw [empty]
    exact .nil
  · rw [List.map_flatMap]
    simp only [List.map_map, Function.comp_def, buildGroup, List.map_id']
    rwa [List.flatMap_map] at pieces

theorem planCoalescedGroups_length_le (admitted : 1 ≤ maxGroupSize)
    (member : group ∈ planCoalescedGroups workflow maxGroupSize maxGroupBytes readyTaskIds tasks enabled) :
    (group.tasks.length : Int) ≤ maxGroupSize := by
  obtain ⟨bucket, _, isPiece, _⟩ := mem_planCoalescedGroups workflow maxGroupSize maxGroupBytes member
  obtain ⟨part, _, inChunks⟩ := List.mem_flatMap.mp isPiece
  exact chunk_length_le workflow maxGroupSize maxGroupBytes admitted part
    (Int.le_trans (by decide) admitted) 0 group.tasks inChunks

theorem planCoalescedGroups_shared
    (member : group ∈ planCoalescedGroups workflow maxGroupSize maxGroupBytes readyTaskIds tasks enabled)
    {task other : TeamTaskState} (inGroup : task ∈ group.tasks) (otherInGroup : other ∈ group.tasks) :
    bucketKey task = bucketKey other := by
  obtain ⟨bucket, inBuckets, isPiece, _⟩ :=
    mem_planCoalescedGroups workflow maxGroupSize maxGroupBytes member
  have ordered := (bucketPieces_partition workflow maxGroupSize maxGroupBytes bucket.tasks).ordered
    _ isPiece
  have keyed := bucketsOf_key _ bucket inBuckets
  rw [keyed task (ordered.subset inGroup), keyed other (ordered.subset otherInGroup)]

end

end

end PiCrew.Coalescing
