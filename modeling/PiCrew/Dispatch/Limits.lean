/-
**What limits a batch.**

`runtime/scheduling/concurrency.ts` (how many workers), `runtime/scheduling/global-worker-cap.ts`
(the capacity of the machine), `runtime/path-overlap.ts` (which steps write the same file) and
`runtime/plan-approval.ts` with `runtime/role-permission.ts` (which tasks wait for an approval).

* `filterReadyByWriteOverlap_subset`, `filterReadyByWriteOverlap_ne_nil` — the overlap filter adds
  no task and leaves one of any.

A number of the source that may be missing or not finite is an `Option Int`.
-/

import PiCrew.Scheduling.TaskGraphScheduler

namespace PiCrew.Dispatch

open PiCrew.State PiCrew.Scheduling

/-- A step of a workflow. An output of `false` is none. -/
structure WorkflowStep where
  id : String
  output : Option String := none
  deriving DecidableEq, Repr

structure WorkflowConfig where
  name : String
  steps : List WorkflowStep := []
  maxConcurrency : Option Int := none
  coalesceMicroTasks : Bool := false
  deriving DecidableEq, Repr

structure CrewLimitsConfig where
  maxConcurrentWorkers : Option Int := none
  allowUnboundedConcurrency : Bool := false
  serializeOnPathOverlap : Bool := false
  deriving DecidableEq, Repr

/-- **The capacity of the global worker cap.** It holds one worker at least. -/
structure WorkerCap where
  capacity : Int
  positive : 0 < capacity

/-- The capacity from the environment variable, where it parses, and the processors. -/
def resolveCapacity (env : Option Int) (cpus : Nat) : WorkerCap :=
  let default : WorkerCap := ⟨max 2 ((cpus : Int) - 2), by omega⟩
  match env with
  | some parsed => if positive : 0 < parsed then ⟨parsed, positive⟩ else default
  | none => default

structure BatchSettings where
  workflow : WorkflowConfig
  teamMaxConcurrency : Option Int := none
  limits : CrewLimitsConfig := {}
  workerCap : WorkerCap

/-- How many workers a workflow asks for by its name (`DEFAULT_CONCURRENCY`). -/
def workflowConcurrency (workflowName : String) : Int :=
  if workflowName = "parallel-research" then 4
  else if workflowName = "research" then 3
  else if workflowName = "implementation" then 4
  else if workflowName = "review" then 3
  else if workflowName = "default" then 3
  else 2

def defaultWorkflowConcurrency (workflowName : String) (workflowMaxConcurrency : Option Int) : Int :=
  workflowMaxConcurrency.getD (workflowConcurrency workflowName)

def positiveInteger (value : Option Int) : Option Int := value.map (max 1)

structure ResolveBatchConcurrencyInput where
  workflowName : String
  workflowMaxConcurrency : Option Int := none
  teamMaxConcurrency : Option Int := none
  limitMaxConcurrentWorkers : Option Int := none
  allowUnboundedConcurrency : Bool := false
  hardCap : Option Int := none
  workerCap : Option Int := none
  readyCount : Int
  deriving DecidableEq, Repr

structure BatchConcurrencyDecision where
  maxConcurrent : Int
  selectedCount : Int
  defaultConcurrency : Int
  reason : String
  deriving DecidableEq, Repr

/-- **How many workers a batch may have**, under the capacity of the machine. -/
def resolveBatchConcurrency (globalCap : WorkerCap) (input : ResolveBatchConcurrencyInput) :
    BatchConcurrencyDecision :=
  let workflowMax := positiveInteger input.workflowMaxConcurrency
  let limitMax := positiveInteger input.limitMaxConcurrentWorkers
  let teamMax := positiveInteger input.teamMaxConcurrency
  let requested :=
    ((limitMax.or teamMax).or workflowMax).getD (defaultWorkflowConcurrency input.workflowName none)
  let source :=
    if limitMax.isSome then "limit" else if teamMax.isSome then "team" else "workflow"
  let hardCap := (positiveInteger input.hardCap).getD 8
  let workerCap := (positiveInteger input.workerCap).getD globalCap.capacity
  let maxConcurrent :=
    if input.allowUnboundedConcurrency then requested else min (min requested hardCap) workerCap
  let readyCount := max 0 input.readyCount
  let cappedReason :=
    if maxConcurrent < requested then
      ";capped:hard=" ++ toString hardCap ++ ",worker=" ++ toString workerCap
    else ""
  let unboundedReason :=
    if input.allowUnboundedConcurrency && hardCap < requested then
      ";unbounded:" ++ toString hardCap
    else ""
  { maxConcurrent := maxConcurrent
    selectedCount := if readyCount = 0 then 0 else min readyCount maxConcurrent
    defaultConcurrency := defaultWorkflowConcurrency input.workflowName workflowMax
    reason := source ++ ":" ++ toString requested ++ cappedReason ++ unboundedReason ++
      ";ready:" ++ toString readyCount }

theorem positiveInteger_pos {value : Option Int} {limit : Int}
    (found : positiveInteger value = some limit) : 0 < limit := by
  obtain ⟨given, -, rfl⟩ := Option.map_eq_some_iff.mp found
  omega

theorem positiveInteger_getD_pos (value : Option Int) {fallback : Int} (positive : 0 < fallback) :
    0 < (positiveInteger value).getD fallback := by
  cases found : positiveInteger value with
  | none => exact positive
  | some limit => exact positiveInteger_pos found

theorem workflowConcurrency_pos (workflowName : String) : 0 < workflowConcurrency workflowName := by
  unfold workflowConcurrency
  repeat' split
  all_goals omega

theorem resolveBatchConcurrency_pos (globalCap : WorkerCap) (input : ResolveBatchConcurrencyInput) :
    0 < (resolveBatchConcurrency globalCap input).maxConcurrent := by
  have requested : 0 < (((positiveInteger input.limitMaxConcurrentWorkers).or
      (positiveInteger input.teamMaxConcurrency)).or
      (positiveInteger input.workflowMaxConcurrency)).getD
        (defaultWorkflowConcurrency input.workflowName none) := by
    cases limit : positiveInteger input.limitMaxConcurrentWorkers with
    | some limitMax => exact positiveInteger_pos limit
    | none =>
      cases team : positiveInteger input.teamMaxConcurrency with
      | some teamMax => exact positiveInteger_pos team
      | none =>
        rw [Option.none_or, Option.none_or]
        exact positiveInteger_getD_pos _ (workflowConcurrency_pos _)
  have hardCap := positiveInteger_getD_pos input.hardCap (show (0 : Int) < 8 by omega)
  have workerCap := positiveInteger_getD_pos input.workerCap globalCap.positive
  show 0 < ite _ _ _
  split
  · exact requested
  · exact lt_min (lt_min requested hardCap) workerCap

section

def extractWritePath (step : WorkflowStep) : Option String :=
  step.output.filter fun path => path != ""

def detectWriteOverlap (stepA stepB : WorkflowStep) : Bool :=
  match extractWritePath stepA, extractWritePath stepB with
  | some pathA, some pathB => pathA == pathB
  | _, _ => false

def stepOfTask (tasks : List TeamTaskState) (workflow : WorkflowConfig) (taskId : String) :
    Option WorkflowStep :=
  (((taskById tasks).get taskId).bind (·.stepId)).bind fun stepId =>
    if stepId = "" then none else (Bindings.ofKeyed (·.id) workflow.steps).get stepId

/-- Go through the ready ids with the steps and the ids picked so far. An id without a step is
always picked. -/
def pickNonOverlapping (stepOf : String → Option WorkflowStep) (maxCount : Int) :
    List String → List WorkflowStep → List String → List String
  | [], _, pickedTaskIds => pickedTaskIds
  | taskId :: rest, pickedSteps, pickedTaskIds =>
    if maxCount ≤ pickedTaskIds.length then pickedTaskIds
    else match stepOf taskId with
      | none => pickNonOverlapping stepOf maxCount rest pickedSteps (pickedTaskIds ++ [taskId])
      | some step =>
        if pickedSteps.any (detectWriteOverlap step) then
          pickNonOverlapping stepOf maxCount rest pickedSteps pickedTaskIds
        else
          pickNonOverlapping stepOf maxCount rest (pickedSteps ++ [step])
            (pickedTaskIds ++ [taskId])

/-- **Leave out ready tasks that write a file an earlier one writes.** -/
def filterReadyByWriteOverlap (readyTaskIds : List String) (tasks : List TeamTaskState)
    (workflow : WorkflowConfig) (maxCount : Int) (enabled : Bool) : List String :=
  if !enabled || decide (maxCount ≤ 0) || readyTaskIds.isEmpty then readyTaskIds
  else pickNonOverlapping (stepOfTask tasks workflow) maxCount readyTaskIds [] []

variable {stepOf : String → Option WorkflowStep} {maxCount : Int}

theorem pickNonOverlapping_sublist {ready : List String} {steps : List WorkflowStep}
    {picked : List String} : ∃ kept : List String,
      pickNonOverlapping stepOf maxCount ready steps picked = picked ++ kept ∧
        kept.Sublist ready := by
  induction ready generalizing steps picked with
  | nil => exact ⟨[], (List.append_nil picked).symm, List.Sublist.refl []⟩
  | cons taskId rest ih =>
    have taken : ∀ steps, ∃ kept : List String,
        pickNonOverlapping stepOf maxCount rest steps (picked ++ [taskId]) = picked ++ kept ∧
          kept.Sublist (taskId :: rest) := by
      intro steps
      obtain ⟨kept, added, sub⟩ := @ih steps (picked ++ [taskId])
      refine ⟨taskId :: kept, ?_, sub.cons_cons taskId⟩
      rw [added, List.append_assoc, List.singleton_append]
    rw [pickNonOverlapping]
    split
    · exact ⟨[], (List.append_nil picked).symm, List.nil_sublist _⟩
    · split
      · exact taken steps
      · split
        · obtain ⟨kept, added, sub⟩ := @ih steps picked
          exact ⟨kept, added, sub.cons taskId⟩
        · exact taken _

theorem mem_pickNonOverlapping {ready : List String} {steps : List WorkflowStep} {picked : List String} :
    picked ⊆ pickNonOverlapping stepOf maxCount ready steps picked ∧
      pickNonOverlapping stepOf maxCount ready steps picked ⊆ picked ++ ready := by
  obtain ⟨kept, added, sub⟩ := @pickNonOverlapping_sublist stepOf maxCount ready steps picked
  rw [added]
  refine ⟨List.subset_append_left _ _, fun id member => ?_⟩
  rcases List.mem_append.mp member with before | after
  · exact List.mem_append_left _ before
  · exact List.mem_append_right _ (sub.subset after)

theorem filterReadyByWriteOverlap_sublist (ready : List String) (tasks : List TeamTaskState)
    (workflow : WorkflowConfig) (maxCount : Int) (enabled : Bool) :
    (filterReadyByWriteOverlap ready tasks workflow maxCount enabled).Sublist ready := by
  unfold filterReadyByWriteOverlap
  split
  · exact List.Sublist.refl _
  · obtain ⟨kept, picked, sub⟩ := @pickNonOverlapping_sublist (stepOfTask tasks workflow) maxCount
      ready [] []
    rwa [picked, List.nil_append]

theorem filterReadyByWriteOverlap_subset (ready : List String) (tasks : List TeamTaskState)
    (workflow : WorkflowConfig) (maxCount : Int) (enabled : Bool) :
    filterReadyByWriteOverlap ready tasks workflow maxCount enabled ⊆ ready :=
  (filterReadyByWriteOverlap_sublist ready tasks workflow maxCount enabled).subset

/-- **The filter leaves a task of any ready ones**: the first is never held back. -/
theorem filterReadyByWriteOverlap_ne_nil {ready : List String} (some_ready : ready ≠ [])
    (tasks : List TeamTaskState) (workflow : WorkflowConfig) (maxCount : Int) (enabled : Bool) :
    filterReadyByWriteOverlap ready tasks workflow maxCount enabled ≠ [] := by
  unfold filterReadyByWriteOverlap
  split
  · exact some_ready
  · rename_i active
    obtain ⟨first, rest, rfl⟩ := List.exists_cons_of_ne_nil some_ready
    have room : ¬ maxCount ≤ (([] : List String).length : Int) := by
      intro full
      exact active (by simp [show maxCount ≤ 0 from full])
    have kept : ∀ steps, pickNonOverlapping (stepOfTask tasks workflow) maxCount rest steps
        ([] ++ [first]) ≠ [] := by
      intro steps
      exact List.ne_nil_of_mem (mem_pickNonOverlapping.1 (List.mem_singleton_self first))
    rw [pickNonOverlapping, if_neg room]
    cases stepOfTask tasks workflow first with
    | none => exact kept []
    | some step =>
      show ite _ _ _ ≠ []
      rw [List.any_nil, if_neg Bool.false_ne_true]
      exact kept _

end

inductive RolePermissionMode where
  | readOnly | workspaceWrite | dangerFullAccess | explicitConfirm
  deriving DecidableEq, Repr

/-- The roles that may not write (`READ_ONLY_ROLES`). -/
def readOnlyRoles : List String :=
  ["explorer", "reviewer", "security-reviewer", "analyst", "critic", "planner"]

/-- The roles that may write (`WRITE_ROLES`). -/
def writeRoles : List String :=
  ["executor", "test-engineer", "writer", "verifier", "agent", "cold-verifier", "chain-executor",
    "worker"]

def permissionForRole (role : String) : RolePermissionMode :=
  if readOnlyRoles.contains role then .readOnly
  else if writeRoles.contains role then .workspaceWrite
  else .readOnly

def isMutatingTask (task : TeamTaskState) : Bool := permissionForRole task.role != .readOnly

/-- The current revision of a plan: the one that the manifest points at, or the newest. -/
def getCurrentPlanRecord (revisions : List PlanRecord) (manifest : TeamRunManifest) :
    Option PlanRecord :=
  match revisions with
  | [] => none
  | first :: _ =>
    let pointed := manifest.plan.bind fun pointer =>
      revisions.find? fun revision =>
        revision.id == pointer.id && revision.version == pointer.version
    some (pointed.getD (revisions.foldl
      (fun newest revision => if newest.version < revision.version then revision else newest)
      first))

def isPlanApprovalPending (manifest : TeamRunManifest) : Bool :=
  manifest.planApproval.any fun approval => approval.required && approval.status == .pending

/-- **Whether a run waits for an approval**: the plan record decides, where it says something. -/
def isPlanApprovalPendingEffective (revisions : List PlanRecord) (manifest : TeamRunManifest) :
    Bool :=
  match (getCurrentPlanRecord revisions manifest).bind (·.approval) with
  | some approval => approval == .pending
  | none => isPlanApprovalPending manifest

end PiCrew.Dispatch
