/-
**The units in flight.**

`dispatchBatch` in `runtime/dispatch-batch.ts`, under the scheduler loop of `runtime/team-runner.ts`.
A tick files the units of its batch among the pending ones, a map under their keys. What a tick finds
besides is any: other processes write the run while units are in flight.

* `units_in_flight` — in every run of the loop no task is in two units, there are no more units than
  eight or the machine allows, and a unit leaves only when it settles or the loop drains.
-/

import PiCrew.Coalescing.DispatchUnits
import PiCrew.Dispatch.Batch

namespace PiCrew.Dispatch

open PiCrew.State PiCrew.Runner PiCrew.Store PiCrew.TaskGraph Waves
open PiCrew.Coalescing (DispatchUnit buildDispatchUnits planCoalescedGroups)
open PiCrew.Scheduling (taskById)

section

/-- What a dispatch reads besides the memory of the scheduler. A hook that blocks a task may tell
why. -/
structure DispatchInput where
  workflow : Coalescing.WorkflowConfig
  cwd : String → String
  beforeTaskStart : String → Option (Option String)

variable (input : DispatchInput)

def withCwd (task : TeamTaskState) : Coalescing.TeamTaskState :=
  { task with cwd := input.cwd task.id }

def skipBlocked (batch tasks : List TeamTaskState) : List TeamTaskState :=
  tasks.map fun task =>
    match if batch.any (·.id == task.id) then input.beforeTaskStart task.id else none with
    | some reason =>
      { task with
        status := .skipped
        error := some (reason.getD "before_task_start hook blocked execution.") }
    | none => task

/-- The ids of a batch that are dispatched after the hooks. -/
def batchTaskIds (batch tasks : List TeamTaskState) : List String :=
  (batch.filter fun task => ((taskById tasks).get task.id).any (·.status != .skipped)).map (·.id)

def filed (unit : DispatchUnit) : PendingUnit := { unitKey := unit.key, taskIds := unit.taskIds }

/-- File a unit: it takes the place of a pending one of its key. -/
def fileUnit (pending : List PendingUnit) (unit : DispatchUnit) : List PendingUnit :=
  if pending.any (·.unitKey == unit.key) then
    pending.map fun old => if old.unitKey == unit.key then filed unit else old
  else pending ++ [filed unit]

/-- **Dispatch a batch**: the hooks, the units, and the map of the pending ones. -/
def dispatchBatch (ctx : TickContext) (batch : List TeamTaskState) (coalesceEnabled : Bool) :
    TickContext :=
  let tasks := skipBlocked input batch ctx.tasks
  let ids := batchTaskIds batch tasks
  let units := buildDispatchUnits ids
    (planCoalescedGroups input.workflow 5 100000 ids (tasks.map (withCwd input)) coalesceEnabled)
  { ctx with
    tasks := tasks
    pendingUnits := units.foldl fileUnit ctx.pendingUnits
    dispatchedTaskIds := ctx.dispatchedTaskIds ++ units.flatMap (·.taskIds) }

/-- **What a tick finds**, its sweeps done: settings that keep to the capacity of the machine, and
tasks of distinct ids without a `+`. -/
structure Tick (cap : WorkerCap) where
  settings : BatchSettings
  ctx : TickContext
  now : String
  disk : RunDisk
  input : DispatchInput
  capped : settings.workerCap = cap
  bounded : settings.limits.allowUnboundedConcurrency = false
  distinct : (ctx.tasks.map (·.id)).Nodup
  plain : ∀ task ∈ ctx.tasks, '+' ∉ task.id.toList

variable {cap : WorkerCap} (pending : List PendingUnit)

inductive LoopMove (cap : WorkerCap) where
  | tick (tick : Tick cap)
  | settle (unitKey : String)
  | drain

def Tick.found (tick : Tick cap) : TickContext := { tick.ctx with pendingUnits := pending }

def Tick.select (tick : Tick cap) : Selection :=
  selectDispatchBatch tick.settings (tick.found pending) (fun disk ctx => (disk, ctx)) tick.now
    tick.disk

/-- **A move of the scheduler loop**, on the pending units. -/
def loopStep : LoopMove cap → List PendingUnit
  | .tick tick =>
    match (tick.select pending).outcome with
    | .ok (.dispatch batch _ _ _ coalesceEnabled) =>
      (dispatchBatch tick.input (tick.found pending) batch coalesceEnabled).pendingUnits
    | _ => pending
  | .settle unitKey => pending.filter (·.unitKey != unitKey)
  | .drain => []

end

/-! ### A batch -/

section

theorem getReadyTasks_nodup {plan : ExecutionPlan} {groups : List (List String)}
    (numbered : plan.waves = numberWaves groups) (distinct : ∀ taskIds ∈ groups, taskIds.Nodup)
    (completed : List String) : (getReadyTasks plan completed).Nodup := by
  unfold getReadyTasks
  split
  · exact List.nodup_nil
  · rw [numbered]
    cases found : (numberWaves groups).findSome? _ with
    | none => exact List.nodup_nil
    | some ready =>
      obtain ⟨wave, member, taken⟩ := List.exists_of_findSome?_eq_some found
      obtain ⟨index, inside, rfl⟩ := List.mem_mapIdx.mp member
      dsimp only at taken
      split at taken
      · cases taken
      · cases taken
        exact (distinct _ (List.getElem_mem inside)).filter _

variable {ctx : TickContext} {settings : BatchSettings} {ready : List String}

theorem plannedReady_nodup (distinct : (ctx.tasks.map (·.id)).Nodup)
    {dagReady : Option (List String)} {completed : List String}
    (planned : dagReadyTaskIds ctx.tasks completed = .ok dagReady) :
    (plannedReady ctx dagReady).Nodup := by
  cases dagReady with
  | none =>
    refine (List.filter_sublist.map _).nodup ?_
    rw [Scheduling.refreshTaskGraphQueues, List.map_map]
    simpa [Function.comp_def] using distinct
  | some ready =>
    unfold dagReadyTaskIds at planned
    split at planned
    · cases planned
    · rcases buildExecutionPlan_spec (dagNodes ctx.tasks) with
        ⟨message, threw, -⟩ | ⟨plan, built, -, numbered, -⟩
      · rw [threw] at planned
        cases planned
      · rw [built, Except.map] at planned
        split at planned
        · cases planned
        · cases planned
          have nodes : (ids (dagNodes ctx.tasks)).Nodup := by
            rw [ids_dagNodes]
            exact (List.filter_sublist.map _).nodup distinct
          obtain ⟨counts, waves⟩ := waves_planned nodes
          have apart := List.nodup_flatten.mp (List.nodup_append.mp waves.apart).1
          exact getReadyTasks_nodup numbered apart.1 completed

theorem filterMap_ids (tasks : List TeamTaskState) (ids : List String) :
    ((ids.filterMap (taskById tasks).get).map (·.id)).Sublist ids := by
  have same : ∀ id, ((taskById tasks).get id).map (·.id)
      = Option.guard (fun id => ((taskById tasks).get id).isSome) id := by
    intro id
    cases found : (taskById tasks).get id with
    | none => simp [Option.guard, found]
    | some task => simp [Option.guard, found, (Bindings.get_ofKeyed_mem found).2]
  rw [List.map_filterMap, funext same, List.filterMap_eq_filter]
  exact List.filter_sublist

/-- **What a batch is made of**: ready ids, each once where the list has each once, and no more than
there is room for. -/
theorem readyBatch_spec : ((readyBatch settings ctx ready).map (·.id)).Sublist ready ∧
    (readyBatch settings ctx ready).length ≤ slotsAvailable settings ctx ready := by
  have dispatchable : (dispatchableReady settings ctx ready).Sublist ready :=
    List.filter_sublist.trans (filterReadyByWriteOverlap_sublist _ _ _ _ _)
  unfold readyBatch candidateBatch
  split
  · refine ⟨?_, List.length_take_le _ _⟩
    exact (((List.take_sublist _ _).trans List.filter_sublist).map _).trans
      ((filterMap_ids _ _).trans dispatchable)
  · exact ⟨(filterMap_ids _ _).trans ((List.take_sublist _ _).trans dispatchable),
      (List.length_filterMap_le _ _).trans (List.length_take_le _ _)⟩

theorem batchConcurrency_le (bounded : settings.limits.allowUnboundedConcurrency = false)
    (ready : List String) :
    (batchConcurrency settings ready).maxConcurrent ≤ min 8 settings.workerCap.capacity := by
  show ite _ _ _ ≤ _
  rw [bounded, if_neg Bool.false_ne_true]
  exact le_min ((min_le_left _ _).trans (min_le_right _ _)) (min_le_right _ _)

end

/-! ### The units of a batch -/

section

/-- **A unit of ids without a `+`**: its key is made of them. -/
structure Keyed (unit : PendingUnit) : Prop where
  some_task : unit.taskIds ≠ []
  key : unit.unitKey = "+".intercalate unit.taskIds
  plain : ∀ id ∈ unit.taskIds, '+' ∉ id.toList

theorem Keyed.taskIds_eq {unit other : PendingUnit} (first : Keyed unit) (second : Keyed other)
    (same : unit.unitKey = other.unitKey) : unit.taskIds = other.taskIds := by
  have cut := congrArg (fun key : String => (key.split '+').toList.map (·.copy)) same
  rw [first.key, second.key] at cut
  have both := (String.toList_split_intercalate first.plain).symm.trans
    (cut.trans (String.toList_split_intercalate second.plain))
  rwa [if_neg first.some_task, if_neg second.some_task] at both

theorem foldl_fileUnit {units : List DispatchUnit} {pending : List PendingUnit}
    (apart : (pending.map (·.unitKey) ++ units.map (·.key)).Nodup) :
    units.foldl fileUnit pending = pending ++ units.map filed := by
  induction units generalizing pending with
  | nil => exact (List.append_nil pending).symm
  | cons unit rest ih =>
    have fresh : ¬ pending.any (·.unitKey == unit.key) = true := by
      intro taken
      obtain ⟨old, member, same⟩ := List.any_eq_true.mp taken
      exact (List.nodup_append.mp apart).2.2 _ (List.mem_map_of_mem member) _ List.mem_cons_self
        (beq_iff_eq.mp same)
    rw [List.foldl_cons, fileUnit, if_neg fresh, ih (by simpa [filed] using apart), List.map_cons,
      List.append_assoc, List.singleton_append]

variable (workflow : Coalescing.WorkflowConfig) (tasks : List Coalescing.TeamTaskState)
  {ids : List String}

/-- **The units of distinct ids without a `+`**: each id is in one, and each is filed under its
ids. -/
theorem units_spec (distinct : ids.Nodup) (plain : ∀ id ∈ ids, '+' ∉ id.toList) (enabled : Bool) :
    let added :=
      (buildDispatchUnits ids (planCoalescedGroups workflow 5 100000 ids tasks enabled)).map filed
    (added.flatMap (·.taskIds)).Perm ids ∧ ∀ unit ∈ added, Keyed unit := by
  obtain ⟨ordered, disjoint⟩ :=
    @Coalescing.planCoalescedGroups_ids workflow 5 100000 ids tasks distinct enabled
  have ready : ∀ group ∈ planCoalescedGroups workflow 5 100000 ids tasks enabled,
      ∀ task ∈ group.tasks, task.id ∈ ids := by
    intro group planned task inGroup
    exact (Coalescing.coalescible_sublist workflow ids tasks).subset
      (List.mem_map_of_mem ((ordered group planned).subset inGroup))
  refine ⟨?_, List.forall_mem_map.mpr fun unit member => ?_⟩
  · rw [List.flatMap_map]
    refine Coalescing.units_perm distinct ready disjoint fun group emitted => ?_
    obtain ⟨parts, sublist, several, same⟩ :=
      Coalescing.emitted_id workflow 5 100000 distinct emitted
    rw [same]
    exact Coalescing.noJoinedIds_of_no_plus plain parts sublist several
  · rcases List.mem_append.mp member with isGroup | alone
    · obtain ⟨group, emitted, rfl⟩ := List.mem_map.mp isGroup
      obtain ⟨⟨taskId, -, found⟩, -⟩ := Coalescing.groupPass_mem _ emitted
      obtain ⟨planned, large, -⟩ := Coalescing.groupByTaskId_mem found
      obtain ⟨bucket, -, -, built⟩ :=
        Coalescing.mem_planCoalescedGroups workflow 5 100000 planned
      have key : group.id = "+".intercalate (group.tasks.map (·.id)) := by
        rw [built]
        match members : group.tasks with
        | [] | [only] => rw [members] at large; simp at large
        | _ :: _ :: _ => rfl
      refine ⟨fun none => ?_, key, List.forall_mem_map.mpr fun task inGroup => ?_⟩
      · rw [List.map_eq_nil_iff.mp none] at large
        simp at large
      · exact plain _ (ready group planned task inGroup)
    · obtain ⟨taskId, left, rfl⟩ := List.mem_map.mp alone
      exact ⟨List.cons_ne_nil _ _, rfl, List.forall_mem_singleton.mpr
        (plain taskId (List.mem_filter.mp left).1)⟩

end

/-! ### A run of the loop -/

section

variable {cap : WorkerCap} {pending : List PendingUnit}

/-- **Units in flight that are in order.** -/
structure InFlight (cap : WorkerCap) (pending : List PendingUnit) : Prop where
  keyed : ∀ unit ∈ pending, Keyed unit
  apart : (pending.flatMap (·.taskIds)).Nodup
  few : (pending.length : Int) ≤ min 8 cap.capacity

theorem InFlight.keys (inFlight : InFlight cap pending) : (pending.map (·.unitKey)).Nodup := by
  refine List.pairwise_map.mpr ((List.nodup_flatMap.mp inFlight.apart).2.imp_of_mem
    fun {unit other} member there disjoint same => ?_)
  have keyed := inFlight.keyed unit member
  obtain ⟨id, held⟩ := List.exists_mem_of_ne_nil _ keyed.some_task
  exact disjoint held (by rwa [keyed.taskIds_eq (inFlight.keyed other there) same] at held)

theorem InFlight.sublist {fewer : List PendingUnit} (inFlight : InFlight cap pending)
    (sub : fewer.Sublist pending) : InFlight cap fewer where
  keyed := fun unit member => inFlight.keyed unit (sub.subset member)
  apart := (sub.flatMap _).nodup inFlight.apart
  few := le_trans (Int.ofNat_le.mpr sub.length_le) inFlight.few

/-- **A batch that may join the units in flight.** -/
structure Joins (cap : WorkerCap) (pending : List PendingUnit) (batch : List TeamTaskState) :
    Prop where
  distinct : (batch.map (·.id)).Nodup
  free : ∀ task ∈ batch, '+' ∉ task.id.toList ∧ task.id ∉ pending.flatMap (·.taskIds)
  room : (pending.length : Int) + batch.length ≤ min 8 cap.capacity

theorem InFlight.append (inFlight : InFlight cap pending) {added : List PendingUnit}
    {ids : List String} (keyed : ∀ unit ∈ added, Keyed unit)
    (once : (added.flatMap (·.taskIds)).Perm ids) (distinct : ids.Nodup)
    (free : ∀ id ∈ ids, id ∉ pending.flatMap (·.taskIds))
    (room : (pending.length : Int) + ids.length ≤ min 8 cap.capacity) :
    InFlight cap (pending ++ added) where
  keyed := fun unit member => (List.mem_append.mp member).elim (inFlight.keyed unit) (keyed unit)
  apart := by
    rw [List.flatMap_append]
    refine List.nodup_append.mpr ⟨inFlight.apart, once.nodup_iff.mpr distinct, ?_⟩
    rintro id old other new rfl
    exact free id (once.subset new) old
  few := by
    have each : ∀ size ∈ added.map (·.taskIds.length), 1 ≤ size :=
      List.forall_mem_map.mpr fun unit member => List.length_pos_iff.mpr (keyed unit member).some_task
    have fewer := List.length_le_sum_of_one_le _ each
    rw [List.length_map, ← List.length_flatMap, once.length_eq] at fewer
    rw [List.length_append]
    omega

theorem dispatchBatch_inFlight (input : DispatchInput) {ctx : TickContext}
    {batch : List TeamTaskState} (inFlight : InFlight cap ctx.pendingUnits)
    (joins : Joins cap ctx.pendingUnits batch) (enabled : Bool) :
    ∃ added, (dispatchBatch input ctx batch enabled).pendingUnits = ctx.pendingUnits ++ added ∧
      InFlight cap (ctx.pendingUnits ++ added) := by
  have chosen : (batchTaskIds batch (skipBlocked input batch ctx.tasks)).Sublist
      (batch.map (·.id)) := List.filter_sublist.map _
  have distinct := chosen.nodup joins.distinct
  have free : ∀ id ∈ batch.map (·.id), '+' ∉ id.toList ∧ id ∉ ctx.pendingUnits.flatMap (·.taskIds) :=
    List.forall_mem_map.mpr joins.free
  obtain ⟨once, keyed⟩ := units_spec input.workflow
    ((skipBlocked input batch ctx.tasks).map (withCwd input)) distinct
    (fun id member => (free id (chosen.subset member)).1) enabled
  have fewer := chosen.length_le
  have room := joins.room
  rw [List.length_map] at fewer
  have joined := inFlight.append keyed once distinct
    (fun id member => (free id (chosen.subset member)).2) (by omega)
  refine ⟨_, foldl_fileUnit ?_, joined⟩
  have keys := joined.keys
  rwa [List.map_append, List.map_map] at keys

/-- A batch that a tick dispatches may join what is in flight. -/
theorem select_joins (tick : Tick cap) (inFlight : InFlight cap pending)
    {batch : List TeamTaskState} (decided : (tick.select pending).batch = some batch) :
    Joins cap pending batch := by
  unfold Tick.select selectDispatchBatch at decided
  dsimp only at decided
  split at decided
  · cases decided
  · rename_i dagReady planned
    obtain ⟨rfl, -⟩ := selectReady_dispatch decided
    obtain ⟨listed, room⟩ := @readyBatch_spec (tick.found pending) tick.settings
      (readyBeforeFilter (tick.found pending) dagReady)
    refine ⟨listed.nodup ((plannedReady_nodup tick.distinct planned).filter _),
      fun task member => ?_, ?_⟩
    · obtain ⟨⟨id, -, free, held⟩, -⟩ := mayGo_of_mem_readyBatch member
      obtain ⟨known, rfl⟩ := Bindings.get_ofKeyed_mem held
      exact ⟨tick.plain task known, free⟩
    · have few := inFlight.few
      have limit := batchConcurrency_le tick.bounded (readyBeforeFilter (tick.found pending) dagReady)
      have size : (tick.found pending).pendingUnits.length = pending.length := rfl
      rw [tick.capped] at limit
      rw [slotsAvailable, size] at room
      omega

/-- **A move of the loop** keeps the units in flight in order, and no unit is displaced. -/
theorem loopStep_inFlight (inFlight : InFlight cap pending) (move : LoopMove cap) :
    InFlight cap (loopStep pending move) ∧ ∀ unit ∈ pending, unit ∈ loopStep pending move ∨
      move = .settle unit.unitKey ∨ move = .drain := by
  cases move with
  | tick tick =>
    rw [loopStep]
    split
    · rename_i batch _ _ _ enabled decided
      have joins : Joins cap pending batch :=
        select_joins tick inFlight (by rw [Selection.batch, decided])
      obtain ⟨added, after, joined⟩ := @dispatchBatch_inFlight cap tick.input (tick.found pending)
        batch inFlight joins enabled
      rw [after]
      exact ⟨joined, fun unit member => Or.inl (List.mem_append_left _ member)⟩
    · exact ⟨inFlight, fun unit member => Or.inl member⟩
  | settle unitKey =>
    refine ⟨inFlight.sublist List.filter_sublist, fun unit member => ?_⟩
    by_cases same : unit.unitKey = unitKey
    · exact Or.inr (Or.inl (by rw [same]))
    · exact Or.inl (List.mem_filter.mpr ⟨member, by simpa using same⟩)
  | drain => exact ⟨inFlight.sublist (List.nil_sublist _), fun _ _ => Or.inr (Or.inr rfl)⟩

end

end PiCrew.Dispatch
