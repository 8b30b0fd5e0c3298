/-
**From groups to the units of a dispatch.**

`buildDispatchUnits` makes one unit of each group of two tasks at least, and one of each ready task that is left.
In what it has visited the ids of groups and of tasks stand side by side, and `dispatchBatch` files the units
under these ids. The id of a group is made of the ids of its tasks, joined by `+`.

* `units_perm` — every ready id is in one unit, where no ready id is the id of an emitted group;
* `dispatchUnits_eachReadyOnce` — the whole statement, for ids of which none is made of others by
  joining, and directories that can be told from the text of their bucket;
* `joined_id_lost` — a task named as the group of two others is not dispatched at all.
-/

import PiCrew.Coalescing.Groups

namespace PiCrew.Coalescing

open Partitions

/-! ### Units -/

inductive DispatchUnit where
  | singleton (taskId : String)
  | group (whole : CoalescedGroup)
  deriving DecidableEq, Repr

def DispatchUnit.taskIds : DispatchUnit → List String
  | .singleton taskId => [taskId]
  | .group whole => whole.tasks.map (·.id)

def DispatchUnit.key : DispatchUnit → String
  | .singleton taskId => taskId
  | .group whole => whole.id

def groupByTaskId (groups : List CoalescedGroup) : Bindings String CoalescedGroup :=
  Bindings.ofEntries ((groups.filter fun group => 2 ≤ group.tasks.length).flatMap fun group =>
    group.tasks.map fun task => (task.id, group))

/-- **The first pass**, with what is visited: the groups, in the order of the ready ids. -/
def groupPass (groupOf : Bindings String CoalescedGroup) : List String → List String → List CoalescedGroup
  | [], _ => []
  | taskId :: rest, visited =>
    match groupOf.get taskId with
    | none => groupPass groupOf rest visited
    | some group =>
      if visited.contains group.id then groupPass groupOf rest visited
      else group :: groupPass groupOf rest (visited ++ group.id :: group.tasks.map (·.id))

def visitedBy (emitted : List CoalescedGroup) : List String :=
  emitted.flatMap fun group => group.id :: group.tasks.map (·.id)

/-- **`buildDispatchUnits`**: the groups, and then the ready tasks that are not visited. -/
def buildDispatchUnits (readyTaskIds : List String) (groups : List CoalescedGroup) :
    List DispatchUnit :=
  let emitted := groupPass (groupByTaskId groups) readyTaskIds []
  emitted.map .group
    ++ (readyTaskIds.filter fun taskId => !(visitedBy emitted).contains taskId).map .singleton

/-- **The pending units** after a dispatch: each unit is filed under its key. -/
def registerUnits (pending : Bindings String (List String)) (units : List DispatchUnit) :
    Bindings String (List String) :=
  units.foldl (fun pending unit => pending.set unit.key unit.taskIds) pending

/-! ### The first pass -/

section

variable {groups : List CoalescedGroup} {readyTaskIds : List String} {group : CoalescedGroup}

theorem groupByTaskId_mem {taskId : String} (found : (groupByTaskId groups).get taskId = some group) :
    group ∈ groups ∧ 2 ≤ group.tasks.length ∧ taskId ∈ group.tasks.map (·.id) := by
  obtain ⟨owner, large, entry⟩ := List.mem_flatMap.mp (Bindings.get_ofEntries_mem found)
  obtain ⟨task, inGroup, same⟩ := List.mem_map.mp entry
  cases same
  rw [List.mem_filter] at large
  exact ⟨large.1, by simpa using large.2, List.mem_map_of_mem inGroup⟩

theorem groupPass_mem (groupOf : Bindings String CoalescedGroup) {visited : List String}
    (member : group ∈ groupPass groupOf readyTaskIds visited) :
    (∃ taskId ∈ readyTaskIds, groupOf.get taskId = some group) ∧ group.id ∉ visited := by
  induction readyTaskIds generalizing visited with
  | nil => cases member
  | cons taskId rest ih =>
    have later {seen : List String} (there : group ∈ groupPass groupOf rest seen)
        (more : visited ⊆ seen) :
        (∃ other ∈ taskId :: rest, groupOf.get other = some group) ∧ group.id ∉ visited := by
      obtain ⟨⟨other, inRest, found⟩, fresh⟩ := ih there
      exact ⟨⟨other, List.mem_cons_of_mem _ inRest, found⟩, fun inside => fresh (more inside)⟩
    rw [groupPass] at member
    split at member
    · exact later member (List.Subset.refl _)
    · rename_i own found
      split at member
      · exact later member (List.Subset.refl _)
      · rename_i fresh
        rcases List.mem_cons.mp member with rfl | there
        · exact ⟨⟨taskId, List.mem_cons_self, found⟩, by simpa using fresh⟩
        · exact later there (List.subset_append_left _ _)

theorem groupPass_ids_nodup (groupOf : Bindings String CoalescedGroup) (readyTaskIds visited : List String) :
    ((groupPass groupOf readyTaskIds visited).map (·.id)).Nodup := by
  induction readyTaskIds generalizing visited with
  | nil => exact List.nodup_nil
  | cons taskId rest ih =>
    rw [groupPass]
    split
    · exact ih visited
    · rename_i own found
      split
      · exact ih visited
      · rw [List.map_cons, List.nodup_cons]
        refine ⟨fun again => ?_, ih _⟩
        obtain ⟨other, emitted, same⟩ := List.mem_map.mp again
        have fresh := (groupPass_mem groupOf emitted).2
        rw [same] at fresh
        exact fresh (by simp)

end

/-! ### Every ready id in one unit -/

section

variable {groups : List CoalescedGroup} {readyTaskIds : List String}

theorem units_keys_nodup (groups : List CoalescedGroup) (distinct : readyTaskIds.Nodup) :
    ((buildDispatchUnits readyTaskIds groups).map (·.key)).Nodup := by
  unfold buildDispatchUnits
  simp only [List.map_append, List.map_map, Function.comp_def, DispatchUnit.key, List.map_id']
  refine List.nodup_append.mpr
    ⟨groupPass_ids_nodup _ readyTaskIds [], distinct.filter _, fun key inGroups other alone => ?_⟩
  rintro rfl
  obtain ⟨group, emitted, rfl⟩ := List.mem_map.mp inGroups
  have unseen := (List.mem_filter.mp alone).2
  simp only [Bool.not_eq_true', List.contains_eq_mem, decide_eq_false_iff_not] at unseen
  exact unseen (List.mem_flatMap.mpr ⟨group, emitted, List.mem_cons_self⟩)

/-- **Every ready id is in one unit**, where the groups share no task and no ready id is the id of
an emitted group. -/
theorem units_perm (distinct : readyTaskIds.Nodup)
    (ready : ∀ group ∈ groups, ∀ task ∈ group.tasks, task.id ∈ readyTaskIds)
    (apart : (groups.flatMap fun group => group.tasks.map (·.id)).Nodup)
    (unlike : ∀ group ∈ groupPass (groupByTaskId groups) readyTaskIds [], group.id ∉ readyTaskIds) :
    ((buildDispatchUnits readyTaskIds groups).flatMap (·.taskIds)).Perm readyTaskIds := by
  have planned : ∀ group ∈ groupPass (groupByTaskId groups) readyTaskIds [], group ∈ groups := by
    intro group emitted
    obtain ⟨⟨taskId, _, found⟩, _⟩ := groupPass_mem _ emitted
    exact (groupByTaskId_mem found).1
  have inUnit : ∀ taskId, taskId ∈ (buildDispatchUnits readyTaskIds groups).flatMap (·.taskIds) ↔
      taskId ∈ readyTaskIds := by
    intro taskId
    simp only [buildDispatchUnits, List.flatMap_append, List.mem_append, List.flatMap_map,
      DispatchUnit.taskIds, List.mem_flatMap, List.mem_singleton, List.mem_filter,
      Bool.not_eq_true', List.contains_eq_mem, decide_eq_false_iff_not]
    constructor
    · rintro (⟨group, emitted, inGroup⟩ | ⟨_, ⟨here, _⟩, rfl⟩)
      · obtain ⟨task, isTask, rfl⟩ := List.mem_map.mp inGroup
        exact ready group (planned group emitted) task isTask
      · exact here
    · intro here
      by_cases seen : taskId ∈ visitedBy (groupPass (groupByTaskId groups) readyTaskIds [])
      · obtain ⟨group, emitted, inside⟩ := List.mem_flatMap.mp seen
        rcases List.mem_cons.mp inside with rfl | inGroup
        · exact absurd here (unlike group emitted)
        · exact .inl ⟨group, emitted, inGroup⟩
      · exact .inr ⟨taskId, ⟨here, seen⟩, rfl⟩
  refine (List.perm_ext_iff_of_nodup ?_ distinct).mpr inUnit
  unfold buildDispatchUnits
  simp only [List.flatMap_append, List.flatMap_map, DispatchUnit.taskIds]
  refine List.nodup_append.mpr ⟨?_, ?_, ?_⟩
  · obtain ⟨each, pairs⟩ := List.nodup_flatMap.mp apart
    have symmetric : Std.Symm fun first second : CoalescedGroup =>
        (first.tasks.map (·.id)).Disjoint (second.tasks.map (·.id)) :=
      ⟨fun _ _ disjoint _ late early => disjoint early late⟩
    refine List.nodup_flatMap.mpr ⟨fun group emitted => each group (planned group emitted), ?_⟩
    refine (List.pairwise_map.mp (groupPass_ids_nodup (groupByTaskId groups) readyTaskIds [])).imp_of_mem
      fun first second different => ?_
    exact pairs.forall (planned _ first) (planned _ second) fun same => different (by rw [same])
  · rw [List.flatMap_singleton']
    exact distinct.filter _
  · intro taskId inGroups other alone
    rintro rfl
    rw [List.flatMap_singleton'] at alone
    obtain ⟨group, emitted, inGroup⟩ := List.mem_flatMap.mp inGroups
    have unseen := (List.mem_filter.mp alone).2
    simp only [Bool.not_eq_true', List.contains_eq_mem, decide_eq_false_iff_not] at unseen
    exact unseen (List.mem_flatMap.mpr ⟨group, emitted, List.mem_cons_of_mem _ inGroup⟩)

theorem get_registerUnits {units : List DispatchUnit} (distinct : (units.map (·.key)).Nodup)
    (pending : Bindings String (List String)) :
    ∀ unit ∈ units, (registerUnits pending units).get unit.key = some unit.taskIds := by
  induction units using List.reverseRec with
  | nil => exact fun unit member => absurd member List.not_mem_nil
  | append_singleton before last ih =>
    rw [List.map_append, List.nodup_append] at distinct
    obtain ⟨earlier, _, apart⟩ := distinct
    intro unit member
    simp only [registerUnits, List.foldl_append, List.foldl_cons, List.foldl_nil, Bindings.get_set]
    split
    · rename_i same
      rcases List.mem_append.mp member with inBefore | isLast
      · exact absurd same (apart _ (List.mem_map_of_mem inBefore) _ (by simp))
      · rw [List.mem_singleton.mp isLast]
    · rename_i other
      rcases List.mem_append.mp member with inBefore | isLast
      · exact ih earlier unit inBefore
      · exact absurd (by rw [List.mem_singleton.mp isLast]) other

end

/-! ### The composition -/

/-- No id of a list is made of two or more others, in their order, joined by `+`. -/
def NoJoinedIds (ids : List String) : Prop :=
  ∀ parts : List String, parts.Sublist ids → 2 ≤ parts.length → "+".intercalate parts ∉ ids

def readyTasks (readyTaskIds : List String) (tasks : List TeamTaskState) : List TeamTaskState :=
  readyTaskIds.filterMap (taskById tasks).get

def KeysTellApart (readyTaskIds : List String) (tasks : List TeamTaskState) : Prop :=
  ∀ task ∈ readyTasks readyTaskIds tasks, ∀ other ∈ readyTasks readyTaskIds tasks,
    bucketKey task = bucketKey other → task.role = other.role ∧ task.cwd = other.cwd

/-- **Every ready task is dispatched once**, in a group of tasks of one kind that is not too large, and
no unit takes the place of another one among the pending units. -/
structure EachReadyOnce (maxGroupSize : Int) (readyTaskIds : List String) (groups : List CoalescedGroup)
    (units : List DispatchUnit) : Prop where
  once : (units.flatMap (·.taskIds)).Perm readyTaskIds
  short : ∀ group ∈ groups, (group.tasks.length : Int) ≤ maxGroupSize
  alike : ∀ group ∈ groups, ∀ task ∈ group.tasks, ∀ other ∈ group.tasks,
    task.role = other.role ∧ task.cwd = other.cwd
  keys : (units.map (·.key)).Nodup
  pending : ∀ before, ∀ unit ∈ units, (registerUnits before units).get unit.key = some unit.taskIds

section

variable (workflow : WorkflowConfig) (maxGroupSize maxGroupBytes : Int) {readyTaskIds : List String}
  {tasks : List TeamTaskState}

theorem coalescible_subset_readyTasks :
    coalescible readyTaskIds tasks workflow ⊆ readyTasks readyTaskIds tasks := by
  intro task member
  obtain ⟨taskId, ready, found⟩ := List.mem_filterMap.mp member
  simp only [coalescibleTask, Option.bind_eq_bind, Option.bind_eq_some_iff] at found
  obtain ⟨held, inMap, _, _, _, _, picked⟩ := found
  split at picked
  · cases picked
    exact List.mem_filterMap.mpr ⟨taskId, ready, inMap⟩
  · cases picked

theorem planCoalescedGroups_ids (distinct : readyTaskIds.Nodup) (enabled : Bool) :
    let groups := planCoalescedGroups workflow maxGroupSize maxGroupBytes readyTaskIds tasks enabled
    (∀ group ∈ groups, group.tasks.Sublist (coalescible readyTaskIds tasks workflow))
      ∧ (groups.flatMap fun group => group.tasks.map (·.id)).Nodup := by
  intro groups
  cases enabled with
  | false => exact ⟨fun group member => absurd member List.not_mem_nil, List.nodup_nil⟩
  | true =>
    have partition :=
      @planCoalescedGroups_partition workflow maxGroupSize maxGroupBytes readyTaskIds tasks
    refine ⟨fun group member => partition.ordered _ (List.mem_map_of_mem member), ?_⟩
    have ids := partition.whole.map (·.id)
    rw [List.map_flatten, List.map_map, ← List.flatMap_def] at ids
    exact ids.nodup_iff.mpr ((coalescible_sublist workflow readyTaskIds tasks).nodup distinct)

theorem emitted_id {enabled : Bool} {group : CoalescedGroup} (distinct : readyTaskIds.Nodup)
    (emitted : group ∈ groupPass (groupByTaskId
      (planCoalescedGroups workflow maxGroupSize maxGroupBytes readyTaskIds tasks enabled)) readyTaskIds []) :
    ∃ parts : List String, parts.Sublist readyTaskIds ∧ 2 ≤ parts.length
      ∧ group.id = "+".intercalate parts := by
  obtain ⟨⟨taskId, _, found⟩, _⟩ := groupPass_mem _ emitted
  obtain ⟨planned, large, _⟩ := groupByTaskId_mem found
  obtain ⟨bucket, _, _, built⟩ :=
    mem_planCoalescedGroups workflow maxGroupSize maxGroupBytes planned
  have ordered := (planCoalescedGroups_ids workflow maxGroupSize maxGroupBytes distinct enabled).1
    group planned
  refine ⟨group.tasks.map (·.id),
    (ordered.map _).trans (coalescible_sublist workflow readyTaskIds tasks), by simpa using large, ?_⟩
  rw [built]
  match members : group.tasks with
  | [] | [only] => rw [members] at large; simp at large
  | _ :: _ :: _ => rfl

/-- **Grouping and dispatching**: where no ready id is made of others, and keys tell roles and
directories apart, every ready task is dispatched once. -/
theorem dispatchUnits_eachReadyOnce (enabled : Bool) (distinct : readyTaskIds.Nodup)
    (unjoined : NoJoinedIds readyTaskIds) (apart : KeysTellApart readyTaskIds tasks)
    (admitted : 1 ≤ maxGroupSize) :
    EachReadyOnce maxGroupSize readyTaskIds
      (planCoalescedGroups workflow maxGroupSize maxGroupBytes readyTaskIds tasks enabled)
      (buildDispatchUnits readyTaskIds
        (planCoalescedGroups workflow maxGroupSize maxGroupBytes readyTaskIds tasks enabled)) := by
  obtain ⟨ordered, disjoint⟩ :=
    @planCoalescedGroups_ids workflow maxGroupSize maxGroupBytes readyTaskIds tasks distinct enabled
  have keys := units_keys_nodup
    (planCoalescedGroups workflow maxGroupSize maxGroupBytes readyTaskIds tasks enabled) distinct
  refine ⟨units_perm distinct (fun group planned task inGroup => ?_) disjoint (fun group emitted => ?_),
    fun group planned => ?_, fun group planned task inGroup other otherIn => ?_, keys,
    fun before => get_registerUnits keys before⟩
  · exact (coalescible_sublist workflow readyTaskIds tasks).subset
      (List.mem_map_of_mem ((ordered group planned).subset inGroup))
  · obtain ⟨parts, sublist, several, same⟩ :=
      emitted_id workflow maxGroupSize maxGroupBytes distinct emitted
    rw [same]
    exact unjoined parts sublist several
  · exact planCoalescedGroups_length_le workflow maxGroupSize maxGroupBytes admitted planned
  · have inReady {member : TeamTaskState} (inside : member ∈ group.tasks) :
        member ∈ readyTasks readyTaskIds tasks :=
      coalescible_subset_readyTasks workflow ((ordered group planned).subset inside)
    exact apart task (inReady inGroup) other (inReady otherIn)
      (planCoalescedGroups_shared workflow maxGroupSize maxGroupBytes planned inGroup otherIn)

end

/-! ### The ids and directories of the program -/

/-- **Ids without a `+` are not made of one another.** -/
theorem noJoinedIds_of_no_plus {ids : List String} (plain : ∀ id ∈ ids, '+' ∉ id.toList) :
    NoJoinedIds ids := by
  intro parts _ several joined
  match parts, several with
  | first :: second :: rest, _ =>
    have inside := plain _ joined
    rw [String.intercalate_cons_cons] at inside
    exact inside (by simp)

theorem cut_at_mark {mark : Char} {first second : List Char} (clean : mark ∉ first)
    (otherClean : mark ∉ second) {rest otherRest : List Char}
    (same : first ++ mark :: rest = second ++ mark :: otherRest) :
    first = second ∧ rest = otherRest := by
  induction first generalizing second with
  | nil =>
    cases second with
    | nil => exact ⟨rfl, (List.cons.inj same).2⟩
    | cons head tail => exact absurd (by rw [← (List.cons.inj same).1]; simp) otherClean
  | cons head tail ih =>
    cases second with
    | nil => exact absurd (by rw [(List.cons.inj same).1]; simp) clean
    | cons other others =>
      obtain ⟨rfl, tails⟩ := List.cons.inj same
      obtain ⟨rfl, rests⟩ := ih (fun inside => clean (List.mem_cons_of_mem _ inside))
        (fun inside => otherClean (List.mem_cons_of_mem _ inside)) tails
      exact ⟨rfl, rests⟩

theorem keysTellApart_of_no_nul {readyTaskIds : List String} {tasks : List TeamTaskState}
    (paths : ∀ task ∈ readyTasks readyTaskIds tasks, '\x00' ∉ task.cwd.toList) :
    KeysTellApart readyTaskIds tasks := by
  intro task member other otherMember same
  -- read from the end, the directory is what comes before the first NUL
  have texts : task.cwd.toList.reverse ++ '\x00' :: task.role.toList.reverse
      = other.cwd.toList.reverse ++ '\x00' :: other.role.toList.reverse := by
    simpa [bucketKey, String.toList_append] using congrArg (fun key => key.toList.reverse) same
  obtain ⟨directories, roles⟩ := cut_at_mark (by simpa using paths task member)
    (by simpa using paths other otherMember) texts
  exact ⟨String.toList_inj.mp (List.reverse_inj.mp roles),
    String.toList_inj.mp (List.reverse_inj.mp directories)⟩

/-! ### A group, and two inputs that are not of the program -/

def explorerTask (id stepId cwd : String) : TeamTaskState where
  id := id
  stepId := some stepId
  role := "explorer"
  status := .queued
  cwd := cwd

def exploringTasks (first second third : String) : List TeamTaskState :=
  [explorerTask first "look" "/repo", explorerTask second "look" "/repo",
    explorerTask third "read" "/repo"]

def exploringWorkflow : WorkflowConfig where
  steps := [{ id := "look", task := "Look around" }, { id := "read", verify := true }]

def exploringGroups (readyTaskIds : List String) (tasks : List TeamTaskState) : List CoalescedGroup :=
  planCoalescedGroups exploringWorkflow 5 100000 readyTaskIds tasks true

theorem exploring_eachReadyOnce :
    let ready := ["01_look", "02_look", "03_read"]
    let groups := exploringGroups ready (exploringTasks "01_look" "02_look" "03_read")
    (buildDispatchUnits ready groups).map (·.key) = ["01_look+02_look", "03_read"]
      ∧ EachReadyOnce 5 ready groups (buildDispatchUnits ready groups) :=
  ⟨by decide +kernel,
    dispatchUnits_eachReadyOnce exploringWorkflow 5 100000 true (by decide)
      (noJoinedIds_of_no_plus (by decide)) (keysTellApart_of_no_nul (by decide)) (by decide)⟩

def mixedTasks : List TeamTaskState := [{ explorerTask "a" "look" "z" with role := "x\x00y" },
    { explorerTask "b" "look" "y\x00z" with role := "x" }]

/-- **A task named as the group of two others** is in no unit; and two tasks of different roles and
directories stand in one group where these hold a NUL. -/
theorem joined_id_lost :
    (let ready := ["a", "b", "a+b"]
     let groups := exploringGroups ready (exploringTasks "a" "b" "a+b")
     ready.Nodup ∧ (buildDispatchUnits ready groups).flatMap (·.taskIds) = ["a", "b"]
      ∧ ¬ EachReadyOnce 5 ready groups (buildDispatchUnits ready groups))
    ∧ (let ready := ["a", "b"]
       let groups := exploringGroups ready mixedTasks
       ready.Nodup ∧ groups.map (fun group => group.tasks.map (·.id)) = [["a", "b"]]
        ∧ ¬ EachReadyOnce 5 ready groups (buildDispatchUnits ready groups)) :=
  ⟨⟨by decide, by decide +kernel, fun each => absurd each.once (by decide +kernel)⟩,
    ⟨by decide, by decide +kernel, fun each => absurd each.alike (by decide +kernel)⟩⟩

end PiCrew.Coalescing
