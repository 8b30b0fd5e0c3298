/-
**The wave planner.**

`runtime/scheduling/task-graph.ts`. `buildExecutionPlan` groups tasks into waves by counting down
in-degrees; what the counting leaves over is reported as a cycle. `getReadyTasks` returns the
unfinished tasks of the earliest wave that has any. It is given the finished ids, and looks at
nothing else of a task.

* `mem_getReadyTasks_iff` — the ready tasks are the unfinished ones with the shortest chains of
  dependencies among all unfinished ones.

With repeated ids a plan is flagged as a cycle whatever its waves are.
-/

import PiCrew.Library.Waves

namespace PiCrew.TaskGraph

open Waves

abbrev TaskNode := Waves.Node String

/-- Tasks that can run in parallel. -/
structure ExecutionWave where
  index : Nat
  taskIds : List String
  deriving DecidableEq, Repr

structure ExecutionPlan where
  waves : List ExecutionWave
  hasCycle : Bool
  cycleNodes : Option (List String) := none
  deriving DecidableEq, Repr

def selfDependencyMessage (taskId : String) : String :=
  "Task \"" ++ taskId ++ "\" has self-dependency (depends on itself)"

def numberWaves (groups : List (List String)) : List ExecutionWave :=
  groups.mapIdx fun index taskIds => { index := index, taskIds := taskIds }

def buildExecutionPlan (tasks : List TaskNode) : Except String ExecutionPlan :=
  if tasks.isEmpty then .ok { waves := [], hasCycle := false }
  else match tasks.find? fun task => task.dependsOn.contains task.id with
    | some task => .error (selfDependencyMessage task.id)
    | none =>
      let groups := Waves.waves tasks
      let assigned := entered groups.flatten
      if assigned.length < tasks.length then
        .ok {
          waves := numberWaves groups
          hasCycle := true
          cycleNodes := some ((tasks.filter fun task => !assigned.contains task.id).map (·.id)) }
      else .ok { waves := numberWaves groups, hasCycle := false }

/-- **The tasks of the earliest wave that is not finished**, less the finished ones. -/
def getReadyTasks (plan : ExecutionPlan) (completedTaskIds : List String) : List String :=
  if plan.hasCycle || plan.waves.isEmpty then []
  else
    (plan.waves.findSome? fun wave =>
      let priorWavesComplete := (plan.waves.take wave.index).all fun prior =>
        prior.taskIds.all fun id => completedTaskIds.contains id
      let ready := wave.taskIds.filter fun id => !completedTaskIds.contains id
      if !priorWavesComplete || ready.isEmpty then none else some ready).getD []

/-- **The tasks that the planner can order**: distinct ids, no known dependency named twice, and
no cycle. -/
structure Plannable (tasks : List TaskNode) : Prop where
  distinct : (ids tasks).Nodup
  once : ∀ task ∈ tasks, (known tasks task).Nodup
  bounded : ∀ id ∈ ids tasks, ∃ n, Within tasks n id

theorem mem_waveLoop {tasks : List TaskNode} {fuel : Nat} {counts : String → Int}
    {wave : List String} (listed : wave ⊆ ids tasks) :
    (waveLoop tasks fuel counts wave).flatten ⊆ ids tasks := by
  induction fuel generalizing counts wave with
  | zero => exact List.nil_subset _
  | succ fuel ih =>
    rw [waveLoop]
    split
    · exact List.nil_subset _
    · rw [List.flatten_cons]
      refine List.append_subset.mpr ⟨listed, ih fun x member => ?_⟩
      have hit := ((nextWave_spec tasks counts wave).2.2 x).mp member
      have some_hit : 0 < wave.countP fun id => DependsOn tasks x id := by omega
      obtain ⟨id, -, names⟩ := List.countP_pos_iff.mp some_hit
      obtain ⟨node, there, rfl, -⟩ := of_decide_eq_true names
      exact List.mem_map_of_mem there

theorem all_assigned_iff (tasks : List TaskNode) :
    tasks.length ≤ (entered (Waves.waves tasks).flatten).length
      ↔ (ids tasks).Nodup ∧ ∀ id ∈ ids tasks, id ∈ (Waves.waves tasks).flatten := by
  have listed : entered (Waves.waves tasks).flatten ⊆ ids tasks := by
    intro id member
    refine mem_waveLoop ?_ (mem_entered.mp member)
    exact (List.filter_sublist.map _).subset
  have fits := List.subperm_of_subset (nodup_entered (Waves.waves tasks).flatten) listed
  have size : tasks.length = (ids tasks).length := (List.length_map _).symm
  rw [size]
  constructor
  · intro all
    have same := fits.perm_of_length_le all
    exact ⟨same.nodup (nodup_entered _), fun id member => mem_entered.mp (same.mem_iff.mpr member)⟩
  · rintro ⟨distinct, all⟩
    exact (List.subperm_of_subset distinct fun id member =>
      mem_entered.mpr (all id member)).length_le

theorem find_self_eq_none_iff (tasks : List TaskNode) :
    (tasks.find? fun task => task.dependsOn.contains task.id) = none
      ↔ ∀ task ∈ tasks, task.id ∉ task.dependsOn := by
  simp

theorem Plannable.not_self {tasks : List TaskNode} (plannable : Plannable tasks) {task : TaskNode}
    (member : task ∈ tasks) : task.id ∉ task.dependsOn := by
  intro names
  have there : task.id ∈ ids tasks := List.mem_map_of_mem member
  obtain ⟨n, within⟩ := plannable.bounded task.id there
  exact within.not_self there ⟨task, member, rfl, names⟩

/-- **When a plan is built, and what it says.** -/
theorem buildExecutionPlan_spec (tasks : List TaskNode) :
    (∃ message, buildExecutionPlan tasks = .error message ∧
        ∃ task ∈ tasks, task.id ∈ task.dependsOn) ∨
      ∃ plan, buildExecutionPlan tasks = .ok plan ∧ (∀ task ∈ tasks, task.id ∉ task.dependsOn) ∧
        plan.waves = numberWaves (Waves.waves tasks) ∧ (plan.hasCycle = false ↔ Plannable tasks) := by
  unfold buildExecutionPlan
  cases tasks with
  | nil =>
    refine Or.inr ⟨_, rfl, fun task member => absurd member List.not_mem_nil, rfl, ?_⟩
    refine iff_of_true rfl ⟨List.nodup_nil, ?_, ?_⟩
    · exact fun task member => absurd member List.not_mem_nil
    · exact fun id member => absurd member List.not_mem_nil
  | cons first rest =>
    have planned := all_assigned_iff (first :: rest)
    rw [if_neg (by simp)]
    cases found : (first :: rest).find? fun task => task.dependsOn.contains task.id with
    | some task =>
      refine Or.inl ⟨_, rfl, task, List.mem_of_find?_eq_some found, ?_⟩
      simpa using List.find?_some found
    | none =>
      have apart := (find_self_eq_none_iff (first :: rest)).mp found
      have plannable_iff : Plannable (first :: rest) ↔ (first :: rest).length
          ≤ (entered (Waves.waves (first :: rest)).flatten).length := by
        rw [planned]
        constructor
        · intro plannable
          exact ⟨plannable.distinct, (waves_complete_iff plannable.distinct).mpr
            ⟨plannable.once, plannable.bounded⟩⟩
        · rintro ⟨distinct, all⟩
          obtain ⟨once, bounded⟩ := (waves_complete_iff distinct).mp all
          exact ⟨distinct, once, bounded⟩
      refine Or.inr ?_
      simp only
      split
      · rename_i short
        refine ⟨_, rfl, apart, rfl, iff_of_false (by simp) fun plannable => ?_⟩
        have long := plannable_iff.mp plannable
        omega
      · rename_i long
        exact ⟨_, rfl, apart, rfl, iff_of_true rfl (plannable_iff.mpr (Nat.le_of_not_lt long))⟩

theorem getElem?_numberWaves (groups : List (List String)) (k : Nat) :
    (numberWaves groups)[k]? = groups[k]?.map fun taskIds => { index := k, taskIds := taskIds } := by
  rw [numberWaves, List.getElem?_mapIdx]

theorem mem_take_numberWaves {groups : List (List String)} {k : Nat} {wave : ExecutionWave} :
    wave ∈ (numberWaves groups).take k
      ↔ ∃ j < k, groups[j]? = some wave.taskIds ∧ wave.index = j := by
  rw [List.mem_iff_getElem?]
  refine exists_congr fun j => ?_
  rw [List.getElem?_take]
  by_cases before : j < k
  · rw [if_pos before, and_iff_right before, getElem?_numberWaves, Option.map_eq_some_iff]
    constructor
    · rintro ⟨taskIds, found, rfl⟩
      exact ⟨found, rfl⟩
    · rintro ⟨found, rfl⟩
      exact ⟨wave.taskIds, found, rfl⟩
  · rw [if_neg before]
    exact iff_of_false (by simp) fun both => before both.1

/-- **The ready ids by position**: the unfinished ones of a wave before which all is finished. -/
theorem mem_getReadyTasks_wave {plan : ExecutionPlan} {groups : List (List String)}
    (numbered : plan.waves = numberWaves groups) (acyclic : plan.hasCycle = false)
    (completed : List String) (id : String) :
    id ∈ getReadyTasks plan completed
      ↔ ∃ (k : Nat) (taskIds : List String), groups[k]? = some taskIds ∧ id ∈ taskIds ∧
          id ∉ completed ∧ ∀ j < k, ∀ earlier, groups[j]? = some earlier →
            ∀ other ∈ earlier, other ∈ completed := by
  unfold getReadyTasks
  rw [acyclic, Bool.false_or, numbered]
  constructor
  · intro member
    split at member
    · cases member
    · cases found : (numberWaves groups).findSome? _ with
      | none =>
        rw [found] at member
        cases member
      | some ready =>
        rw [found, Option.getD_some] at member
        obtain ⟨before, wave, after, split, chosen, -⟩ := List.findSome?_eq_some_iff.mp found
        have position : (numberWaves groups)[before.length]? = some wave := by
          rw [split, List.getElem?_append_right (Nat.le_refl _), Nat.sub_self]
          rfl
        rw [getElem?_numberWaves, Option.map_eq_some_iff] at position
        obtain ⟨taskIds, placed, rfl⟩ := position
        simp only [Bool.or_eq_true, Bool.not_eq_true', List.isEmpty_iff] at chosen
        split at chosen
        · cases chosen
        · rename_i open_
          rw [not_or, Bool.not_eq_false] at open_
          obtain rfl := Option.some_inj.mp chosen
          obtain ⟨inside, unfinished⟩ := List.mem_filter.mp member
          refine ⟨before.length, taskIds, placed, inside, by simpa using unfinished, ?_⟩
          intro j below earlier early other there
          have prior := List.all_eq_true.mp open_.1 { index := j, taskIds := earlier }
            (mem_take_numberWaves.mpr ⟨j, below, early, rfl⟩)
          simpa using List.all_eq_true.mp prior other there
  · rintro ⟨k, taskIds, placed, inside, unfinished, prior⟩
    have position : (numberWaves groups)[k]? = some { index := k, taskIds := taskIds } := by
      rw [getElem?_numberWaves, placed]
      rfl
    obtain ⟨long, here⟩ := List.getElem?_eq_some_iff.mp position
    have member : id ∈ taskIds.filter fun id => !completed.contains id :=
      List.mem_filter.mpr ⟨inside, by simpa using unfinished⟩
    have complete : ∀ wave ∈ (numberWaves groups).take k, ∀ other ∈ wave.taskIds,
        other ∈ completed := by
      intro wave early other there
      obtain ⟨j, below, found, -⟩ := mem_take_numberWaves.mp early
      exact prior j below _ found other there
    rw [if_neg (by
      rw [List.isEmpty_iff]
      exact List.ne_nil_of_length_pos (Nat.lt_of_le_of_lt (Nat.zero_le k) long))]
    have first : (numberWaves groups).findSome? (fun wave =>
        let priorWavesComplete := ((numberWaves groups).take wave.index).all fun prior =>
          prior.taskIds.all fun id => completed.contains id
        let ready := wave.taskIds.filter fun id => !completed.contains id
        if !priorWavesComplete || ready.isEmpty then none else some ready)
        = some (taskIds.filter fun id => !completed.contains id) := by
      rw [List.findSome?_eq_some_iff]
      refine ⟨(numberWaves groups).take k, { index := k, taskIds := taskIds },
        (numberWaves groups).drop (k + 1), ?_, ?_, ?_⟩
      · rw [← here, ← List.drop_eq_getElem_cons long, List.take_append_drop]
      · have all : ((numberWaves groups).take k).all (fun prior =>
            prior.taskIds.all fun id => completed.contains id) = true := by
          refine List.all_eq_true.mpr fun wave early => List.all_eq_true.mpr fun other there => ?_
          simpa using complete wave early other there
        have some_left : (taskIds.filter fun id => !completed.contains id).isEmpty = false := by
          rw [List.isEmpty_eq_false_iff_exists_mem]
          exact ⟨id, member⟩
        simp only [all, some_left, Bool.not_true, Bool.or_false, Bool.false_eq_true, if_false]
      · intro wave early
        have none_left : wave.taskIds.filter (fun id => !completed.contains id) = [] := by
          rw [List.filter_eq_nil_iff]
          intro other there
          simpa using complete wave early other there
        simp only [none_left, List.isEmpty_nil, Bool.or_true, if_true]
    rw [first, Option.getD_some]
    exact member

/-- **The ready tasks**: the unfinished ones with the shortest chains of dependencies. -/
theorem mem_getReadyTasks_iff {tasks : List TaskNode} {plan : ExecutionPlan}
    (numbered : plan.waves = numberWaves (Waves.waves tasks)) (acyclic : plan.hasCycle = false)
    (plannable : Plannable tasks) (completed : List String) (id : String) :
    id ∈ getReadyTasks plan completed ↔ id ∈ ids tasks ∧ id ∉ completed ∧ ∃ n, Within tasks n id ∧
          ∀ other ∈ ids tasks, other ∉ completed → ∀ m < n, ¬ Within tasks m other := by
  have placed_all := (waves_complete_iff plannable.distinct).mpr ⟨plannable.once, plannable.bounded⟩
  have placed_at : ∀ other ∈ ids tasks, ∃ (k : Nat) (members : List String),
      (Waves.waves tasks)[k]? = some members ∧ other ∈ members := by
    intro other member
    obtain ⟨members, there, inside⟩ := List.mem_flatten.mp (placed_all other member)
    obtain ⟨k, found⟩ := List.mem_iff_getElem?.mp there
    exact ⟨k, members, found, inside⟩
  have listed : ∀ {k : Nat} {members : List String} {other : String},
      (Waves.waves tasks)[k]? = some members → other ∈ members → other ∈ ids tasks := by
    intro k members other found inside
    obtain ⟨counts, planned⟩ := waves_planned plannable.distinct
    apply planned.listed
    rw [List.append_nil]
    exact List.mem_flatten.mpr ⟨members, List.mem_iff_getElem?.mpr ⟨k, found⟩, inside⟩
  rw [mem_getReadyTasks_wave numbered acyclic]
  constructor
  · rintro ⟨k, members, found, inside, unfinished, prior⟩
    have level := waves_level plannable.distinct found inside
    refine ⟨listed found inside, unfinished, k, level.1, fun other member left m below within => ?_⟩
    -- a shorter chain means an earlier wave, and those are finished
    obtain ⟨j, wave, early, there⟩ := placed_at other member
    have lower := waves_level plannable.distinct early there
    have order : j ≤ m := Nat.le_of_not_lt fun above => lower.2 m above within
    exact left (prior j (Nat.lt_of_le_of_lt order below) wave early other there)
  · rintro ⟨member, unfinished, n, within, shortest⟩
    obtain ⟨k, members, found, inside⟩ := placed_at id member
    have level := waves_level plannable.distinct found inside
    have order : k ≤ n := Nat.le_of_not_lt fun above => level.2 n above within
    refine ⟨k, members, found, inside, unfinished, fun j below earlier early other there => ?_⟩
    by_contra left
    have lower := waves_level plannable.distinct early there
    exact shortest other (listed early there) left j (Nat.lt_of_lt_of_le below order) lower.1

end PiCrew.TaskGraph
