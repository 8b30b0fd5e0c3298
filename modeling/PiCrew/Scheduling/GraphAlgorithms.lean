/-
**Three algorithms over one graph.**

`runtime/scheduling/task-graph.ts`. Besides the planner of the waves, `detectCycles` searches the graph depth
first, and `topologicalSort` orders it with a queue. All three look at the known dependencies of the tasks.

* `detectCycles_iff`, `topologicalSort_spec` — what the other two find, with ids and dependencies named
  several times or not;
* `algorithms_agree_iff` — the planner agrees with them exactly when the graph has a cycle, or no task names a
  known dependency twice: it counts such a dependency twice and lowers the count once;
* `waves_by_longest_chain` — where dependencies are named once, a task stands in the wave of its longest chain
  of dependencies, and what leads to a cycle in none.
-/

import PiCrew.Library.ColouredSearch
import PiCrew.Library.QueueSort
import PiCrew.Scheduling.TaskGraph

namespace PiCrew.TaskGraph

open Waves Relation

/-- The known dependencies of an id: the last task that carries it counts. -/
def adjacency (tasks : List TaskNode) (id : String) : List String :=
  match (Bindings.ofKeyed (·.id) tasks).get id with
  | some task => known tasks task
  | none => []

/-- **The cycles that a depth-first search comes upon.** -/
def detectCycles (tasks : List TaskNode) : List (List String) :=
  if tasks.isEmpty then [] else (ColouredSearch.search (adjacency tasks) (ids tasks)).cycles

/-- **The ids, dependencies first.** Ids on a cycle, or behind one, are missing. -/
def topologicalSort (tasks : List TaskNode) : List String := if tasks.isEmpty then [] else queueSort tasks

section

variable {tasks : List TaskNode}

def LeadsToCycle (tasks : List TaskNode) (id : String) : Prop :=
  ∃ other, ReflTransGen (Edge tasks) id other ∧ TransGen (Edge tasks) other other

theorem leads_iff (distinct : (ids tasks).Nodup) (id dependency : String) :
    ColouredSearch.Leads (adjacency tasks) id dependency ↔ Edge tasks id dependency := by
  constructor
  · intro leads
    unfold ColouredSearch.Leads adjacency at leads
    split at leads
    case h_1 task found =>
      obtain ⟨member, rfl⟩ := Bindings.get_ofKeyed_mem found
      obtain ⟨names, inside⟩ := mem_known.mp leads
      exact ⟨inside, task, member, rfl, names⟩
    case h_2 => cases leads
  · rintro ⟨inside, task, member, rfl, names⟩
    unfold ColouredSearch.Leads adjacency
    rw [Bindings.get_ofKeyed_nodup distinct member]
    exact mem_known.mpr ⟨names, inside⟩

/-- **A cycle is detected exactly when there is one.** -/
theorem detectCycles_iff (distinct : (ids tasks).Nodup) : detectCycles tasks ≠ [] ↔ ¬ Acyclic tasks := by
  have relations : ColouredSearch.Leads (adjacency tasks) = Edge tasks := by
    funext id dependency
    exact propext (leads_iff distinct id dependency)
  have only : ∀ id dependency, ColouredSearch.Leads (adjacency tasks) id dependency →
      id ∈ ids tasks ∧ dependency ∈ ids tasks := by
    intro id dependency leads
    obtain ⟨inside, task, member, rfl, -⟩ := (leads_iff distinct id dependency).mp leads
    exact ⟨List.mem_map_of_mem member, inside⟩
  have found := ColouredSearch.search_cycles_iff only
  rw [relations] at found
  have same : detectCycles tasks = (ColouredSearch.search (adjacency tasks) (ids tasks)).cycles := by
    cases tasks <;> rfl
  rw [same, found, Acyclic]
  push Not
  rfl

/-- **What is sorted**: distinct known ids, each behind its known dependencies, and all of them exactly when
the graph has no cycle. -/
theorem topologicalSort_spec (distinct : (ids tasks).Nodup) :
    ((topologicalSort tasks).length < tasks.length ↔ ¬ Acyclic tasks) ∧
      (Acyclic tasks → (topologicalSort tasks).Perm (ids tasks)) ∧
      ∀ task ∈ tasks, task.id ∈ topologicalSort tasks → ∀ dependency ∈ known tasks task,
        (topologicalSort tasks).idxOf dependency < (topologicalSort tasks).idxOf task.id := by
  obtain ⟨apart, listed, behind, -⟩ := queueSort_spec distinct
  have complete := queueSort_complete_iff distinct
  have same : topologicalSort tasks = queueSort tasks := by
    cases tasks <;> rfl
  have size : tasks.length = (ids tasks).length := (List.length_map _).symm
  have fits := List.subperm_of_subset apart listed
  rw [same]
  refine ⟨?_, fun acyclic => ?_, fun task member sorted dependency named => ?_⟩
  · rw [size, ← complete, ← not_iff_not, Nat.not_lt, not_not]
    constructor
    · exact fun long id member => (fits.perm_of_length_le long).mem_iff.mpr member
    · exact fun all => (List.subperm_of_subset distinct all).length_le
  · exact fits.perm_of_length_le (List.subperm_of_subset distinct (complete.mpr acyclic)).length_le
  · obtain ⟨names, known_⟩ := mem_known.mp named
    obtain ⟨before, after, split⟩ := List.append_of_mem sorted
    have earlier := behind before task.id after split dependency ⟨known_, task, member, rfl, names⟩
    exact idxOf_lt_of_split apart split earlier

end

section

variable {tasks : List TaskNode}

theorem buildExecutionPlan_ok (distinct : (ids tasks).Nodup) (apart : ∀ task ∈ tasks, task.id ∉ task.dependsOn) :
    ∃ plan, buildExecutionPlan tasks = .ok plan ∧ plan.waves = numberWaves (Waves.waves tasks) ∧
      ((plan.hasCycle = false ∧ plan.cycleNodes = none ∧ ∀ id ∈ ids tasks, id ∈ (Waves.waves tasks).flatten) ∨
        (plan.hasCycle = true ∧ (∃ id ∈ ids tasks, id ∉ (Waves.waves tasks).flatten) ∧ plan.cycleNodes = some
          ((tasks.filter fun task => !(entered (Waves.waves tasks).flatten).contains task.id).map (·.id)))) := by
  cases tasks with
  | nil => exact ⟨_, rfl, rfl, Or.inl ⟨rfl, rfl, fun id member => absurd member List.not_mem_nil⟩⟩
  | cons first rest =>
    have assigned := all_assigned_iff (first :: rest)
    unfold buildExecutionPlan
    rw [if_neg (by simp), (find_self_eq_none_iff (first :: rest)).mpr apart]
    simp only
    split
    case isTrue short =>
      refine ⟨_, rfl, rfl, Or.inr ⟨rfl, ?_, rfl⟩⟩
      by_contra none_left
      push Not at none_left
      exact absurd (assigned.mpr ⟨distinct, none_left⟩) (Nat.not_le.mpr short)
    case isFalse long => exact ⟨_, rfl, rfl, Or.inl ⟨rfl, rfl, (assigned.mp (Nat.le_of_not_lt long)).2⟩⟩

theorem hasCycle_iff (distinct : (ids tasks).Nodup) (apart : ∀ task ∈ tasks, task.id ∉ task.dependsOn)
    {plan : ExecutionPlan} (built : buildExecutionPlan tasks = .ok plan) :
    plan.hasCycle = false ↔ (∀ task ∈ tasks, (known tasks task).Nodup) ∧ Acyclic tasks := by
  rw [acyclic_iff_bounded, ← waves_complete_iff distinct]
  obtain ⟨other, same, -, outcome⟩ := buildExecutionPlan_ok distinct apart
  obtain rfl := Except.ok.inj (built.symm.trans same)
  rcases outcome with ⟨none, -, all⟩ | ⟨some, ⟨id, member, left⟩, -⟩
  · exact iff_of_true none all
  · rw [some]
    exact iff_of_false nofun fun all => left (all id member)

end

/-- **The three algorithms agree**: with each other, and with whether the graph has a cycle. -/
structure AlgorithmsAgree (tasks : List TaskNode) (plan : ExecutionPlan) : Prop where
  planned : plan.hasCycle = true ↔ ¬ Acyclic tasks
  detected : detectCycles tasks ≠ [] ↔ ¬ Acyclic tasks
  short : (topologicalSort tasks).length < tasks.length ↔ ¬ Acyclic tasks
  all : Acyclic tasks → (topologicalSort tasks).Perm (ids tasks)
  behind : Acyclic tasks → ∀ task ∈ tasks, ∀ dependency ∈ known tasks task,
    (topologicalSort tasks).idxOf dependency < (topologicalSort tasks).idxOf task.id

/-- **When the three algorithms agree**: the graph has a cycle, or no task names a known dependency twice. -/
theorem algorithms_agree_iff (tasks : List TaskNode) (distinct : (ids tasks).Nodup)
    (apart : ∀ task ∈ tasks, task.id ∉ task.dependsOn) :
    ∃ plan, buildExecutionPlan tasks = .ok plan ∧
      (AlgorithmsAgree tasks plan ↔ ¬ Acyclic tasks ∨ ∀ task ∈ tasks, (known tasks task).Nodup) := by
  obtain ⟨plan, built, -, -⟩ := buildExecutionPlan_ok distinct apart
  have planned := hasCycle_iff distinct apart built
  rw [← Bool.not_eq_true] at planned
  obtain ⟨short, all, behind⟩ := topologicalSort_spec distinct
  refine ⟨plan, built, fun agree => ?_, fun condition => ?_⟩
  · by_cases acyclic : Acyclic tasks
    · exact Or.inr (planned.mp fun cycle => agree.planned.mp cycle acyclic).1
    · exact Or.inl acyclic
  · refine ⟨?_, detectCycles_iff distinct, short, all, fun acyclic task member => ?_⟩
    · rw [← not_iff_not, planned, not_not]
      refine and_iff_right_of_imp fun acyclic => condition.resolve_left (not_not.mpr acyclic)
    · exact behind task member ((all acyclic).mem_iff.mpr (List.mem_map_of_mem member))

def twiceNamed : List TaskNode := [⟨"first", []⟩, ⟨"second", ["first", "first"]⟩]

theorem algorithms_disagree :
    ¬ ∀ tasks : List TaskNode, (ids tasks).Nodup → (∀ task ∈ tasks, task.id ∉ task.dependsOn) →
      ∃ plan, buildExecutionPlan tasks = .ok plan ∧ AlgorithmsAgree tasks plan := by
  intro claimed
  obtain ⟨plan, built, agree⟩ := claimed twiceNamed (by decide) (by decide)
  have cycle : plan.hasCycle = true := by
    have same : buildExecutionPlan twiceNamed
        = .ok { waves := [⟨0, ["first"]⟩], hasCycle := true, cycleNodes := some ["second"] } := by rfl
    rw [← Except.ok.inj (same.symm.trans built)]
  exact absurd (agree.short.mpr (agree.planned.mp cycle)) (by decide)

theorem algorithms_agree_chain :
    ∃ plan, buildExecutionPlan [⟨"first", []⟩, ⟨"second", ["first", "unknown", "unknown"]⟩] = .ok plan ∧
      AlgorithmsAgree [⟨"first", []⟩, ⟨"second", ["first", "unknown", "unknown"]⟩] plan := by
  obtain ⟨plan, built, agree⟩ := algorithms_agree_iff
    [⟨"first", []⟩, ⟨"second", ["first", "unknown", "unknown"]⟩] (by decide) (by decide)
  exact ⟨plan, built, agree.mpr (Or.inr (by decide))⟩

/-- **What a plan says of its tasks.** The waves have an id each that leads to no cycle, in the wave of its
longest chain of dependencies; what is left over leads to a cycle. -/
structure ByLongestChain (tasks : List TaskNode) (plan : ExecutionPlan) : Prop where
  filled : ∀ wave ∈ plan.waves, wave.taskIds ≠ []
  once : (plan.waves.flatMap (·.taskIds)).Nodup
  placed : ∀ id, id ∈ plan.waves.flatMap (·.taskIds) ↔ id ∈ ids tasks ∧ ¬ LeadsToCycle tasks id
  level : ∀ wave ∈ plan.waves, ∀ id ∈ wave.taskIds,
    HasChain tasks wave.index id ∧ ∀ links, HasChain tasks links id → links ≤ wave.index
  acyclic : Acyclic tasks → plan.hasCycle = false ∧ plan.cycleNodes = none ∧
    (plan.waves.flatMap (·.taskIds)).Perm (ids tasks)
  cyclic : ¬ Acyclic tasks → plan.hasCycle = true ∧ ∃ nodes, plan.cycleNodes = some nodes ∧ nodes.Nodup ∧
    ∀ id, id ∈ nodes ↔ id ∈ ids tasks ∧ LeadsToCycle tasks id

theorem mem_numberWaves {groups : List (List String)} {wave : ExecutionWave} :
    wave ∈ numberWaves groups ↔ groups[wave.index]? = some wave.taskIds := by
  rw [List.mem_iff_getElem?]
  constructor
  · rintro ⟨k, found⟩
    rw [getElem?_numberWaves, Option.map_eq_some_iff] at found
    obtain ⟨taskIds, there, rfl⟩ := found
    exact there
  · intro found
    exact ⟨wave.index, by rw [getElem?_numberWaves, found]; rfl⟩

theorem flatMap_numberWaves (groups : List (List String)) :
    (numberWaves groups).flatMap (·.taskIds) = groups.flatten := by
  have same : (numberWaves groups).map (·.taskIds) = groups := by
    refine List.ext_getElem? fun k => ?_
    rw [List.getElem?_map, getElem?_numberWaves, Option.map_map]
    exact Option.map_id_apply
  rw [List.flatMap_def, same]

theorem mem_waves_iff_not_leads {tasks : List TaskNode} (distinct : (ids tasks).Nodup)
    (once : ∀ task ∈ tasks, (known tasks task).Nodup) {id : String} (member : id ∈ ids tasks) :
    id ∈ (Waves.waves tasks).flatten ↔ ¬ LeadsToCycle tasks id := by
  rw [mem_waves_iff distinct once member, exists_within_iff, LeadsToCycle]
  push Not
  rfl

/-- **The waves go by the longest chain of dependencies.** -/
theorem waves_by_longest_chain (tasks : List TaskNode) (distinct : (ids tasks).Nodup)
    (once : ∀ task ∈ tasks, task.dependsOn.Nodup) (apart : ∀ task ∈ tasks, task.id ∉ task.dependsOn) :
    ∃ plan, buildExecutionPlan tasks = .ok plan ∧ ByLongestChain tasks plan := by
  have known_once : ∀ task ∈ tasks, (known tasks task).Nodup := fun task member => (once task member).filter _
  have leads := fun id (member : id ∈ ids tasks) => mem_waves_iff_not_leads distinct known_once member
  obtain ⟨counts, planned⟩ := waves_planned distinct
  have apart_waves := planned.apart
  have listed := planned.listed
  rw [List.append_nil] at apart_waves listed
  obtain ⟨plan, built, waves, outcome⟩ := buildExecutionPlan_ok distinct apart
  have cycle := hasCycle_iff distinct apart built
  refine ⟨plan, built, ?_⟩
  constructor
  · intro wave member
    rw [waves, mem_numberWaves] at member
    exact planned.filled wave.taskIds (List.mem_of_getElem? member)
  · rw [waves, flatMap_numberWaves]
    exact apart_waves
  · intro id
    rw [waves, flatMap_numberWaves]
    exact ⟨fun member => ⟨listed member, (leads id (listed member)).mp member⟩,
      fun ⟨member, grounded⟩ => (leads id member).mpr grounded⟩
  · intro wave member id inside
    rw [waves, mem_numberWaves] at member
    exact atLevel_iff.mp (waves_level distinct member inside)
  · intro acyclic
    have none := cycle.mpr ⟨known_once, acyclic⟩
    rcases outcome with ⟨-, nodes, all⟩ | ⟨some, -⟩
    · refine ⟨none, nodes, ?_⟩
      rw [waves, flatMap_numberWaves]
      exact (List.perm_ext_iff_of_nodup apart_waves distinct).mpr fun id => ⟨fun there => listed there, all id⟩
    · exact absurd (some.symm.trans none) nofun
  · intro cyclic
    rcases outcome with ⟨none, -⟩ | ⟨some, -, nodes⟩
    · exact absurd (cycle.mp none).2 cyclic
    · refine ⟨some, _, nodes, (List.filter_sublist.map _).nodup distinct, fun id => ?_⟩
      constructor
      · intro member
        obtain ⟨task, chosen, rfl⟩ := List.mem_map.mp member
        obtain ⟨there, left⟩ := List.mem_filter.mp chosen
        have inside : task.id ∈ ids tasks := List.mem_map_of_mem there
        refine ⟨inside, not_not.mp fun grounded => ?_⟩
        simp [(leads task.id inside).mpr grounded] at left
      · rintro ⟨member, cycles⟩
        obtain ⟨task, there, rfl⟩ := List.mem_map.mp member
        refine List.mem_map_of_mem (List.mem_filter.mpr ⟨there, ?_⟩)
        simpa using fun placed => (leads task.id member).mp placed cycles

theorem waves_by_longest_chain_cycle :
    ∃ plan, buildExecutionPlan
        [⟨"first", ["third"]⟩, ⟨"second", []⟩, ⟨"third", ["first", "second"]⟩, ⟨"fourth", ["second"]⟩] = .ok plan ∧
      ByLongestChain
        [⟨"first", ["third"]⟩, ⟨"second", []⟩, ⟨"third", ["first", "second"]⟩, ⟨"fourth", ["second"]⟩] plan :=
  waves_by_longest_chain _ (by decide) (by decide) (by decide)

end PiCrew.TaskGraph
