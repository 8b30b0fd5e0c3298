/-
**The dependency graph of a workflow's steps.**

`workflows/validate-workflow.ts` (`validateWorkflowForTeam`) and `workflows/topology-analyzer.ts`
(`dagDepthFromSteps`). The validation visits the steps depth first, with the steps on the current trail and
those that are done as two sets, and reports a cycle when a step on the trail is met again. The depth is
worked out with a queue.

* `dagDepthFromSteps_eq` — the depth is that of the queue in the library.

A visit goes at most as deep as there are steps, and one call more.
-/

import PiCrew.Broker.SpawnPolicy
import PiCrew.Library.ColouredSearch
import PiCrew.Library.QueueDepth

namespace PiCrew.StepGraph

open Waves Relation

section

/-- The `output` of a step, which a file may give any type. -/
inductive StepOutput where
  | off
  | file (name : String)
  | other (type : String)
  deriving DecidableEq, Repr

structure WorkflowStep where
  id : String
  role : String
  dependsOn : Option (List String) := none
  output : Option StepOutput := none
  deriving DecidableEq, Repr

structure WorkflowConfig where
  name : String
  steps : List WorkflowStep
  deriving DecidableEq, Repr

structure TeamRole where
  name : String
  deriving DecidableEq, Repr

structure TeamConfig where
  roles : List TeamRole
  deriving DecidableEq, Repr

def WorkflowStep.node (step : WorkflowStep) : Node String := ⟨step.id, step.dependsOn.getD []⟩

def graph (steps : List WorkflowStep) : List (Node String) := steps.map (·.node)

variable (workflow : WorkflowConfig) (team : TeamConfig)

/-- The first loop: ids that came before, and roles that the team lacks. -/
def stepErrors : List String → List WorkflowStep → List String
  | _, [] => []
  | stepIds, step :: steps =>
    (if step.id ∈ stepIds then ["Duplicate workflow step id '" ++ step.id ++ "'."] else []) ++
    (if step.role ∈ team.roles.map (·.name) then []
    else
      let distillHint :=
        if workflow.name = "distill" then
          " (run with team='implementation' — needs analyst+critic roles)"
        else ""
      ["Step '" ++ step.id ++ "' references unknown team role '" ++ step.role ++ "'." ++ distillHint]) ++
    stepErrors (stepIds ++ [step.id]) steps

def dependencyErrors (steps : List WorkflowStep) : List String := steps.flatMap fun step =>
    ((step.dependsOn.getD []).filter fun dep => dep ∉ steps.map (·.id)).map fun dep =>
      "Step '" ++ step.id ++ "' depends on unknown step '" ++ dep ++ "'."

def outputErrors (steps : List WorkflowStep) : List String := steps.flatMap fun step =>
    match step.output with
    | none | some .off => []
    | some (.file name) =>
      if Broker.SpawnPolicy.trim name = "" then ["Step '" ++ step.id ++ "' has empty 'output' string."] else []
    | some (.other type) =>
      ["Step '" ++ step.id ++ "' has invalid 'output' field: expected string or false, got " ++ type ++ "."]

structure Visits where
  errors : List String
  visiting : List String := []
  visited : List String := []

def cycleReport (trail : List String) (id : String) : String :=
  "Workflow dependency cycle detected: " ++ " -> ".intercalate (trail ++ [id]) ++ "."

def dependenciesOf (steps : List WorkflowStep) (id : String) : List String :=
  match (Bindings.ofKeyed (·.id) steps).get id with
  | some step => step.dependsOn.getD []
  | none => []

def visit (steps : List WorkflowStep) : Nat → String → List String → Visits → Visits
  | 0, _, _, visits => visits
  | depth + 1, id, trail, visits =>
    if id ∈ visits.visited then visits
    else if id ∈ visits.visiting then { visits with errors := visits.errors ++ [cycleReport trail id] }
    else
      let entered := { visits with visiting := visits.visiting ++ [id] }
      let followed := (dependenciesOf steps id).foldl
        (fun visits dep => visit steps depth dep (trail ++ [id]) visits) entered
      { followed with
        visiting := followed.visiting.filter (· ≠ id)
        visited := followed.visited ++ [id] }

/-- **Validate a workflow**; every error is listed once. -/
def validateWorkflowForTeam : List String :=
  let steps := workflow.steps
  let errors := stepErrors workflow team [] steps ++ dependencyErrors steps ++ outputErrors steps
  entered (steps.foldl (fun visits step => visit steps (steps.length + 1) step.id [] visits)
    { errors := errors }).errors

def dagDepthFromSteps (steps : List WorkflowStep) : Nat :=
  if steps.isEmpty then 0
  else deepen (graph steps) (steps.length + 1) (shallow (graph steps) (degree (graph steps))) 0

end

section

def Starts (first : Char) (text : String) : Prop := text.toList.head? = some first

theorem Starts.append {first : Char} {front : String} (starts : Starts first front) (back : String) :
    Starts first (front ++ back) := by
  rw [Starts, String.toList_append, List.head?_append, show front.toList.head? = some first from starts]
  rfl

theorem cycleReport_starts (trail : List String) (id : String) : Starts 'W' (cycleReport trail id) := by
  have opening : Starts 'W' "Workflow dependency cycle detected: " := by
    unfold Starts
    decide
  exact (opening.append _).append _

def Reported (errors : List String) : Prop := ∃ trail id, cycleReport trail id ∈ errors

theorem unreported {errors : List String} (others : ∀ error ∈ errors, Starts 'S' error ∨ Starts 'D' error) :
    ¬ Reported errors := by
  rintro ⟨trail, id, within⟩
  have starts := cycleReport_starts trail id
  rcases others _ within with other | other <;>
    exact absurd (Option.some.inj (starts.symm.trans other)) (by decide)

theorem step_starts (text : String) : Starts 'S' ("Step '" ++ text) := by
  have opening : Starts 'S' "Step '" := by
    unfold Starts
    decide
  exact opening.append _

theorem duplicate_starts (text : String) : Starts 'D' ("Duplicate workflow step id '" ++ text) := by
  have opening : Starts 'D' "Duplicate workflow step id '" := by
    unfold Starts
    decide
  exact opening.append _

variable {workflow : WorkflowConfig} {team : TeamConfig}

theorem stepErrors_starts (stepIds : List String) (steps : List WorkflowStep) :
    ∀ error ∈ stepErrors workflow team stepIds steps, Starts 'S' error ∨ Starts 'D' error := by
  intro error within
  induction steps generalizing stepIds with
  | nil => cases within
  | cons step steps ih =>
    rw [stepErrors, List.mem_append, List.mem_append] at within
    rcases within with (duplicate | role) | later
    · split at duplicate
      · rw [List.mem_singleton.mp duplicate]
        exact .inr ((duplicate_starts _).append _)
      · cases duplicate
    · split at role
      · cases role
      · rw [List.mem_singleton.mp role]
        exact .inl (((((step_starts _).append _).append _).append _).append _)
    · exact ih _ later

theorem dependencyErrors_starts (steps : List WorkflowStep) :
    ∀ error ∈ dependencyErrors steps, Starts 'S' error := by
  intro error within
  obtain ⟨step, -, named⟩ := List.mem_flatMap.mp within
  obtain ⟨dep, -, rfl⟩ := List.mem_map.mp named
  exact (((step_starts _).append _).append _).append _

theorem outputErrors_starts (steps : List WorkflowStep) :
    ∀ error ∈ outputErrors steps, Starts 'S' error := by
  intro error within
  obtain ⟨step, -, named⟩ := List.mem_flatMap.mp within
  split at named
  · cases named
  · cases named
  · split at named
    · rw [List.mem_singleton.mp named]
      exact (step_starts _).append _
    · cases named
  · rw [List.mem_singleton.mp named]
    exact (((step_starts _).append _).append _).append _

end

section

variable {steps : List WorkflowStep}

/-- **The two sets of the visits**, and the colours of a search. -/
structure Follows (state : ColouredSearch.Search String) (visits : Visits) : Prop where
  visited : ∀ id, id ∈ visits.visited ↔ state.colour id = .black
  visiting : ∀ id, id ∈ visits.visiting ↔ state.colour id = .gray
  reported : Reported visits.errors ↔ state.cycles ≠ []

section

variable {state : ColouredSearch.Search String} {visits : Visits} (follows : Follows state visits)

include follows

theorem Follows.enter {id : String} (white : state.colour id = .white) :
    Follows (state.enter id) { visits with visiting := visits.visiting ++ [id] } where
  visited other := by
    by_cases same : other = id
    · simp [ColouredSearch.Search.enter, same, follows.visited, white]
    · simp [ColouredSearch.Search.enter, same, follows.visited]
  visiting other := by
    by_cases same : other = id
    · simp [ColouredSearch.Search.enter, same]
    · simp [ColouredSearch.Search.enter, same, follows.visiting]
  reported := follows.reported

theorem Follows.leave (id : String) : Follows (state.leave id)
      { visits with visiting := visits.visiting.filter (· ≠ id), visited := visits.visited ++ [id] } where
  visited other := by
    by_cases same : other = id
    · simp [ColouredSearch.Search.leave, same]
    · simp [ColouredSearch.Search.leave, same, follows.visited]
  visiting other := by
    by_cases same : other = id
    · simp [ColouredSearch.Search.leave, same]
    · simp [ColouredSearch.Search.leave, same, follows.visiting]
  reported := follows.reported

theorem Follows.closeCycle {id : String} (trail : List String) (member : id ∈ state.path) :
    Follows (state.closeCycle id) { visits with errors := visits.errors ++ [cycleReport trail id] } := by
  rw [ColouredSearch.Search.closeCycle, if_pos member]
  refine ⟨follows.visited, follows.visiting, iff_of_true ?_ ?_⟩
  · exact ⟨trail, id, List.mem_append_right _ List.mem_cons_self⟩
  · simp

end

theorem Follows.met {depth : Nat} {state : ColouredSearch.Search String} {visits : Visits}
    (follows : Follows state visits) (kept : ColouredSearch.Visited (dependenciesOf steps) state)
    {id : String} (trail : List String) (coloured : state.colour id ≠ .white) :
    Follows (ColouredSearch.follow (ColouredSearch.visit (dependenciesOf steps) depth) state id)
      (visit steps (depth + 1) id trail visits) := by
  cases colour : state.colour id with
  | white => exact absurd colour coloured
  | gray =>
    have unvisited : id ∉ visits.visited := by
      rw [follows.visited, colour]
      exact nofun
    have member : id ∈ state.path := (kept.gray_iff id).mp colour
    rw [visit, if_neg unvisited, if_pos ((follows.visiting id).mpr colour)]
    simp only [ColouredSearch.follow, colour]
    exact follows.closeCycle trail member
  | black =>
    rw [visit, if_pos ((follows.visited id).mpr colour)]
    simp only [ColouredSearch.follow, colour]
    exact follows

open ColouredSearch

/-- What a visit at most so deep has in common with the search. -/
def VisitFollows (steps : List WorkflowStep) (depth : Nat) : Prop :=
  ∀ id ∈ ids (graph steps), ∀ trail state visits, Visited (dependenciesOf steps) state →
    Follows state visits → whites (ids (graph steps)) state ≤ depth →
    (state.path ++ [id]).IsChain (Leads (dependenciesOf steps)) ∨ state.colour id ≠ .white →
    Follows (follow (ColouredSearch.visit (dependenciesOf steps) depth) state id)
      (visit steps (depth + 1) id trail visits)

theorem foldl_visit_follows
    (inside : ∀ id ∈ ids (graph steps), ∀ dep ∈ dependenciesOf steps id, dep ∈ ids (graph steps))
    {depth : Nat} (ih : VisitFollows steps depth) {before : List String} {id : String}
    (trail deps : List String)
    (edges : ∀ dep ∈ deps, dep ∈ ids (graph steps) ∧ Leads (dependenciesOf steps) id dep)
    {state : Search String} {visits : Visits} (kept : Visited (dependenciesOf steps) state)
    (follows : Follows state visits) (ends : state.path = before ++ [id])
    (enough : whites (ids (graph steps)) state ≤ depth) :
    Follows (deps.foldl (follow (ColouredSearch.visit (dependenciesOf steps) depth)) state)
      (deps.foldl (fun visits dep => visit steps (depth + 1) dep trail visits) visits) := by
  induction deps generalizing state visits with
  | nil => exact follows
  | cons dep deps hyp =>
    obtain ⟨known, edge⟩ := edges dep List.mem_cons_self
    have linked : (state.path ++ [dep]).IsChain (Leads (dependenciesOf steps)) := by
      refine kept.linked.append (List.isChain_singleton dep) fun last atEnd first atStart => ?_
      have isLast : id = last := by simpa [ends] using atEnd
      have isFirst : dep = first := by simpa using atStart
      exact isLast ▸ isFirst ▸ edge
    obtain ⟨kept', later, -⟩ := foldl_follow_spec (visit_spec inside depth) [dep]
      (by simpa using ⟨known, edge⟩) kept ends enough
    exact hyp (fun other member => edges other (List.mem_cons_of_mem _ member)) kept'
      (ih dep known trail state visits kept follows enough (.inl linked)) (later.path.trans ends)
      ((later.whites_le _).trans enough)

theorem visit_follows
    (inside : ∀ id ∈ ids (graph steps), ∀ dep ∈ dependenciesOf steps id, dep ∈ ids (graph steps))
    (depth : Nat) : VisitFollows steps depth := by
  induction depth with
  | zero =>
    intro id member trail state visits kept follows enough linked
    have coloured : state.colour id ≠ .white := by
      intro white
      have some_white : 0 < whites (ids (graph steps)) state :=
        List.countP_pos_iff.mpr ⟨id, member, decide_eq_true white⟩
      omega
    exact follows.met kept trail coloured
  | succ depth ih =>
    intro id member trail state visits kept follows enough linked
    by_cases white : state.colour id = .white
    · have unvisited : id ∉ visits.visited := by
        rw [follows.visited, white]
        exact nofun
      have unvisiting : id ∉ visits.visiting := by
        rw [follows.visiting, white]
        exact nofun
      have fewer := whites_enter_lt member white
      have entered := kept.enter white (linked.resolve_right (not_not.mpr white))
      rw [visit, if_neg unvisited, if_neg unvisiting]
      simp only [follow, white]
      exact (foldl_visit_follows inside ih (trail ++ [id]) (dependenciesOf steps id)
        (fun dep edge => ⟨inside id member dep edge, edge⟩) entered (follows.enter white) rfl
        (by omega)).leave id
    · exact follows.met kept trail white

end

section

open ColouredSearch

variable {workflow : WorkflowConfig} {team : TeamConfig} {steps : List WorkflowStep}

theorem ids_graph (steps : List WorkflowStep) : ids (graph steps) = steps.map (·.id) := by
  rw [ids, graph, List.map_map]
  rfl

theorem mem_dependenciesOf (distinct : (steps.map (·.id)).Nodup) (id dep : String) :
    dep ∈ dependenciesOf steps id ↔ DependsOn (graph steps) id dep := by
  constructor
  · intro named
    unfold dependenciesOf at named
    split at named
    · next step found =>
        obtain ⟨member, rfl⟩ := Bindings.get_ofKeyed_mem found
        exact ⟨step.node, List.mem_map_of_mem member, rfl, named⟩
    · cases named
  · rintro ⟨node, member, rfl, named⟩
    obtain ⟨step, there, rfl⟩ := List.mem_map.mp member
    rw [dependenciesOf, show step.node.id = step.id from rfl, Bindings.get_ofKeyed_nodup distinct there]
    exact named

theorem foldl_search_follows
    (inside : ∀ id ∈ ids (graph steps), ∀ dep ∈ dependenciesOf steps id, dep ∈ ids (graph steps))
    (roots : List WorkflowStep) (known : ∀ step ∈ roots, step.id ∈ ids (graph steps))
    {state : Search String} {visits : Visits} (kept : Visited (dependenciesOf steps) state)
    (follows : Follows state visits) (bare : state.path = []) :
    Follows ((roots.map (·.id)).foldl (fun state id =>
        if state.colour id = .white then
          ColouredSearch.visit (dependenciesOf steps) (ids (graph steps)).length id state
        else state) state)
      (roots.foldl (fun visits step => visit steps ((ids (graph steps)).length + 1) step.id [] visits)
        visits) := by
  induction roots generalizing state visits with
  | nil => exact follows
  | cons step roots ih =>
    have member := known step List.mem_cons_self
    obtain ⟨kept', later, -⟩ := foldl_search_spec inside [step.id] (by simpa using member) kept bare
    have one := visit_follows inside (ids (graph steps)).length step.id member [] state visits kept follows
      List.countP_le_length (.inl (by simp [bare]))
    have same : follow (ColouredSearch.visit (dependenciesOf steps) (ids (graph steps)).length) state step.id =
        if state.colour step.id = .white then
          ColouredSearch.visit (dependenciesOf steps) (ids (graph steps)).length step.id state
        else state := by
      cases colour : state.colour step.id with
      | white => simp [follow, colour]
      | gray =>
        have onPath := (kept.gray_iff step.id).mp colour
        rw [bare] at onPath
        cases onPath
      | black => simp [follow, colour]
    rw [same] at one
    exact ih (fun other within => known other (List.mem_cons_of_mem _ within)) kept' one
      (later.path.trans bare)

/-- **A cycle is reported just if the dependencies have one.** -/
theorem validateWorkflowForTeam_iff (distinct : (workflow.steps.map (·.id)).Nodup)
    (known : ∀ step ∈ workflow.steps, ∀ dep ∈ step.dependsOn.getD [], dep ∈ workflow.steps.map (·.id)) :
    Reported (validateWorkflowForTeam workflow team) ↔
      ∃ id, TransGen (DependsOn (graph workflow.steps)) id id := by
  have relations : Leads (dependenciesOf workflow.steps) = DependsOn (graph workflow.steps) := by
    funext id dep
    exact propext (mem_dependenciesOf distinct id dep)
  have only : ∀ id dep, Leads (dependenciesOf workflow.steps) id dep →
      id ∈ ids (graph workflow.steps) ∧ dep ∈ ids (graph workflow.steps) := by
    intro id dep leads
    rw [relations] at leads
    obtain ⟨node, member, rfl, named⟩ := leads
    obtain ⟨step, there, rfl⟩ := List.mem_map.mp member
    exact ⟨List.mem_map_of_mem member, ids_graph _ ▸ known step there dep named⟩
  have start : Follows (Search.start : Search String)
      { errors := stepErrors workflow team [] workflow.steps ++ dependencyErrors workflow.steps ++
          outputErrors workflow.steps } := by
    refine ⟨fun id => iff_of_false (nofun) (nofun), fun id => iff_of_false (nofun) (nofun),
      iff_of_false (unreported ?_) (fun some => some rfl)⟩
    intro error within
    rcases List.mem_append.mp within with within | within
    · rcases List.mem_append.mp within with within | within
      · exact stepErrors_starts [] _ error within
      · exact .inl (dependencyErrors_starts _ error within)
    · exact .inl (outputErrors_starts _ error within)
  have follows := foldl_search_follows (fun id _ dep edge => (only id dep edge).2) workflow.steps
    (fun step member => ids_graph _ ▸ List.mem_map_of_mem member) visited_start start rfl
  have found := search_cycles_iff only
  rw [relations] at found
  rw [← found, search]
  have size : (ids (graph workflow.steps)).length = workflow.steps.length := by
    rw [ids_graph, List.length_map]
  rw [← ids_graph, size] at follows
  rw [size, ← follows.reported]
  simp only [Reported, validateWorkflowForTeam, mem_entered]

theorem dagDepthFromSteps_eq (distinct : (steps.map (·.id)).Nodup) (acyclic : Acyclic (graph steps)) :
    LongestChain (graph steps) (dagDepthFromSteps steps) := by
  rw [← ids_graph] at distinct
  have degrees : degree (graph steps) = inDegree (graph steps) := by
    funext id
    by_cases member : id ∈ ids (graph steps)
    · obtain ⟨node, there, rfl⟩ := List.mem_map.mp member
      rw [degree_eq distinct there, inDegree_eq distinct there]
    · have alone : (graph steps).filter (·.id = id) = [] := by
        rw [List.filter_eq_nil_iff]
        intro node there same
        exact member (of_decide_eq_true same ▸ List.mem_map_of_mem there)
      have unread : (Bindings.ofKeyed (·.id) (graph steps)).get id = none := by
        cases found : (Bindings.ofKeyed (·.id) (graph steps)).get id with
        | none => rfl
        | some node =>
          obtain ⟨there, rfl⟩ := Bindings.get_ofKeyed_mem found
          exact absurd (List.mem_map_of_mem there) member
      simp [degree, inDegree, alone, unread]
  have longest := deepest_spec distinct acyclic
  rw [← degrees] at longest
  cases steps with
  | nil => exact longest
  | cons step steps =>
    rw [graph, List.length_map] at longest
    exact longest

/-- **Cycles and depth of a workflow.** With distinct ids and known dependencies a cycle is reported just if
the dependencies have one, and without one the depth is the number of steps on a longest chain. -/
theorem cycles_reported_and_depth (workflow : WorkflowConfig) (team : TeamConfig)
    (distinct : (workflow.steps.map (·.id)).Nodup)
    (known : ∀ step ∈ workflow.steps, ∀ dep ∈ step.dependsOn.getD [], dep ∈ workflow.steps.map (·.id)) :
    (Reported (validateWorkflowForTeam workflow team) ↔
        ∃ id, TransGen (DependsOn (graph workflow.steps)) id id) ∧
      ((¬ ∃ id, TransGen (DependsOn (graph workflow.steps)) id id) →
        LongestChain (graph workflow.steps) (dagDepthFromSteps workflow.steps)) := by
  refine ⟨validateWorkflowForTeam_iff distinct known, fun acyclic => dagDepthFromSteps_eq distinct ?_⟩
  exact fun id cycle => acyclic ⟨id, TransGen.mono (fun _ _ edge => edge.2) _ _ cycle⟩

/-- Two steps that share a dependency and a dependent. -/
def diamond : WorkflowConfig where
  name := "diamond"
  steps := [{ id := "top", role := "planner" },
      { id := "left", role := "executor", dependsOn := some ["top"] },
      { id := "right", role := "executor", dependsOn := some ["top"] },
      { id := "bottom", role := "reviewer", dependsOn := some ["left", "right"] }]

theorem diamond_reported_and_depth :
    (Reported (validateWorkflowForTeam diamond ⟨[]⟩) ↔
        ∃ id, TransGen (DependsOn (graph diamond.steps)) id id) ∧
      ((¬ ∃ id, TransGen (DependsOn (graph diamond.steps)) id id) →
        LongestChain (graph diamond.steps) (dagDepthFromSteps diamond.steps)) :=
  cycles_reported_and_depth diamond ⟨[]⟩ (by decide) (by decide)

end

end PiCrew.StepGraph
