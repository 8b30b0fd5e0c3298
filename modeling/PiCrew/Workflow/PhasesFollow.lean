/-
**The phases follow the tasks.**

The phases are passed in the order of the file, and the guard of a phase looks at the phase right before it.
So the phases that were passed are the first ones, all of them with tasks and, but for the last, without a
failure; the others are as they were created. A phase without tasks, and a phase that has failed, is where
the machine stops: what comes after is never passed, and is reported as blocked in every round.

* `advanceFrom_outcome` — what the loop does from the current phase on;
* `phases_follow` — every round of every run;
* `failed_phase_blocks` — a branch that is blocked by the failure of another one.
-/

import PiCrew.Workflow.PhaseMachine
import Mathlib.Data.List.Forall2

namespace PiCrew.Workflow

open PiCrew.State

section

def Goes (task later : TeamTaskState) : Prop :=
  later.id = task.id ∧ later.stepId = task.stepId ∧ (task.status ∈ terminalStatuses → later.status = task.status)

def Moves (tasks later : List TeamTaskState) : Prop := List.Forall₂ Goes tasks later

variable {tasks later : List TeamTaskState} {name : String}

theorem Moves.phaseTaskIds_eq (moves : Moves tasks later) (name : String) :
    phaseTaskIds later name = phaseTaskIds tasks name := by
  unfold phaseTaskIds
  induction moves with
  | nil => rfl
  | cons goes _ ih =>
    rw [List.filter_cons, List.filter_cons, goes.2.1]
    split_ifs
    · rw [List.map_cons, List.map_cons, goes.1, ih]
    · exact ih

theorem find_goes (moves : List.Forall₂ Goes tasks later) (id : String) :
    Option.Rel Goes (tasks.find? (·.id == id)) (later.find? (·.id == id)) := by
  induction moves with
  | nil => exact .none
  | cons goes _ ih =>
    rw [List.find?_cons, List.find?_cons, goes.1]
    split
    · exact .some goes
    · exact ih

theorem Moves.taskById_goes (moves : Moves tasks later) (id : String) :
    Option.Rel Goes (taskById tasks id) (taskById later id) :=
  find_goes (List.rel_reverse moves) id

/-- A phase whose tasks have all ended. -/
structure Ended (tasks : List TeamTaskState) (name : String) : Prop where
  nonempty : phaseTaskIds tasks name ≠ []
  all : allTerminal tasks name = true

theorem allTerminal_iff (tasks : List TeamTaskState) (name : String) :
    allTerminal tasks name = true ↔
      ∀ id ∈ phaseTaskIds tasks name, ∃ task, taskById tasks id = some task ∧ task.status ∈ terminalStatuses := by
  rw [allTerminal, List.all_eq_true]
  refine forall₂_congr fun id _ => ?_
  rw [Option.any_eq_true]
  exact exists_congr fun task => and_congr_right fun _ => decide_eq_true_iff

theorem Ended.stays (ended : Ended tasks name) (moves : Moves tasks later) :
    Ended later name ∧ phaseStatus later name = phaseStatus tasks name := by
  have ids := moves.phaseTaskIds_eq name
  have found : ∀ id ∈ phaseTaskIds tasks name, ∃ task, taskById tasks id = some task ∧
      ∃ next, taskById later id = some next ∧ next.status = task.status ∧ task.status ∈ terminalStatuses := by
    intro id there
    obtain ⟨task, known, terminal⟩ := (allTerminal_iff tasks name).mp ended.all id there
    have goes := moves.taskById_goes id
    rw [known] at goes
    cases found : taskById later id with
    | none =>
      rw [found] at goes
      cases goes
    | some next =>
      rw [found] at goes
      cases goes with
      | some goes => exact ⟨task, known, next, rfl, goes.2.2 terminal, terminal⟩
  refine ⟨⟨ids ▸ ended.nonempty, (allTerminal_iff later name).mpr fun id there => ?_⟩, ?_⟩
  · obtain ⟨task, -, next, known, same, terminal⟩ := found id (ids ▸ there)
    exact ⟨next, known, same ▸ terminal⟩
  · have failed : hasFailedOrCancelled later name = hasFailedOrCancelled tasks name := by
      rw [Bool.eq_iff_iff]
      simp only [hasFailedOrCancelled, phaseTasks, List.any_eq_true, List.mem_filterMap, ids]
      constructor
      · rintro ⟨next, ⟨id, there, known⟩, failed⟩
        obtain ⟨task, was, other, is, same, -⟩ := found id there
        rw [known] at is
        cases is
        exact ⟨task, ⟨id, there, was⟩, same ▸ failed⟩
      · rintro ⟨task, ⟨id, there, known⟩, failed⟩
        obtain ⟨other, was, next, is, same, -⟩ := found id there
        rw [known] at was
        cases was
        exact ⟨next, ⟨id, there, is⟩, same.symm ▸ failed⟩
    rw [phaseStatus, phaseStatus, failed]

end

section

variable {tasks : List TeamTaskState} {machine : WorkflowStateMachine} {round : Round}

/-- **The shape of the machine**: the phases before the current one were passed, all but the last of them
without a failure, and the others are as they were created. -/
structure Orderly (tasks : List TeamTaskState) (machine : WorkflowStateMachine) : Prop where
  bounded : machine.currentPhaseIndex ≤ machine.phases.length
  passed : ∀ index phase, index < machine.currentPhaseIndex → machine.phases[index]? = some phase →
    Ended tasks phase.name ∧ phase.status = phaseStatus tasks phase.name
  clean : ∀ index phase, index + 1 < machine.currentPhaseIndex → machine.phases[index]? = some phase →
    phase.status = .completed
  pending : ∀ index phase, machine.currentPhaseIndex ≤ index → machine.phases[index]? = some phase →
    phase.status = .pending

theorem phaseStatus_cases (tasks : List TeamTaskState) (name : String) :
    phaseStatus tasks name = .completed ∨ phaseStatus tasks name = .failed := by
  unfold phaseStatus
  split_ifs
  · exact Or.inr rfl
  · exact Or.inl rfl

theorem phaseStatus_failed {name : String} :
    phaseStatus tasks name = .failed ↔ hasFailedOrCancelled tasks name = true := by
  unfold phaseStatus
  split_ifs with failed
  · exact ⟨fun _ => failed, fun _ => rfl⟩
  · exact ⟨nofun, fun yes => absurd yes failed⟩

theorem Orderly.stays {later : List TeamTaskState} (orderly : Orderly tasks machine) (moves : Moves tasks later) :
    Orderly later machine :=
  { orderly with
    passed := fun index phase before there => by
      obtain ⟨ended, status⟩ := orderly.passed index phase before there
      obtain ⟨still, same⟩ := ended.stays moves
      exact ⟨still, status.trans same.symm⟩ }

theorem guard_refuses {index : Nat} {phase : PhaseState} (there : machine.phases[index]? = some phase)
    (context : PhaseGuardContext) (later : 0 < index)
    (before : context.previousPhaseStatus ≠ .completed ∧ context.previousPhaseStatus ≠ .skipped) :
    ∃ reason, canTransitionToPhase machine index context = .refused reason := by
  unfold canTransitionToPhase
  rw [there]
  dsimp only
  rw [if_pos ⟨later, before⟩]
  exact ⟨_, rfl⟩

def PhaseEvent.isGuardBlocked (event : PhaseEvent) : Bool :=
  match event.type with
  | .phaseGuardBlocked _ _ => true
  | .phaseCompleted | .phaseFailed => false

def Round.at (round : Round) (now : String) : Round := { round with now := now }

def Idle (round : Round) (turns index : Nat) (machine : WorkflowStateMachine) : Prop :=
  ∃ events, (∀ event ∈ events, event.isGuardBlocked) ∧
    ∀ now, advanceFrom (round.at now) turns index machine = (machine, events)

section

variable (round) {index turns : Nat} {phase : PhaseState} (there : machine.phases[index]? = some phase)

include there

theorem advanceFrom_empty (empty : phaseTaskIds round.tasks phase.name = []) :
    advanceFrom round (turns + 1) index machine = advanceFrom round turns (index + 1) machine := by
  rw [advanceFrom, there]
  dsimp only
  rw [if_pos (List.isEmpty_iff.mpr empty)]

theorem advanceFrom_unended (nonempty : phaseTaskIds round.tasks phase.name ≠ [])
    (unended : allTerminal round.tasks phase.name = false) :
    advanceFrom round (turns + 1) index machine = (machine, []) := by
  rw [advanceFrom, there]
  dsimp only
  rw [if_neg (mt List.isEmpty_iff.mp nonempty), if_pos (by rw [unended]; rfl)]

theorem advanceFrom_refused (ended : Ended round.tasks phase.name) (pending : phase.status = .pending)
    {reason : String} (refused : canTransitionToPhase machine index
      { completedArtifacts := completedArtifacts round.manifest
        previousPhaseStatus := previousPhaseStatus machine index } = .refused reason) :
    advanceFrom round (turns + 1) index machine = (machine, [guardBlocked round phase index reason]) := by
  rw [advanceFrom, there]
  dsimp only
  rw [if_neg (mt List.isEmpty_iff.mp ended.nonempty), if_neg (by rw [ended.all]; exact nofun),
    if_pos (by rw [pending]; exact ⟨nofun, nofun, nofun⟩), transitionPhase, refused]

theorem advanceFrom_allowed (ended : Ended round.tasks phase.name) (pending : phase.status = .pending)
    (allowed : canTransitionToPhase machine index
      { completedArtifacts := completedArtifacts round.manifest
        previousPhaseStatus := previousPhaseStatus machine index } = .allowed) :
    advanceFrom round (turns + 1) index machine =
      let rest := advanceFrom round turns (index + 1)
        { phases := machine.phases.modify index
            fun phase' => phase'.transition (phaseStatus round.tasks phase.name) round.now
          currentPhaseIndex := index + 1 }
      (rest.1, phaseEnded round phase index (phaseStatus round.tasks phase.name) :: rest.2) := by
  rw [advanceFrom, there]
  dsimp only
  rw [if_neg (mt List.isEmpty_iff.mp ended.nonempty), if_neg (by rw [ended.all]; exact nofun),
    if_pos (by rw [pending]; exact ⟨nofun, nofun, nofun⟩), transitionPhase, allowed]

end

theorem advanceFrom_later (orderly : Orderly round.tasks machine) (turns index : Nat)
    (later : machine.currentPhaseIndex < index) : Idle round turns index machine := by
  induction turns generalizing index with
  | zero => exact ⟨[], nofun, fun _ => rfl⟩
  | succ turns ih =>
    cases there : machine.phases[index]? with
    | none => exact ⟨[], nofun, fun now => by rw [advanceFrom, there]⟩
    | some phase =>
      by_cases empty : phaseTaskIds round.tasks phase.name = []
      · obtain ⟨events, blocked, same⟩ := ih (index + 1) (Nat.lt_succ_of_lt later)
        exact ⟨events, blocked, fun now => (advanceFrom_empty (round.at now) there empty).trans (same now)⟩
      cases all : allTerminal round.tasks phase.name with
      | false => exact ⟨[], nofun, fun now => advanceFrom_unended (round.at now) there empty all⟩
      | true =>
        -- the phase before is pending, so that the guard refuses
        have before : previousPhaseStatus machine index = .pending := by
          rw [previousPhaseStatus, if_pos (Nat.zero_lt_of_lt later)]
          cases known : machine.phases[index - 1]? with
          | none => rfl
          | some previous => exact orderly.pending (index - 1) previous (Nat.le_sub_one_of_lt later) known
        obtain ⟨reason, refused⟩ := guard_refuses there
          { completedArtifacts := completedArtifacts round.manifest
            previousPhaseStatus := previousPhaseStatus machine index }
          (Nat.zero_lt_of_lt later) (by rw [before]; exact ⟨nofun, nofun⟩)
        refine ⟨[guardBlocked round phase index reason], fun event mine => ?_, fun now => ?_⟩
        · rw [List.mem_singleton.mp mine]
          rfl
        · have pending := orderly.pending index phase later.le there
          exact advanceFrom_refused (round.at now) there ⟨empty, all⟩ pending refused

/-- **What the loop does** from the current phase on: it keeps the shape and goes forward; where it stops, it
would do nothing more; and where it stops at a phase that has ended and has its inputs, the phase before
has failed. -/
structure Outcome (round : Round) (machine : WorkflowStateMachine)
    (next : WorkflowStateMachine × List PhaseEvent) : Prop where
  orderly : Orderly round.tasks next.1
  forward : machine.currentPhaseIndex ≤ next.1.currentPhaseIndex
  idle : ∀ now, advanceWorkflowPhases (round.at now) next.1 = (next.1, next.2.filter PhaseEvent.isGuardBlocked)
  stops : ∀ phase, next.1.phases[next.1.currentPhaseIndex]? = some phase → Ended round.tasks phase.name →
    (∀ input ∈ phase.inputs, input ∈ completedArtifacts round.manifest) →
      ∃ index previous, index + 1 = next.1.currentPhaseIndex ∧ next.1.phases[index]? = some previous ∧
        previous.status = .failed

theorem outcome_of_idle (orderly : Orderly round.tasks machine) {turns : Nat}
    (turns_eq : turns = machine.phases.length - machine.currentPhaseIndex)
    (idle : Idle round turns machine.currentPhaseIndex machine)
    (stops : ∀ phase, machine.phases[machine.currentPhaseIndex]? = some phase → Ended round.tasks phase.name →
      (∀ input ∈ phase.inputs, input ∈ completedArtifacts round.manifest) →
        ∃ index previous, index + 1 = machine.currentPhaseIndex ∧ machine.phases[index]? = some previous ∧
          previous.status = .failed) :
    Outcome round machine (advanceFrom round turns machine.currentPhaseIndex machine) := by
  obtain ⟨events, blocked, same⟩ := idle
  have now : advanceFrom round turns machine.currentPhaseIndex machine = (machine, events) := same round.now
  rw [now]
  refine ⟨orderly, le_refl _, fun later => ?_, stops⟩
  rw [List.filter_eq_self.mpr blocked, advanceWorkflowPhases, ← turns_eq]
  exact same later

theorem refused_cases {index : Nat} {phase : PhaseState} (there : machine.phases[index]? = some phase)
    {context : PhaseGuardContext} {reason : String}
    (refused : canTransitionToPhase machine index context = .refused reason) :
    (0 < index ∧ context.previousPhaseStatus ≠ .completed) ∨
      ∃ input ∈ phase.inputs, input ∉ context.completedArtifacts := by
  unfold canTransitionToPhase at refused
  rw [there] at refused
  dsimp only at refused
  split_ifs at refused with before missing
  · exact Or.inl ⟨before.1, before.2.1⟩
  · right
    obtain ⟨input, absent⟩ := List.exists_mem_of_ne_nil _ fun empty => missing (List.isEmpty_iff.mpr empty)
    obtain ⟨declared, absent⟩ := List.mem_filter.mp absent
    exact ⟨input, declared, of_decide_eq_true absent⟩

theorem allowed_before {index : Nat} {context : PhaseGuardContext} (later : 0 < index)
    (allowed : canTransitionToPhase machine index context = .allowed) :
    context.previousPhaseStatus = .completed ∨ context.previousPhaseStatus = .skipped := by
  unfold canTransitionToPhase at allowed
  split at allowed
  · cases allowed
  · split_ifs at allowed with before
    by_contra neither
    exact before ⟨later, fun same => neither (Or.inl same), fun same => neither (Or.inr same)⟩

theorem Orderly.previous (orderly : Orderly round.tasks machine) (later : 0 < machine.currentPhaseIndex) :
    ∃ previous, machine.phases[machine.currentPhaseIndex - 1]? = some previous ∧
      previousPhaseStatus machine machine.currentPhaseIndex = previous.status ∧
      (previous.status = .completed ∨ previous.status = .failed) := by
  have within : machine.currentPhaseIndex - 1 < machine.phases.length :=
    (Nat.sub_one_lt later.ne').trans_le orderly.bounded
  have there := List.getElem?_eq_getElem within
  refine ⟨_, there, ?_, ?_⟩
  · rw [previousPhaseStatus, if_pos later, there]
    rfl
  · rw [(orderly.passed _ _ (Nat.sub_one_lt later.ne') there).2]
    exact phaseStatus_cases _ _

def pass (round : Round) (machine : WorkflowStateMachine) (phase : PhaseState) : WorkflowStateMachine where
  phases := machine.phases.modify machine.currentPhaseIndex
    fun phase' => phase'.transition (phaseStatus round.tasks phase.name) round.now
  currentPhaseIndex := machine.currentPhaseIndex + 1

/-- **A phase is passed.** -/
theorem pass_orderly (orderly : Orderly round.tasks machine) {phase : PhaseState}
    (there : machine.phases[machine.currentPhaseIndex]? = some phase) (ended : Ended round.tasks phase.name)
    {completedArtifacts : List String} (allowed : canTransitionToPhase machine machine.currentPhaseIndex
      { completedArtifacts := completedArtifacts
        previousPhaseStatus := previousPhaseStatus machine machine.currentPhaseIndex } = .allowed) :
    Orderly round.tasks (pass round machine phase) := by
  have within : machine.currentPhaseIndex < machine.phases.length := (List.getElem?_eq_some_iff.mp there).1
  have other : ∀ index, index ≠ machine.currentPhaseIndex →
      (pass round machine phase).phases[index]? = machine.phases[index]? := fun index ne =>
    List.getElem?_modify_ne _ _ ne.symm
  have current : (pass round machine phase).phases[machine.currentPhaseIndex]? =
      some (phase.transition (phaseStatus round.tasks phase.name) round.now) := by
    show (machine.phases.modify _ _)[_]? = _
    rw [List.getElem?_modify_eq, there]
    rfl
  refine ⟨?_, fun index known before found => ?_, fun index known before found => ?_, fun index known later found => ?_⟩
  · show machine.currentPhaseIndex + 1 ≤ (machine.phases.modify _ _).length
    rw [List.length_modify]
    exact within
  · by_cases last : index = machine.currentPhaseIndex
    · rw [last, current] at found
      cases found
      exact ⟨ended, rfl⟩
    · rw [other index last] at found
      exact orderly.passed index known (lt_of_le_of_ne (Nat.le_of_lt_succ before) last) found
  · have before : index < machine.currentPhaseIndex := Nat.lt_of_succ_lt_succ before
    rw [other index before.ne] at found
    by_cases last : index + 1 = machine.currentPhaseIndex
    · -- the guard has looked at this phase
      obtain ⟨previous, same, status, either⟩ := orderly.previous (Nat.zero_lt_of_lt before)
      rw [← last, Nat.add_sub_cancel, found] at same
      cases same
      rcases allowed_before (Nat.zero_lt_of_lt before) allowed with completed | skipped
      · exact status.symm.trans completed
      · rw [status.symm.trans skipped] at either
        rcases either with no | no <;> cases no
    · exact orderly.clean index known (lt_of_le_of_ne before last) found
  · have later : machine.currentPhaseIndex < index := later
    rw [other index later.ne'] at found
    exact orderly.pending index known later.le found

/-- **The loop from the current phase on.** -/
theorem advanceFrom_outcome (turns : Nat) (machine : WorkflowStateMachine)
    (turns_eq : turns = machine.phases.length - machine.currentPhaseIndex)
    (orderly : Orderly round.tasks machine) :
    Outcome round machine (advanceFrom round turns machine.currentPhaseIndex machine) := by
  induction turns generalizing machine with
  | zero =>
    refine outcome_of_idle orderly turns_eq ⟨[], nofun, fun _ => rfl⟩ fun phase there => ?_
    have within := (List.getElem?_eq_some_iff.mp there).1
    omega
  | succ turns ih =>
    obtain ⟨phase, there⟩ : ∃ phase, machine.phases[machine.currentPhaseIndex]? = some phase :=
      ⟨_, List.getElem?_eq_getElem (by omega)⟩
    have pending := orderly.pending _ phase (le_refl _) there
    by_cases empty : phaseTaskIds round.tasks phase.name = []
    · -- nothing is passed after a phase without tasks
      obtain ⟨events, blocked, same⟩ :=
        advanceFrom_later orderly turns (machine.currentPhaseIndex + 1) (Nat.lt_succ_self _)
      refine outcome_of_idle orderly turns_eq
        ⟨events, blocked, fun now => (advanceFrom_empty (round.at now) there empty).trans (same now)⟩
        fun other found ended => ?_
      cases there.symm.trans found
      exact absurd empty ended.nonempty
    cases all : allTerminal round.tasks phase.name with
    | false =>
      refine outcome_of_idle orderly turns_eq
        ⟨[], nofun, fun now => advanceFrom_unended (round.at now) there empty all⟩
        fun other found ended => ?_
      cases there.symm.trans found
      exact absurd (ended.all.symm.trans all) nofun
    | true =>
      have ended : Ended round.tasks phase.name := ⟨empty, all⟩
      cases guard : canTransitionToPhase machine machine.currentPhaseIndex
          { completedArtifacts := completedArtifacts round.manifest
            previousPhaseStatus := previousPhaseStatus machine machine.currentPhaseIndex } with
      | refused reason =>
        refine outcome_of_idle orderly turns_eq
          ⟨[guardBlocked round phase machine.currentPhaseIndex reason], fun event mine => ?_,
            fun now => ?_⟩ fun other found _ inputs => ?_
        · rw [List.mem_singleton.mp mine]
          rfl
        · exact advanceFrom_refused (round.at now) there ended pending guard
        · cases there.symm.trans found
          rcases refused_cases there guard with ⟨later, before⟩ | ⟨input, declared, absent⟩
          · obtain ⟨previous, known, status, either⟩ := orderly.previous later
            exact ⟨_, previous, Nat.sub_one_add_one later.ne', known,
              either.resolve_left fun completed => before (status.trans completed)⟩
          · exact absurd (inputs input declared) absent
      | allowed =>
        have passed := pass_orderly orderly there ended guard
        have length : (pass round machine phase).phases.length = machine.phases.length :=
          List.length_modify _ _ _
        have rest := ih (pass round machine phase)
          (by rw [length]; show turns = _ - (machine.currentPhaseIndex + 1); omega) passed
        have goes : advanceFrom round (turns + 1) machine.currentPhaseIndex machine =
            let rest := advanceFrom round turns (machine.currentPhaseIndex + 1) (pass round machine phase)
            (rest.1, phaseEnded round phase machine.currentPhaseIndex (phaseStatus round.tasks phase.name)
              :: rest.2) := by
          rw [advanceFrom_allowed round there ended pending guard]
          rfl
        rw [goes]
        refine ⟨rest.orderly, (Nat.le_succ _).trans rest.forward, fun now => ?_, rest.stops⟩
        rw [List.filter_cons, if_neg]
        · exact rest.idle now
        · unfold PhaseEvent.isGuardBlocked phaseEnded
          dsimp only
          rcases phaseStatus_cases round.tasks phase.name with status | status <;> rw [status] <;> decide

end

section

variable {steps : List WorkflowStep} {machine : WorkflowStateMachine} {tasks : List TeamTaskState}
  {round : Round}

/-- **A machine of a run**: it was created from the steps, and then a round came after the other, whose
tasks go on from those of the round before. -/
inductive Reached (steps : List WorkflowStep) : WorkflowStateMachine → List TeamTaskState → Prop where
  | created (tasks : List TeamTaskState) :
      Reached steps (createWorkflowStateMachine (workflowPhases steps)) tasks
  | advanced (round : Round) {machine : WorkflowStateMachine} {tasks : List TeamTaskState}
      (reached : Reached steps machine tasks) (moves : Moves tasks round.tasks) :
      Reached steps (advanceWorkflowPhases round machine).1 round.tasks

theorem created_orderly (steps : List WorkflowStep) (tasks : List TeamTaskState) :
    Orderly tasks (createWorkflowStateMachine (workflowPhases steps)) := by
  refine ⟨Nat.zero_le _, fun _ _ => nofun, fun _ _ => nofun, fun index phase _ there => ?_⟩
  obtain ⟨step, -, rfl⟩ := List.mem_map.mp (List.mem_of_getElem? there)
  rfl

theorem advance_outcome (orderly : Orderly round.tasks machine) :
    Outcome round machine (advanceWorkflowPhases round machine) :=
  advanceFrom_outcome _ machine rfl orderly

theorem Reached.orderly (reached : Reached steps machine tasks) : Orderly tasks machine := by
  induction reached with
  | created tasks => exact created_orderly steps tasks
  | advanced round _ moves ih => exact (advance_outcome (ih.stays moves)).orderly

theorem Ended.terminal {name : String} (ended : Ended tasks name) :
    ∀ task ∈ phaseTasks tasks name, task.status ∈ terminalStatuses := by
  intro task there
  obtain ⟨id, mine, known⟩ := List.mem_filterMap.mp there
  obtain ⟨other, same, terminal⟩ := (allTerminal_iff tasks name).mp ended.all id mine
  cases known.symm.trans same
  exact terminal

theorem hasFailedOrCancelled_iff {name : String} : hasFailedOrCancelled tasks name = true ↔
    ∃ task ∈ phaseTasks tasks name, task.status = .failed ∨ task.status = .cancelled := by
  simp [hasFailedOrCancelled]

theorem ended_of_all {name : String} (nonempty : phaseTaskIds tasks name ≠ [])
    (all : ∀ task ∈ tasks, task.status ∈ terminalStatuses) : Ended tasks name := by
  refine ⟨nonempty, (allTerminal_iff tasks name).mpr fun id there => ?_⟩
  obtain ⟨task, mine, rfl⟩ := List.mem_map.mp there
  have found : (taskById tasks task.id).isSome := by
    refine List.find?_isSome.mpr ⟨task, ?_, beq_self_eq_true _⟩
    exact List.mem_reverse.mpr (List.mem_filter.mp mine).1
  obtain ⟨last, known⟩ := Option.isSome_iff_exists.mp found
  exact ⟨last, known, all last (List.mem_reverse.mp (List.mem_of_find?_eq_some known))⟩

/-- **The phases follow the tasks** in a round: the current phase does not go back; a phase has completed or
failed only if its tasks have ended, and failed exactly if one of them failed or was cancelled; the round
again, at any time, changes nothing and reports nothing but the blocked phase again; and where all tasks
have ended and all inputs are there, a phase with tasks has completed or failed exactly if every phase
before it has tasks, none of which failed or was cancelled. -/
structure Follows (round : Round) (machine : WorkflowStateMachine)
    (next : WorkflowStateMachine × List PhaseEvent) : Prop where
  forward : machine.currentPhaseIndex ≤ next.1.currentPhaseIndex
  ended : ∀ phase ∈ next.1.phases, phase.status = .completed ∨ phase.status = .failed →
    (∀ task ∈ phaseTasks round.tasks phase.name, task.status ∈ terminalStatuses) ∧
      (phase.status = .failed ↔
        ∃ task ∈ phaseTasks round.tasks phase.name, task.status = .failed ∨ task.status = .cancelled)
  repeated : ∀ now, advanceWorkflowPhases (round.at now) next.1 = (next.1, next.2.filter PhaseEvent.isGuardBlocked)
  passed : (∀ task ∈ round.tasks, task.status ∈ terminalStatuses) →
    (∀ phase ∈ next.1.phases, ∀ input ∈ phase.inputs, input ∈ completedArtifacts round.manifest) →
    ∀ (index : Nat) (phase : PhaseState), next.1.phases[index]? = some phase → phaseTaskIds round.tasks phase.name ≠ [] →
      ((phase.status = .completed ∨ phase.status = .failed) ↔
        ∀ (before : Nat) (earlier : PhaseState), before < index → next.1.phases[before]? = some earlier →
          phaseTaskIds round.tasks earlier.name ≠ [] ∧ hasFailedOrCancelled round.tasks earlier.name = false)

/-- **In every round of every run, the phases follow the tasks.** -/
theorem phases_follow (reached : Reached steps machine tasks) (moves : Moves tasks round.tasks) :
    Follows round machine (advanceWorkflowPhases round machine) := by
  have outcome := advance_outcome (reached.orderly.stays moves)
  let next := (advanceWorkflowPhases round machine).1
  have orderly : Orderly round.tasks next := outcome.orderly
  have before : ∀ index phase, next.phases[index]? = some phase →
      phase.status = .completed ∨ phase.status = .failed → index < next.currentPhaseIndex := by
    intro index phase there either
    by_contra later
    rw [orderly.pending index phase (Nat.not_lt.mp later) there] at either
    rcases either with no | no <;> cases no
  refine ⟨outcome.forward, fun phase there either => ?_, outcome.idle, fun all inputs index phase there nonempty => ?_⟩
  · obtain ⟨index, there⟩ := List.mem_iff_getElem?.mp there
    obtain ⟨ended, status⟩ := orderly.passed index phase (before index phase there either) there
    exact ⟨ended.terminal, by rw [status, phaseStatus_failed, hasFailedOrCancelled_iff]⟩
  · constructor
    · intro either other earlier less known
      have within := before index phase there either
      obtain ⟨ended, status⟩ := orderly.passed other earlier (less.trans within) known
      have clean := orderly.clean other earlier (Nat.lt_of_le_of_lt less within) known
      refine ⟨ended.nonempty, Bool.eq_false_iff.mpr fun failed => ?_⟩
      rw [status, phaseStatus_failed.mpr failed] at clean
      cases clean
    · intro clear
      by_contra neither
      -- the phase is still pending, so that the machine has stopped at it or before it
      have stopped : next.currentPhaseIndex ≤ index := by
        by_contra within
        refine neither ?_
        rw [(orderly.passed index phase (Nat.not_le.mp within) there).2]
        exact phaseStatus_cases _ _
      obtain ⟨current, known⟩ : ∃ current, next.phases[next.currentPhaseIndex]? = some current :=
        ⟨_, List.getElem?_eq_getElem (stopped.trans_lt (List.getElem?_eq_some_iff.mp there).1)⟩
      have tasksThere : phaseTaskIds round.tasks current.name ≠ [] := by
        rcases stopped.eq_or_lt with same | less
        · rw [same, there] at known
          cases known
          exact nonempty
        · exact (clear _ current less known).1
      obtain ⟨last, previous, follows, found, failed⟩ := outcome.stops current known (ended_of_all tasksThere all)
        (inputs current (List.mem_of_getElem? known))
      have less : last < next.currentPhaseIndex := follows ▸ Nat.lt_succ_self last
      have status := (orderly.passed last previous less found).2
      have clean := (clear last previous (less.trans_le stopped) found).2
      rw [failed] at status
      exact absurd (phaseStatus_failed.mp status.symm) (by rw [clean]; exact nofun)

def twoSteps (first second : TeamTaskStatus) : Round where
  tasks := [{ id := "1", stepId := some "a", status := first }, { id := "2", stepId := some "b", status := second }]

def independentSteps : List WorkflowStep := [{ id := "a" }, { id := "b" }]

theorem twoSteps_moves {first second third fourth : TeamTaskStatus}
    (one : first ∈ terminalStatuses → third = first) (two : second ∈ terminalStatuses → fourth = second) :
    Moves (twoSteps first second).tasks (twoSteps third fourth).tasks :=
  .cons ⟨rfl, rfl, one⟩ (.cons ⟨rfl, rfl, two⟩ .nil)

theorem twoSteps_follow : Follows (twoSteps .completed .failed)
    (advanceWorkflowPhases (twoSteps .completed .running)
      (createWorkflowStateMachine (workflowPhases independentSteps))).1
    (advanceWorkflowPhases (twoSteps .completed .failed)
      (advanceWorkflowPhases (twoSteps .completed .running)
        (createWorkflowStateMachine (workflowPhases independentSteps))).1) :=
  phases_follow
    (.advanced (twoSteps .completed .running) (.created (twoSteps .running .running).tasks)
      (twoSteps_moves nofun nofun))
    (twoSteps_moves (fun _ => rfl) nofun)

/-- **A phase that has failed blocks one that does not depend on it**: all tasks have ended, no inputs are
declared, and the second phase stays pending. -/
theorem failed_phase_blocks : ¬ ∀ (steps : List WorkflowStep) (machine : WorkflowStateMachine)
    (tasks : List TeamTaskState) (round : Round), Reached steps machine tasks → Moves tasks round.tasks →
      (∀ task ∈ round.tasks, task.status ∈ terminalStatuses) →
      (∀ phase ∈ machine.phases, ∀ input ∈ phase.inputs, input ∈ completedArtifacts round.manifest) →
        ∀ phase ∈ (advanceWorkflowPhases round machine).1.phases, phaseTaskIds round.tasks phase.name ≠ [] →
          phase.status = .completed ∨ phase.status = .failed := by
  intro always
  have second := always independentSteps (createWorkflowStateMachine (workflowPhases independentSteps))
    (twoSteps .running .running).tasks (twoSteps .failed .completed) (.created _) (twoSteps_moves nofun nofun)
    (by decide) (by decide) { name := "b" } (by decide) (by decide)
  exact absurd second (by decide)

end

end PiCrew.Workflow
