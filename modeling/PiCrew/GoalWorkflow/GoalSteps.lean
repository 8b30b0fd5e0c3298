/-
**Goal processes whose calls are single actions.**

The programs of the goal loop and of the sub-actions with every call of the store as one action on the goal
file, and with the lock of the workspace: a loop waits for it before its first round and gives it back after
its last one.

* `setStatus_kept`, `resume_kept` — what the sub-actions do to them.
-/

import PiCrew.GoalWorkflow.GoalLoop

namespace PiCrew.GoalWorkflow

/-- The goal file, and the process that the lock file of the workspace names. -/
structure GoalWorld where
  file : Option GoalLoopState
  workspace : Option Nat := none
  deriving DecidableEq

/-- **One step of a program**: a call is one action. The workspace is waited for as long as its lock file is
not stale, and given back where it is the own one. -/
def GoalProgram.step (slot : Nat) (input : GoalInput) (world : GoalWorld) :
    GoalProgram → GoalProgram × GoalWorld
  | .done reply => (.done reply, world)
  | .again goal => (iteration input goal, world)
  | .acquire goal next =>
    if !input.acquired then (next false, world)
    else if world.workspace = none ∨ input.workspaceStale then
      (next true, { world with workspace := some slot })
    else (.acquire goal next, world)
  | .release goal =>
    (.done (.loopEnded goal),
      { world with workspace := if world.workspace = some slot then none else world.workspace })
  | .turn _ next => (next, world)
  | .turnEnd next | .judge next | .ask next => (next input, world)
  | .call asked next =>
    (next (asked.run input.casHeld world.file).1,
      { world with file := (asked.run input.casHeld world.file).2 })

/-- **A sub-action as one action**: its calls, one after the other. -/
def GoalProgram.runAll (input : GoalInput) : GoalProgram → Option GoalLoopState →
    GoalProgram × Option GoalLoopState
  | .call asked next, file =>
    (next (asked.run input.casHeld file).1).runAll input (asked.run input.casHeld file).2
  | .ask next, file => (next input).runAll input file
  | .done reply, file => (.done reply, file)
  | .again goal, file => (.again goal, file)
  | .acquire goal next, file => (.acquire goal next, file)
  | .release goal, file => (.release goal, file)
  | .turn runId next, file => (.turn runId next, file)
  | .turnEnd next, file => (.turnEnd next, file)
  | .judge next, file => (.judge next, file)

/-- **What is kept of a record**: its counters do not go down, and a terminal state stays. -/
structure GoalKept (before after : GoalLoopState) : Prop where
  turnsUsed : before.turnsUsed ≤ after.turnsUsed
  budgetUsed : before.budgetUsed ≤ after.budgetUsed
  state : before.state.terminal → after.state = before.state

theorem GoalKept.rfl {goal : GoalLoopState} : GoalKept goal goal := ⟨le_rfl, le_rfl, fun _ => Eq.refl _⟩

theorem GoalKept.trans {first second third : GoalLoopState} (former : GoalKept first second)
    (latter : GoalKept second third) : GoalKept first third where
  turnsUsed := former.turnsUsed.trans latter.turnsUsed
  budgetUsed := former.budgetUsed.trans latter.budgetUsed
  state := fun terminal =>
    (latter.state ((former.state terminal).symm ▸ terminal)).trans (former.state terminal)

/-- A record with other values of what is no counter. -/
structure SameCounters (before after : GoalLoopState) : Prop where
  turnsUsed : after.turnsUsed = before.turnsUsed
  budgetUsed : after.budgetUsed = before.budgetUsed
  state : before.state.terminal → after.state = before.state

theorem SameCounters.kept {before after : GoalLoopState} (same : SameCounters before after) :
    GoalKept before after :=
  ⟨same.turnsUsed.ge, same.budgetUsed.ge, same.state⟩

theorem not_terminal_of_eq {state other : GoalLoopStatus} (same : state = other)
    (open' : other.terminal = false) {P : Prop} (terminal : state.terminal) : P := by
  rw [same, open'] at terminal
  exact absurd terminal Bool.false_ne_true

theorem settleStatus_same (proposed : GoalLoopStatus) (goal : GoalLoopState) :
    SameCounters goal (settleStatus proposed goal) := by
  rw [settleStatus]
  split_ifs with running
  · exact ⟨rfl, rfl, not_terminal_of_eq running rfl⟩
  · exact ⟨rfl, rfl, fun _ => rfl⟩

theorem patch_same {fields : GoalPatch} {goal : GoalLoopState} (turns : fields.turnsUsed = none)
    (budget : fields.budgetUsed = none)
    (state : fields.state = none ∨ goal.state.terminal = false ∨ fields.state = some goal.state) :
    SameCounters goal (fields.apply goal) := by
  refine ⟨?_, ?_, fun terminal => ?_⟩
  · rw [GoalPatch.apply, turns]
    rfl
  · rw [GoalPatch.apply, budget]
    rfl
  · rw [GoalPatch.apply]
    rcases state with none | open' | same
    · rw [none]
      rfl
    · exact absurd (terminal.symm.trans open') (by decide)
    · rw [same]
      rfl

theorem swapStatus_same {expected next : GoalLoopStatus} (open' : expected.terminal = false) (held : Bool)
    (goal : GoalLoopState) :
    ∃ after, ((GoalCall.compareAndSetStatus expected next).run held (some goal)).2 = some after ∧
      SameCounters goal after := by
  cases held with
  | true => exact ⟨goal, rfl, rfl, rfl, fun _ => rfl⟩
  | false =>
    by_cases same : goal.state = expected
    · refine ⟨{ goal with state := next }, ?_, rfl, rfl, not_terminal_of_eq same open'⟩
      rw [GoalCall.run, if_neg Bool.false_ne_true, Option.bind_some, swapStatus, if_pos same]
      rfl
    · refine ⟨goal, ?_, rfl, rfl, fun _ => rfl⟩
      rw [GoalCall.run, if_neg Bool.false_ne_true, Option.bind_some, swapStatus, if_neg same]
      rfl

section

/-- **A program keeps the counters of a goal**, from the values that are stored, as long as no other one changes
them. A loop begins a round with at most one turn less than stored. -/
def GoalProgram.Keeps : GoalProgram → Nat → Nat → Prop
  | .done _, _, _ | .release _, _, _ => True
  | .again goal, turns, _ => goal.state = .running → turns ≤ goal.turnsUsed + 1
  | .acquire _ _, _, _ => False
  | .turn _ next, turns, budget => next.Keeps turns budget
  | .turnEnd next, turns, budget | .judge next, turns, budget | .ask next, turns, budget =>
    ∀ input, (next input).Keeps turns budget
  | .call asked next, turns, budget => ∀ held file, file.turnsUsed = turns → file.budgetUsed = budget →
      ∃ after, (asked.run held (some file)).2 = some after ∧ GoalKept file after ∧
        (next (asked.run held (some file)).1).Keeps after.turnsUsed after.budgetUsed

variable {turns budget : Nat} {goal : GoalLoopState} {next : GoalLoopState → GoalProgram}

theorem keeps_safeSetStatus {proposed : GoalLoopStatus}
    (each : ∀ goal : GoalLoopState, goal.turnsUsed = turns → goal.budgetUsed = budget →
      (next goal).Keeps turns budget) : (safeSetStatus proposed goal next).Keeps turns budget := by
  rintro held file rfl rfl
  have same := settleStatus_same proposed file
  refine ⟨settleStatus proposed file, rfl, same.kept, ?_⟩
  have follows := each (settleStatus proposed file) same.turnsUsed same.budgetUsed
  rw [same.turnsUsed, same.budgetUsed]
  exact follows

theorem keeps_patchGoal {fields : GoalPatch} (stateless : fields.state = none)
    (turnsUp : turns ≤ fields.turnsUsed.getD turns) (budgetUp : budget ≤ fields.budgetUsed.getD budget)
    (each : ∀ goal : GoalLoopState, goal.turnsUsed = fields.turnsUsed.getD turns →
      goal.budgetUsed = fields.budgetUsed.getD budget →
      (next goal).Keeps (fields.turnsUsed.getD turns) (fields.budgetUsed.getD budget)) :
    (patchGoal fields goal next).Keeps turns budget := by
  rintro held file rfl rfl
  have state : (fields.apply file).state = file.state := by
    rw [GoalPatch.apply, stateless]
    rfl
  exact ⟨fields.apply file, rfl, ⟨turnsUp, budgetUp, fun _ => state⟩, each (fields.apply file) rfl rfl⟩

theorem keeps_afterWait {input : GoalInput} (used : goal.turnsUsed = turns)
    (spent : goal.budgetUsed = budget)
    (each : ∀ goal : GoalLoopState, goal.turnsUsed = turns → goal.budgetUsed = budget →
      (next goal).Keeps turns budget) : (afterWait input goal next).Keeps turns budget := by
  rw [afterWait]
  split_ifs
  · exact keeps_safeSetStatus each
  · exact each goal used spent

theorem keeps_leaveLoop (goal : GoalLoopState) : (leaveLoop goal).Keeps turns budget := by
  intro input
  dsimp only
  split_ifs
  · exact keeps_safeSetStatus fun _ _ _ => trivial
  · exact keeps_safeSetStatus fun _ _ _ => trivial
  · trivial

theorem keeps_failLoop (message : String) (goal : GoalLoopState) :
    (failLoop message goal).Keeps turns budget :=
  keeps_patchGoal rfl le_rfl le_rfl fun _ _ _ => keeps_safeSetStatus fun _ _ _ => trivial

theorem keeps_endTurn (turnError : String) (goal : GoalLoopState) :
    (endTurn turnError goal).Keeps turns budget :=
  keeps_patchGoal rfl le_rfl le_rfl fun _ _ _ => keeps_safeSetStatus fun goal _ _ => keeps_leaveLoop goal

theorem keeps_yieldBetweenTurns (used : goal.turnsUsed = turns) (spent : goal.budgetUsed = budget) :
    (yieldBetweenTurns goal).Keeps turns budget :=
  fun _ => keeps_afterWait used spent fun _ used _ _ => used ▸ Nat.le_succ _

theorem keeps_applyVerdict (verdict : GoalVerdict) (used : goal.turnsUsed = turns)
    (spent : goal.budgetUsed = budget) : (applyVerdict verdict goal).Keeps turns budget := by
  rw [applyVerdict]
  split_ifs
  · exact keeps_safeSetStatus fun goal _ _ => keeps_leaveLoop goal
  · exact keeps_safeSetStatus fun goal _ _ => keeps_leaveLoop goal
  · exact keeps_safeSetStatus fun goal _ _ => keeps_leaveLoop goal
  · intro input
    dsimp only
    split_ifs
    · rintro held file turnsUsed budgetUsed
      obtain ⟨after, there, same⟩ := @swapStatus_same .running .stuck rfl held file
      refine ⟨after, there, same.kept, ?_⟩
      rw [same.turnsUsed, same.budgetUsed, turnsUsed, budgetUsed]
      cases ((GoalCall.compareAndSetStatus .running .stuck).run held (some file)).1 with
      | none => exact keeps_yieldBetweenTurns used spent
      | some goal => exact keeps_leaveLoop goal
    · exact keeps_yieldBetweenTurns used spent

theorem keeps_afterJudgement {turnIndex : Nat} {runId : String} {turnBudget : Nat} {input : GoalInput}
    (goal : GoalLoopState) (up : budget ≤ turnBudget) :
    (afterJudgement turnIndex runId turnBudget input goal).Keeps turns budget := by
  rw [afterJudgement]
  cases input.judged with
  | threw message => exact keeps_failLoop message goal
  | gave verdict tokens =>
    exact keeps_patchGoal rfl le_rfl (up.trans (Nat.le_add_right _ _)) fun _ used spent =>
      keeps_applyVerdict verdict used spent

theorem keeps_afterTurn {turnIndex : Nat} {runId : String} {input : GoalInput}
    (used : goal.turnsUsed = turns) (spent : goal.budgetUsed = budget) :
    (afterTurn turnIndex runId input goal).Keeps turns budget := by
  rw [afterTurn]
  cases input.turn with
  | threw message => exact keeps_failLoop message goal
  | blocked summary | failed summary => exact keeps_endTurn _ goal
  | finished =>
    have up : budget ≤ accumulateBudget goal input.tokens := spent ▸ Nat.le_add_right _ _
    exact fun _ => keeps_afterWait used spent fun goal _ _ => keeps_afterJudgement goal up

theorem keeps_startTurn {turnIndex : Nat} {runId : String} (used : goal.turnsUsed = turns)
    (spent : goal.budgetUsed = budget) : (startTurn turnIndex runId goal).Keeps turns budget := by
  rw [startTurn]
  split_ifs
  · exact fun _ => keeps_afterWait used spent fun _ used spent => keeps_afterTurn used spent
  · exact keeps_leaveLoop goal

theorem keeps_iteration (input : GoalInput) (recent : goal.state = .running → turns ≤ goal.turnsUsed + 1) :
    (iteration input goal).Keeps turns budget := by
  rw [iteration]
  split_ifs with runs
  · exact keeps_safeSetStatus fun goal _ _ => keeps_leaveLoop goal
  · exact keeps_safeSetStatus fun goal _ _ => keeps_leaveLoop goal
  · cases input.created with
    | threw message => exact keeps_failLoop message goal
    | made runId =>
      exact keeps_patchGoal rfl (recent runs.1) le_rfl fun _ used spent => keeps_startTurn used spent
  · exact keeps_leaveLoop goal

end

/-- **A program that ends, with calls that keep the counters whatever the record is.** -/
def GoalProgram.Mild : GoalProgram → Prop
  | .done _ => True
  | .ask next => ∀ input, (next input).Mild
  | .call asked next =>
    (∀ held goal, ∃ after, (asked.run held (some goal)).2 = some after ∧ SameCounters goal after) ∧
      ∀ result, (next result).Mild
  | _ => False

theorem SameCounters.trans {first second third : GoalLoopState} (former : SameCounters first second)
    (latter : SameCounters second third) : SameCounters first third where
  turnsUsed := latter.turnsUsed.trans former.turnsUsed
  budgetUsed := latter.budgetUsed.trans former.budgetUsed
  state := fun terminal =>
    (latter.state ((former.state terminal).symm ▸ terminal)).trans (former.state terminal)

theorem SameCounters.refl (goal : GoalLoopState) : SameCounters goal goal := ⟨rfl, rfl, fun _ => rfl⟩

theorem mild_runAll {program : GoalProgram} (mild : program.Mild) (input : GoalInput) (goal : GoalLoopState) :
    ∃ reply after, program.runAll input (some goal) = (.done reply, some after) ∧
      SameCounters goal after := by
  induction program generalizing goal with
  | done reply => exact ⟨reply, goal, rfl, .refl goal⟩
  | ask next ih => exact ih input (mild input) goal
  | call asked next ih =>
    obtain ⟨after, there, same⟩ := mild.1 input.casHeld goal
    obtain ⟨reply, last, runs, rest⟩ := ih _ (mild.2 _) after
    refine ⟨reply, last, ?_, same.trans rest⟩
    rw [GoalProgram.runAll, there]
    exact runs
  | _ => exact mild.elim

theorem mild_safeSetStatus {proposed : GoalLoopStatus} {goal : GoalLoopState}
    {next : GoalLoopState → GoalProgram} (each : ∀ goal, (next goal).Mild) :
    (safeSetStatus proposed goal next).Mild :=
  ⟨fun _ goal => ⟨_, rfl, settleStatus_same proposed goal⟩, fun _ => each _⟩

theorem mild_swap {expected next : GoalLoopStatus} {rest : Option GoalLoopState → GoalProgram}
    (open' : expected.terminal = false) (each : ∀ result, (rest result).Mild) :
    (GoalProgram.call (.compareAndSetStatus expected next) rest).Mild :=
  ⟨fun held goal => swapStatus_same open' held goal, each⟩

theorem mild_spawnLoop (fromState : GoalLoopStatus) : (spawnLoop fromState).Mild := by
  intro input
  dsimp only
  split_ifs
  · trivial
  · exact mild_swap rfl fun _ => trivial

section

variable {request : GoalRequest} {input : GoalInput} {goal : GoalLoopState}

theorem withGoal_runAll (next : GoalLoopState → GoalProgram) :
    (withGoal request next).runAll input (some goal) =
      if assertGoalOwnership goal request then (next goal).runAll input (some goal)
      else (.done (.denied goal.ownerSessionId), some goal) := by
  rw [withGoal, GoalProgram.runAll]
  dsimp only [GoalCall.run, Option.map_some, Option.getD_some]
  split_ifs
  · rfl
  · rfl

theorem setStatus_kept {state : GoalLoopStatus} {next : Option GoalLoopState → GoalReply}
    (may : goal.state.terminal = false ∨ goal.state = state) :
    ∃ reply after, (withGoal request fun _ => .call (.setStatus state) fun updated =>
        .done (next updated)).runAll input (some goal) = (.done reply, some after) ∧
      SameCounters goal after := by
  rw [withGoal_runAll]
  split_ifs
  · have may' : goal.state.terminal = false ∨ some state = some goal.state :=
      may.imp_right fun same => by rw [same]
    exact ⟨_, _, rfl, patch_same rfl rfl (.inr may')⟩
  · exact ⟨_, goal, rfl, .refl goal⟩

/-- **A resume keeps the counters**, and a goal that is done as it is. -/
theorem resume_kept (request : GoalRequest) (input : GoalInput) (goal : GoalLoopState) :
    ∃ reply after, (handleResume request).runAll input (some goal) = (.done reply, some after) ∧
      SameCounters goal after := by
  rw [handleResume, withGoal_runAll]
  split_ifs with owned resumable
  · have open' : goal.state.terminal = false := by
      rcases resumable with paused | stuck
      · rw [paused]
        rfl
      · rw [stuck]
        rfl
    refine mild_runAll (mild_swap open' fun updated => ?_) input goal
    split_ifs
    · cases request.hint with
      | none => exact mild_spawnLoop goal.state
      | some hint =>
        exact ⟨fun _ goal => ⟨_, rfl, patch_same rfl rfl (.inl rfl)⟩, fun _ => mild_spawnLoop _⟩
    · trivial
  · exact ⟨_, goal, rfl, .refl goal⟩
  · exact ⟨_, goal, rfl, .refl goal⟩

end

end PiCrew.GoalWorkflow
