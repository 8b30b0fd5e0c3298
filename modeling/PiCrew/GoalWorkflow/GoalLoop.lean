/-
**The goal loop and the goal sub-actions.**

`runGoalLoop` (`runtime/goal-workflow/goal-loop-runner.ts`) and the sub-actions pause, stop and resume
(`extension/team-tool/goal.ts`) as programs over the calls of the store. A program makes one call, or is told
one thing from outside, at a time; where a turn runs, a verdict is given or a pause is over, and where the
workspace lock is waited for, other processes act in between.

* `GoalCommand.program` — what a process runs.

A loop keeps the record that a call last gave it, and reads it again only by the next call. The prompt of a
turn, the evidence of its verdict and the events are left out; whether the verdicts go in circles is told from
outside, as are the workspace lock and the end of a turn.
-/

import PiCrew.GoalWorkflow.GoalStore

namespace PiCrew.GoalWorkflow

inductive TurnEnding where
  | threw (message : String)
  | blocked (summary : Option String)
  | failed (summary : Option String)
  | finished
  deriving DecidableEq

/-- What the judge gives: an exception, or a verdict and the tokens it took. -/
inductive Judgement where
  | threw (message : String)
  | gave (verdict : GoalVerdict) (tokens : Nat)
  deriving DecidableEq

/-- The run of a turn is created, or creating it throws. -/
inductive TurnCreated where
  | threw (message : String)
  | made (runId : String)
  deriving DecidableEq

/-- **What a process is told from outside**, each where it asks for it. `tokens` are the readable metrics of a
turn that was run; `ownershipLost` is the heartbeat of the workspace lock failing during a wait; `lockStale`,
`casHeld` and `workspaceStale` are what it finds of lock files. -/
structure GoalInput where
  acquired : Bool := true
  aborted : Bool := false
  created : TurnCreated := .made "run"
  turn : TurnEnding := .finished
  tokens : Option Nat := none
  judged : Judgement := .threw "no verdict"
  oscillates : Bool := false
  ownershipLost : Bool := false
  spawned : Bool := true
  lockStale : Bool := false
  casHeld : Bool := false
  workspaceStale : Bool := false
  deriving DecidableEq

/-- The answers of a program: a loop that is over, or the reply of a sub-action. -/
inductive GoalReply where
  | notFound
  | denied (owner : String)
  | flipped (state : GoalLoopStatus)
  | stopped (cancelledRunId : Option String)
  | notResumable (state : GoalLoopStatus)
  | raced
  | resumed (fromState : GoalLoopStatus)
  | spawnFailed (state : GoalLoopStatus)
  | loopEnded (goal : GoalLoopState)

inductive GoalProgram where
  | done (reply : GoalReply)
  /-- The head of the while loop, with the record that the loop has. -/
  | again (goal : GoalLoopState)
  /-- The workspace lock is waited for. -/
  | acquire (goal : GoalLoopState) (next : Bool → GoalProgram)
  /-- The loop is over: the workspace lock is given back. -/
  | release (goal : GoalLoopState)
  /-- The run of a turn is started. -/
  | turn (runId : String) (next : GoalProgram)
  /-- The end of that run is waited for. -/
  | turnEnd (next : GoalInput → GoalProgram)
  /-- A turn is judged. -/
  | judge (next : GoalInput → GoalProgram)
  | ask (next : GoalInput → GoalProgram)
  | call (call : GoalCall) (next : Option GoalLoopState → GoalProgram)

/-- The budget that is not to be reached, where there is one. -/
def GoalLoopState.abortsAt (goal : GoalLoopState) : Option ℚ :=
  if goal.budgetUnlimited = some true then none
  else goal.budgetTotal.bind fun total => goal.budgetAbort.bind fun abort =>
    if 0 < total then some (abort * total) else none

def GoalLoopState.overBudget (goal : GoalLoopState) : Bool :=
  goal.abortsAt.any fun limit => decide (limit ≤ (goal.budgetUsed : ℚ))

/-- `accumulateBudget`: metrics that cannot be read leave the budget as it is. -/
def accumulateBudget (goal : GoalLoopState) (tokens : Option Nat) : Nat :=
  goal.budgetUsed + tokens.getD 0

/-- `safeSetStatus`, and how a loop goes on with the record that it gives. -/
def safeSetStatus (proposed : GoalLoopStatus) (goal : GoalLoopState)
    (next : GoalLoopState → GoalProgram) : GoalProgram :=
  .call (.safeSetStatus proposed) fun settled => next (settled.getD { goal with state := proposed })

def patchGoal (fields : GoalPatch) (goal : GoalLoopState) (next : GoalLoopState → GoalProgram) :
    GoalProgram :=
  .call (.patch fields) fun patched => next (patched.getD goal)

def afterWait (input : GoalInput) (goal : GoalLoopState) (next : GoalLoopState → GoalProgram) :
    GoalProgram :=
  if input.ownershipLost then safeSetStatus .blocked goal next else next goal

def leaveLoop (goal : GoalLoopState) : GoalProgram := .ask fun input =>
    if goal.state = .running then
      safeSetStatus (if input.aborted then .cancelled else .maxTurns) goal .release
    else .release goal

def failLoop (message : String) (goal : GoalLoopState) : GoalProgram :=
  patchGoal { lastTurnError := some message, currentRunId := some none } goal fun goal =>
    safeSetStatus .blocked goal .release

def endTurn (turnError : String) (goal : GoalLoopState) : GoalProgram :=
  patchGoal { lastTurnError := some turnError, currentRunId := some none } goal fun goal =>
    safeSetStatus .blocked goal leaveLoop

def yieldBetweenTurns (goal : GoalLoopState) : GoalProgram :=
  .ask fun input => afterWait input goal .again

def applyVerdict (verdict : GoalVerdict) (goal : GoalLoopState) : GoalProgram :=
  if verdict.achieved then safeSetStatus .achieved goal leaveLoop
  else if "BLOCKED:".toList <+: verdict.reason.toList then safeSetStatus .blocked goal leaveLoop
  else if goal.maxTurns ≤ goal.turnsUsed then safeSetStatus .maxTurns goal leaveLoop
  else .ask fun input =>
    if input.oscillates then
      .call (.compareAndSetStatus .running .stuck) fun stuck =>
        (stuck.map leaveLoop).getD (yieldBetweenTurns goal)
    else yieldBetweenTurns goal

def verdictPatch (runId : String) (turnIndex budget : Nat) (verdict : GoalVerdict) (goal : GoalLoopState) :
    GoalPatch where
  budgetUsed := some budget
  verdicts := some (goal.verdicts ++ [verdict])
  history := some (goal.history ++
    [{ runId := runId, outcome := if verdict.achieved then "achieved" else "not-achieved",
       turn := turnIndex }])
  currentRunId := some none
  nextTurnFeedback := some (if verdict.achieved then none else some verdict.reason)

def afterJudgement (turnIndex : Nat) (runId : String) (turnBudget : Nat) (input : GoalInput)
    (goal : GoalLoopState) : GoalProgram :=
  match input.judged with
  | .threw message => failLoop message goal
  | .gave verdict tokens =>
    patchGoal (verdictPatch runId turnIndex (turnBudget + tokens) verdict goal) goal (applyVerdict verdict)

def judgeTurn (turnIndex : Nat) (runId : String) (turnBudget : Nat) (goal : GoalLoopState) : GoalProgram :=
  .judge fun input => afterWait input goal (afterJudgement turnIndex runId turnBudget input)

def afterTurn (turnIndex : Nat) (runId : String) (input : GoalInput) (goal : GoalLoopState) : GoalProgram :=
  match input.turn with
  | .threw message => failLoop message goal
  | .blocked summary => endTurn (summary.getD s!"turn {turnIndex} ended blocked") goal
  | .failed summary => endTurn (summary.getD s!"turn {turnIndex} ended failed") goal
  | .finished => judgeTurn turnIndex runId (accumulateBudget goal input.tokens) goal

def startTurn (turnIndex : Nat) (runId : String) (goal : GoalLoopState) : GoalProgram :=
  if goal.state = .running then
    .turn runId (.turnEnd fun input => afterWait input goal (afterTurn turnIndex runId input))
  else leaveLoop goal

def iteration (input : GoalInput) (goal : GoalLoopState) : GoalProgram :=
  if goal.state = .running ∧ goal.turnsUsed < goal.maxTurns then
    if input.aborted then safeSetStatus .cancelled goal leaveLoop
    else if goal.overBudget then safeSetStatus .budgetExceeded goal leaveLoop
    else
      match input.created with
      | .threw message => failLoop message goal
      | .made runId =>
        patchGoal { currentRunId := some (some runId), turnsUsed := some (goal.turnsUsed + 1) } goal
          (startTurn (goal.turnsUsed + 1) runId)
  else leaveLoop goal

def runGoalLoop (goal : GoalLoopState) : GoalProgram := .acquire goal fun acquired =>
    if acquired then .again goal
    else safeSetStatus .blocked goal fun goal => .done (.loopEnded goal)

def goalLoopProcess : GoalProgram :=
  .call .load fun loaded => (loaded.map runGoalLoop).getD (.done .notFound)

/-- A sub-action: the session that asks for it, and its parameters. -/
structure GoalRequest where
  session : Option String := none
  force : Bool := false
  hint : Option String := none
  deriving DecidableEq

/-- `assertGoalOwnership`: another session's goal is not touched while it is running or paused. -/
def assertGoalOwnership (goal : GoalLoopState) (request : GoalRequest) : Bool :=
  request.force || !(goal.ownerSessionId ≠ "" ∧ request.session.any fun session =>
    session ≠ "" ∧ goal.ownerSessionId ≠ session ∧ (goal.state = .running ∨ goal.state = .paused))

/-- What the sub-actions have in common: the goal is loaded, and its owner is asked for. -/
def withGoal (request : GoalRequest) (next : GoalLoopState → GoalProgram) : GoalProgram :=
  .call .load fun loaded =>
    (loaded.map fun goal =>
      if assertGoalOwnership goal request then next goal
      else .done (.denied goal.ownerSessionId)).getD (.done .notFound)

/-- `goal pause`: the state is set, whatever it was. -/
def handlePause (request : GoalRequest) : GoalProgram :=
  withGoal request fun _ =>
    .call (.setStatus .paused) fun updated =>
      .done ((updated.map fun goal => GoalReply.flipped goal.state).getD .notFound)

/-- `goal stop`: the state is set, whatever it was; the run of a turn is cancelled by its id. -/
def handleStop (request : GoalRequest) : GoalProgram :=
  withGoal request fun _ =>
    .call (.setStatus .cancelled) fun updated =>
      .done (.stopped (updated.bind fun goal => goal.currentRunId))

/-- The new background process of a goal that is resumed; where it cannot be spawned, the state is put back. -/
def spawnLoop (fromState : GoalLoopStatus) : GoalProgram := .ask fun input =>
    if input.spawned then .done (.resumed fromState)
    else .call (.compareAndSetStatus .running fromState) fun _ => .done (.spawnFailed fromState)

/-- `goal resume`. -/
def handleResume (request : GoalRequest) : GoalProgram :=
  withGoal request fun existing =>
    if existing.state = .paused ∨ existing.state = .stuck then
      .call (.compareAndSetStatus existing.state .running) fun updated =>
        if updated.isSome then
          (request.hint.map fun hint =>
            GoalProgram.call (.patch { nextTurnFeedback := some (some hint) })
              fun _ => spawnLoop existing.state).getD (spawnLoop existing.state)
        else .done .raced
    else .done (.notResumable existing.state)

inductive GoalCommand where
  | loop
  | pause (request : GoalRequest)
  | stop (request : GoalRequest)
  | resume (request : GoalRequest)
  deriving DecidableEq

def GoalCommand.program : GoalCommand → GoalProgram
  | .loop => goalLoopProcess
  | .pause request => handlePause request
  | .stop request => handleStop request
  | .resume request => handleResume request

end PiCrew.GoalWorkflow
