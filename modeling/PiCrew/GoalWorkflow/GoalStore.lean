/-
**The goal file and the calls of its store.**

`GoalStore` (`runtime/goal-workflow/goal-state-store.ts`) keeps the state of a goal in one JSON file. `patch`
and `setStatus` read the whole record and write it back, and `safeSetStatus` (`goal-loop-runner.ts`) reads it
once more before that; none of them takes a lock. `compareAndSetStatus` holds a lock file that only its own
callers look at, and removes one that is older than five seconds.

A write that fails throws out of the call and is left out, as are the times of a record, its prompts and models,
and the events that a write appends.
-/

import Mathlib.Data.Rat.Defs
import Mathlib.Algebra.Order.Field.Rat

namespace PiCrew.GoalWorkflow

inductive GoalLoopStatus where
  | running
  | paused
  | stuck
  | achieved
  | maxTurns
  | budgetExceeded
  | blocked
  | cancelled
  deriving DecidableEq

/-- The states that `goal resume` calls done. -/
def GoalLoopStatus.terminal : GoalLoopStatus → Bool
  | .achieved | .maxTurns | .blocked | .cancelled | .budgetExceeded => true
  | .running | .paused | .stuck => false

structure GoalVerdict where
  turn : Nat
  achieved : Bool
  reason : String
  deriving DecidableEq

structure GoalHistoryEntry where
  runId : String
  outcome : String
  turn : Nat
  deriving DecidableEq

/-- **The record of a goal.** Shares of a budget are rationals, tokens and turns are natural numbers. -/
structure GoalLoopState where
  ownerSessionId : String
  state : GoalLoopStatus
  maxTurns : Nat
  turnsUsed : Nat
  budgetTotal : Option ℚ := none
  budgetUnlimited : Option Bool := none
  budgetAbort : Option ℚ := none
  budgetUsed : Nat
  nextTurnFeedback : Option String := none
  currentRunId : Option String := none
  lastTurnError : Option String := none
  verdicts : List GoalVerdict := []
  history : List GoalHistoryEntry := []
  deriving DecidableEq

/-- **A patch**: the fields that a caller writes. A field that may be missing is written or removed. -/
structure GoalPatch where
  state : Option GoalLoopStatus := none
  turnsUsed : Option Nat := none
  budgetUsed : Option Nat := none
  nextTurnFeedback : Option (Option String) := none
  currentRunId : Option (Option String) := none
  lastTurnError : Option String := none
  verdicts : Option (List GoalVerdict) := none
  history : Option (List GoalHistoryEntry) := none

def GoalPatch.apply (patch : GoalPatch) (current : GoalLoopState) : GoalLoopState := { current with
    state := patch.state.getD current.state
    turnsUsed := patch.turnsUsed.getD current.turnsUsed
    budgetUsed := patch.budgetUsed.getD current.budgetUsed
    nextTurnFeedback := patch.nextTurnFeedback.getD current.nextTurnFeedback
    currentRunId := patch.currentRunId.getD current.currentRunId
    lastTurnError := patch.lastTurnError.orElse fun _ => current.lastTurnError
    verdicts := patch.verdicts.getD current.verdicts
    history := patch.history.getD current.history }

inductive GoalCall where
  | load
  | patch (fields : GoalPatch)
  | safeSetStatus (proposed : GoalLoopStatus)
  | compareAndSetStatus (expected next : GoalLoopStatus)

/-- `setStatus` is a patch of the state. -/
def GoalCall.setStatus (state : GoalLoopStatus) : GoalCall := .patch { state := some state }

/-- A record whose state is not `running` is left alone. -/
def settleStatus (proposed : GoalLoopStatus) (current : GoalLoopState) : GoalLoopState :=
  if current.state = .running then { current with state := proposed } else current

def swapStatus (expected next : GoalLoopStatus) (current : GoalLoopState) : Option GoalLoopState :=
  if current.state = expected then some { current with state := next } else none

/-- **A call as one action**: what it returns, and the file after it. It is `held` where another process has
the lock file of the compare-and-set. -/
def GoalCall.run (held : Bool) (file : Option GoalLoopState) :
    GoalCall → Option GoalLoopState × Option GoalLoopState
  | .load => (file, file)
  | .patch fields => (file.map fields.apply, file.map fields.apply)
  | .safeSetStatus proposed => (file.map (settleStatus proposed), file.map (settleStatus proposed))
  | .compareAndSetStatus expected next =>
    let updated := if held then none else file.bind (swapStatus expected next)
    (updated, updated.or file)

/-- **The files**: the record, and the lock file with the process that made it. -/
structure GoalFiles where
  file : Option GoalLoopState
  lock : Option Nat := none
  deriving DecidableEq

/-- **Where a call stands**, by the operation that comes next. -/
inductive CallPoint where
  /-- `load` reads. -/
  | loading
  /-- `patch` reads. -/
  | patching (fields : GoalPatch)
  /-- `safeSetStatus` reads. -/
  | checking (proposed : GoalLoopStatus)
  /-- `safeSetStatus` found the goal running: the `setStatus` in it reads. -/
  | setting (proposed : GoalLoopStatus)
  /-- The record is written back. -/
  | saving (next : GoalLoopState)
  /-- The lock file is created. -/
  | opening (expected next : GoalLoopStatus)
  /-- There is a lock file: its age is read. -/
  | statting (expected next : GoalLoopStatus)
  /-- The lock file was old: it is removed. -/
  | breaking (expected next : GoalLoopStatus)
  /-- The lock file is created once more. -/
  | reopening (expected next : GoalLoopStatus)
  /-- The compare-and-set has its lock and reads. -/
  | comparing (expected next : GoalLoopStatus)
  /-- It found the state that it expects, and writes. -/
  | swapping (expected : GoalLoopStatus) (next : GoalLoopState)
  /-- It removes the lock file. -/
  | releasing (result : Option GoalLoopState)

inductive CallProgress where
  | going (point : CallPoint)
  | returned (result : Option GoalLoopState)

def GoalCall.begin : GoalCall → CallPoint
  | .load => .loading
  | .patch fields => .patching fields
  | .safeSetStatus proposed => .checking proposed
  | .compareAndSetStatus expected next => .opening expected next

/-- A `patch` that has read the record. -/
def patchRead (patch : GoalPatch) (file : Option GoalLoopState) : CallProgress :=
  (file.map fun current => CallProgress.going (.saving (patch.apply current))).getD (.returned none)

/-- `safeSetStatus` has read the record. -/
def checkRead (proposed : GoalLoopStatus) (file : Option GoalLoopState) : CallProgress :=
  (file.map fun current =>
    if current.state = .running then CallProgress.going (.setting proposed)
    else .returned (some current)).getD (.going (.setting proposed))

/-- The compare-and-set has read the record. -/
def compareRead (expected next : GoalLoopStatus) (file : Option GoalLoopState) : CallPoint :=
  (file.map fun current =>
    if current.state = expected then CallPoint.swapping expected { current with state := next }
    else .releasing none).getD (.releasing none)

/-- **One operation of a call** of the process in a slot. `stale` is what it sees where it reads the age of
the lock file. -/
def CallPoint.step (slot : Nat) (stale : Bool) (files : GoalFiles) : CallPoint → CallProgress × GoalFiles
  | .loading => (.returned files.file, files)
  | .patching fields => (patchRead fields files.file, files)
  | .checking proposed => (checkRead proposed files.file, files)
  | .setting proposed => (patchRead { state := some proposed } files.file, files)
  | .saving next => (.returned (some next), { files with file := some next })
  | .opening expected next =>
    if files.lock = none then (.going (.comparing expected next), { files with lock := some slot })
    else (.going (.statting expected next), files)
  | .statting expected next =>
    if files.lock ≠ none ∧ stale then (.going (.breaking expected next), files)
    else (.returned none, files)
  | .breaking expected next =>
    if files.lock = none then (.returned none, files)
    else (.going (.reopening expected next), { files with lock := none })
  | .reopening expected next =>
    if files.lock = none then (.going (.comparing expected next), { files with lock := some slot })
    else (.returned none, files)
  | .comparing expected next => (.going (compareRead expected next files.file), files)
  | .swapping _ next => (.going (.releasing (some next)), { files with file := some next })
  | .releasing result => (.returned result, { files with lock := none })

end PiCrew.GoalWorkflow
