/-
**The status vocabulary of a team run and of its tasks.**

`state/contracts.ts` fixes the seven run statuses, the eight task statuses, the sets of terminal
statuses and the transition tables that every store and every scheduler consults. All of them are
data; the functions of the file are membership tests.

* `canTransitionRunStatus` — the run table as a test: a status may stay what it is, and otherwise
  moves along an edge of `teamRunStatusTransitions`.
-/

import Mathlib.Data.List.Basic
import Mathlib.Data.Fintype.Defs

namespace PiCrew.State

/-! ### Runs -/

/-- **The statuses of a run** (`TEAM_RUN_STATUSES`). -/
inductive TeamRunStatus where
  | queued | planning | running | blocked | completed | failed | cancelled
  deriving DecidableEq, Repr

/-- The order in which `TEAM_RUN_STATUSES` lists them. -/
def teamRunStatuses : List TeamRunStatus :=
  [.queued, .planning, .running, .blocked, .completed, .failed, .cancelled]

instance : Fintype TeamRunStatus where
  elems := ⟨teamRunStatuses, by decide⟩
  complete status := by cases status <;> decide

/-- The statuses a run is not expected to leave by itself (`TEAM_TERMINAL_RUN_STATUSES`). -/
def teamTerminalRunStatuses : List TeamRunStatus := [.blocked, .completed, .failed, .cancelled]

/-- **The run lifecycle** (`TEAM_RUN_STATUS_TRANSITIONS`). -/
def teamRunStatusTransitions : TeamRunStatus → List TeamRunStatus
  | .queued => [.planning, .running, .cancelled, .failed]
  | .planning => [.running, .blocked, .cancelled, .failed]
  | .running => [.blocked, .completed, .failed, .cancelled]
  | .blocked => [.running, .cancelled, .failed]
  | .completed => [.running, .cancelled]
  | .failed => [.running, .cancelled]
  | .cancelled => [.running]

def isTerminalRunStatus (status : TeamRunStatus) : Bool := teamTerminalRunStatuses.contains status

def canTransitionRunStatus (origin target : TeamRunStatus) : Bool :=
  origin == target || (teamRunStatusTransitions origin).contains target

/-! ### Tasks -/

/-- **The statuses of a task** (`TEAM_TASK_STATUSES`). -/
inductive TeamTaskStatus where
  | queued | running | waiting | completed | failed | cancelled | skipped | needsAttention
  deriving DecidableEq, Repr

/-- The order in which `TEAM_TASK_STATUSES` lists them. -/
def teamTaskStatuses : List TeamTaskStatus :=
  [.queued, .running, .waiting, .completed, .failed, .cancelled, .skipped, .needsAttention]

instance : Fintype TeamTaskStatus where
  elems := ⟨teamTaskStatuses, by decide⟩
  complete status := by cases status <;> decide

/-- The statuses of a settled task (`TEAM_TERMINAL_TASK_STATUSES`). -/
def teamTerminalTaskStatuses : List TeamTaskStatus :=
  [.completed, .failed, .cancelled, .skipped, .needsAttention]

/-- **The task lifecycle** (`TEAM_TASK_STATUS_TRANSITIONS`). -/
def teamTaskStatusTransitions : TeamTaskStatus → List TeamTaskStatus
  | .queued => [.running, .cancelled, .skipped, .failed]
  | .running => [.completed, .failed, .cancelled, .queued, .waiting]
  | .waiting => [.running, .queued, .completed, .failed, .cancelled]
  | .completed => [.queued]
  | .failed => [.queued, .cancelled]
  | .cancelled => [.queued]
  | .skipped => [.queued, .cancelled]
  | .needsAttention => [.queued, .running]

def isTerminalTaskStatus (status : TeamTaskStatus) : Bool :=
  teamTerminalTaskStatuses.contains status

end PiCrew.State
