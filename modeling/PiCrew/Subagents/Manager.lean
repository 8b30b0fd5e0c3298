/-
**The subagent manager.**

`runtime/subagent-manager.ts` (`SubagentManager`): records of spawned subagents, a queue for background
spawns over the limit, and a counter of the slots in use. `start` takes the slot and starts an
asynchronous body that awaits the runner, polls the run the runner reports, and gives the slot back in
its `finally`, after which it calls `onComplete` and drains the queue.

A record is known by the number of its spawn. The code between two `await`s runs without a break, so a
step is a call from outside, a runner that settles, or a timer that fires. The completion callback is
host code: what it does is part of the step that comes to it, any calls on the manager and then a
return or a throw. What a step does not come to is not looked at.

* `step` — one event.

Left out: the copies of the records on disk, the timestamps, and the notice for a run that stays
blocked, which none of these reads.
-/

import PiCrew.State.Contracts
import PiCrew.Library.Runs
import Mathlib.Data.Rat.Floor
import Mathlib.Logic.Function.Basic

namespace PiCrew.Subagents

open PiCrew.State

inductive SubagentStatus where
  | queued | running | completed | failed | cancelled | error | blocked | stopped
  deriving DecidableEq, Repr

/-- What a caller of `spawn` gives. -/
structure SpawnOptions where
  background : Bool
  ownerSessionGeneration : Option Nat := none
  ownerSessionId : Option String := none
  batchId : Option String := none
  deriving DecidableEq, Repr

/-- A record. `blockedAt` is whether the code has set its time. -/
structure SubagentRecord where
  options : SpawnOptions
  status : SubagentStatus
  runId : Option String := none
  result : Option String := none
  error : Option String := none
  turnCount : Option Nat := none
  resultConsumed : Bool := false
  blockedAt : Bool := false
  terminated : Bool := false
  deriving DecidableEq, Repr

/-- The statuses that `evictTerminalRecords` and the `finally` of a body take for ended. -/
def SubagentStatus.ended : SubagentStatus → Bool
  | .queued | .running | .blocked => false
  | .completed | .failed | .cancelled | .error | .stopped => true

/-- `record.runId` as a condition: the empty string is none. -/
def SubagentRecord.hasRun (record : SubagentRecord) : Bool := record.runId.any (· ≠ "")

def SubagentRecord.errorOr (record : SubagentRecord) (reason : String) : Option String :=
  if record.error.any (· ≠ "") ∨ reason = "" then record.error else some reason

structure QueuedSpawn where
  id : Nat
  signal : Option Nat
  deriving DecidableEq, Repr

/-- What an unended body waits for. -/
inductive Await where
  | runner | poll
  deriving DecidableEq, Repr

/-- An asynchronous body that has not ended: its record, the options it closed over, the signal of the
caller, whether its own signal is aborted, and what it waits for. -/
structure Body where
  id : Nat
  background : Bool
  signal : Option Nat
  aborted : Bool
  awaits : Await
  deriving DecidableEq, Repr

/-- A call of `onComplete`, with the status it sees. -/
structure Completion where
  id : Nat
  status : SubagentStatus
  deriving DecidableEq, Repr

/-- **The manager.** `heap` holds the record objects, also those that the map `records` has evicted;
`bodies` and `polls` are the asynchronous bodies and the timers of blocked polls that are alive; `fired`
are the signals of callers that have aborted. The last three say what was observed, in order: the
runners that were called, which of them for a queued spawn, and the completions. -/
structure SubagentManager where
  heap : Nat → SubagentRecord := fun _ => { options := { background := false }, status := .queued }
  records : List Nat := []
  queue : List QueuedSpawn := []
  bodies : List Body := []
  polls : List Nat := []
  runningBackground : Nat := 0
  counter : Nat := 0
  maxConcurrent : ℚ := 4
  fired : List Nat := []
  runnerCalls : List Nat := []
  queueStarts : List Nat := []
  completions : List Completion := []

def maxTerminalSubagentRecords : Nat := 50

namespace SubagentManager

variable (manager : SubagentManager) (id : Nat)

def status : SubagentStatus := (manager.heap id).status

def update (fields : SubagentRecord → SubagentRecord) : SubagentManager :=
  { manager with heap := Function.update manager.heap id (fields (manager.heap id)) }

@[simp] theorem update_status (fields : SubagentRecord → SubagentRecord) (other : Nat) :
    (manager.update id fields).status other =
      if other = id then (fields (manager.heap id)).status else manager.status other := by
  by_cases same : other = id
  · subst same
    simp [status, update]
  · simp [status, update, same]

def setStatus (status : SubagentStatus) : SubagentManager :=
  manager.update id fun record => { record with status := status }

/-- **Evict the oldest ended records** over the limit. -/
def evictTerminalRecords : SubagentManager :=
  let terminal := manager.records.filter fun id => (manager.status id).ended
  { manager with
    records := manager.records.filter
      fun id => !(terminal.take (terminal.length - maxTerminalSubagentRecords)).contains id }

def markStopped (reason : String) : SubagentManager :=
  (manager.update id fun record =>
    { record with status := .stopped, terminated := true, error := record.errorOr reason })
    |>.evictTerminalRecords

def bodyOf : Option Body := manager.bodies.find? (·.id == id)

def abortBody : SubagentManager :=
  { manager with
    bodies := manager.bodies.map fun body => if body.id = id then { body with aborted := true } else body }

end SubagentManager

inductive Call where
  | spawn (options : SpawnOptions) (signal : Option Nat)
  | abort (id : Nat) (reason : Option String)
  | abortAll (reason : Option String)
  | setMaxConcurrent (value : ℚ)
  deriving DecidableEq, Repr

namespace SubagentManager

variable (manager : SubagentManager) (id : Nat)

/-- **Start a record**: take a slot, and call the runner. -/
def start (signal : Option Nat) : SubagentManager :=
  let background := (manager.heap id).options.background
  { manager.setStatus id .running with
    runningBackground := if background then manager.runningBackground + 1 else manager.runningBackground
    bodies := manager.bodies ++
      [{ id := id, background := background, signal := signal
         aborted := signal.any manager.fired.contains, awaits := .runner }]
    runnerCalls := manager.runnerCalls ++ [id] }

/-- The loop of `drainQueue`, over the spawns that are still queued. -/
def drainFrom : List QueuedSpawn → SubagentManager → SubagentManager
  | [], manager => { manager with queue := [] }
  | next :: rest, manager =>
    if (manager.runningBackground : ℚ) < manager.maxConcurrent then
      if manager.status next.id = .queued then
        drainFrom rest
          { manager.start next.id next.signal with queueStarts := manager.queueStarts ++ [next.id] }
      else drainFrom rest manager
    else { manager with queue := next :: rest }

/-- **Drain the queue** while there is a free slot. -/
def drainQueue : SubagentManager := drainFrom manager.queue manager

/-- **Spawn a subagent**: start it, or queue it while all slots are taken. -/
def spawn (options : SpawnOptions) (signal : Option Nat) : SubagentManager :=
  let full := options.background && decide (manager.maxConcurrent ≤ manager.runningBackground)
  let id := manager.counter
  let added := { manager with
    counter := manager.counter + 1
    records := manager.records ++ [id]
    heap := Function.update manager.heap id
      { options := options, status := if full then .queued else .running } }
  if full then { added with queue := manager.queue ++ [{ id := id, signal := signal }] }
  else added.start id signal

/-- **Abort a subagent** that is queued, running or blocked. -/
def abort (reason : Option String) : SubagentManager :=
  if id ∉ manager.records then manager
  else if manager.status id = .queued then
    { manager with queue := manager.queue.filter (·.id ≠ id) }
      |>.markStopped id (reason.getD "Aborted by caller.")
  else if manager.status id ≠ .running ∧ manager.status id ≠ .blocked then manager
  else (manager.abortBody id).markStopped id (reason.getD "Aborted by caller.")

/-- Abort a record that `abortAll` finds running or blocked. -/
def abortActive (reason : String) (manager : SubagentManager) (id : Nat) : SubagentManager :=
  if manager.status id = .running ∨ manager.status id = .blocked then
    (manager.abortBody id).markStopped id reason
  else manager

/-- **Abort all subagents**: those in the queue, then those in the map. -/
def abortAll (reason : Option String) : SubagentManager :=
  let stopReason := reason.getD "Aborted (session switch or shutdown)."
  let unqueued := manager.queue.foldl (fun state entry => state.markStopped entry.id stopReason) manager
  unqueued.records.foldl (abortActive stopReason) { unqueued with queue := [] }

/-- **Change the limit**, to one at least. -/
def setMaxConcurrent (value : ℚ) : SubagentManager :=
  drainQueue { manager with maxConcurrent := (max 1 ⌊value⌋ : ℤ) }

def call (manager : SubagentManager) : Call → SubagentManager
  | .spawn options signal => manager.spawn options signal
  | .abort id reason => manager.abort id reason
  | .abortAll reason => manager.abortAll reason
  | .setMaxConcurrent value => manager.setMaxConcurrent value

end SubagentManager

/-- What the completion callback does: its calls on the manager, and whether it throws in the end. -/
structure Callback where
  calls : List Call := []
  throws : Option String := none
  deriving DecidableEq, Repr

/-- The manifest of a run, as far as a poll reads it. -/
inductive Lookup where
  | missing
  | threw (message : String)
  | found (status : TeamRunStatus) (summary : Option String)
  deriving DecidableEq, Repr

/-- What `totalRunTurns` comes to. -/
inductive TurnsLookup where
  | total (turns : Option Nat)
  | threw (message : String)
  deriving DecidableEq, Repr

def TurnsLookup.turns : TurnsLookup → Option Nat
  | .total turns => turns
  | .threw _ => none

def TurnsLookup.failure : TurnsLookup → Option String
  | .total _ => none
  | .threw message => some message

/-- What a body meets when it wakes up: the clock and the files it reads, and the callback where it
reports a blocked run and where it ends. -/
structure Surroundings where
  pastDeadline : Bool := false
  lookup : Lookup := .missing
  pollTurns : TurnsLookup := .total none
  endTurns : TurnsLookup := .total none
  onBlocked : Callback := {}
  onEnd : Callback := {}
  deriving DecidableEq, Repr

inductive Outcome where
  | result (isError : Bool) (text : String) (runId : Option String)
  | rejected (message : String)
  deriving DecidableEq, Repr

namespace SubagentManager

variable (manager : SubagentManager) (id : Nat) (around : Surroundings)

/-- Call `onComplete`. -/
def notify (callback : Callback) : SubagentManager :=
  callback.calls.foldl call
    { manager with completions := manager.completions ++ [{ id := id, status := manager.status id }] }

/-- The error of `record.turnCount ?? totalRunTurns(…)`, where it throws. -/
def turnsFailure (turns : TurnsLookup) : Option String :=
  if (manager.heap id).turnCount.isSome then none else turns.failure

/-- Fill in `turnCount`, where it is not set yet. -/
def fillTurns (turns : TurnsLookup) : SubagentManager :=
  manager.update id fun record => { record with turnCount := record.turnCount <|> turns.turns }

/-- The body is over, and gives back the slot it has taken. -/
def releaseBody : SubagentManager :=
  { manager with
    bodies := manager.bodies.eraseP (·.id == id)
    runningBackground :=
      if (manager.bodyOf id).any (·.background) then manager.runningBackground - 1
      else manager.runningBackground }

/-- **The `finally` of a body.** The queue is drained last, unless a lookup or the callback throws. -/
def finishBody : SubagentManager :=
  let released := manager.releaseBody id
  if (released.status id).ended then
    if (released.turnsFailure id around.endTurns).isSome then released
    else
      let told := (released.fillTurns id around.endTurns).evictTerminalRecords.notify id around.onEnd
      if around.onEnd.throws.isSome then told else told.drainQueue
  else released.drainQueue

def abortReason : String :=
  "Signal aborted — agent cancelled by parent (session switch, user cancel, or tool timeout)."

/-- **The `catch` of a body**, and its `finally`. -/
def failBody (message : String) : SubagentManager :=
  let aborted := (manager.bodyOf id).any (·.aborted)
  if manager.status id = .stopped ∨ aborted then
    (manager.update id fun record =>
      { record with
        status := .stopped, error := record.errorOr (if aborted then abortReason else message) })
      |>.finishBody id around
  else
    (manager.update id fun record => { record with status := .error, error := some message })
      |>.finishBody id around

def endRun (status : SubagentStatus) (error : Option String) : SubagentManager :=
  let set := manager.update id fun record => { record with status := status, error := error }
  match set.turnsFailure id around.pollTurns with
  | some message => set.failBody id around message
  | none => (set.fillTurns id around.pollTurns).finishBody id around

/-- The run is blocked: report it the first time, and let a timer poll it from here. -/
def reportBlocked : SubagentManager :=
  let set := manager.update id fun record =>
    { record with status := .blocked, error := none, blockedAt := true }
  if (manager.heap id).blockedAt then set.finishBody id around
  else
    let told := set.notify id around.onBlocked
    match around.onBlocked.throws with
    | some message => told.failBody id around message
    | none => finishBody { told with polls := told.polls ++ [id] } id around

def sleep : SubagentManager :=
  { manager with
    bodies := manager.bodies.map fun body => if body.id = id then { body with awaits := .poll } else body }

/-- What the loop of `pollRunToTerminal` reports when the run takes too long. -/
def pollTimeout : String :=
  "Poll timeout: run did not reach terminal state after 1800000ms (wall-clock)"

/-- **One turn of the loop of `pollRunToTerminal`**, and the rest of the body where the loop ends. -/
def pollRun : SubagentManager :=
  if (manager.heap id).hasRun ∧ (manager.status id = .running ∨ manager.status id = .blocked) then
    if around.pastDeadline then
      (manager.update id fun record => { record with status := .error, error := some pollTimeout })
        |>.finishBody id around
    else
      match around.lookup with
      | .threw message => manager.failBody id around message
      | .found .completed _ => manager.endRun id around .completed none
      | .found .failed summary => manager.endRun id around .failed summary
      | .found .cancelled summary => manager.endRun id around .cancelled summary
      | .found .blocked _ => manager.reportBlocked id around
      | .missing | .found .queued _ | .found .planning _ | .found .running _ => manager.sleep id
  else manager.finishBody id around

def settle : Outcome → SubagentManager
  | .rejected message => manager.failBody id around message
  | .result isError text runId =>
    if manager.status id = .stopped then manager.finishBody id around
    else
      let noted := manager.update id fun record => { record with runId := runId, result := some text }
      if isError then
        (noted.update id fun record => { record with status := .error, error := some text })
          |>.failBody id around text
      else if (noted.heap id).hasRun then noted.pollRun id around
      else (noted.setStatus id .completed).finishBody id around

def endBlocked (status : SubagentStatus) (error : Option String) : SubagentManager :=
  let set := manager.update id fun record => { record with status := status, error := error }
  if (set.turnsFailure id around.pollTurns).isSome then set
  else (set.fillTurns id around.pollTurns).notify id around.onEnd

def pollBlocked : SubagentManager :=
  let fired := { manager with polls := manager.polls.erase id }
  if id ∈ manager.records ∧ manager.status id = .blocked ∧ (manager.heap id).hasRun then
    match around.lookup with
    | .threw _ => fired
    | .found .completed _ => fired.endBlocked id around .completed none
    | .found .failed summary => fired.endBlocked id around .failed summary
    | .found .cancelled summary => fired.endBlocked id around .cancelled summary
    | .missing | .found .blocked _ | .found .queued _ | .found .planning _ | .found .running _ =>
      { fired with polls := fired.polls ++ [id] }
  else fired

/-- The signal of a caller aborts, and with it the bodies that listen to it. -/
def signalAborted (signal : Nat) : SubagentManager :=
  { manager with
    fired := signal :: manager.fired
    bodies := manager.bodies.map
      fun body => if body.signal = some signal then { body with aborted := true } else body }

end SubagentManager

/-- **An event**: a call from outside, a signal that aborts, a runner that settles, or a timer. -/
inductive Event where
  | called (call : Call)
  | signalAborted (signal : Nat)
  | settled (id : Nat) (outcome : Outcome) (around : Surroundings)
  | polled (id : Nat) (around : Surroundings)
  | blockedPolled (id : Nat) (around : Surroundings)
  deriving DecidableEq, Repr

/-- **One event**, up to the next `await`. Only what waits for an event takes it. -/
def SubagentManager.step (manager : SubagentManager) : Event → SubagentManager
  | .called call => manager.call call
  | .signalAborted signal => manager.signalAborted signal
  | .settled id outcome around =>
    if (manager.bodyOf id).any (·.awaits == .runner) then manager.settle id around outcome else manager
  | .polled id around =>
    if (manager.bodyOf id).any (·.awaits == .poll) then manager.pollRun id around else manager
  | .blockedPolled id around => if id ∈ manager.polls then manager.pollBlocked id around else manager

end PiCrew.Subagents
