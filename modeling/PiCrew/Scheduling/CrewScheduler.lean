/-
**The scheduler of recurring jobs.**

`runtime/scheduling/scheduler.ts`, after `start`. Jobs are kept by id, and beside each the handle of its
timer. An update takes the timer away and arms another one; a timer that arrives calls `cronTick`, which
goes on waiting if the clock is not there yet, and else fires the job.

* `step` — one call from outside, or the arrival of any pending timer.

The clock may read anything at each call. What a date text says, and when a cron schedule occurs next, are
parameters. Events, the finalizer, and the cancelling of runs are left out; so are the fields of a job that
nothing here reads. A timer has, beside what its callback has, the version of the job that it was armed for
and the time of that, which no function reads.
-/

import Mathlib.Logic.Function.Basic
import Mathlib.Data.List.Basic

namespace PiCrew.Scheduling.Jobs

inductive ScheduleType where
  | cron
  | once
  | interval
  deriving DecidableEq

inductive JobStatus where
  | success
  | error
  | running
  deriving DecidableEq

structure ScheduledJob where
  id : String
  name : String
  schedule : String
  scheduleType : ScheduleType
  intervalMs : Option Int
  enabled : Bool
  lastRun : Option String
  lastStatus : Option JobStatus
  nextRun : Option String
  spawnedRunIds : List String
  deriving DecidableEq

structure Patch where
  name : Option String := none
  schedule : Option String := none
  scheduleType : Option ScheduleType := none
  intervalMs : Option (Option Int) := none
  enabled : Option Bool := none
  lastRun : Option String := none
  lastStatus : Option JobStatus := none
  nextRun : Option String := none
  spawnedRunIds : Option (List String) := none

def Patch.apply (patch : Patch) (job : ScheduledJob) : ScheduledJob where
  id := job.id
  name := patch.name.getD job.name
  schedule := patch.schedule.getD job.schedule
  scheduleType := patch.scheduleType.getD job.scheduleType
  intervalMs := patch.intervalMs.getD job.intervalMs
  enabled := patch.enabled.getD job.enabled
  lastRun := patch.lastRun.orElse fun _ => job.lastRun
  lastStatus := patch.lastStatus.orElse fun _ => job.lastStatus
  nextRun := patch.nextRun.orElse fun _ => job.nextRun
  spawnedRunIds := patch.spawnedRunIds.getD job.spawnedRunIds

/-- **A pending timer**: its handle, what its callback is called with, and its delay; and the version of
the job it was armed for, with the time. -/
structure Timer where
  handle : Nat
  jobId : String
  targetMs : Int
  delay : Int
  armedFor : ScheduledJob
  armedAt : Int
  deriving DecidableEq

/-- **The scheduler**, with the pending timers of the process. -/
structure CrewScheduler where
  jobs : String → Option ScheduledJob := fun _ => none
  timers : String → Option Nat := fun _ => none
  pending : List Timer := []
  handles : Nat := 0
  reads : Nat := 0

/-- What the scheduler is given: the readings of the clock, the time a date text says, the next occurrence
of a cron schedule after a time, and the texts of times. -/
structure Surroundings where
  clock : Nat → Int
  date : String → Option Int
  nextRunTime : String → Int → Except String Int
  iso : Int → String

section

variable (env : Surroundings)

def maxTimerDelayMs : Int := 2147483000

def spawnedRunIdsCap : Nat := 50

def CrewScheduler.tock (state : CrewScheduler) : CrewScheduler := { state with reads := state.reads + 1 }

/-- **A timer towards a time**, in hops; for a version of the job, armed at a time. -/
def setCronTimeout (state : CrewScheduler) (jobId : String) (targetMs : Int) (armedFor : ScheduledJob)
    (armedAt : Int) : CrewScheduler :=
  let delay := max (targetMs - env.clock state.reads) 0
  { state with
    reads := state.reads + 1
    handles := state.handles + 1
    pending := state.pending ++
      [⟨state.handles, jobId, targetMs, min delay maxTimerDelayMs, armedFor, armedAt⟩]
    timers := Function.update state.timers jobId (some state.handles) }

/-- **Take the timer of a job away.** -/
def disarm (state : CrewScheduler) (id : String) : CrewScheduler :=
  match state.timers id with
  | none => state
  | some handle =>
    { state with
      pending := state.pending.filter (·.handle ≠ handle)
      timers := Function.update state.timers id none }

/-- An update, up to the arming. -/
def store (state : CrewScheduler) (id : String) (patch : Patch) : CrewScheduler :=
  match state.jobs id with
  | none => state
  | some existing =>
    let state := disarm state id
    { state with jobs := Function.update state.jobs id (some (patch.apply existing)) }

def disableWithError (state : CrewScheduler) (id : String) : CrewScheduler :=
  store state id { enabled := some false, lastStatus := some .error }

def armCron (state : CrewScheduler) (job : ScheduledJob) : CrewScheduler :=
  let now := env.clock state.reads
  let state := state.tock
  match env.nextRunTime job.schedule now with
  | .error _ => disableWithError state job.id
  | .ok next =>
    if next ≤ now then disableWithError state job.id
    else setCronTimeout env state job.id next job now

/-- **Arm a job**, unless there is a timer. -/
def arm (state : CrewScheduler) (job : ScheduledJob) : CrewScheduler :=
  if (state.timers job.id).isSome then state
  else
    match job.scheduleType, job.intervalMs with
    | .interval, some intervalMs =>
      if intervalMs = 0 then state
      else
        let now := env.clock state.reads
        setCronTimeout env state.tock job.id (now + intervalMs) job now
    | .interval, none => state
    | .once, _ =>
      let now := env.clock state.reads
      let state := state.tock
      match env.date job.schedule with
      | none => disableWithError state job.id
      | some target =>
        if target - now > 0 then setCronTimeout env state job.id target job now
        else disableWithError state job.id
    | .cron, _ => armCron env state job

def update (state : CrewScheduler) (id : String) (patch : Patch) : CrewScheduler :=
  match state.jobs id with
  | none => state
  | some existing =>
    let stored := store state id patch
    if (patch.apply existing).enabled then arm env stored (patch.apply existing) else stored

end

section

variable (env : Surroundings)

/-- **Add a job**, in the place of one with its id. The report of missed occurrences reads the clock. -/
def add (state : CrewScheduler) (job : ScheduledJob) : CrewScheduler :=
  let state := { state with jobs := Function.update state.jobs job.id (some job) }
  let state := if job.scheduleType = .cron ∧ job.nextRun.isSome then state.tock else state
  if job.enabled then arm env state job else state

def remove (state : CrewScheduler) (id : String) : CrewScheduler :=
  let state := disarm state id
  { state with jobs := Function.update state.jobs id none }

def recordSpawnedRun (state : CrewScheduler) (jobId runId : String) : CrewScheduler :=
  match state.jobs jobId with
  | none => state
  | some job =>
    let appended := job.spawnedRunIds ++ [runId]
    let recent := appended.drop (appended.length - spawnedRunIdsCap)
    let job := { job with spawnedRunIds := recent }
    { state with jobs := Function.update state.jobs jobId (some job) }

/-- What the executor does: it gives the id of an agent, or throws; `stamp` is then the time of the run. -/
inductive ExecutorOutcome where
  | dispatched
  | throws (stamp : String)

/-- **Fire a job**, unless it is disabled or the dispatch before is in flight. -/
def fire (state : CrewScheduler) (id : String) (force : Bool) (outcome : ExecutorOutcome) :
    CrewScheduler :=
  match state.jobs id with
  | none => state
  | some job =>
    if ¬ job.enabled ∧ ¬ force then state
    else if job.lastStatus = some .running ∧ ¬ force then state
    else
      let state := update env state id { lastStatus := some .running }
      match outcome with
      | .dispatched => state
      | .throws stamp => update env state id { lastRun := some stamp, lastStatus := some .error }

def runNow (state : CrewScheduler) (jobId : String) (outcome : ExecutorOutcome) : CrewScheduler :=
  match state.jobs jobId with
  | none => state
  | some job =>
    let state := fire env state jobId true outcome
    if job.scheduleType = .once then update env state jobId { enabled := some false } else state

def advanceCronNextRun (state : CrewScheduler) (jobId : String) : CrewScheduler :=
  match state.jobs jobId with
  | none => state
  | some job =>
    if ¬ job.enabled ∨ job.scheduleType ≠ .cron then state
    else
      let now := env.clock state.reads
      let state := state.tock
      match env.nextRunTime job.schedule now with
      | .error _ => disableWithError state jobId
      | .ok next => update env state jobId { nextRun := some (env.iso next) }

def cronTick (state : CrewScheduler) (timer : Timer) (outcome : ExecutorOutcome) : CrewScheduler :=
  match state.jobs timer.jobId with
  | none => state
  | some job =>
    if ¬ job.enabled then state
    else
      let now := env.clock state.reads
      let state := state.tock
      if now < timer.targetMs then
        setCronTimeout env state timer.jobId timer.targetMs timer.armedFor timer.armedAt
      else
        let state := fire env state timer.jobId false outcome
        let state := advanceCronNextRun env state timer.jobId
        if job.scheduleType = .once then update env state timer.jobId { enabled := some false }
        else state

inductive Call where
  | add (job : ScheduledJob)
  | remove (id : String)
  | update (id : String) (patch : Patch)
  | recordSpawnedRun (jobId runId : String)
  | runNow (jobId : String) (outcome : ExecutorOutcome)
  | tick (handle : Nat) (outcome : ExecutorOutcome)

/-- **A step.** Any pending timer may arrive; then it is not pending any more. -/
def step (state : CrewScheduler) : Call → CrewScheduler
  | .add job => add env state job
  | .remove id => remove state id
  | .update id patch => update env state id patch
  | .recordSpawnedRun jobId runId => recordSpawnedRun state jobId runId
  | .runNow jobId outcome => runNow env state jobId outcome
  | .tick handle outcome =>
    match state.pending.find? (·.handle = handle) with
    | none => state
    | some timer =>
      cronTick env { state with pending := state.pending.filter (·.handle ≠ handle) } timer outcome

end

/-- **The time a version of a job is armed for**, at a time. -/
def occurrence (env : Surroundings) (job : ScheduledJob) (now : Int) : Option Int :=
  match job.scheduleType with
  | .interval => (job.intervalMs.filter (· ≠ 0)).map (now + ·)
  | .once => (env.date job.schedule).filter (· - now > 0)
  | .cron => (env.nextRunTime job.schedule now).toOption.filter (now < ·)

def SameVersion (first second : ScheduledJob) : Prop :=
  { first with spawnedRunIds := [] } = { second with spawnedRunIds := [] }

instance (first second : ScheduledJob) : Decidable (SameVersion first second) :=
  inferInstanceAs (Decidable (_ = _))

end PiCrew.Scheduling.Jobs
