/-
**One dispatch unit, its attempts and the fallback after them.**

The work of a single task in `runtime/dispatch-batch.ts`. An attempt first reads the run afresh: a task that
somebody else has settled is returned as it is, and a failure of our own is queued again. A result in which the
task failed is kept in `lastFailed` and thrown. Where the loop has thrown and no attempt returned such a result,
`runTeamTask` is called once more, outside the loop.

* `threw_of_lastFailed_none` — a loop that threw and kept no failed result has seen every attempt throw;
* `dispatchUnit_calls` — one call over the attempts admitted at most, made by the fallback alone.
-/

import PiCrew.Dispatch.Terminalise
import PiCrew.Recovery.RetryExecutor

namespace PiCrew.Dispatch

open PiCrew.State PiCrew.Recovery.RetryExecutor

/-! ### The unit and what it finds -/

structure RunSnapshot where
  manifestStatus : TeamRunStatus
  tasks : List TeamTaskState
  deriving DecidableEq, Repr

/-- Why something was cancelled (`CancellationReason`). -/
structure CancellationReason where
  code : String
  message : String
  deriving DecidableEq, Repr

/-- What `runTeamTask` throws, and what an attempt throws for a failed result. -/
inductive UnitError where
  | cancellation (reason : CancellationReason)
  | failedTask (message : String)
  | other (message : String)
  deriving DecidableEq, Repr

def UnitError.message : UnitError → String
  | .cancellation reason => reason.message
  | .failedTask message => message
  | .other message => message

/-- The places from which `runTeamTask` is called. -/
inductive UnitCall where
  | single
  | attempt (number : Nat)
  | fallback
  deriving DecidableEq, Repr

/-- **What surrounds a unit**: its task, the outcome of each call of `runTeamTask`, the run as each
attempt finds it (on disk, or in the scheduler where the disk has it no more), the run as it is found
after the loop, and the answers that the retry loop gets. -/
structure UnitHost where
  task : TeamTaskState
  ctx : RunSnapshot
  autoRetry : Option Bool := none
  found : Nat → RunSnapshot
  foundAfter : RunSnapshot
  runTeamTask : UnitCall → RunSnapshot → TeamTaskState → Except UnitError RunSnapshot
  startedAt : Nat → String := fun _ => ""
  endedAt : Nat → String := fun _ => ""
  now : String := ""
  inputAborted : Bool := false
  inputReason : CancellationReason := { code := "", message := "" }
  signalReason : CancellationReason := { code := "", message := "" }
  globTest : String → String → Bool := fun _ _ => false
  shouldRetry : Option (Nat → UnitError → HookAnswer) := none
  abortAt : Option Nat := none

def shouldUseRetry (autoRetry : Option Bool) : Bool := autoRetry != some false

/-- Only an own failure is queued again, on a run that is still active. -/
def shouldRequeueForRetry (attempt : Nat) (taskStatus : TeamTaskStatus)
    (manifestStatus : TeamRunStatus) : Bool :=
  if attempt ≤ 1 then false
  else if isTerminalRunStatus manifestStatus then false
  else taskStatus == .failed

def failedTaskFrom (result : RunSnapshot) (taskId : String) : Option TeamTaskState :=
  result.tasks.find? fun item => item.id == taskId && item.status == .failed

def isOpen (task : TeamTaskState) : Bool := task.status == .queued || task.status == .running

section

variable (host : UnitHost)

def freshTask (snapshot : RunSnapshot) : TeamTaskState :=
  (snapshot.tasks.find? fun item => item.id == host.task.id).getD host.task

def atAttempt (attempt : Nat) : RunSnapshot × TeamTaskState :=
  let snapshot := host.found attempt
  let task := freshTask host snapshot
  if shouldRequeueForRetry attempt task.status snapshot.manifestStatus then
    let queued := { task with status := .queued, error := none, finishedAt := none }
    ({ snapshot with
        tasks := snapshot.tasks.map fun item => if item.id = host.task.id then queued else item },
      queued)
  else (snapshot, task)

def finishedAttempt (attempt : Nat) : TaskAttemptState where
  startedAt := host.startedAt attempt
  endedAt := some (host.endedAt attempt)

inductive AttemptEnd where
  | refused (snapshot : RunSnapshot)
  | succeeded (snapshot : RunSnapshot)
  | returnedFailed (snapshot : RunSnapshot) (message : String)
  | threw (error : UnitError)

/-- An attempt that called `runTeamTask`. -/
def AttemptEnd.called : AttemptEnd → Bool
  | .refused _ => false
  | _ => true

/-- What `executeWithRetry` sees of an attempt. -/
def AttemptEnd.outcome : AttemptEnd → Except UnitError RunSnapshot
  | .refused snapshot => .ok snapshot
  | .succeeded snapshot => .ok snapshot
  | .returnedFailed _ message => .error (.failedTask message)
  | .threw error => .error error

/-- What an attempt leaves in `lastFailed`. -/
def AttemptEnd.lastFailed : AttemptEnd → Option RunSnapshot
  | .returnedFailed snapshot _ => some snapshot
  | _ => none

/-- **The body of an attempt**, given the attempts recorded so far. -/
def attemptBody (attempt : Nat) (soFar : List TaskAttemptState) : AttemptEnd :=
  let (snapshot, task) := atAttempt host attempt
  if !isOpen task then .refused snapshot
  else
    let inFlight := soFar ++ [{ startedAt := host.startedAt attempt }]
    match host.runTeamTask (.attempt attempt) snapshot { task with attempts := some inFlight } with
    | .error error => .threw error
    | .ok result =>
      let enriched : RunSnapshot := { result with
          tasks := result.tasks.map fun item =>
            if item.id = host.task.id then { item with attempts := some (soFar ++ [finishedAttempt host attempt]) }
            else item }
      match failedTaskFrom result host.task.id with
      | some failed =>
        .returnedFailed enriched (failed.error.getD ("Task " ++ host.task.id ++ " failed."))
      | none => .succeeded enriched

/-- `attemptsSoFar` after a number of attempts: those whose call returned. -/
def attemptsSoFar : Nat → List TaskAttemptState
  | 0 => host.task.attempts.getD []
  | attempt + 1 =>
    let soFar := attemptsSoFar attempt
    match attemptBody host (attempt + 1) soFar with
    | .succeeded _ | .returnedFailed _ _ =>
      soFar ++ [finishedAttempt host (attempt + 1)]
    | .refused _ | .threw _ => soFar

def attemptEnd (attempt : Nat) : AttemptEnd :=
  attemptBody host attempt (attemptsSoFar host (attempt - 1))

def retryHost : RetryHost RunSnapshot UnitError where
  fn attempt := (attemptEnd host attempt).outcome
  message := UnitError.message
  globTest := host.globTest
  shouldRetry := host.shouldRetry
  abortAt := host.abortAt

inductive UnitExit where
  | returned (result : Except UnitError RunSnapshot)
  | cancelled (tasks : List TeamTaskState)
  | lastFailed (snapshot : RunSnapshot)
  | settledElsewhere (snapshot : RunSnapshot)
  | fallbackFailed (tasks : List TeamTaskState)

/-- The work of a unit: the calls of `runTeamTask` it made, in order, and what it hands back. -/
structure UnitRun where
  calls : List UnitCall
  exit : UnitExit

/-- The reason of a cancellation: the loop's own, from its signal, or one that an attempt threw. -/
def cancellationReason : RetryError UnitError → Option CancellationReason
  | .cancelled => some host.signalReason
  | .original (.cancellation reason) => some reason
  | _ => none

/-- The reason for which the unit is cancelled after a throw, if it is. -/
def cancelledFor (thrown : RetryError UnitError) : Option CancellationReason :=
  match cancellationReason host thrown with
  | some reason => some reason
  | none => if host.inputAborted then some host.inputReason else none

def fallbackExit : UnitExit :=
  match host.runTeamTask .fallback host.foundAfter (freshTask host host.foundAfter) with
  | .ok result => .returned (.ok result)
  | .error error =>
    .fallbackFailed (host.foundAfter.tasks.map fun item =>
      if item.id = host.task.id ∧ isOpen item then
        { item with status := .failed, finishedAt := some host.now, error := some error.message }
      else item)

def loopCalls (run : RetryRun RunSnapshot UnitError) : List UnitCall :=
  (run.started.filter fun attempt => (attemptEnd host attempt).called).map UnitCall.attempt

/-- What `lastFailed` holds after a loop: the latest failed result that an attempt returned. -/
def lastFailedOf (run : RetryRun RunSnapshot UnitError) : Option RunSnapshot :=
  (run.started.filterMap fun attempt => (attemptEnd host attempt).lastFailed).getLast?

/-- **The `catch` after the loop**, for a run of the loop that has thrown. -/
def afterThrow (run : RetryRun RunSnapshot UnitError) (thrown : RetryError UnitError) : UnitRun :=
  match cancelledFor host thrown with
  | some reason =>
    { calls := loopCalls host run
      exit := .cancelled (cancelNonTerminalTasks host.foundAfter.tasks .cancelled
        (reason.message ++ " (" ++ reason.code ++ ")") host.now
        (some fun item => item.id == host.task.id && isOpen item)) }
  | none =>
    match lastFailedOf host run with
    | some snapshot => { calls := loopCalls host run, exit := .lastFailed snapshot }
    | none =>
      if !isOpen (freshTask host host.foundAfter) then
        { calls := loopCalls host run, exit := .settledElsewhere host.foundAfter }
      else { calls := loopCalls host run ++ [.fallback], exit := fallbackExit host }

def dispatchUnit (policy : RetryPolicy) : UnitRun :=
  if !shouldUseRetry host.autoRetry then
    { calls := [.single], exit := .returned (host.runTeamTask .single host.ctx host.task) }
  else
    let run := executeWithRetry (retryHost host) policy
    match run.result with
    | .ok snapshot => { calls := loopCalls host run, exit := .returned (.ok snapshot) }
    | .error thrown => afterThrow host run thrown

/-! ### How many calls a unit makes -/

theorem threw_of_failed {attempt : Nat} {error : UnitError}
    (failed : (attemptEnd host attempt).outcome = .error error)
    (noResult : (attemptEnd host attempt).lastFailed = none) :
    attemptEnd host attempt = .threw error := by
  cases ended : attemptEnd host attempt with
  | refused snapshot | succeeded snapshot => rw [ended] at failed; cases failed
  | returnedFailed snapshot message => rw [ended] at noResult; cases noResult
  | threw other =>
    rw [ended] at failed
    cases failed
    rfl

theorem loopCalls_le (policy : RetryPolicy) :
    (loopCalls host (executeWithRetry (retryHost host) policy)).length ≤ policy.normalizedAttempts := by
  have started := loop_started_le (retryHost host) policy policy.normalizedAttempts 1 none
  rw [loopCalls, List.length_map]
  exact Nat.le_trans (List.length_filter_le _ _) started

theorem threw_of_lastFailed_none {policy : RetryPolicy} {thrown : RetryError UnitError}
    (result : (executeWithRetry (retryHost host) policy).result = .error thrown)
    (kept : lastFailedOf host (executeWithRetry (retryHost host) policy) = none) :
    ∀ attempt ∈ (executeWithRetry (retryHost host) policy).started,
      ∃ error, attemptEnd host attempt = .threw error := by
  intro attempt member
  obtain ⟨error, failed⟩ := loop_failed_of_thrown (retryHost host) policy result attempt member
  refine ⟨error, threw_of_failed host failed ?_⟩
  rw [lastFailedOf, List.getLast?_eq_none_iff, List.filterMap_eq_nil_iff] at kept
  exact kept attempt member

theorem dispatchUnit_cases (policy : RetryPolicy) : (dispatchUnit host policy).calls = [.single]
      ∨ (dispatchUnit host policy).calls = loopCalls host (executeWithRetry (retryHost host) policy)
      ∨ ((dispatchUnit host policy).calls =
          loopCalls host (executeWithRetry (retryHost host) policy) ++ [.fallback]
        ∧ (∃ thrown, (executeWithRetry (retryHost host) policy).result = .error thrown
          ∧ cancelledFor host thrown = none)
        ∧ (∀ attempt ∈ (executeWithRetry (retryHost host) policy).started,
          ∃ error, attemptEnd host attempt = .threw error)
        ∧ isOpen (freshTask host host.foundAfter) = true) := by
  unfold dispatchUnit
  split
  · exact .inl rfl
  · dsimp only
    split
    · exact .inr (.inl rfl)
    · rename_i thrown result
      unfold afterThrow
      split
      · exact .inr (.inl rfl)
      · rename_i notCancelled
        split
        · exact .inr (.inl rfl)
        · rename_i kept
          split
          · exact .inr (.inl rfl)
          · rename_i still
            exact .inr (.inr ⟨rfl, ⟨thrown, result, notCancelled⟩,
              threw_of_lastFailed_none host result kept, by simpa using still⟩)

/-- **The calls of one unit**: at most one for each attempt that the policy admits, and then the
fallback. More calls than attempts are made only where every attempt threw, no cancellation ended the
loop, and the task is still queued or running. -/
theorem dispatchUnit_calls (policy : RetryPolicy) :
    (dispatchUnit host policy).calls.length ≤ (max 1 policy.maxAttempts).toNat + 1
      ∧ (UnitCall.fallback ∉ (dispatchUnit host policy).calls →
        (dispatchUnit host policy).calls.length ≤ (max 1 policy.maxAttempts).toNat)
      ∧ (UnitCall.fallback ∈ (dispatchUnit host policy).calls →
        (∃ thrown, (executeWithRetry (retryHost host) policy).result = .error thrown
          ∧ cancelledFor host thrown = none)
        ∧ (∀ attempt ∈ (executeWithRetry (retryHost host) policy).started,
          ∃ error, attemptEnd host attempt = .threw error)
        ∧ isOpen (freshTask host host.foundAfter) = true) := by
  have bounded := loopCalls_le host policy
  have positive := normalizedAttempts_pos policy
  have inLoop : UnitCall.fallback ∉ loopCalls host (executeWithRetry (retryHost host) policy) := by
    simp [loopCalls]
  change _ ≤ policy.normalizedAttempts + 1 ∧ (_ → _ ≤ policy.normalizedAttempts) ∧ _
  rcases dispatchUnit_cases host policy with single | looped | ⟨fellBack, why⟩
  · rw [single]
    exact ⟨Nat.le_add_left 1 _, fun _ => positive, fun inside => by simp at inside⟩
  · rw [looped]
    exact ⟨Nat.le_succ_of_le bounded, fun _ => bounded, fun inside => absurd inside inLoop⟩
  · rw [fellBack, List.length_append, List.length_singleton]
    exact ⟨Nat.succ_le_succ bounded, fun outside => absurd (by simp) outside, fun _ => why⟩

end

/-- A unit whose task stays queued while every call of `runTeamTask` throws. -/
def alwaysThrows : UnitHost where
  task := { id := "01_explore", status := .queued }
  ctx := { manifestStatus := .running, tasks := [{ id := "01_explore", status := .queued }] }
  found _ := { manifestStatus := .running, tasks := [{ id := "01_explore", status := .queued }] }
  foundAfter := { manifestStatus := .running, tasks := [{ id := "01_explore", status := .queued }] }
  runTeamTask _ _ _ := .error (.other "ChildTimeout")

theorem fallback_exceeds :
    (dispatchUnit alwaysThrows {}).calls = [.attempt 1, .attempt 2, .attempt 3, .fallback]
      ∧ ¬ ((dispatchUnit alwaysThrows {}).calls.length : Int) ≤ ({} : RetryPolicy).maxAttempts
      ∧ (dispatchUnit alwaysThrows { maxAttempts := 0 }).calls = [.attempt 1, .fallback] := by
  refine ⟨by decide +kernel, by decide +kernel, by decide +kernel⟩

end PiCrew.Dispatch
