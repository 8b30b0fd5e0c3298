/-
**What a chain reports of its execution.**

`runtime/chain-runner.ts` (`runChain`, `buildExecutionPlan`). The steps of a chain are expanded into a plan with
one entry for each iteration of a step. The iterations run one after the other: the task runner runs the task,
the handoff manager sums its result up, the result is recorded, and an event is appended to the log of the run.
Any of the three calls may throw, and what is thrown is recorded as a failure of the iteration.

* `runEntry_eq` — what one iteration adds to the results, and whether the chain stops behind it;
* `runPlan_eq` — the results of a run are those of its iterations, up to the first that stops it;
* `faithfullyReported_iff` — the report is faithful unless the event of an iteration that was already recorded
  cannot be appended, or a summary throws in a chain whose tasks all ran and succeeded;
* `recorded_twice` — one step, one task, two results.

What an iteration is told of those before it is not modelled: the runner may answer anything.
-/

import Mathlib.Algebra.BigOperators.Group.List.Basic
import Mathlib.Algebra.GroupWithZero.Nat
import Mathlib.Data.List.Infix

namespace PiCrew.ChainRunner

section

/-- `TaskResult.outcome`. A step's result has one of these, `partialResult` for `partial`. -/
inductive Outcome where
  | success
  | failure
  | partialResult
  deriving DecidableEq, Repr

/-- A step. `loopCount` is what `step.context.loopCount` is where that is an integer. -/
structure ChainStep where
  name : String
  loopCount : Option Int := none
  continueOnError : Bool := false
  deriving DecidableEq, Repr

structure ChainSpec where
  steps : List ChainStep
  continueOnError : Bool := false
  deriving DecidableEq, Repr

/-- What a task came to, with `usage.totalTokens`. -/
structure TaskResult where
  outcome : Outcome
  totalTokens : Option Nat := none
  deriving DecidableEq, Repr

/-- **What the world answers in one iteration**: the task runner, the handoff manager and the log of events, each
with what it throws. -/
structure Answers (η : Type) where
  runTask : Except String TaskResult
  generateSummary : Except String (Option η)
  appendEventAsync : Except String Unit
  deriving DecidableEq

structure ChainStepResult (η : Type) where
  step : Nat
  name : String
  outcome : Outcome
  result : Option TaskResult := none
  handoff : Option η := none
  error : Option String := none
  deriving DecidableEq, Repr

structure ChainResult (η : Type) where
  steps : List (ChainStepResult η)
  success : Bool
  totalTokens : Option Nat
  totalHandoffs : List η
  deriving DecidableEq, Repr

structure PlanEntry where
  step : ChainStep
  stepIndex : Nat
  iter : Nat
  iterations : Nat
  displayName : String
  deriving DecidableEq, Repr

def plannedIterations (step : ChainStep) : Nat :=
  match step.loopCount with
  | some count => if 1 ≤ count then (min 10 count).toNat else 1
  | none => 1

def planStep (step : ChainStep) (stepIndex : Nat) : List PlanEntry :=
  (List.range (plannedIterations step)).map fun earlier =>
    { step := step
      stepIndex := stepIndex
      iter := earlier + 1
      iterations := plannedIterations step
      displayName := if earlier = 0 then step.name else s!"{step.name}#{earlier + 1}" }

def buildExecutionPlan (spec : ChainSpec) : List PlanEntry :=
  (spec.steps.zipIdx.map fun (step, stepIndex) => planStep step stepIndex).flatten

/-- **An iteration of a run**: its entry of the plan, and what the world answers in it. -/
structure Iteration (η : Type) where
  entry : PlanEntry
  answers : Answers η

/-- The iterations that a run would have, were all of the plan executed. -/
def iterationsOf {η : Type} (plan : List PlanEntry) (answers : Nat → Answers η) : List (Iteration η) :=
  plan.zipIdx.map fun (entry, index) => { entry := entry, answers := answers index }

/-- The variables of `runChain`. `executed` has the iterations that were begun. -/
structure ChainState (η : Type) where
  stepResults : List (ChainStepResult η) := []
  totalTokens : Nat := 0
  allHandoffs : List η := []
  brokeEarly : Bool := false
  executed : List (Iteration η) := []

variable {η : Type} (spec : ChainSpec) (eventsPath : Option String)

/-- `!(!spec.continueOnError && !step.continueOnError)` -/
def continues (entry : PlanEntry) : Bool := spec.continueOnError || entry.step.continueOnError

/-- `if (eventsPath)`: a path is given, and not the empty one. -/
def emitsEvents : Bool := eventsPath.any (· ≠ "")

def recordedResult (entry : PlanEntry) (result : TaskResult) (handoff : Option η) : ChainStepResult η where
  step := entry.stepIndex + 1
  name := entry.displayName
  outcome := result.outcome
  result := some result
  handoff := handoff

def failedResult (entry : PlanEntry) (error : String) : ChainStepResult η where
  step := entry.stepIndex + 1
  name := entry.displayName
  outcome := .failure
  error := some error

namespace ChainState

variable (state : ChainState η) (entry : PlanEntry)

def push (result : ChainStepResult η) : ChainState η :=
  { state with stepResults := state.stepResults ++ [result] }

/-- `brokeEarly = true; break`, unless the chain or the step continues on an error. -/
def stopUnlessContinued : ChainState η :=
  if continues spec entry then state else { state with brokeEarly := true }

/-- The `catch` of an iteration. -/
def caught (error : String) : ChainState η :=
  (state.push (failedResult entry error)).stopUnlessContinued spec entry

/-- The `try` of an iteration behind the summary: record it, stop, or append its event. -/
def record (answers : Answers η) (result : TaskResult) (handoff : Option η) : ChainState η :=
  let pushed := state.push (recordedResult entry result handoff)
  let handed := { pushed with allHandoffs := pushed.allHandoffs ++ handoff.toList }
  if result.outcome ≠ .success ∧ ¬ continues spec entry then { handed with brokeEarly := true }
  else if emitsEvents eventsPath then
    match answers.appendEventAsync with
    | .ok _ => handed
    | .error error => handed.caught spec entry error
  else handed

/-- **An iteration**: the body of the loop of `runChain`. -/
def runEntry (iteration : Iteration η) : ChainState η :=
  let begun := { state with executed := state.executed ++ [iteration] }
  match iteration.answers.runTask with
  | .error error => begun.caught spec iteration.entry error
  | .ok result =>
    let tracked := { begun with totalTokens := begun.totalTokens + result.totalTokens.getD 0 }
    match iteration.answers.generateSummary with
    | .error error => tracked.caught spec iteration.entry error
    | .ok handoff => tracked.record spec eventsPath iteration.entry iteration.answers result handoff

end ChainState

/-- The loop of `runChain`. -/
def runPlan : List (Iteration η) → ChainState η → ChainState η
  | [], state => state
  | iteration :: rest, state =>
    let after := state.runEntry spec eventsPath iteration
    if after.brokeEarly then after else runPlan rest after

/-- The variables of `runChain` behind its loop. `answers` has what the world answers in each entry of the
plan. -/
def runState (answers : Nat → Answers η) : ChainState η :=
  runPlan spec eventsPath (iterationsOf (buildExecutionPlan spec) answers) {}

def runChain (answers : Nat → Answers η) : ChainResult η :=
  let state := runState spec eventsPath answers
  { steps := state.stepResults
    success := decide (spec.steps ≠ []) && !state.brokeEarly
      && decide (state.stepResults.length = (buildExecutionPlan spec).length)
      && state.stepResults.all fun result => decide (result.outcome = .success)
    totalTokens := if 0 < state.totalTokens then some state.totalTokens else none
    totalHandoffs := state.allHandoffs }

end

/-! ### What is claimed of a report -/

section

variable {η : Type} (spec : ChainSpec) (eventsPath : Option String) (answers : Nat → Answers η)

def ChainStepResult.label (result : ChainStepResult η) : Nat × String := (result.step, result.name)

def Iteration.label (iteration : Iteration η) : Nat × String :=
  (iteration.entry.stepIndex + 1, iteration.entry.displayName)

def Iteration.tokens (iteration : Iteration η) : Nat :=
  match iteration.answers.runTask with
  | .ok result => result.totalTokens.getD 0
  | .error _ => 0

def Iteration.TaskSucceeds (iteration : Iteration η) : Prop :=
  ∃ result, iteration.answers.runTask = .ok result ∧ result.outcome = .success

/-- **A chain is faithfully reported**: one result for each iteration that was executed, in the order of the
plan; an early end only behind a result that is no success, where nothing continues on errors; the tokens of all
that was executed; and success where all of a plan was executed and every task succeeded. -/
structure FaithfullyReported : Prop where
  entries : (runChain spec eventsPath answers).steps.map (·.label)
    = (runState spec eventsPath answers).executed.map (·.label)
  inPlanOrder : (runState spec eventsPath answers).executed
    <+: iterationsOf (buildExecutionPlan spec) answers
  endsEarly : (runState spec eventsPath answers).executed
      ≠ iterationsOf (buildExecutionPlan spec) answers →
    (∃ last ∈ (runChain spec eventsPath answers).steps.getLast?, last.outcome ≠ .success)
      ∧ ∃ last ∈ (runState spec eventsPath answers).executed.getLast?, continues spec last.entry = false
  tokens : (runChain spec eventsPath answers).totalTokens.getD 0
    = ((runState spec eventsPath answers).executed.map (·.tokens)).sum
  success : (runChain spec eventsPath answers).success = true ↔ buildExecutionPlan spec ≠ []
      ∧ (runState spec eventsPath answers).executed = iterationsOf (buildExecutionPlan spec) answers
      ∧ ∀ iteration ∈ iterationsOf (buildExecutionPlan spec) answers, iteration.TaskSucceeds

end

/-! ### One iteration -/

section

variable {η : Type} (spec : ChainSpec) (eventsPath : Option String) (iteration : Iteration η)

def Iteration.SummaryThrows : Prop :=
  (∃ result, iteration.answers.runTask = .ok result) ∧ ∃ error, iteration.answers.generateSummary = .error error

/-- **The event of an iteration that was recorded cannot be appended.** -/
def Iteration.AppendThrows : Prop :=
  emitsEvents eventsPath = true ∧ (∃ error, iteration.answers.appendEventAsync = .error error)
    ∧ (∃ handoff, iteration.answers.generateSummary = .ok handoff)
    ∧ ∃ result, iteration.answers.runTask = .ok result
      ∧ (result.outcome = .success ∨ continues spec iteration.entry = true)

def Iteration.runsThrough : Bool :=
  iteration.answers.runTask.toOption.any (fun result => decide (result.outcome = .success))
    && iteration.answers.generateSummary.isOk
    && (!emitsEvents eventsPath || iteration.answers.appendEventAsync.isOk)

def Iteration.stops : Bool := !continues spec iteration.entry && !iteration.runsThrough eventsPath

/-- What an iteration adds to the variables of a run. -/
def alone : ChainState η := ({} : ChainState η).runEntry spec eventsPath iteration

/-- The variables behind a part of a run, and behind what follows it. -/
def ChainState.followedBy (first second : ChainState η) : ChainState η where
  stepResults := first.stepResults ++ second.stepResults
  totalTokens := first.totalTokens + second.totalTokens
  allHandoffs := first.allHandoffs ++ second.allHandoffs
  brokeEarly := first.brokeEarly || second.brokeEarly
  executed := first.executed ++ second.executed

theorem caught_eq {state : ChainState η} (entry : PlanEntry) (error : String)
    (running : state.brokeEarly = false) :
    state.caught spec entry error
      = { state.push (failedResult entry error) with brokeEarly := !continues spec entry } := by
  unfold ChainState.caught ChainState.stopUnlessContinued ChainState.push
  cases continues spec entry <;> simp [running]

theorem caught_frame (state : ChainState η) (entry : PlanEntry) (error : String) :
    (state.caught spec entry error).executed = state.executed
      ∧ (state.caught spec entry error).totalTokens = state.totalTokens := by
  unfold ChainState.caught ChainState.stopUnlessContinued
  split <;> exact ⟨rfl, rfl⟩

theorem record_frame (state : ChainState η) (entry : PlanEntry) (answers : Answers η) (result : TaskResult)
    (handoff : Option η) :
    (state.record spec eventsPath entry answers result handoff).executed = state.executed
      ∧ (state.record spec eventsPath entry answers result handoff).totalTokens = state.totalTokens := by
  unfold ChainState.record
  dsimp only
  split_ifs
  · exact ⟨rfl, rfl⟩
  · split
    · exact ⟨rfl, rfl⟩
    · exact caught_frame spec _ entry _
  · exact ⟨rfl, rfl⟩

/-- **An iteration adds the same to every state.** -/
theorem runEntry_eq {state : ChainState η} (running : state.brokeEarly = false) :
    state.runEntry spec eventsPath iteration = state.followedBy (alone spec eventsPath iteration) := by
  unfold alone ChainState.runEntry ChainState.followedBy
  cases iteration.answers.runTask with
  | error error => simp [caught_eq, ChainState.push, running]
  | ok result =>
    cases iteration.answers.generateSummary with
    | error error => simp [caught_eq, ChainState.push, running]
    | ok handoff =>
      simp only [ChainState.record, ChainState.push]
      split_ifs
      · simp
      · cases iteration.answers.appendEventAsync with
        | ok _ => simp [running]
        | error error => simp [caught_eq, ChainState.push, running]
      · simp [running]

/-- **What an iteration comes to**: it fails before it is recorded, it is recorded, or it is recorded and then
fails. -/
inductive Comes : ChainState η → Prop where
  | failed (after : ChainState η) (error : String)
      (results : after.stepResults = [failedResult iteration.entry error])
      (broke : after.brokeEarly = !continues spec iteration.entry)
      (unrecorded : (∃ thrown, iteration.answers.runTask = .error thrown) ∨ iteration.SummaryThrows) :
      Comes after
  | recorded (after : ChainState η) (result : TaskResult) (handoff : Option η)
      (results : after.stepResults = [recordedResult iteration.entry result handoff])
      (broke : after.brokeEarly
        = (decide (result.outcome ≠ .success) && !continues spec iteration.entry))
      (ran : iteration.answers.runTask = .ok result)
      (summary : iteration.answers.generateSummary = .ok handoff)
      (appended : ¬ iteration.AppendThrows spec eventsPath) : Comes after
  | twice (after : ChainState η) (result : TaskResult) (handoff : Option η) (error : String)
      (results : after.stepResults
        = [recordedResult iteration.entry result handoff, failedResult iteration.entry error])
      (broke : after.brokeEarly = !continues spec iteration.entry)
      (thrown : iteration.AppendThrows spec eventsPath) : Comes after

theorem alone_comes : Comes spec eventsPath iteration (alone spec eventsPath iteration) := by
  unfold alone ChainState.runEntry
  cases ran : iteration.answers.runTask with
  | error error =>
    simp only [caught_eq]
    exact .failed _ error rfl rfl (.inl ⟨error, ran⟩)
  | ok result =>
    cases summary : iteration.answers.generateSummary with
    | error error =>
      simp only [caught_eq]
      exact .failed _ error rfl rfl (.inr ⟨⟨result, ran⟩, error, summary⟩)
    | ok handoff =>
      simp only [ChainState.record, ChainState.push]
      by_cases stopped : result.outcome ≠ .success ∧ ¬ continues spec iteration.entry
      · rw [if_pos stopped]
        refine .recorded _ result handoff rfl ?_ ran summary ?_
        · simp [stopped.1, stopped.2]
        · rintro ⟨-, -, -, other, same, fine⟩
          cases ran.symm.trans same
          exact fine.elim stopped.1 stopped.2
      · rw [if_neg stopped]
        have goesOn : result.outcome = .success ∨ continues spec iteration.entry = true := by
          simpa only [not_and_or, not_not] using stopped
        have unstopped : (decide (result.outcome ≠ .success) && !continues spec iteration.entry) = false := by
          simpa [or_iff_not_imp_left] using goesOn
        by_cases emits : emitsEvents eventsPath = true
        · rw [if_pos emits]
          cases appended : iteration.answers.appendEventAsync with
          | ok _ =>
            refine .recorded _ result handoff rfl unstopped.symm ran summary ?_
            rintro ⟨-, ⟨error, thrown⟩, -⟩
            exact absurd (appended.symm.trans thrown) nofun
          | error error =>
            simp only [caught_eq]
            exact .twice _ result handoff error rfl rfl
              ⟨emits, ⟨error, appended⟩, ⟨handoff, summary⟩, result, ran, goesOn⟩
        · rw [if_neg emits]
          exact .recorded _ result handoff rfl unstopped.symm ran summary fun thrown => emits thrown.1

theorem alone_executed : (alone spec eventsPath iteration).executed = [iteration] := by
  unfold alone ChainState.runEntry
  cases iteration.answers.runTask with
  | error error => exact (caught_frame spec _ _ error).1
  | ok result =>
    cases iteration.answers.generateSummary with
    | error error => exact (caught_frame spec _ _ error).1
    | ok handoff => exact (record_frame spec eventsPath _ _ _ result handoff).1

theorem alone_totalTokens : (alone spec eventsPath iteration).totalTokens = iteration.tokens := by
  unfold alone ChainState.runEntry Iteration.tokens
  cases iteration.answers.runTask with
  | error error => exact (caught_frame spec _ _ error).2
  | ok result =>
    have counted : 0 + result.totalTokens.getD 0 = result.totalTokens.getD 0 := Nat.zero_add _
    cases iteration.answers.generateSummary with
    | error error => exact (caught_frame spec _ _ error).2.trans counted
    | ok handoff => exact (record_frame spec eventsPath _ _ _ result handoff).2.trans counted

variable {spec} {eventsPath} {iteration}

theorem alone_labels :
    (alone spec eventsPath iteration).stepResults.map (·.label) = [iteration.label]
      ∧ ¬ iteration.AppendThrows spec eventsPath
    ∨ (alone spec eventsPath iteration).stepResults.map (·.label) = [iteration.label, iteration.label]
      ∧ iteration.AppendThrows spec eventsPath := by
  cases alone_comes spec eventsPath iteration with
  | failed error results _ unrecorded =>
    refine .inl ⟨by rw [results]; rfl, ?_⟩
    rintro ⟨-, -, ⟨handoff, summary⟩, result, ran, -⟩
    rcases unrecorded with ⟨_, thrown⟩ | ⟨-, _, thrown⟩
    · exact absurd (ran.symm.trans thrown) nofun
    · exact absurd (summary.symm.trans thrown) nofun
  | recorded result handoff results _ _ _ appended => exact .inl ⟨by rw [results]; rfl, appended⟩
  | twice result handoff error results _ thrown => exact .inr ⟨by rw [results]; rfl, thrown⟩

theorem runsThrough_of_recorded {result : TaskResult} {handoff : Option η}
    (ran : iteration.answers.runTask = .ok result) (summary : iteration.answers.generateSummary = .ok handoff)
    (appended : ¬ iteration.AppendThrows spec eventsPath) :
    iteration.runsThrough eventsPath = decide (result.outcome = .success) := by
  have given : (Except.ok handoff : Except String (Option η)).isOk = true := rfl
  rw [Iteration.runsThrough, ran, summary, given, Bool.and_true]
  by_cases fine : result.outcome = .success
  · cases append : iteration.answers.appendEventAsync with
    | ok _ => simp [fine, Except.toOption, Except.isOk, Except.toBool]
    | error error =>
      have silent : emitsEvents eventsPath = false := by
        by_contra emits
        exact appended ⟨by simpa using emits, ⟨error, append⟩, ⟨handoff, summary⟩, result, ran, .inl fine⟩
      simp [fine, silent, Except.toOption]
  · simp [fine, Except.toOption]

theorem not_runsThrough (thrown : (∃ error, iteration.answers.runTask = .error error)
      ∨ (∃ error, iteration.answers.generateSummary = .error error)
      ∨ emitsEvents eventsPath = true ∧ ∃ error, iteration.answers.appendEventAsync = .error error) :
    iteration.runsThrough eventsPath = false := by
  rw [Iteration.runsThrough]
  rcases thrown with ⟨error, thrown⟩ | ⟨error, thrown⟩ | ⟨emits, error, thrown⟩
  · simp [thrown, Except.toOption]
  · simp [thrown, Except.isOk, Except.toBool]
  · simp [emits, thrown, Except.isOk, Except.toBool]

theorem alone_brokeEarly :
    (alone spec eventsPath iteration).brokeEarly = iteration.stops spec eventsPath := by
  rw [Iteration.stops]
  cases alone_comes spec eventsPath iteration with
  | failed error _ broke unrecorded =>
    have thrown : iteration.runsThrough eventsPath = false :=
      not_runsThrough (unrecorded.imp id fun throws => .inl throws.2)
    rw [broke, thrown, Bool.not_false, Bool.and_true]
  | recorded result handoff _ broke ran summary appended =>
    rw [broke, runsThrough_of_recorded ran summary appended, Bool.and_comm, decide_not]
  | twice result handoff error _ broke thrown =>
    have failed : iteration.runsThrough eventsPath = false :=
      not_runsThrough (.inr (.inr ⟨thrown.1, thrown.2.1⟩))
    rw [broke, failed, Bool.not_false, Bool.and_true]

theorem alone_last (stops : iteration.stops spec eventsPath = true) :
    ∃ earlier last, (alone spec eventsPath iteration).stepResults = earlier ++ [last]
      ∧ last.outcome ≠ .success := by
  rw [← alone_brokeEarly] at stops
  cases alone_comes spec eventsPath iteration with
  | failed error results _ _ => exact ⟨[], _, results, nofun⟩
  | recorded result handoff results broke _ _ _ =>
    rw [broke, Bool.and_eq_true, decide_eq_true_eq] at stops
    exact ⟨[], _, results, stops.1⟩
  | twice result handoff error results _ _ => exact ⟨[_], _, results, nofun⟩

theorem alone_succeeds_iff (appended : ¬ iteration.AppendThrows spec eventsPath) :
    (∀ result ∈ (alone spec eventsPath iteration).stepResults, result.outcome = .success)
      ↔ iteration.TaskSucceeds ∧ ¬ iteration.SummaryThrows := by
  cases alone_comes spec eventsPath iteration with
  | failed error results _ unrecorded =>
    rw [results, List.forall_mem_singleton]
    refine iff_of_false nofun ?_
    rintro ⟨⟨result, ran, -⟩, given⟩
    rcases unrecorded with ⟨_, thrown⟩ | throws
    · exact absurd (ran.symm.trans thrown) nofun
    · exact given throws
  | recorded result handoff results _ ran summary _ =>
    rw [results, List.forall_mem_singleton]
    constructor
    · intro fine
      refine ⟨⟨result, ran, fine⟩, ?_⟩
      rintro ⟨-, _, thrown⟩
      exact absurd (summary.symm.trans thrown) nofun
    · rintro ⟨⟨other, same, fine⟩, -⟩
      cases ran.symm.trans same
      exact fine
  | twice result handoff error results _ thrown => exact absurd thrown appended

end

/-! ### All of a run -/

section

variable {η : Type} (spec : ChainSpec) (eventsPath : Option String)

/-- **The iterations that are executed**: up to the first that stops the chain. -/
def begun : List (Iteration η) → List (Iteration η)
  | [] => []
  | iteration :: rest => if iteration.stops spec eventsPath then [iteration] else iteration :: begun rest

/-- What iterations add to the variables of a run, one behind the other. -/
def together : List (Iteration η) → ChainState η
  | [] => {}
  | iteration :: rest => (alone spec eventsPath iteration).followedBy (together rest)

theorem followedBy_assoc (first second third : ChainState η) :
    (first.followedBy second).followedBy third = first.followedBy (second.followedBy third) := by
  simp only [ChainState.followedBy, List.append_assoc, Nat.add_assoc, Bool.or_assoc]

theorem followedBy_empty (state : ChainState η) : state.followedBy {} = state := by
  simp [ChainState.followedBy]

/-- **A run** executes the iterations up to the first that stops it. -/
theorem runPlan_eq {state : ChainState η} (running : state.brokeEarly = false)
    (iterations : List (Iteration η)) :
    runPlan spec eventsPath iterations state
      = state.followedBy (together spec eventsPath (begun spec eventsPath iterations)) := by
  induction iterations generalizing state with
  | nil => exact (followedBy_empty state).symm
  | cons iteration rest ih =>
    have first := runEntry_eq spec eventsPath iteration running
    have broke : (state.runEntry spec eventsPath iteration).brokeEarly
        = iteration.stops spec eventsPath := by
      rw [first, ChainState.followedBy, alone_brokeEarly, running, Bool.false_or]
    rw [runPlan, begun, broke]
    by_cases stops : iteration.stops spec eventsPath = true
    · rw [if_pos stops, if_pos stops, first, together, together, followedBy_empty]
    · rw [if_neg stops, if_neg stops, ih (broke.trans (Bool.eq_false_iff.mpr stops)), first, together,
        followedBy_assoc]

section

variable (iterations : List (Iteration η))

include iterations

theorem together_stepResults : (together spec eventsPath iterations).stepResults
      = iterations.flatMap fun iteration => (alone spec eventsPath iteration).stepResults := by
  induction iterations with
  | nil => rfl
  | cons iteration rest ih => rw [together, ChainState.followedBy, ih, List.flatMap_cons]

theorem together_totalTokens :
    (together spec eventsPath iterations).totalTokens = (iterations.map (·.tokens)).sum := by
  induction iterations with
  | nil => rfl
  | cons iteration rest ih =>
    rw [together, ChainState.followedBy, ih, alone_totalTokens, List.map_cons, List.sum_cons]

theorem together_executed : (together spec eventsPath iterations).executed = iterations := by
  induction iterations with
  | nil => rfl
  | cons iteration rest ih =>
    rw [together, ChainState.followedBy, ih, alone_executed, List.singleton_append]

theorem together_brokeEarly : (together spec eventsPath iterations).brokeEarly
      = iterations.any fun iteration => iteration.stops spec eventsPath := by
  induction iterations with
  | nil => rfl
  | cons iteration rest ih => rw [together, ChainState.followedBy, ih, alone_brokeEarly, List.any_cons]

theorem begun_prefix : begun spec eventsPath iterations <+: iterations := by
  induction iterations with
  | nil => exact List.nil_prefix
  | cons iteration rest ih =>
    rw [begun]
    split
    · exact ⟨rest, rfl⟩
    · exact List.cons_prefix_cons.mpr ⟨rfl, ih⟩

end

variable {iterations : List (Iteration η)}

theorem begun_cut (cut : begun spec eventsPath iterations ≠ iterations) :
    ∃ earlier last, begun spec eventsPath iterations = earlier ++ [last]
      ∧ last.stops spec eventsPath = true := by
  induction iterations with
  | nil => exact absurd rfl cut
  | cons iteration rest ih =>
    rw [begun] at cut ⊢
    by_cases stops : iteration.stops spec eventsPath = true
    · rw [if_pos stops]
      exact ⟨[], iteration, rfl, stops⟩
    · rw [if_neg stops] at cut ⊢
      obtain ⟨earlier, last, same, stopped⟩ := ih fun whole => cut (by rw [whole])
      exact ⟨iteration :: earlier, last, by rw [same]; rfl, stopped⟩

theorem begun_of_unstopped
    (none_stops : ∀ iteration ∈ begun spec eventsPath iterations, iteration.stops spec eventsPath = false) :
    begun spec eventsPath iterations = iterations := by
  by_contra cut
  obtain ⟨earlier, last, same, stops⟩ := begun_cut spec eventsPath cut
  have there : last ∈ begun spec eventsPath iterations := by
    rw [same]
    exact List.mem_concat_self
  exact absurd (stops.symm.trans (none_stops last there)) nofun

theorem length_le_results (iterations : List (Iteration η)) :
    iterations.length ≤ (together spec eventsPath iterations).stepResults.length := by
  induction iterations with
  | nil => exact Nat.le_refl 0
  | cons iteration rest ih =>
    have labelled : 1 ≤ (alone spec eventsPath iteration).stepResults.length := by
      rw [← List.length_map (·.label)]
      rcases @alone_labels _ spec eventsPath iteration with
        ⟨labels, -⟩ | ⟨labels, -⟩ <;> rw [labels] <;> simp
    rw [together, ChainState.followedBy, List.length_append, List.length_cons]
    omega

theorem labels_eq_iff (iterations : List (Iteration η)) :
    (together spec eventsPath iterations).stepResults.map (·.label) = iterations.map (·.label)
      ↔ ∀ iteration ∈ iterations, ¬ iteration.AppendThrows spec eventsPath := by
  induction iterations with
  | nil => exact iff_of_true rfl (List.forall_mem_nil _)
  | cons iteration rest ih =>
    rw [together, ChainState.followedBy, List.map_append, List.forall_mem_cons, List.map_cons]
    rcases @alone_labels _ spec eventsPath iteration with
      ⟨labels, appended⟩ | ⟨labels, thrown⟩
    · rw [labels, List.singleton_append, List.cons.injEq, eq_self, true_and, ih]
      exact (and_iff_right appended).symm
    · refine iff_of_false (fun same => ?_) fun none_throws => none_throws.1 thrown
      have counted := congrArg List.length same
      have more := length_le_results spec eventsPath rest
      simp only [labels, List.length_append, List.length_map, List.length_cons, List.length_nil] at counted
      omega

theorem length_results (appended : ∀ iteration ∈ iterations, ¬ iteration.AppendThrows spec eventsPath) :
    (together spec eventsPath iterations).stepResults.length = iterations.length := by
  have labels := congrArg List.length ((labels_eq_iff spec eventsPath iterations).mpr appended)
  rwa [List.length_map, List.length_map] at labels

theorem results_succeed_iff (appended : ∀ iteration ∈ iterations, ¬ iteration.AppendThrows spec eventsPath) :
    (∀ result ∈ (together spec eventsPath iterations).stepResults, result.outcome = .success)
      ↔ ∀ iteration ∈ iterations, iteration.TaskSucceeds ∧ ¬ iteration.SummaryThrows := by
  rw [together_stepResults]
  simp only [List.mem_flatMap, forall_exists_index, and_imp]
  constructor
  · intro fine iteration there
    exact (alone_succeeds_iff (appended iteration there)).mp fun result => fine result iteration there
  · intro fine result iteration there
    exact (alone_succeeds_iff (appended iteration there)).mpr (fine iteration there) result

theorem unstopped_iff
    (appended : ∀ iteration ∈ begun spec eventsPath iterations, ¬ iteration.AppendThrows spec eventsPath) :
    ((together spec eventsPath (begun spec eventsPath iterations)).brokeEarly = false
      ∧ (together spec eventsPath (begun spec eventsPath iterations)).stepResults.length = iterations.length
      ∧ ∀ result ∈ (together spec eventsPath (begun spec eventsPath iterations)).stepResults,
        result.outcome = .success)
    ↔ begun spec eventsPath iterations = iterations
      ∧ ∀ iteration ∈ iterations, iteration.TaskSucceeds ∧ ¬ iteration.SummaryThrows := by
  rw [results_succeed_iff spec eventsPath appended, length_results spec eventsPath appended,
    together_brokeEarly, List.any_eq_false]
  constructor
  · rintro ⟨unstopped, -, fine⟩
    have whole := begun_of_unstopped spec eventsPath fun iteration there =>
      Bool.eq_false_iff.mpr (unstopped iteration there)
    exact ⟨whole, whole ▸ fine⟩
  · rintro ⟨whole, fine⟩
    rw [whole] at appended ⊢
    refine ⟨fun iteration there stops => ?_, rfl, fine⟩
    obtain ⟨earlier, last, results, unsuccessful⟩ := alone_last stops
    refine unsuccessful ((alone_succeeds_iff (appended iteration there)).mpr (fine iteration there) last ?_)
    rw [results]
    exact List.mem_concat_self

end

/-! ### The report -/

section

variable {η : Type} (spec : ChainSpec) (eventsPath : Option String) (answers : Nat → Answers η)

def planned : List (Iteration η) := iterationsOf (buildExecutionPlan spec) answers

theorem runState_eq : runState spec eventsPath answers
      = together spec eventsPath (begun spec eventsPath (planned spec answers)) := by
  rw [runState, planned, runPlan_eq spec eventsPath rfl]
  simp [ChainState.followedBy]

theorem length_planned : (planned spec answers).length = (buildExecutionPlan spec).length := by
  rw [planned, iterationsOf, List.length_map, List.length_zipIdx]

theorem planStep_ne_nil (step : ChainStep) (stepIndex : Nat) : planStep step stepIndex ≠ [] := by
  have positive : plannedIterations step ≠ 0 := by
    unfold plannedIterations
    split
    · split
      · omega
      · exact Nat.one_ne_zero
    · exact Nat.one_ne_zero
  rw [planStep, ne_eq, List.map_eq_nil_iff, List.range_eq_nil]
  exact positive

theorem buildExecutionPlan_ne_nil : buildExecutionPlan spec ≠ [] ↔ spec.steps ≠ [] := by
  rw [buildExecutionPlan, ne_eq, List.flatten_eq_nil_iff]
  cases steps : spec.steps with
  | nil => simp
  | cons step rest =>
    refine iff_of_true (fun empty => planStep_ne_nil step 0 (empty _ ?_)) (List.cons_ne_nil step rest)
    rw [List.zipIdx_cons, List.map_cons]
    exact List.mem_cons_self

/-- **When a chain is faithfully reported.** The iterations are executed up to the first that stops the chain.
The report is faithful just if no event of an executed iteration fails to be appended behind its result, and,
where all of the plan is executed and every task succeeds, no summary throws. -/
theorem faithfullyReported_iff :
    FaithfullyReported spec eventsPath answers ↔
      (∀ iteration ∈ begun spec eventsPath (planned spec answers),
        ¬ iteration.AppendThrows spec eventsPath)
      ∧ (begun spec eventsPath (planned spec answers) = planned spec answers →
        (∀ iteration ∈ planned spec answers, iteration.TaskSucceeds) →
          ∀ iteration ∈ planned spec answers, ¬ iteration.SummaryThrows) := by
  have state := runState_eq spec eventsPath answers
  have executed : (runState spec eventsPath answers).executed
      = begun spec eventsPath (planned spec answers) := by
    rw [state, together_executed]
  have entries : (runChain spec eventsPath answers).steps.map (·.label)
        = (runState spec eventsPath answers).executed.map (·.label)
      ↔ ∀ iteration ∈ begun spec eventsPath (planned spec answers),
        ¬ iteration.AppendThrows spec eventsPath := by
    rw [executed, ← labels_eq_iff, ← state]
    rfl
  have succeeds (appended : ∀ iteration ∈ begun spec eventsPath (planned spec answers),
        ¬ iteration.AppendThrows spec eventsPath) :
      (runChain spec eventsPath answers).success = true ↔ buildExecutionPlan spec ≠ []
        ∧ begun spec eventsPath (planned spec answers) = planned spec answers
        ∧ ∀ iteration ∈ planned spec answers, iteration.TaskSucceeds ∧ ¬ iteration.SummaryThrows := by
    rw [← unstopped_iff spec eventsPath appended, length_planned, ← state, buildExecutionPlan_ne_nil,
      runChain]
    simp only [Bool.and_eq_true, decide_eq_true_eq, Bool.not_eq_true', List.all_eq_true]
    tauto
  constructor
  · intro report
    have appended := entries.mp report.entries
    refine ⟨appended, fun whole ran iteration there => ?_⟩
    have nonempty : buildExecutionPlan spec ≠ [] := by
      rintro empty
      have none_planned := length_planned spec answers
      rw [empty, List.length_nil, List.length_eq_zero_iff] at none_planned
      rw [none_planned] at there
      exact absurd there List.not_mem_nil
    have success := report.success.mpr ⟨nonempty, executed.trans whole, ran⟩
    exact (((succeeds appended).mp success).2.2 iteration there).2
  · rintro ⟨appended, summed⟩
    refine ⟨entries.mpr appended, ?_, fun cut => ?_, ?_, ?_⟩
    · rw [executed]
      exact begun_prefix spec eventsPath _
    · rw [executed] at cut
      obtain ⟨earlier, last, same, stops⟩ := begun_cut spec eventsPath cut
      obtain ⟨before, result, results, unsuccessful⟩ := alone_last stops
      have steps : (runChain spec eventsPath answers).steps
          = (together spec eventsPath earlier).stepResults ++ before ++ [result] := by
        have whole : (runChain spec eventsPath answers).steps
            = (together spec eventsPath (earlier ++ [last])).stepResults := by
          rw [← same, ← state]
          rfl
        rw [whole, together_stepResults, List.flatMap_append, List.flatMap_singleton, results,
          ← together_stepResults, List.append_assoc]
      refine ⟨⟨result, ?_, unsuccessful⟩, last, ?_, ?_⟩
      · rw [steps, List.getLast?_concat]
        exact rfl
      · rw [executed, same, List.getLast?_concat]
        exact rfl
      · rw [Iteration.stops, Bool.and_eq_true, Bool.not_eq_true'] at stops
        exact stops.1
    · rw [executed, ← together_totalTokens, ← state, runChain]
      dsimp only
      split
      · rfl
      · rw [Option.getD_none]
        omega
    · rw [succeeds appended, executed]
      refine and_congr_right fun _ => and_congr_right fun whole => ?_
      exact ⟨fun fine iteration there => (fine iteration there).1,
        fun ran iteration there => ⟨ran iteration there, summed whole ran iteration there⟩⟩

def oneStep : ChainSpec where
  steps := [{ name := "build" }]

/-- The task succeeds and is summed up, and the log of events cannot be written. -/
def fullDisk : Nat → Answers Unit := fun _ =>
  { runTask := .ok { outcome := .success, totalTokens := some 7 }
    generateSummary := .ok (some ())
    appendEventAsync := .error "ENOSPC" }

/-- **One iteration, two results**: the task succeeds, and is reported as a success and as a failure. -/
theorem recorded_twice :
    (runChain oneStep (some "events.jsonl") fullDisk).steps.map (fun result => (result.label, result.outcome))
        = [((1, "build"), .success), ((1, "build"), .failure)]
      ∧ (runState oneStep (some "events.jsonl") fullDisk).executed.length = 1
      ∧ ¬ FaithfullyReported oneStep (some "events.jsonl") fullDisk := by
  refine ⟨rfl, rfl, fun report => ?_⟩
  have labels : [(1, "build"), (1, "build")] = [(1, "build")] := report.entries
  exact absurd (congrArg List.length labels) (by decide)

end

end PiCrew.ChainRunner
