/-
**Jobs that run once.**

`runtime/scheduling/scheduler.ts`. Each function of the scheduler with the events that it emits and its calls of
the executor, and what follows for a job with a one-shot schedule. `cronTick` fires the job when its time has
come; `fire` first updates it to `running`, and the update arms it anew, by then for a time in the past. So it
is disabled with an `error` event before the executor is called.

* `tick_error`, `endsWell_iff` — an execution by the timer that succeeds comes with an `error` event, but for a
  clock that goes back;
* `once_jobs_exact` — these for every run.

The executor is taken to dispatch its job; the completion of the run is an update from outside. The report of
missed occurrences is left out of the events.
-/

import PiCrew.Scheduling.SchedulerTimers

namespace PiCrew.Scheduling.Jobs

section

/-- What the scheduler emits, and its calls of the executor. -/
inductive ScheduleChangeEvent where
  | added (job : ScheduledJob)
  | removed (jobId : String)
  | updated (job : ScheduledJob)
  | executed (job : ScheduledJob)
  | fired (jobId name : String)
  | skipped (jobId reason : String)
  | error (jobId error : String)
  deriving DecidableEq

def pastError (schedule : String) : String := s!"Scheduled time {schedule} is in the past"

def cronError (reason : String) : String :=
  s!"Cron schedule cannot compute a next occurrence ({reason}); job disabled"

variable (env : Surroundings) (thrown : String → String)

def disableEvents (state : CrewScheduler) (id error : String) : List ScheduleChangeEvent :=
  ((state.jobs id).map fun existing => ScheduleChangeEvent.updated
    (({ enabled := some false, lastStatus := some .error } : Patch).apply existing)).toList
      ++ [.error id error]

def armEvents (state : CrewScheduler) (job : ScheduledJob) : List ScheduleChangeEvent :=
  if (state.timers job.id).isSome then []
  else
    match job.scheduleType with
    | .interval => []
    | .once =>
      let now := env.clock state.reads
      match env.date job.schedule with
      | none => disableEvents state job.id (pastError job.schedule)
      | some target =>
        if target - now > 0 then [] else disableEvents state job.id (pastError job.schedule)
    | .cron =>
      let now := env.clock state.reads
      match env.nextRunTime job.schedule now with
      | .error reason => disableEvents state job.id (cronError reason)
      | .ok next =>
        if next ≤ now then
          disableEvents state job.id (cronError "next occurrence is not in the future")
        else []

def updateEvents (state : CrewScheduler) (id : String) (patch : Patch) : List ScheduleChangeEvent :=
  match state.jobs id with
  | none => []
  | some existing =>
    (if (patch.apply existing).enabled then
      armEvents env (store state id patch) (patch.apply existing) else [])
      ++ [.updated (patch.apply existing)]

/-- **The events of a fire**, with the text of what the executor throws. -/
def fireEvents (state : CrewScheduler) (id : String) (force : Bool) (outcome : ExecutorOutcome) :
    List ScheduleChangeEvent :=
  match state.jobs id with
  | none => []
  | some job =>
    if ¬ job.enabled ∧ ¬ force then []
    else if job.lastStatus = some .running ∧ ¬ force then
      [.skipped id "previous dispatch still in flight"]
    else
      updateEvents env state id { lastStatus := some .running } ++ .executed job ::
        match outcome with
        | .dispatched => [.fired id job.name]
        | .throws stamp =>
          updateEvents env (update env state id { lastStatus := some .running }) id
            { lastRun := some stamp, lastStatus := some .error } ++ [.error id (thrown stamp)]

def advanceEvents (state : CrewScheduler) (id : String) : List ScheduleChangeEvent :=
  match state.jobs id with
  | none => []
  | some job =>
    if ¬ job.enabled ∨ job.scheduleType ≠ .cron then []
    else
      match env.nextRunTime job.schedule (env.clock state.reads) with
      | .error reason => disableEvents state id (cronError reason)
      | .ok next => updateEvents env state.tock id { nextRun := some (env.iso next) }

def cronTickEvents (state : CrewScheduler) (timer : Timer) (outcome : ExecutorOutcome) :
    List ScheduleChangeEvent :=
  match state.jobs timer.jobId with
  | none => []
  | some job =>
    if ¬ job.enabled then []
    else if env.clock state.reads < timer.targetMs then []
    else
      let fired := fire env state.tock timer.jobId false outcome
      fireEvents env thrown state.tock timer.jobId false outcome ++
        (advanceEvents env fired timer.jobId ++
          if job.scheduleType = .once then
            updateEvents env (advanceCronNextRun env fired timer.jobId) timer.jobId
              { enabled := some false }
          else [])

def runNowEvents (state : CrewScheduler) (jobId : String) (outcome : ExecutorOutcome) :
    List ScheduleChangeEvent :=
  match state.jobs jobId with
  | none => []
  | some job =>
    fireEvents env thrown state jobId true outcome ++
      if job.scheduleType = .once then
        updateEvents env (fire env state jobId true outcome) jobId { enabled := some false }
      else []

def addEvents (state : CrewScheduler) (job : ScheduledJob) : List ScheduleChangeEvent :=
  let stored := { state with jobs := Function.update state.jobs job.id (some job) }
  let stored := if job.scheduleType = .cron ∧ job.nextRun.isSome then stored.tock else stored
  (if job.enabled then armEvents env stored job else [])
    ++ [.added (((add env state job).jobs job.id).getD job)]

def stepEvents (state : CrewScheduler) : Call → List ScheduleChangeEvent
  | .add job => addEvents env state job
  | .remove id => if (state.jobs id).isSome then [.removed id] else []
  | .update id patch => updateEvents env state id patch
  | .recordSpawnedRun _ _ => []
  | .runNow jobId outcome => runNowEvents env thrown state jobId outcome
  | .tick handle outcome =>
    match state.pending.find? (·.handle = handle) with
    | none => []
    | some timer =>
      cronTickEvents env thrown { state with pending := state.pending.filter (·.handle ≠ handle) }
        timer outcome

def executions (events : List ScheduleChangeEvent) : List ScheduledJob := events.filterMap fun
    | .executed job => some job
    | _ => none

/-- **The occurrence that a step executes**: that of a one-shot job whose timer has come. -/
def occurrences (state : CrewScheduler) : Call → List (String × Int)
  | .tick handle outcome =>
    match state.pending.find? (·.handle = handle) with
    | none => []
    | some timer =>
      ((executions (stepEvents env thrown state (.tick handle outcome))).filter
        (·.scheduleType = .once)).map fun _ => (timer.jobId, timer.targetMs)
  | _ => []

def runOccurrences (start : CrewScheduler) (calls : List Call) : List (String × Int) :=
  (Runs.transitions (step env) start calls).flatMap fun taken =>
    occurrences env thrown taken.before taken.action

end

section

variable (env : Surroundings) (thrown : String → String)

/-- **The clock does not go back.** -/
def Forward : Prop := ∀ first second, first ≤ second → env.clock first ≤ env.clock second

def Spent (state : CrewScheduler) (id : String) : Prop :=
  (∃ job, state.jobs id = some job ∧ job.enabled = false) ∧ ∀ timer ∈ state.pending, timer.jobId ≠ id

/-- A one-shot job is executed by its timer, and the executor succeeds. -/
def TimerSucceeds (state : CrewScheduler) : Call → ScheduledJob → Prop
  | .tick handle .dispatched, job =>
    job ∈ executions (stepEvents env thrown state (.tick handle .dispatched)) ∧
      job.scheduleType = .once
  | _, _ => False

/-- **A one-shot job whose occurrence succeeds ends well**: no `error` event is emitted for it, and when its
run is completed its last status is `success`. -/
def EndsWell (state : CrewScheduler) (call : Call) : Prop :=
  ∀ job, TimerSucceeds env thrown state call job →
    (∀ text, ScheduleChangeEvent.error job.id text ∉ stepEvents env thrown state call) ∧
      ∀ stamp, ∃ ended, (update env (step env state call) job.id
          { lastRun := some stamp, lastStatus := some .success }).jobs job.id = some ended ∧
        ended.lastStatus = some .success

/-- **A one-shot job is due**: its timer comes when its time is there, by this reading of the clock and by the
next one, for an executor that succeeds. -/
def Due (state : CrewScheduler) (call : Call) : Prop :=
  ∃ timer ∈ state.pending, ∃ job, call = .tick timer.handle .dispatched ∧
    state.jobs timer.jobId = some job ∧ job.scheduleType = .once ∧ job.lastStatus ≠ some .running ∧
    timer.targetMs ≤ env.clock state.reads ∧ timer.targetMs ≤ env.clock (state.reads + 1)

end

section

variable {env : Surroundings} {thrown : String → String}

@[simp]
theorem executions_append (events others : List ScheduleChangeEvent) :
    executions (events ++ others) = executions events ++ executions others :=
  List.filterMap_append

theorem executions_disable (state : CrewScheduler) (id error : String) :
    executions (disableEvents state id error) = [] := by
  unfold disableEvents
  cases state.jobs id with
  | none => rfl
  | some existing => rfl

theorem executions_arm (state : CrewScheduler) (job : ScheduledJob) :
    executions (armEvents env state job) = [] := by
  unfold armEvents
  split
  · rfl
  split
  · rfl
  · dsimp only
    split
    · exact executions_disable _ _ _
    · split
      · rfl
      · exact executions_disable _ _ _
  · dsimp only
    split
    · exact executions_disable _ _ _
    · split
      · exact executions_disable _ _ _
      · rfl

theorem executions_update (state : CrewScheduler) (id : String) (patch : Patch) :
    executions (updateEvents env state id patch) = [] := by
  unfold updateEvents
  split
  · rfl
  · rw [executions_append]
    split
    · rw [executions_arm]
      rfl
    · rfl

theorem executions_advance (state : CrewScheduler) (id : String) :
    executions (advanceEvents env state id) = [] := by
  unfold advanceEvents
  split
  · rfl
  split
  · rfl
  split
  · exact executions_disable _ _ _
  · exact executions_update _ _ _

theorem executions_add (state : CrewScheduler) (job : ScheduledJob) :
    executions (addEvents env state job) = [] := by
  unfold addEvents
  dsimp only
  rw [executions_append]
  split
  · rw [executions_arm]
    rfl
  · rfl

def fires (force : Bool) (job : ScheduledJob) : Bool :=
  force || (job.enabled && decide (job.lastStatus ≠ some .running))

theorem executions_fire (state : CrewScheduler) (id : String) (force : Bool) (outcome : ExecutorOutcome) :
    executions (fireEvents env thrown state id force outcome)
      = ((state.jobs id).filter (fires force)).toList := by
  unfold fireEvents
  cases found : state.jobs id with
  | none => rfl
  | some job =>
    dsimp only
    split
    · rename_i off
      have no : fires force job = false := by
        rw [fires, eq_false_of_ne_true off.1, eq_false_of_ne_true off.2]
        rfl
      rw [Option.filter_some_neg no]
      rfl
    · rename_i on
      split
      · rename_i flight
        have no : fires force job = false := by
          rw [fires, flight.1, eq_false_of_ne_true flight.2]
          simp
        rw [Option.filter_some_neg no]
        rfl
      · rename_i idle
        have yes : fires force job = true := by
          cases force with
          | true => rfl
          | false =>
            simp only [Bool.false_eq_true, not_false_eq_true, and_true, not_not] at on idle
            simp [fires, on, idle]
        rw [Option.filter_some_pos yes, executions_append, executions_update]
        cases outcome with
        | dispatched => rfl
        | throws stamp =>
          show job :: executions (updateEvents env _ id _ ++ _) = [job]
          rw [executions_append, executions_update]
          rfl

def comes (env : Surroundings) (state : CrewScheduler) (timer : Timer) (job : ScheduledJob) : Bool :=
  fires false job && decide (timer.targetMs ≤ env.clock state.reads)

theorem comes_iff {state : CrewScheduler} {timer : Timer} {job : ScheduledJob} :
    comes env state timer job = true ↔ job.enabled = true ∧ job.lastStatus ≠ some .running ∧
      timer.targetMs ≤ env.clock state.reads := by
  rw [comes, fires, Bool.false_or, Bool.and_eq_true, Bool.and_eq_true, decide_eq_true_eq, decide_eq_true_eq,
    and_assoc]

theorem executions_cronTick (state : CrewScheduler) (timer : Timer) (outcome : ExecutorOutcome) :
    executions (cronTickEvents env thrown state timer outcome)
      = ((state.jobs timer.jobId).filter (comes env state timer)).toList := by
  unfold cronTickEvents
  cases found : state.jobs timer.jobId with
  | none => rfl
  | some job =>
    dsimp only
    split
    · rename_i off
      have no : comes env state timer job = false :=
        eq_false_of_ne_true fun yes => off (comes_iff.mp yes).1
      rw [Option.filter_some_neg no]
      rfl
    · split
      · rename_i early
        have no : comes env state timer job = false :=
          eq_false_of_ne_true fun yes => Int.not_le.mpr early (comes_iff.mp yes).2.2
        rw [Option.filter_some_neg no]
        rfl
      · rename_i come
        have nothing : executions (advanceEvents env
              (fire env state.tock timer.jobId false outcome) timer.jobId ++
            if job.scheduleType = .once then
              updateEvents env (advanceCronNextRun env
                (fire env state.tock timer.jobId false outcome) timer.jobId) timer.jobId
                { enabled := some false }
            else []) = [] := by
          rw [executions_append, executions_advance]
          split
          · rw [executions_update]
            rfl
          · rfl
        have same : comes env state timer job = fires false job := by
          rw [comes, decide_eq_true (Int.not_lt.mp come), Bool.and_true]
        rw [executions_append, executions_fire, nothing, List.append_nil]
        show ((state.jobs timer.jobId).filter (fires false)).toList = _
        rw [found]
        simp only [Option.filter, same]

/-- `runNow` executes its job. -/
theorem executions_runNow (state : CrewScheduler) (jobId : String) (outcome : ExecutorOutcome) :
    executions (runNowEvents env thrown state jobId outcome) = (state.jobs jobId).toList := by
  unfold runNowEvents
  cases found : state.jobs jobId with
  | none => rfl
  | some job =>
    dsimp only
    rw [executions_append, executions_fire, found]
    split
    · rw [executions_update]
      rfl
    · rfl

end

section

variable {env : Surroundings} {thrown : String → String} {state : CrewScheduler}

theorem tick_cases (state : CrewScheduler) (handle : Nat) :
    state.pending.find? (·.handle = handle) = none ∨ ∃ timer ∈ state.pending, timer.handle = handle ∧
      state.pending.find? (·.handle = handle) = some timer := by
  cases found : state.pending.find? (·.handle = handle) with
  | none => exact Or.inl rfl
  | some timer =>
    exact Or.inr ⟨timer, List.mem_of_find?_eq_some found,
      of_decide_eq_true (List.find?_some (p := fun timer : Timer => timer.handle = handle) found), rfl⟩

theorem find_timer (sound : Sound env state) {timer : Timer} (member : timer ∈ state.pending) :
    state.pending.find? (·.handle = timer.handle) = some timer := by
  rcases tick_cases state timer.handle with missing | ⟨other, there, same, found⟩
  · exact absurd (decide_eq_true rfl) (List.find?_eq_none.mp missing timer member)
  · rw [found, List.inj_on_of_nodup_map sound.nodup there member same]

theorem step_tick {timer : Timer} (found : state.pending.find? (·.handle = timer.handle) = some timer)
    (outcome : ExecutorOutcome) :
    step env state (.tick timer.handle outcome) = cronTick env (arrived state timer) timer outcome := by
  rw [step, found]
  rfl

theorem stepEvents_tick {timer : Timer}
    (found : state.pending.find? (·.handle = timer.handle) = some timer) (outcome : ExecutorOutcome) :
    stepEvents env thrown state (.tick timer.handle outcome)
      = cronTickEvents env thrown (arrived state timer) timer outcome := by
  rw [stepEvents, found]
  rfl

end

section

variable {env : Surroundings} {state later last : CrewScheduler}

/-- **What happens to the timers**: one is there from before, with the time when it was armed, or was armed at
a reading of the clock since then. -/
structure Since (env : Surroundings) (state later : CrewScheduler) : Prop where
  reads : state.reads ≤ later.reads
  pending : ∀ timer ∈ later.pending,
    (∃ old ∈ state.pending, old.jobId = timer.jobId ∧ old.armedAt = timer.armedAt) ∨
      ∃ index, state.reads ≤ index ∧ timer.armedAt = env.clock index

/-- And no job is taken out. -/
structure Ahead (env : Surroundings) (state later : CrewScheduler) : Prop extends Since env state later where
  jobs : ∀ id, (state.jobs id).isSome = true → (later.jobs id).isSome = true

theorem Ahead.refl (state : CrewScheduler) : Ahead env state state :=
  ⟨⟨Nat.le_refl _, fun timer member => Or.inl ⟨timer, member, rfl, rfl⟩⟩, fun _ there => there⟩

theorem Ahead.trans (first : Ahead env state later) (second : Ahead env later last) :
    Ahead env state last where
  reads := Nat.le_trans first.reads second.reads
  pending timer member := by
    rcases second.pending timer member with ⟨middle, inside, job, armed⟩ | ⟨index, behind, armed⟩
    · rcases first.pending middle inside with ⟨old, before, job', armed'⟩ | ⟨index, behind, armed'⟩
      · exact Or.inl ⟨old, before, job'.trans job, armed'.trans armed⟩
      · exact Or.inr ⟨index, behind, armed.symm.trans armed'⟩
    · exact Or.inr ⟨index, Nat.le_trans first.reads behind, armed⟩
  jobs id there := second.jobs id (first.jobs id there)

theorem ahead_tock (state : CrewScheduler) : Ahead env state state.tock :=
  ⟨⟨Nat.le_succ _, fun timer member => Or.inl ⟨timer, member, rfl, rfl⟩⟩, fun _ there => there⟩

theorem disarm_pending (state : CrewScheduler) (id : String) :
    (disarm state id).reads = state.reads ∧ (disarm state id).jobs = state.jobs ∧
      ∀ timer ∈ (disarm state id).pending, timer ∈ state.pending := by
  unfold disarm
  split
  · exact ⟨rfl, rfl, fun _ member => member⟩
  · exact ⟨rfl, rfl, fun _ member => (List.mem_filter.mp member).1⟩

theorem ahead_store (state : CrewScheduler) (id : String) (patch : Patch) :
    Ahead env state (store state id patch) := by
  unfold store
  split
  · exact Ahead.refl state
  · obtain ⟨reads, jobs, pending⟩ := disarm_pending state id
    refine ⟨⟨Nat.le_of_eq reads.symm,
      fun timer member => Or.inl ⟨timer, pending timer member, rfl, rfl⟩⟩, fun other there => ?_⟩
    show (Function.update (disarm state id).jobs id _ other).isSome = true
    by_cases same : other = id
    · subst same
      rw [Function.update_self]
      rfl
    · rwa [Function.update_of_ne same, jobs]

theorem ahead_setCronTimeout {base : CrewScheduler} (ahead : Ahead env base state) {jobId : String}
    {targetMs armedAt : Int} {armedFor : ScheduledJob}
    (armed : (∃ old ∈ base.pending, old.jobId = jobId ∧ old.armedAt = armedAt) ∨
      ∃ index, base.reads ≤ index ∧ armedAt = env.clock index) :
    Ahead env base (setCronTimeout env state jobId targetMs armedFor armedAt) where
  reads := Nat.le_succ_of_le ahead.reads
  pending timer member := by
    rcases List.mem_append.mp member with old | new
    · exact ahead.pending timer old
    · rw [List.mem_singleton.mp new]
      exact armed
  jobs := ahead.jobs

theorem ahead_armCron (state : CrewScheduler) (job : ScheduledJob) :
    Ahead env state (armCron env state job) := by
  unfold armCron
  dsimp only
  split
  · exact (ahead_tock state).trans (ahead_store _ _ _)
  · split
    · exact (ahead_tock state).trans (ahead_store _ _ _)
    · exact ahead_setCronTimeout (ahead_tock state) (Or.inr ⟨state.reads, Nat.le_refl _, rfl⟩)

theorem ahead_arm (state : CrewScheduler) (job : ScheduledJob) : Ahead env state (arm env state job) := by
  unfold arm
  split
  · exact Ahead.refl state
  split
  · split
    · exact Ahead.refl state
    · exact ahead_setCronTimeout (ahead_tock state) (Or.inr ⟨state.reads, Nat.le_refl _, rfl⟩)
  · exact Ahead.refl state
  · dsimp only
    split
    · exact (ahead_tock state).trans (ahead_store _ _ _)
    · split
      · exact ahead_setCronTimeout (ahead_tock state) (Or.inr ⟨state.reads, Nat.le_refl _, rfl⟩)
      · exact (ahead_tock state).trans (ahead_store _ _ _)
  · exact ahead_armCron state job

theorem ahead_update (state : CrewScheduler) (id : String) (patch : Patch) :
    Ahead env state (update env state id patch) := by
  unfold update
  split
  · exact Ahead.refl state
  · dsimp only
    split
    · exact (ahead_store state id patch).trans (ahead_arm _ _)
    · exact ahead_store state id patch

theorem ahead_fire (state : CrewScheduler) (id : String) (force : Bool) (outcome : ExecutorOutcome) :
    Ahead env state (fire env state id force outcome) := by
  unfold fire
  split
  · exact Ahead.refl state
  split
  · exact Ahead.refl state
  split
  · exact Ahead.refl state
  · cases outcome with
    | dispatched => exact ahead_update state id _
    | throws stamp => exact (ahead_update state id _).trans (ahead_update _ id _)

theorem ahead_advance (state : CrewScheduler) (id : String) :
    Ahead env state (advanceCronNextRun env state id) := by
  unfold advanceCronNextRun
  split
  · exact Ahead.refl state
  split
  · exact Ahead.refl state
  · dsimp only
    split
    · exact (ahead_tock state).trans (ahead_store _ _ _)
    · exact (ahead_tock state).trans (ahead_update _ _ _)

theorem ahead_runNow (state : CrewScheduler) (jobId : String) (outcome : ExecutorOutcome) :
    Ahead env state (runNow env state jobId outcome) := by
  unfold runNow
  split
  · exact Ahead.refl state
  · dsimp only
    split
    · exact (ahead_fire state jobId true outcome).trans (ahead_update _ _ _)
    · exact ahead_fire state jobId true outcome

theorem ahead_tick {timer : Timer} (member : timer ∈ state.pending) (outcome : ExecutorOutcome) :
    Ahead env state (cronTick env (arrived state timer) timer outcome) := by
  have gone : Ahead env state (arrived state timer) :=
    ⟨⟨Nat.le_refl _, fun other inside => Or.inl ⟨other, (mem_arrived.mp inside).1, rfl, rfl⟩⟩,
      fun _ there => there⟩
  have tocked := gone.trans (ahead_tock (arrived state timer))
  unfold cronTick
  split
  · exact gone
  split
  · exact gone
  · dsimp only
    split
    · exact ahead_setCronTimeout tocked (Or.inl ⟨timer, member, rfl, rfl⟩)
    · have fired := tocked.trans (ahead_fire _ timer.jobId false outcome)
      have advanced := fired.trans (ahead_advance _ timer.jobId)
      split
      · exact advanced.trans (ahead_update _ _ _)
      · exact advanced

theorem ahead_step (state : CrewScheduler) (call : Call) : Since env state (step env state call) := by
  cases call with
  | add job =>
    have put : Ahead env state { state with jobs := Function.update state.jobs job.id (some job) } := by
      refine ⟨⟨Nat.le_refl _, fun timer member => Or.inl ⟨timer, member, rfl, rfl⟩⟩, fun id there => ?_⟩
      show (Function.update state.jobs job.id (some job) id).isSome = true
      by_cases same : id = job.id
      · rw [same, Function.update_self]
        rfl
      · rwa [Function.update_of_ne same]
    have reported : Ahead env state (if job.scheduleType = .cron ∧ job.nextRun.isSome then
        CrewScheduler.tock { state with jobs := Function.update state.jobs job.id (some job) }
        else { state with jobs := Function.update state.jobs job.id (some job) }) := by
      split
      · exact put.trans (ahead_tock _)
      · exact put
    show Since env state (add env state job)
    unfold add
    dsimp only
    split
    · exact (reported.trans (ahead_arm _ _)).toSince
    · exact reported.toSince
  | remove id =>
    obtain ⟨reads, -, pending⟩ := disarm_pending state id
    exact ⟨Nat.le_of_eq reads.symm, fun timer member => Or.inl ⟨timer, pending timer member, rfl, rfl⟩⟩
  | update id patch => exact (ahead_update state id patch).toSince
  | recordSpawnedRun id runId =>
    show Since env state (recordSpawnedRun state id runId)
    unfold recordSpawnedRun
    split
    · exact (Ahead.refl state).toSince
    · exact ⟨Nat.le_refl _, fun timer member => Or.inl ⟨timer, member, rfl, rfl⟩⟩
  | runNow id outcome => exact (ahead_runNow state id outcome).toSince
  | tick handle outcome =>
    rcases tick_cases state handle with missing | ⟨timer, member, rfl, found⟩
    · rw [step, missing]
      exact (Ahead.refl state).toSince
    · rw [step_tick found]
      exact (ahead_tick member outcome).toSince

end

section

variable {env : Surroundings} {thrown : String → String} {state : CrewScheduler}

theorem update_disables {id : String} (there : (state.jobs id).isSome = true) :
    ∃ job, (update env state id { enabled := some false }).jobs id = some job ∧ job.enabled = false := by
  obtain ⟨existing, found⟩ := Option.isSome_iff_exists.mp there
  refine ⟨({ enabled := some false } : Patch).apply existing, ?_, rfl⟩
  rw [update, store, found]
  exact Function.update_self _ _ _

theorem spent_of_disabled (fits : Fits env state) {id : String}
    (disabled : ∃ job, state.jobs id = some job ∧ job.enabled = false) : Spent state id := by
  refine ⟨disabled, ?_⟩
  rintro timer member rfl
  obtain ⟨job, found, off⟩ := disabled
  obtain ⟨other, there, on, -⟩ := fits.1.version timer member
  rw [Option.some.inj (found.symm.trans there), on] at off
  cases off

theorem cronTick_once {timer : Timer} {job : ScheduledJob} (found : state.jobs timer.jobId = some job)
    (comes : comes env state timer job = true) (once : job.scheduleType = .once) (outcome : ExecutorOutcome) :
    cronTick env state timer outcome
      = update env (advanceCronNextRun env (fire env state.tock timer.jobId false outcome) timer.jobId)
        timer.jobId { enabled := some false } := by
  obtain ⟨enabled, -, reached⟩ := comes_iff.mp comes
  rw [cronTick, found]
  dsimp only
  rw [if_neg (not_not.mpr enabled), if_neg (Int.not_lt.mpr reached), if_pos once]

theorem mem_executions_tick {timer : Timer} {outcome : ExecutorOutcome} {job : ScheduledJob}
    (found : state.pending.find? (·.handle = timer.handle) = some timer) :
    job ∈ executions (stepEvents env thrown state (.tick timer.handle outcome)) ↔
      state.jobs timer.jobId = some job ∧ comes env (arrived state timer) timer job = true := by
  rw [stepEvents_tick found, executions_cronTick, Option.mem_toList, Option.filter_eq_some_iff]
  exact Iff.rfl

/-- **An execution of a one-shot job consumes it**, by its timer or by `runNow`. -/
theorem step_consumes (fits : Fits env state) {call : Call} (fresh : AddsFresh state call)
    {job : ScheduledJob} (executed : job ∈ executions (stepEvents env thrown state call))
    (once : job.scheduleType = .once) : Spent (step env state call) job.id := by
  refine spent_of_disabled (step_fits fits call fresh) ?_
  cases call with
  | add other =>
    rw [stepEvents, executions_add] at executed
    cases executed
  | remove id =>
    rw [stepEvents] at executed
    split at executed
    · cases executed
    · cases executed
  | update id patch =>
    rw [stepEvents, executions_update] at executed
    cases executed
  | recordSpawnedRun id runId => cases executed
  | runNow id outcome =>
    rw [stepEvents, executions_runNow, Option.mem_toList] at executed
    have key := fits.1.keyed id job executed
    subst key
    have there := (@ahead_fire env state job.id true outcome).jobs job.id
      (Option.isSome_iff_exists.mpr ⟨job, executed⟩)
    have same : step env state (.runNow job.id outcome)
        = update env (fire env state job.id true outcome) job.id { enabled := some false } := by
      rw [step, runNow, executed]
      exact if_pos once
    rw [same]
    exact update_disables there
  | tick handle outcome =>
    rcases tick_cases state handle with missing | ⟨timer, member, rfl, found⟩
    · rw [stepEvents, missing] at executed
      cases executed
    · obtain ⟨here, comes⟩ := (mem_executions_tick found).mp executed
      have key := fits.1.keyed timer.jobId job here
      rw [step_tick found, @cronTick_once env (arrived state timer) timer job here comes once outcome, key]
      refine update_disables ((ahead_advance _ _).jobs _ ((ahead_fire _ _ _ _).jobs _ ?_))
      exact Option.isSome_iff_exists.mpr ⟨job, here⟩

theorem occurrences_cases (call : Call) :
    occurrences env thrown state call = [] ∨ ∃ timer ∈ state.pending, ∃ job,
      state.jobs timer.jobId = some job ∧ job.scheduleType = .once ∧
      timer.targetMs ≤ env.clock state.reads ∧ job ∈ executions (stepEvents env thrown state call) ∧
      occurrences env thrown state call = [(timer.jobId, timer.targetMs)] := by
  cases call with
  | add job | remove id | update id patch | recordSpawnedRun id runId | runNow id outcome =>
    exact Or.inl rfl
  | tick handle outcome =>
    rcases tick_cases state handle with missing | ⟨timer, member, rfl, found⟩
    · rw [occurrences, missing]
      exact Or.inl rfl
    · have executed : executions (stepEvents env thrown state (.tick timer.handle outcome))
          = ((state.jobs timer.jobId).filter (comes env (arrived state timer) timer)).toList := by
        rw [stepEvents_tick found, executions_cronTick]
        rfl
      rw [occurrences, found]
      dsimp only
      rw [executed]
      cases here : state.jobs timer.jobId with
      | none => exact Or.inl rfl
      | some job =>
        by_cases fired : comes env (arrived state timer) timer job = true
        · rw [Option.filter_some_pos fired]
          by_cases once : job.scheduleType = .once
          · refine Or.inr ⟨timer, member, job, here, once, (comes_iff.mp fired).2.2,
              List.mem_singleton_self _, ?_⟩
            simp [once]
          · exact Or.inl (by simp [once])
        · rw [Option.filter_some_neg (eq_false_of_ne_true fired)]
          exact Or.inl rfl

theorem once_timer (fits : Fits env state) {timer : Timer} (member : timer ∈ state.pending)
    {job : ScheduledJob} (found : state.jobs timer.jobId = some job) (once : job.scheduleType = .once) :
    job.enabled = true ∧ env.date job.schedule = some timer.targetMs ∧ timer.armedAt < timer.targetMs := by
  obtain ⟨other, there, enabled, version, occurs⟩ := fits.1.version timer member
  have same := Option.some.inj (there.symm.trans found)
  subst same
  have type := (congrArg ScheduledJob.scheduleType version).trans once
  have schedule := congrArg ScheduledJob.schedule version
  change timer.armedFor.scheduleType = .once at type
  change timer.armedFor.schedule = other.schedule at schedule
  rw [occurrence, type, schedule] at occurs
  obtain ⟨date, ahead⟩ := Option.filter_eq_some_iff.mp occurs
  exact ⟨enabled, date, by have := of_decide_eq_true ahead; omega⟩

/-- The occurrences that a run has executed: their times have come, and no timer was armed before one of its
own job. -/
structure Executed (env : Surroundings) (state : CrewScheduler) (done : List (String × Int)) : Prop where
  fits : Fits env state
  nodup : done.Nodup
  come : ∀ item ∈ done, item.2 ≤ env.clock state.reads
  behind : ∀ item ∈ done, ∀ timer ∈ state.pending, timer.jobId = item.1 → item.2 ≤ timer.armedAt

/-- **A step executes an occurrence that was not executed before.** -/
theorem executed_step {done : List (String × Int)} (held : Executed env state done)
    (forward : Forward env) (call : Call) (fresh : AddsFresh state call) :
    Executed env (step env state call) (done ++ occurrences env thrown state call) := by
  have after := step_fits held.fits call fresh
  have since := @ahead_step env state call
  have come : ∀ item ∈ done, item.2 ≤ env.clock (step env state call).reads := fun item member =>
    Int.le_trans (held.come item member) (forward _ _ since.reads)
  have behind : ∀ item ∈ done, ∀ timer ∈ (step env state call).pending, timer.jobId = item.1 →
      item.2 ≤ timer.armedAt := by
    intro item member timer pending same
    rcases since.pending timer pending with ⟨old, before, job, armed⟩ | ⟨index, later, armed⟩
    · rw [← armed]
      exact held.behind item member old before (job.trans same)
    · rw [armed]
      exact Int.le_trans (held.come item member) (forward _ _ later)
  rcases @occurrences_cases env thrown state call with
    none | ⟨timer, member, job, found, once, reached, executed, one⟩
  · rw [none, List.append_nil]
    exact ⟨after, held.nodup, come, behind⟩
  · have spent := (step_consumes held.fits fresh executed once).2
    rw [held.fits.1.keyed timer.jobId job found] at spent
    have new : (timer.jobId, timer.targetMs) ∉ done := by
      intro again
      have late := held.behind _ again timer member rfl
      have early := (once_timer held.fits member found once).2.2
      dsimp only at late
      omega
    rw [one]
    refine ⟨after, List.nodup_append.mpr ⟨held.nodup, List.nodup_singleton _, ?_⟩, ?_, ?_⟩
    · rintro item there other here rfl
      rw [List.mem_singleton.mp here] at there
      exact new there
    · intro item there
      rcases List.mem_append.mp there with old | here
      · exact come item old
      · rw [List.mem_singleton.mp here]
        exact Int.le_trans reached (forward _ _ since.reads)
    · intro item there other pending same
      rcases List.mem_append.mp there with old | here
      · exact behind item old other pending same
      · rw [List.mem_singleton.mp here] at same
        exact absurd same (spent other pending)

theorem occurrences_nodup (forward : Forward env) {start : CrewScheduler} {done : List (String × Int)}
    (held : Executed env start done) (calls : List Call)
    (fresh : ∀ taken ∈ Runs.transitions (step env) start calls, AddsFresh taken.before taken.action) :
    (done ++ runOccurrences env thrown start calls).Nodup := by
  induction calls generalizing start done with
  | nil => exact (List.append_nil done).symm ▸ held.nodup
  | cons call rest ih =>
    have first := @executed_step env thrown start done held forward call (fresh _ List.mem_cons_self)
    have next := ih first fun taken later => fresh taken (List.mem_cons_of_mem _ later)
    rw [List.append_assoc] at next
    exact next

end

section

variable {env : Surroundings} {thrown : String → String} {state : CrewScheduler}

/-- **Arming a one-shot job** without a timer: it gets one, or it is disabled with an `error` event. -/
theorem arm_once {job : ScheduledJob} (free : state.timers job.id = none) (once : job.scheduleType = .once)
    {target : Int} (date : env.date job.schedule = some target) :
    (env.clock state.reads < target ∧ armEvents env state job = [] ∧
      (arm env state job).jobs = state.jobs) ∨
    (target ≤ env.clock state.reads ∧
      armEvents env state job = disableEvents state job.id (pastError job.schedule)) := by
  have unarmed : ¬ (state.timers job.id).isSome = true := by
    rw [free]
    decide
  have events : armEvents env state job = if target - env.clock state.reads > 0 then []
      else disableEvents state job.id (pastError job.schedule) := by
    rw [armEvents, if_neg unarmed, once]
    dsimp only
    rw [date]
  by_cases ahead : target - env.clock state.reads > 0
  · refine Or.inl ⟨by omega, events.trans (if_pos ahead), ?_⟩
    rw [arm, if_neg unarmed, once]
    dsimp only
    rw [date]
    dsimp only
    rw [if_pos ahead]
    rfl
  · exact Or.inr ⟨by omega, events.trans (if_neg ahead)⟩

def marked (job : ScheduledJob) : ScheduledJob := { job with lastStatus := some .running }

theorem store_marked (sound : Sound env state) {id : String} {job : ScheduledJob}
    (found : state.jobs id = some job) :
    (store state id { lastStatus := some .running }).jobs id = some (marked job) ∧
      (store state id { lastStatus := some .running }).timers id = none ∧
      (store state id { lastStatus := some .running }).reads = state.reads := by
  rw [store_eq sound found]
  exact ⟨Function.update_self _ _ _, Function.update_self _ _ _, rfl⟩

theorem updateEvents_marked {id : String} {job : ScheduledJob} (found : state.jobs id = some job)
    (enabled : job.enabled = true) :
    updateEvents env state id { lastStatus := some .running }
      = armEvents env (store state id { lastStatus := some .running }) (marked job)
        ++ [.updated (marked job)] := by
  rw [updateEvents, found]
  exact congrArg (· ++ [ScheduleChangeEvent.updated (marked job)]) (if_pos enabled)

theorem fireEvents_dispatched {id : String} {job : ScheduledJob} (found : state.jobs id = some job)
    {force : Bool} (fired : fires force job = true) :
    fireEvents env thrown state id force .dispatched
      = updateEvents env state id { lastStatus := some .running } ++ [.executed job, .fired id job.name] := by
  have on : ¬ (¬ job.enabled = true ∧ ¬ force = true) := by
    rintro ⟨off, unforced⟩
    rw [fires, eq_false_of_ne_true off, eq_false_of_ne_true unforced] at fired
    cases fired
  have idle : ¬ (job.lastStatus = some .running ∧ ¬ force = true) := by
    rintro ⟨running, unforced⟩
    rw [fires, running, eq_false_of_ne_true unforced, Bool.false_or, Bool.and_eq_true] at fired
    exact of_decide_eq_true fired.2 rfl
  rw [fireEvents, found]
  dsimp only
  rw [if_neg on, if_neg idle]

theorem cronTickEvents_once {timer : Timer} {job : ScheduledJob} (found : state.jobs timer.jobId = some job)
    (come : comes env state timer job = true) (once : job.scheduleType = .once) :
    cronTickEvents env thrown state timer .dispatched
      = updateEvents env state.tock timer.jobId { lastStatus := some .running }
        ++ [.executed job, .fired timer.jobId job.name]
        ++ (advanceEvents env (fire env state.tock timer.jobId false .dispatched) timer.jobId
          ++ updateEvents env
            (advanceCronNextRun env (fire env state.tock timer.jobId false .dispatched) timer.jobId)
            timer.jobId { enabled := some false }) := by
  obtain ⟨enabled, idle, reached⟩ := comes_iff.mp come
  have fired : fires false job = true := by
    rw [fires, enabled, decide_eq_true idle]
    rfl
  rw [cronTickEvents, found]
  dsimp only
  rw [if_neg (not_not.mpr enabled), if_neg (Int.not_lt.mpr reached), if_pos once,
    @fireEvents_dispatched env thrown state.tock timer.jobId job found false fired]

/-- An update that disables a job emits no `error`. -/
theorem updateEvents_disable (id other text : String) :
    ScheduleChangeEvent.error other text ∉ updateEvents env state id { enabled := some false } := by
  intro member
  rw [updateEvents] at member
  split at member
  · cases member
  · rcases List.mem_append.mp member with none | last
    · cases none
    · cases List.mem_singleton.mp last

section

variable (sound : Sound env state) {timer : Timer} {job : ScheduledJob} (found : state.jobs timer.jobId = some job)
  (once : job.scheduleType = .once) {target : Int} (date : env.date job.schedule = some target)

include sound found once date

/-- The job is armed anew when it is marked as running. -/
theorem marked_arms :
    let stored := store state.tock timer.jobId { lastStatus := some .running }
    (env.clock (state.reads + 1) < target ∧ armEvents env stored (marked job) = [] ∧
      (arm env stored (marked job)).jobs = stored.jobs) ∨
    (target ≤ env.clock (state.reads + 1) ∧
      armEvents env stored (marked job) = disableEvents stored job.id (pastError job.schedule)) := by
  have key := sound.keyed timer.jobId job found
  obtain ⟨-, none, reads⟩ := store_marked sound.tock found
  have free := (congrArg (store state.tock timer.jobId { lastStatus := some .running }).timers key).trans none
  have armed := @arm_once env (store state.tock timer.jobId { lastStatus := some .running }) (marked job)
    free once target date
  rw [reads] at armed
  exact armed

variable (come : comes env state timer job = true)

include come

/-- **An execution by the timer comes with an `error` event**, if the time is still there when the job is armed
anew. -/
theorem tick_error (late : target ≤ env.clock (state.reads + 1)) :
    ScheduleChangeEvent.error job.id (pastError job.schedule)
      ∈ cronTickEvents env thrown state timer .dispatched := by
  rcases marked_arms sound found once date with ⟨early, -⟩ | ⟨-, events⟩
  · exact absurd early (Int.not_lt.mpr late)
  · rw [cronTickEvents_once found come once,
      @updateEvents_marked env state.tock timer.jobId job found (comes_iff.mp come).1, events]
    refine List.mem_append_left _ (List.mem_append_left _ (List.mem_append_left _ ?_))
    exact List.mem_append_right _ (List.mem_singleton_self _)

/-- **Without one**, where the clock has gone back. -/
theorem tick_without_error (back : env.clock (state.reads + 1) < target) (text : String) :
    ScheduleChangeEvent.error job.id text ∉ cronTickEvents env thrown state timer .dispatched := by
  obtain ⟨enabled, idle, -⟩ := comes_iff.mp come
  rcases marked_arms sound found once date with ⟨-, events, jobs⟩ | ⟨late, -⟩
  · -- The job is still a one-shot job when the cron schedule is looked at.
    have fired : fire env state.tock timer.jobId false .dispatched
        = arm env (store state.tock timer.jobId { lastStatus := some .running }) (marked job) := by
      rw [fire, show state.tock.jobs timer.jobId = some job from found]
      dsimp only
      rw [if_neg fun both => both.1 enabled, if_neg fun both => idle both.1, update,
        show state.tock.jobs timer.jobId = some job from found]
      exact if_pos enabled
    have passed : advanceEvents env (fire env state.tock timer.jobId false .dispatched) timer.jobId = [] := by
      rw [fired, advanceEvents, jobs, (store_marked sound.tock found).1]
      dsimp only
      rw [if_pos (Or.inr fun cron => by cases once.symm.trans cron)]
    rw [cronTickEvents_once found come once,
      @updateEvents_marked env state.tock timer.jobId job found enabled, events, passed]
    intro member
    rcases List.mem_append.mp member with first | last
    · simp at first
    · exact updateEvents_disable _ _ _ last
  · exact absurd back (Int.not_lt.mpr late)

end

/-- When the run of a disabled job is completed, its last status is `success`. -/
theorem completion_succeeds {id : String} {job : ScheduledJob} (found : state.jobs id = some job)
    (disabled : job.enabled = false) (stamp : String) :
    ∃ ended, (update env state id { lastRun := some stamp, lastStatus := some .success }).jobs id = some ended ∧
      ended.lastStatus = some .success := by
  have off : ¬ (({ lastRun := some stamp, lastStatus := some .success } : Patch).apply job).enabled = true := by
    show ¬ job.enabled = true
    rw [disabled]
    exact Bool.false_ne_true
  refine ⟨({ lastRun := some stamp, lastStatus := some .success } : Patch).apply job, ?_, rfl⟩
  rw [update, found]
  dsimp only
  rw [if_neg off, store, found]
  exact Function.update_self _ _ _

/-- **A one-shot job ends well** if and only if it is not due. -/
theorem endsWell_iff (fits : Fits env state) {call : Call} (fresh : AddsFresh state call) :
    EndsWell env thrown state call ↔ ¬ Due env state call := by
  constructor
  · rintro well ⟨timer, member, job, rfl, found, once, idle, reached, late⟩
    obtain ⟨enabled, date, -⟩ := once_timer fits member found once
    have handle := find_timer fits.1 member
    have come : comes env (arrived state timer) timer job = true := comes_iff.mpr ⟨enabled, idle, reached⟩
    have executed : job ∈ executions (stepEvents env thrown state (.tick timer.handle .dispatched)) :=
      (mem_executions_tick handle).mpr ⟨found, come⟩
    refine (well job ⟨executed, once⟩).1 (pastError job.schedule) ?_
    rw [stepEvents_tick handle]
    exact tick_error (arrived_sound fits.1 timer) found once date come late
  · intro early job succeeds
    unfold TimerSucceeds at succeeds
    split at succeeds
    · rename_i handle
      obtain ⟨executed, once⟩ := succeeds
      obtain ⟨⟨ended, there, disabled⟩, -⟩ := step_consumes fits fresh executed once
      refine ⟨fun text => ?_, completion_succeeds there disabled⟩
      rcases tick_cases state handle with missing | ⟨timer, member, rfl, found⟩
      · rw [stepEvents, missing] at executed
        cases executed
      · obtain ⟨here, come⟩ := (mem_executions_tick found).mp executed
        obtain ⟨-, idle, reached⟩ := comes_iff.mp come
        obtain ⟨-, date, -⟩ := once_timer fits member here once
        have back : env.clock (state.reads + 1) < timer.targetMs := by
          by_contra late
          exact early ⟨timer, member, job, rfl, here, once, idle, reached, Int.not_lt.mp late⟩
        rw [stepEvents_tick found]
        exact tick_without_error (arrived_sound fits.1 timer) here once date come back text
    · exact succeeds.elim

end

/-- **Jobs that run once**, in every run of the scheduler in which no job is added over one that has a timer.
No occurrence is executed twice by its timer, if the clock does not go back; a job that is executed, by its
timer or by `runNow`, is disabled then and has no timer. And those that its timer executes with success end
well if and only if there are none: but for a clock that has gone back behind their time. -/
theorem once_jobs_exact (env : Surroundings) (thrown : String → String) (calls : List Call)
    (fresh : ∀ taken ∈ Runs.transitions (step env) {} calls, AddsFresh taken.before taken.action) :
    (Forward env → (runOccurrences env thrown {} calls).Nodup) ∧
      (∀ taken ∈ Runs.transitions (step env) {} calls,
        ∀ job ∈ executions (stepEvents env thrown taken.before taken.action),
          job.scheduleType = .once → Spent taken.after job.id) ∧
      ((∀ taken ∈ Runs.transitions (step env) {} calls, EndsWell env thrown taken.before taken.action) ↔
        ∀ taken ∈ Runs.transitions (step env) {} calls, ¬ Due env taken.before taken.action) := by
  have held : ∀ taken ∈ Runs.transitions (step env) {} calls,
      Fits env taken.before ∧ Fits env taken.after :=
    @Runs.forall_transitions _ _ (step env) (Fits env) AddsFresh
      (fun _ call fits fresh => step_fits fits call fresh) {} calls (fits_initial env) fresh
  refine ⟨fun forward => ?_, fun taken member job executed once => ?_, forall₂_congr fun taken member => ?_⟩
  · have none : Executed env {} [] :=
      ⟨fits_initial env, List.nodup_nil, List.forall_mem_nil _, List.forall_mem_nil _⟩
    exact occurrences_nodup forward none calls fresh
  · rw [Runs.transition_after _ member]
    exact step_consumes (held taken member).1 (fresh taken member) executed once
  · exact endsWell_iff (held taken member).1 (fresh taken member)

def dated : Surroundings :=
  { ticking with date := fun text => if text = "1970-01-01T00:01:30.000Z" then some 90000 else none }

def onceJob : ScheduledJob := { everyTenSeconds with
    schedule := "1970-01-01T00:01:30.000Z"
    scheduleType := .once
    intervalMs := none }

theorem forward_dated : Forward dated := by
  intro first second order
  show (60000 * (first : Int)) ≤ 60000 * second
  omega

theorem once_jobs_run_now :
    (runOccurrences dated id {} [.add onceJob, .runNow "job" .dispatched, .tick 0 .dispatched]).Nodup ∧
      ∀ taken ∈ Runs.transitions (step dated) {}
        [.add onceJob, .runNow "job" .dispatched, .tick 0 .dispatched],
        EndsWell dated id taken.before taken.action := by
  have exact := once_jobs_exact dated id [.add onceJob, .runNow "job" .dispatched, .tick 0 .dispatched]
    (by simp [Runs.transitions, AddsFresh])
  refine ⟨exact.1 forward_dated, exact.2.2.mpr fun taken member due => ?_⟩
  obtain ⟨timer, pending, job, tick, -⟩ := due
  simp only [Runs.transitions, List.mem_cons, List.not_mem_nil, or_false] at member
  rcases member with rfl | rfl | rfl
  · cases tick
  · cases tick
  · have gone : (step dated (step dated {} (.add onceJob)) (.runNow "job" .dispatched)).pending = [] := by
      decide
    dsimp only at pending
    rw [gone] at pending
    cases pending

/-- **A one-shot job that fires on time does not end well**: it is armed anew as it is marked as running, for a
time that is there by now, and so it is disabled with an `error` before its executor is called. -/
theorem once_fires_with_error :
    let armed := step dated {} (.add onceJob)
    (Forward dated ∧ AddsFresh {} (.add onceJob)) ∧
      stepEvents dated id armed (.tick 0 .dispatched) =
        [.updated { onceJob with enabled := false, lastStatus := some .error },
          .error "job" "Scheduled time 1970-01-01T00:01:30.000Z is in the past",
          .updated (marked onceJob), .executed onceJob, .fired "job" "job",
          .updated { onceJob with enabled := false, lastStatus := some .error }] ∧
      ¬ EndsWell dated id armed (.tick 0 .dispatched) := by
  refine ⟨⟨forward_dated, rfl⟩, by decide +kernel, fun well => ?_⟩
  refine (well onceJob ⟨by decide +kernel, rfl⟩).1
    "Scheduled time 1970-01-01T00:01:30.000Z is in the past" ?_
  decide +kernel

end PiCrew.Scheduling.Jobs
