/-
**Every enabled job has its timer.**

`Sound` says what a pending timer is: the one that the map has for its job, armed for the version of the job
that is there. `ArmedBut` says that no enabled job is without one. Each function of the scheduler keeps the
first, and gives the job that it is about a timer again.

* `update_spec`, `fire_spec`, `cronTick_spec` — the functions that are built from these;
* `timers_fit` — in every run in which no job is added over one that has a timer, each enabled job has
  exactly one, but for an interval job whose timer came while its last dispatch was in flight.
-/

import PiCrew.Scheduling.CrewScheduler
import PiCrew.Library.Runs
import Mathlib.Data.List.Nodup

namespace PiCrew.Scheduling.Jobs

variable {env : Surroundings}

section

structure Sound (env : Surroundings) (state : CrewScheduler) : Prop where
  keyed : ∀ id job, state.jobs id = some job → job.id = id
  below : ∀ timer ∈ state.pending, timer.handle < state.handles
  nodup : (state.pending.map Timer.handle).Nodup
  owned : ∀ id handle, state.timers id = some handle → handle < state.handles
  apart : ∀ first second handle, state.timers first = some handle →
    state.timers second = some handle → first = second
  current : ∀ timer ∈ state.pending, state.timers timer.jobId = some timer.handle
  version : ∀ timer ∈ state.pending, ∃ job, state.jobs timer.jobId = some job ∧ job.enabled = true ∧
    SameVersion timer.armedFor job ∧ occurrence env timer.armedFor timer.armedAt = some timer.targetMs

def HasTimer (state : CrewScheduler) (id : String) : Prop := ∃ timer ∈ state.pending, timer.jobId = id

def NoOccurrence (job : ScheduledJob) : Prop :=
  job.scheduleType = .interval ∧ job.intervalMs.filter (· ≠ 0) = none

def InFlight (state : CrewScheduler) (id : String) (job : ScheduledJob) : Prop :=
  job.scheduleType = .interval ∧ job.lastStatus = some .running ∧
    ∃ handle, state.timers id = some handle ∧ ∀ timer ∈ state.pending, timer.handle ≠ handle

def Served (state : CrewScheduler) (id : String) (job : ScheduledJob) : Prop :=
  HasTimer state id ∨ NoOccurrence job ∨ InFlight state id job

/-- **No enabled job is without a timer**, of those other than one. -/
def ArmedBut (state : CrewScheduler) (except : Option String) : Prop :=
  ∀ id job, some id ≠ except → state.jobs id = some job → job.enabled = true → Served state id job

def Fits (env : Surroundings) (state : CrewScheduler) : Prop := Sound env state ∧ ArmedBut state none

variable {state : CrewScheduler}

theorem ArmedBut.mono (armed : ArmedBut state none) (except : Option String) :
    ArmedBut state except :=
  fun id job _ found enabled => armed id job (Option.some_ne_none id) found enabled

theorem ArmedBut.all {id : String} (armed : ArmedBut state (some id))
    (here : ∀ job, state.jobs id = some job → job.enabled = true → Served state id job) :
    ArmedBut state none := by
  intro other job _ found enabled
  by_cases same : other = id
  · subst same
    exact here job found enabled
  · exact armed other job (fun equal => same (Option.some.inj equal)) found enabled

theorem Sound.tock (sound : Sound env state) : Sound env state.tock :=
  ⟨sound.keyed, sound.below, sound.nodup, sound.owned, sound.apart, sound.current, sound.version⟩

theorem ArmedBut.tock {except : Option String}
    (armed : ArmedBut state except) : ArmedBut state.tock except := armed

theorem Sound.no_timer (sound : Sound env state) {id : String}
    (none : state.timers id = none) : ∀ timer ∈ state.pending, timer.jobId ≠ id := by
  rintro timer member rfl
  have some := sound.current timer member
  rw [none] at some
  cases some

theorem Sound.eq_of_jobId (sound : Sound env state) {first second : Timer}
    (one : first ∈ state.pending) (other : second ∈ state.pending)
    (same : first.jobId = second.jobId) : first = second := by
  have handle : first.handle = second.handle := by
    have left := sound.current first one
    have right := sound.current second other
    rw [same] at left
    exact Option.some.inj (left.symm.trans right)
  exact List.inj_on_of_nodup_map sound.nodup one other handle

end

section

def cleared (state : CrewScheduler) (id : String) : CrewScheduler := { state with
    pending := state.pending.filter (·.jobId ≠ id)
    timers := Function.update state.timers id none }

variable {state : CrewScheduler}

theorem disarm_eq (sound : Sound env state) (id : String) : disarm state id = cleared state id := by
  rw [disarm, cleared]
  cases handle : state.timers id with
  | none =>
    have keep : state.pending.filter (·.jobId ≠ id) = state.pending :=
      List.filter_eq_self.mpr fun timer member =>
        decide_eq_true (sound.no_timer handle timer member)
    have same : Function.update state.timers id none = state.timers := by
      rw [← handle, Function.update_eq_self]
    rw [keep, same]
  | some handle' =>
    have keep : state.pending.filter (·.handle ≠ handle') = state.pending.filter (·.jobId ≠ id) := by
      refine List.filter_congr fun timer member => decide_eq_decide.mpr (not_congr ?_)
      have found := sound.current timer member
      constructor
      · intro same
        exact sound.apart _ _ handle' (same ▸ found) handle
      · rintro rfl
        exact Option.some.inj (found.symm.trans handle)
    simp only [keep]

variable {id : String}

theorem mem_cleared {timer : Timer} :
    timer ∈ (cleared state id).pending ↔ timer ∈ state.pending ∧ timer.jobId ≠ id := by
  rw [cleared, List.mem_filter, decide_eq_true_eq]

theorem cleared_timers {id other : String} {handle : Nat}
    (found : (cleared state id).timers other = some handle) :
    other ≠ id ∧ state.timers other = some handle := by
  replace found : Function.update state.timers id none other = some handle := found
  by_cases same : other = id
  · subst same
    rw [Function.update_self] at found
    cases found
  · rw [Function.update_of_ne same] at found
    exact ⟨same, found⟩

theorem Sound.put (sound : Sound env state)
    (jobs : Option ScheduledJob) (keyed : ∀ job, jobs = some job → job.id = id) :
    Sound env { cleared state id with jobs := Function.update state.jobs id jobs } where
  keyed other job found := by
    replace found : Function.update state.jobs id jobs other = some job := found
    by_cases same : other = id
    · subst same
      rw [Function.update_self] at found
      exact keyed job found
    · rw [Function.update_of_ne same] at found
      exact sound.keyed other job found
  below timer member := sound.below timer (mem_cleared.mp member).1
  nodup := sound.nodup.sublist (List.filter_sublist.map _)
  owned other handle found := sound.owned other handle (cleared_timers found).2
  apart first second handle one two :=
    sound.apart first second handle (cleared_timers one).2 (cleared_timers two).2
  current timer member := by
    obtain ⟨pending, other⟩ := mem_cleared.mp member
    exact (Function.update_of_ne other _ _).trans (sound.current timer pending)
  version timer member := by
    obtain ⟨pending, other⟩ := mem_cleared.mp member
    obtain ⟨job, found, rest⟩ := sound.version timer pending
    exact ⟨job, (Function.update_of_ne other _ _).trans found, rest⟩

theorem ArmedBut.put (armed : ArmedBut state (some id)) (jobs : Option ScheduledJob) :
    ArmedBut { cleared state id with jobs := Function.update state.jobs id jobs } (some id) := by
  intro other job apart found enabled
  have different : other ≠ id := fun same => apart (congrArg some same)
  have before : state.jobs other = some job :=
    (Function.update_of_ne different jobs state.jobs).symm.trans found
  rcases armed other job apart before enabled with ⟨timer, pending, same⟩ | none | flight
  · exact Or.inl ⟨timer, mem_cleared.mpr ⟨pending, same ▸ different⟩, same⟩
  · exact Or.inr (Or.inl none)
  · obtain ⟨interval, running, handle, dead, gone⟩ := flight
    exact Or.inr (Or.inr ⟨interval, running, handle, (Function.update_of_ne different _ _).trans dead,
      fun timer member => gone timer (mem_cleared.mp member).1⟩)

theorem store_eq (sound : Sound env state)
    {existing : ScheduledJob} (found : state.jobs id = some existing) (patch : Patch) :
    store state id patch = { cleared state id with
      jobs := Function.update state.jobs id (some (patch.apply existing)) } := by
  rw [store, found]
  simp only [disarm_eq sound id]
  rfl

theorem store_spec (sound : Sound env state) (armed : ArmedBut state (some id)) {existing : ScheduledJob}
    (found : state.jobs id = some existing) (patch : Patch) :
    Sound env (store state id patch) ∧ ArmedBut (store state id patch) (some id) ∧
      (store state id patch).jobs id = some (patch.apply existing) ∧
      (store state id patch).timers id = none := by
  rw [store_eq sound found]
  refine ⟨sound.put _ ?_, armed.put _, Function.update_self _ _ _, Function.update_self _ _ _⟩
  rintro job same
  rw [← Option.some.inj same]
  exact sound.keyed id existing found

theorem disableWithError_spec (sound : Sound env state)
    (armed : ArmedBut state (some id)) : Fits env (disableWithError state id) := by
  cases found : state.jobs id with
  | none =>
    have same : disableWithError state id = state := by
      unfold disableWithError store
      rw [found]
    rw [same]
    exact ⟨sound, armed.all fun job here => by rw [found] at here; cases here⟩
  | some existing =>
    obtain ⟨sound, armed, job, -⟩ := store_spec sound armed found
      { enabled := some false, lastStatus := some .error }
    refine ⟨sound, armed.all fun other here enabled => ?_⟩
    have disabled := Option.some.inj (job.symm.trans here)
    rw [← disabled] at enabled
    cases enabled

end

section

variable {state : CrewScheduler} (sound : Sound env state) {id : String} (armed : ArmedBut state (some id))

include sound armed

/-- **A timer for a job without one**, for a version of it. -/
theorem setCronTimeout_spec (none : ∀ timer ∈ state.pending, timer.jobId ≠ id)
    {job : ScheduledJob} (found : state.jobs id = some job) (enabled : job.enabled = true)
    {armedFor : ScheduledJob} (version : SameVersion armedFor job) {armedAt targetMs : Int}
    (occurs : occurrence env armedFor armedAt = some targetMs) :
    Fits env (setCronTimeout env state id targetMs armedFor armedAt) := by
  have pending : ∀ timer, timer ∈ (setCronTimeout env state id targetMs armedFor armedAt).pending ↔
      timer ∈ state.pending ∨ timer = ⟨state.handles, id, targetMs,
        min (max (targetMs - env.clock state.reads) 0) maxTimerDelayMs, armedFor, armedAt⟩ := by
    intro timer
    rw [setCronTimeout, List.mem_append, List.mem_singleton]
  have timers : ∀ other handle,
      (setCronTimeout env state id targetMs armedFor armedAt).timers other = some handle ↔
        (other = id ∧ handle = state.handles) ∨ (other ≠ id ∧ state.timers other = some handle) := by
    intro other handle
    change Function.update state.timers id (some state.handles) other = some handle ↔ _
    by_cases same : other = id
    · subst same
      rw [Function.update_self, Option.some.injEq]
      exact ⟨fun equal => Or.inl ⟨rfl, equal.symm⟩,
        fun either => either.elim (fun here => here.2.symm) fun there => absurd rfl there.1⟩
    · rw [Function.update_of_ne same]
      exact ⟨fun equal => Or.inr ⟨same, equal⟩,
        fun either => either.elim (fun here => absurd here.1 same) fun there => there.2⟩
  constructor
  · refine ⟨sound.keyed, ?_, ?_, ?_, ?_, ?_, ?_⟩
    · intro timer member
      change timer.handle < state.handles + 1
      rcases (pending timer).mp member with old | new
      · exact Nat.lt_succ_of_lt (sound.below timer old)
      · rw [new]
        exact Nat.lt_succ_self _
    · rw [setCronTimeout, List.map_append, List.nodup_append]
      refine ⟨sound.nodup, List.nodup_singleton _, ?_⟩
      intro handle old other new same
      obtain ⟨timer, member, handle'⟩ := List.mem_map.mp old
      have new := List.mem_singleton.mp new
      have below := sound.below timer member
      rw [handle', same, new] at below
      exact Nat.lt_irrefl _ below
    · intro other handle found
      change handle < state.handles + 1
      rcases (timers other handle).mp found with ⟨-, new⟩ | ⟨-, old⟩
      · rw [new]
        exact Nat.lt_succ_self _
      · exact Nat.lt_succ_of_lt (sound.owned other handle old)
    · intro first second handle one two
      rcases (timers first handle).mp one with ⟨here, new⟩ | ⟨-, old⟩
      · rcases (timers second handle).mp two with ⟨there, -⟩ | ⟨-, other⟩
        · rw [here, there]
        · exact absurd (sound.owned second handle other) (by omega)
      · rcases (timers second handle).mp two with ⟨-, new⟩ | ⟨-, other⟩
        · exact absurd (sound.owned first handle old) (by omega)
        · exact sound.apart first second handle old other
    · intro timer member
      rcases (pending timer).mp member with old | new
      · exact (timers _ _).mpr (Or.inr ⟨none timer old, sound.current timer old⟩)
      · rw [new]
        exact (timers _ _).mpr (Or.inl ⟨rfl, rfl⟩)
    · intro timer member
      rcases (pending timer).mp member with old | new
      · exact sound.version timer old
      · rw [new]
        exact ⟨job, found, enabled, version, occurs⟩
  · intro other job' _ found' enabled'
    by_cases same : other = id
    · exact Or.inl ⟨_, (pending _).mpr (Or.inr rfl), same.symm⟩
    · rcases armed other job' (fun equal => same (Option.some.inj equal)) found' enabled' with
        ⟨timer, old, here⟩ | none | ⟨interval, running, handle, dead, gone⟩
      · exact Or.inl ⟨timer, (pending _).mpr (Or.inl old), here⟩
      · exact Or.inr (Or.inl none)
      · refine Or.inr (Or.inr ⟨interval, running, handle,
          (timers _ _).mpr (Or.inr ⟨same, dead⟩), fun timer member => ?_⟩)
        rcases (pending timer).mp member with old | new
        · exact gone timer old
        · rw [new]
          exact Nat.ne_of_gt (sound.owned other handle dead)

theorem armCron_spec (none : ∀ timer ∈ state.pending, timer.jobId ≠ id)
    {job : ScheduledJob} (found : state.jobs id = some job) (enabled : job.enabled = true)
    (cron : job.scheduleType = .cron) : Fits env (armCron env state job) := by
  have key : job.id = id := sound.keyed id job found
  subst key
  unfold armCron
  simp only
  split
  · exact disableWithError_spec sound.tock armed.tock
  · rename_i next computed
    split
    · exact disableWithError_spec sound.tock armed.tock
    · rename_i ahead
      refine setCronTimeout_spec sound.tock armed.tock none found enabled rfl ?_
      rw [occurrence, cron, computed]
      exact Option.filter_some_pos (decide_eq_true (Int.not_le.mp ahead))

theorem arm_spec (free : state.timers id = none)
    {job : ScheduledJob} (found : state.jobs id = some job) (enabled : job.enabled = true) :
    Fits env (arm env state job) := by
  have none := sound.no_timer free
  have key : job.id = id := sound.keyed id job found
  subst key
  unfold arm
  rw [if_neg (by rw [free]; decide)]
  split
  · rename_i type length intervalMs interval ms
    split
    · rename_i zero
      subst zero
      refine ⟨sound, armed.all fun other here _ => Or.inr (Or.inl ?_)⟩
      rw [← Option.some.inj (found.symm.trans here)]
      exact ⟨interval, by rw [ms]; rfl⟩
    · rename_i length
      refine setCronTimeout_spec sound.tock armed.tock none found enabled rfl ?_
      have some : (Option.some intervalMs).filter (· ≠ 0) = Option.some intervalMs :=
        Option.filter_some_pos (decide_eq_true length)
      rw [occurrence, interval, ms]
      exact congrArg (Option.map (env.clock state.reads + ·)) some
  · rename_i interval ms
    refine ⟨sound, armed.all fun other here _ => Or.inr (Or.inl ?_)⟩
    rw [← Option.some.inj (found.symm.trans here)]
    exact ⟨interval, by rw [ms]; rfl⟩
  · rename_i once
    simp only
    split
    · exact disableWithError_spec sound.tock armed.tock
    · rename_i target date
      split
      · rename_i ahead
        refine setCronTimeout_spec sound.tock armed.tock none found enabled rfl ?_
        rw [occurrence, once, date]
        exact Option.filter_some_pos (decide_eq_true ahead)
      · exact disableWithError_spec sound.tock armed.tock
  · rename_i cron
    exact armCron_spec sound armed none found enabled cron

/-- **An update gives its job a timer**, if it is enabled. -/
theorem update_spec (patch : Patch) : Fits env (update env state id patch) := by
  unfold update
  split
  · rename_i missing
    exact ⟨sound, armed.all fun job here => by rw [missing] at here; cases here⟩
  · rename_i existing found
    obtain ⟨sound, armed, job, free⟩ := store_spec sound armed found patch
    simp only
    split
    · rename_i enabled
      exact arm_spec sound armed free job enabled
    · rename_i disabled
      refine ⟨sound, armed.all fun other here enabled => ?_⟩
      rw [← Option.some.inj (job.symm.trans here)] at enabled
      exact absurd enabled disabled

end

section

variable {state : CrewScheduler}

/-- **Firing a job** leaves it as it is, or gives it a timer. -/
theorem fire_spec (sound : Sound env state) {id : String}
    (armed : ArmedBut state (some id)) (force : Bool) (outcome : ExecutorOutcome) :
    Fits env (fire env state id force outcome) ∨
      (fire env state id force outcome = state ∧ ∀ job, state.jobs id = some job →
        force = false ∧ (job.enabled = true → job.lastStatus = some .running)) := by
  unfold fire
  split
  · rename_i missing
    exact Or.inr ⟨rfl, fun job here => by rw [missing] at here; cases here⟩
  · rename_i job found
    have only : ∀ other, state.jobs id = some other → other = job :=
      fun other here => Option.some.inj (here.symm.trans found)
    split
    · rename_i off
      refine Or.inr ⟨rfl, fun other here => ⟨eq_false_of_ne_true off.2, fun enabled => ?_⟩⟩
      rw [only other here] at enabled
      exact absurd enabled off.1
    · split
      · rename_i flight
        refine Or.inr ⟨rfl, fun other here => ⟨eq_false_of_ne_true flight.2, fun _ => ?_⟩⟩
        rw [only other here]
        exact flight.1
      · have first := update_spec sound armed { lastStatus := some .running }
        refine Or.inl ?_
        cases outcome with
        | dispatched => exact first
        | throws stamp => exact update_spec first.1 (first.2.mono _) _

theorem advanceCronNextRun_spec (sound : Sound env state) {id : String}
    (armed : ArmedBut state (some id)) :
    Fits env (advanceCronNextRun env state id) ∨
      (advanceCronNextRun env state id = state ∧ ∀ job, state.jobs id = some job →
        job.enabled = true → job.scheduleType ≠ .cron) := by
  unfold advanceCronNextRun
  split
  · rename_i missing
    exact Or.inr ⟨rfl, fun job here => by rw [missing] at here; cases here⟩
  · rename_i job found
    split
    · rename_i other
      refine Or.inr ⟨rfl, fun same here enabled => ?_⟩
      rw [Option.some.inj (here.symm.trans found)] at enabled ⊢
      exact other.resolve_left (not_not.mpr enabled)
    · refine Or.inl ?_
      simp only
      split
      · exact disableWithError_spec sound.tock armed.tock
      · exact update_spec sound.tock armed.tock _

def arrived (state : CrewScheduler) (timer : Timer) : CrewScheduler :=
  { state with pending := state.pending.filter (·.handle ≠ timer.handle) }

theorem mem_arrived {timer other : Timer} :
    other ∈ (arrived state timer).pending ↔ other ∈ state.pending ∧ other.handle ≠ timer.handle := by
  rw [arrived, List.mem_filter, decide_eq_true_eq]

theorem arrived_sound (sound : Sound env state) (timer : Timer) :
    Sound env (arrived state timer) where
  keyed := sound.keyed
  below other member := sound.below other (mem_arrived.mp member).1
  nodup := sound.nodup.sublist (List.filter_sublist.map _)
  owned := sound.owned
  apart := sound.apart
  current other member := sound.current other (mem_arrived.mp member).1
  version other member := sound.version other (mem_arrived.mp member).1

theorem arrived_armed (fits : Fits env state) {timer : Timer}
    (member : timer ∈ state.pending) : ArmedBut (arrived state timer) (some timer.jobId) := by
  intro id job apart found enabled
  rcases fits.2 id job (Option.some_ne_none id) found enabled with ⟨other, pending, same⟩ | none | flight
  · refine Or.inl ⟨other, mem_arrived.mpr ⟨pending, fun handle => ?_⟩, same⟩
    have one := fits.1.current other pending
    have two := fits.1.current timer member
    rw [← handle] at two
    exact apart (congrArg some (same.symm.trans (fits.1.apart _ _ _ one two)))
  · exact Or.inr (Or.inl none)
  · obtain ⟨interval, running, handle, dead, gone⟩ := flight
    exact Or.inr (Or.inr ⟨interval, running, handle, dead,
      fun other pending => gone other (mem_arrived.mp pending).1⟩)

/-- **A timer that has arrived**: the job goes on waiting, or has fired, or its dispatch is in flight. -/
theorem cronTick_spec (fits : Fits env state) {timer : Timer}
    (member : timer ∈ state.pending) (outcome : ExecutorOutcome) :
    Fits env (cronTick env (arrived state timer) timer outcome) := by
  have sound := arrived_sound fits.1 timer
  have armed := arrived_armed fits member
  obtain ⟨job, found, enabled, version, occurs⟩ := fits.1.version timer member
  have handle := fits.1.current timer member
  have none : ∀ other ∈ (arrived state timer).pending, other.jobId ≠ timer.jobId := by
    intro other pending same
    obtain ⟨before, apart⟩ := mem_arrived.mp pending
    exact apart (congrArg Timer.handle (fits.1.eq_of_jobId before member same))
  unfold cronTick
  rw [show (arrived state timer).jobs timer.jobId = some job from found]
  simp only
  rw [if_neg (not_not.mpr enabled)]
  split
  · exact setCronTimeout_spec sound.tock armed.tock none found enabled version occurs
  · -- The job fires, or its dispatch is in flight; a cron job and a one-time job are updated after that.
    have fired : Sound env (fire env (arrived state timer).tock timer.jobId false outcome) ∧
        ArmedBut (fire env (arrived state timer).tock timer.jobId false outcome) (some timer.jobId) ∧
        (Fits env (fire env (arrived state timer).tock timer.jobId false outcome) ∨
          fire env (arrived state timer).tock timer.jobId false outcome = (arrived state timer).tock ∧
            job.lastStatus = some .running) := by
      rcases fire_spec sound.tock armed.tock false outcome with fits | ⟨same, skipped⟩
      · exact ⟨fits.1, fits.2.mono _, Or.inl fits⟩
      · rw [same]
        exact ⟨sound.tock, armed.tock, Or.inr ⟨rfl, (skipped job found).2 enabled⟩⟩
    obtain ⟨sound', armed', either⟩ := fired
    have advanced : Sound env (advanceCronNextRun env
          (fire env (arrived state timer).tock timer.jobId false outcome) timer.jobId) ∧
        ArmedBut (advanceCronNextRun env
          (fire env (arrived state timer).tock timer.jobId false outcome) timer.jobId)
            (some timer.jobId) ∧
        (job.scheduleType ≠ .once → Fits env (advanceCronNextRun env
          (fire env (arrived state timer).tock timer.jobId false outcome) timer.jobId)) := by
      rcases advanceCronNextRun_spec sound' armed' with fits | ⟨same, other⟩
      · exact ⟨fits.1, fits.2.mono _, fun _ => fits⟩
      · rw [same]
        refine ⟨sound', armed', fun apart => ?_⟩
        rcases either with fits | ⟨skipped, running⟩
        · exact fits
        · rw [skipped] at other ⊢
          have interval : job.scheduleType = .interval := by
            cases type : job.scheduleType with
            | cron => exact absurd type (other job found enabled)
            | once => exact absurd type apart
            | interval => rfl
          refine ⟨sound.tock, armed.tock.all fun same here _ => Or.inr (Or.inr ?_)⟩
          rw [Option.some.inj (here.symm.trans found)]
          exact ⟨interval, running, timer.handle, handle,
            fun other pending => (mem_arrived.mp pending).2⟩
    split
    · exact update_spec advanced.1 advanced.2.1 _
    · rename_i apart
      exact advanced.2.2 apart

theorem runNow_spec (fits : Fits env state) (id : String)
    (outcome : ExecutorOutcome) : Fits env (runNow env state id outcome) := by
  unfold runNow
  split
  · exact fits
  · rename_i job found
    have fired : Fits env (fire env state id true outcome) := by
      rcases fire_spec fits.1 (fits.2.mono _) true outcome with fits | ⟨-, skipped⟩
      · exact fits
      · cases (skipped job found).1
    simp only
    split
    · exact update_spec fired.1 (fired.2.mono _) _
    · exact fired

end

/-- **No job is added over one that has a timer.** -/
def AddsFresh (state : CrewScheduler) : Call → Prop
  | .add job => state.timers job.id = none
  | _ => True

section

variable {state : CrewScheduler} (fits : Fits env state)

include fits

theorem add_spec {job : ScheduledJob}
    (free : state.timers job.id = none) : Fits env (add env state job) := by
  have sound : Sound env { cleared state job.id with
      jobs := Function.update state.jobs job.id (some job) } :=
    fits.1.put (some job) fun other same => by rw [← Option.some.inj same]
  have armed := (fits.2.mono (some job.id)).put (some job)
  have same : { cleared state job.id with jobs := Function.update state.jobs job.id (some job) }
      = { state with jobs := Function.update state.jobs job.id (some job) } := by
    rw [← disarm_eq fits.1, disarm, free]
  rw [same] at sound armed
  have found : (Function.update state.jobs job.id (some job)) job.id = some job :=
    Function.update_self _ _ _
  unfold add
  simp only
  have either : ∀ given : CrewScheduler, Sound env given → ArmedBut given (some job.id) →
      given.timers job.id = none → given.jobs job.id = some job →
      Fits env (if job.enabled then arm env given job else given) := by
    intro given sound armed free found
    split
    · rename_i enabled
      exact arm_spec sound armed free found enabled
    · rename_i disabled
      refine ⟨sound, armed.all fun other here enabled => ?_⟩
      rw [Option.some.inj (here.symm.trans found)] at enabled
      exact absurd enabled disabled
  by_cases report : job.scheduleType = .cron ∧ job.nextRun.isSome = true
  · rw [if_pos report]
    exact either _ sound.tock armed.tock free found
  · rw [if_neg report]
    exact either _ sound armed free found

theorem remove_spec (id : String) :
    Fits env (remove state id) := by
  unfold remove
  simp only [disarm_eq fits.1]
  refine ⟨fits.1.put none fun job same => (nomatch same), ?_⟩
  refine ((fits.2.mono (some id)).put none).all fun job here => ?_
  replace here : Function.update state.jobs id none id = some job := here
  rw [Function.update_self] at here
  cases here

theorem recordSpawnedRun_spec (id runId : String) :
    Fits env (recordSpawnedRun state id runId) := by
  unfold recordSpawnedRun
  split
  · exact fits
  · rename_i job found
    simp only
    generalize job.spawnedRunIds ++ [runId] = appended
    have jobs : ∀ other now, Function.update state.jobs id (some { job with
          spawnedRunIds := appended.drop (appended.length - spawnedRunIdsCap) }) other = some now →
        ∃ before, state.jobs other = some before ∧ SameVersion before now := by
      intro other now here
      by_cases same : other = id
      · subst same
        rw [Function.update_self] at here
        exact ⟨job, found, by rw [← Option.some.inj here]; rfl⟩
      · rw [Function.update_of_ne same] at here
        exact ⟨now, here, rfl⟩
    have kept : ∀ other before, state.jobs other = some before →
        ∃ now, Function.update state.jobs id (some { job with
          spawnedRunIds := appended.drop (appended.length - spawnedRunIdsCap) }) other = some now ∧
          SameVersion before now := by
      intro other before here
      by_cases same : other = id
      · subst same
        rw [Function.update_self]
        exact ⟨_, rfl, by rw [Option.some.inj (here.symm.trans found)]; rfl⟩
      · rw [Function.update_of_ne same]
        exact ⟨before, here, rfl⟩
    refine ⟨⟨?_, fits.1.below, fits.1.nodup, fits.1.owned, fits.1.apart, fits.1.current, ?_⟩, ?_⟩
    · intro other now here
      obtain ⟨before, there, same⟩ := jobs other now here
      exact (congrArg ScheduledJob.id same).symm.trans (fits.1.keyed other before there)
    · intro timer member
      obtain ⟨before, there, enabled, version, occurs⟩ := fits.1.version timer member
      obtain ⟨now, here, same⟩ := kept timer.jobId before there
      exact ⟨now, here, (congrArg ScheduledJob.enabled same).symm.trans enabled,
        version.trans same, occurs⟩
    · intro other now _ here enabled
      obtain ⟨before, there, same⟩ := jobs other now here
      have type := congrArg ScheduledJob.scheduleType same
      have length := congrArg ScheduledJob.intervalMs same
      have status := congrArg ScheduledJob.lastStatus same
      rcases fits.2 other before (Option.some_ne_none other) there
          ((congrArg ScheduledJob.enabled same).trans enabled) with timer | ⟨interval, none⟩ | flight
      · exact Or.inl timer
      · exact Or.inr (Or.inl ⟨type.symm.trans interval,
          (congrArg (Option.filter (· ≠ 0)) length).symm.trans none⟩)
      · obtain ⟨interval, running, dead⟩ := flight
        exact Or.inr (Or.inr ⟨type.symm.trans interval, status.symm.trans running, dead⟩)

theorem step_fits (call : Call) (fresh : AddsFresh state call) : Fits env (step env state call) := by
  cases call with
  | add job => exact add_spec fits fresh
  | remove id => exact remove_spec fits id
  | update id patch => exact update_spec fits.1 (fits.2.mono _) patch
  | recordSpawnedRun id runId => exact recordSpawnedRun_spec fits id runId
  | runNow id outcome => exact runNow_spec fits id outcome
  | tick handle outcome =>
    rw [step]
    split
    · exact fits
    · rename_i timer found
      have same : timer.handle = handle :=
        of_decide_eq_true (List.find?_some (p := fun timer : Timer => timer.handle = handle) found)
      rw [← same]
      exact cronTick_spec fits (List.mem_of_find?_eq_some found) outcome

end

theorem fits_initial (env : Surroundings) : Fits env {} := by
  refine ⟨⟨?_, ?_, List.nodup_nil, ?_, ?_, ?_, ?_⟩, ?_⟩
  · exact fun id job found => nomatch found
  · exact fun timer member => nomatch member
  · exact fun id handle found => nomatch found
  · exact fun first second handle found => nomatch found
  · exact fun timer member => nomatch member
  · exact fun timer member => nomatch member
  · exact fun id job _ found => nomatch found

/-- **The timers fit the jobs**: each enabled job that has an occurrence has exactly one pending timer,
but for an interval job whose timer came in flight; and each pending timer was armed for the version of its
job that is there and enabled, and for an occurrence of it. -/
structure TimersFit (env : Surroundings) (state : CrewScheduler) : Prop where
  one : ∀ id job, state.jobs id = some job → job.enabled = true → ¬ NoOccurrence job →
    (∃ timer, state.pending.filter (·.jobId = id) = [timer]) ∨ InFlight state id job
  fits : ∀ timer ∈ state.pending, ∃ job, state.jobs timer.jobId = some job ∧ job.enabled = true ∧
    SameVersion timer.armedFor job ∧ occurrence env timer.armedFor timer.armedAt = some timer.targetMs

theorem eq_singleton_of_nodup {α : Type} {list : List α} {item : α} (nodup : list.Nodup)
    (member : item ∈ list) (only : ∀ other ∈ list, other = item) : list = [item] := by
  cases list with
  | nil => cases member
  | cons first rest =>
    have head := only first List.mem_cons_self
    cases rest with
    | nil => rw [head]
    | cons second rest =>
      have next := only second (List.mem_cons_of_mem _ List.mem_cons_self)
      refine absurd ?_ (List.nodup_cons.mp nodup).1
      rw [head, ← next]
      exact List.mem_cons_self

theorem timersFit_of_fits {state : CrewScheduler} (fits : Fits env state) : TimersFit env state where
  one id job found enabled occurs := by
    rcases fits.2 id job (Option.some_ne_none id) found enabled with ⟨timer, member, same⟩ | none | flight
    · refine Or.inl ⟨timer, eq_singleton_of_nodup ((fits.1.nodup.of_map _).filter _)
        (List.mem_filter.mpr ⟨member, decide_eq_true same⟩) fun other there => ?_⟩
      obtain ⟨pending, here⟩ := List.mem_filter.mp there
      exact fits.1.eq_of_jobId pending member ((of_decide_eq_true here).trans same.symm)
    · exact absurd none occurs
    · exact Or.inr flight
  fits := fits.1.version

/-- **In every run in which no job is added over one that has a timer, the timers fit the jobs after each
step.** -/
theorem timers_fit (env : Surroundings) (calls : List Call)
    (fresh : ∀ taken ∈ Runs.transitions (step env) {} calls, AddsFresh taken.before taken.action) :
    ∀ taken ∈ Runs.transitions (step env) {} calls, TimersFit env taken.after := by
  intro taken member
  have kept := @Runs.forall_transitions _ _ (step env) (Fits env) AddsFresh
    (fun _ call fits fresh => step_fits fits call fresh) {} calls (fits_initial env) fresh taken member
  exact timersFit_of_fits kept.2

/-- A clock that goes on by a minute at each reading, and no dates and cron schedules. -/
def ticking : Surroundings where
  clock count := 60000 * count
  date _ := none
  nextRunTime _ _ := .error "Invalid cron expression"
  iso _ := ""

def everyTenSeconds : ScheduledJob where
  id := "job"
  name := "job"
  schedule := "10s"
  scheduleType := .interval
  intervalMs := some 10000
  enabled := true
  lastRun := none
  lastStatus := none
  nextRun := none
  spawnedRunIds := []

def everyMinute : ScheduledJob := { everyTenSeconds with schedule := "1m", intervalMs := some 60000 }

theorem timers_fit_pause :
    TimersFit ticking (Runs.finish (step ticking) {}
      [.add everyTenSeconds, .update "job" { enabled := some false }]) := by
  refine timers_fit ticking [.add everyTenSeconds, .update "job" { enabled := some false }]
    (fun taken member => ?_) ⟨_, _, _⟩ (List.mem_cons_of_mem _ List.mem_cons_self)
  rcases List.mem_cons.mp member with rfl | later
  · rfl
  · rw [List.mem_singleton.mp later]
    trivial

/-- **A timer that comes in flight is not armed again**: the job fires at its first timer, and its second
one comes before the dispatch has ended. **And a job that is added over one with a timer has that timer**:
it was armed for ten seconds, and fires a job of every minute. -/
theorem timers_left :
    let stalled := Runs.finish (step ticking) {}
      [.add everyTenSeconds, .tick 0 .dispatched, .tick 1 .dispatched]
    let replaced := Runs.finish (step ticking) {} [.add everyTenSeconds, .add everyMinute]
    (stalled.jobs "job" = some { everyTenSeconds with lastStatus := some .running } ∧
        stalled.pending = []) ∧
      replaced.jobs "job" = some everyMinute ∧
        replaced.pending.map (fun timer => (timer.jobId, timer.targetMs, timer.armedFor))
          = [("job", 10000, everyTenSeconds)] := by
  decide

end PiCrew.Scheduling.Jobs
