/-
**A stop against the goal loop.**

What becomes of a goal once a stop has written `cancelled`, with any number of loops, pauses, stops and resumes
whose file operations come between each other. Every call but the compare-and-set reads the record and writes it
back with nothing that keeps others out: one that read it before the stop wrote puts the state that it read, or
the one it proposes, over the stop's.

* `goalStep_unmatched` — after a compare-and-set has gone through, no other one with the same expectation does,
  as long as nobody writes the state that they expect;
* `stop_wins` — runs whose steps all leave stops alone.
-/

import PiCrew.GoalWorkflow.GoalProcesses

namespace PiCrew.GoalWorkflow

def Cancelled (files : GoalFiles) : Prop := ∃ goal, files.file = some goal ∧ goal.state = .cancelled

def Writes (system : GoalSystem) (action : GoalAction) (process : GoalProcess) (next : GoalLoopState) : Prop :=
  system.acting action = some process ∧ process.point.writes? = some next

def StopWrites (system : GoalSystem) (action : GoalAction) : Prop :=
  ∃ process next request, Writes system action process next ∧ process.command = .stop request

def PauseWrites (system : GoalSystem) (action : GoalAction) : Prop :=
  ∃ process next request, Writes system action process next ∧ process.command = .pause request

def WritesState (state : GoalLoopStatus) (system : GoalSystem) (action : GoalAction) : Prop :=
  ∃ process next, Writes system action process next ∧ next.state = state

def StartsTurn (system : GoalSystem) (action : GoalAction) : Prop :=
  ∃ process, system.acting action = some process ∧ process.point.startsTurn

def GoalPoint.swaps? : GoalPoint → Option GoalLoopStatus
  | .calling _ (.swapping expected _) _ => some expected
  | _ => none

def Swaps (expected : GoalLoopStatus) (system : GoalSystem) (action : GoalAction) : Prop :=
  ∃ process, system.acting action = some process ∧ process.point.swaps? = some expected

def GoalCommand.looks : GoalCommand → Bool
  | .loop | .resume _ => true
  | .pause _ | .stop _ => false

/-- **A step leaves stops alone.** A stop writes only where no loop and no resume is between reading the record
and writing it in one call, and no loop is about to start a turn that its patch found running; no pause
writes over a cancelled goal; and no lock of a compare-and-set is taken away. -/
structure StopGuard (system : GoalSystem) (action : GoalAction) : Prop where
  stops : StopWrites system action → ∀ slot process, system.procs slot = some process →
    (process.command.looks → process.point.hasRead = false) ∧ process.point.startsTurn = false
  pauses : PauseWrites system action → ¬ Cancelled system.shared
  locks : LockKept system action

/-- A record, and no process yet. -/
structure Unstarted (system : GoalSystem) : Prop where
  file : system.shared.file.isSome
  procs : ∀ slot, system.procs slot = none

section

variable {command : GoalCommand} {call : GoalCall}

theorem expected_of_allows {expected next : GoalLoopStatus}
    (allows : command.Allows (.compareAndSetStatus expected next)) :
    expected ≠ next ∧ expected ≠ .cancelled := by
  cases command with
  | loop | resume request => exact allows
  | pause request | stop request => rcases allows with load | set <;> contradiction

theorem looks_of_allows {proposed : GoalLoopStatus} (allows : command.Allows (.safeSetStatus proposed)) :
    command.looks := by
  cases command with
  | loop => rfl
  | resume request => rfl
  | pause request | stop request => rcases allows with load | set <;> contradiction

theorem looks_of_expects {expected next : GoalLoopStatus}
    (allows : command.Allows (.compareAndSetStatus expected next)) : command.looks := by
  cases command with
  | loop => rfl
  | resume request => rfl
  | pause request | stop request => rcases allows with load | set <;> contradiction

theorem patch_cancelled {fields : GoalPatch} {goal : GoalLoopState} (allows : command.Allows (.patch fields))
    (cancelled : goal.state = .cancelled) :
    (∃ request, command = .pause request) ∨ (fields.apply goal).state = .cancelled := by
  have heeded : fields.state = none ∨ fields.state = some .cancelled →
      (fields.apply goal).state = .cancelled := by
    rintro (none | some)
    · rw [GoalPatch.apply, none]
      exact cancelled
    · rw [GoalPatch.apply, some]
      rfl
  cases command with
  | loop | resume request => exact .inr (heeded allows)
  | pause request => exact .inl ⟨request, rfl⟩
  | stop request =>
    rcases allows with load | set
    · contradiction
    · obtain rfl := GoalCall.patch.inj set
      exact .inr rfl

theorem saves_cancelled {request : GoalRequest} {next : GoalLoopState} (here : (CallPoint.saving next).Of call)
    (allows : (GoalCommand.stop request).Allows call) : next.state = .cancelled := by
  rcases here with ⟨fields, current, rfl, rfl⟩ | ⟨proposed, rfl⟩
  · rcases allows with load | set
    · contradiction
    · obtain rfl := GoalCall.patch.inj set
      rfl
  · rcases allows with load | set <;> contradiction

end

section

/-- **Where a call may stand after a stop**: what it writes next is cancelled, or it is a pause. -/
def CallPoint.Stopped (command : GoalCommand) : CallPoint → Prop
  | .saving next => (∃ request, command = .pause request) ∨ next.state = .cancelled
  | .setting _ | .swapping _ _ => False
  | _ => True

def GoalPoint.Stopped (command : GoalCommand) : GoalPoint → Prop
  | .idle program => program.startsTurn = false
  | .calling _ point _ => point.Stopped command

abbrev GoalSystem.Stopped (system : GoalSystem) : Prop :=
  system.Holds Cancelled fun _ _ process => process.point.Stopped process.command

variable {command : GoalCommand} {call : GoalCall} {stands : CallPoint}
  {next : Option GoalLoopState → GoalProgram} {files : GoalFiles}

theorem patchRead_stopped {fields : GoalPatch} (allows : command.Allows (.patch fields))
    (cancelled : Cancelled files) :
    ∃ point, patchRead fields files.file = .going point ∧ point.Stopped command := by
  obtain ⟨goal, there, cancelled⟩ := cancelled
  rw [there]
  exact ⟨_, rfl, patch_cancelled allows cancelled⟩

/-- **An operation after a stop** keeps the record cancelled, and does not lead to a turn. -/
theorem operate_stopped (cancelled : Cancelled files) (here : stands.Of call)
    (within : GoalProgram.Within command.Allows (.call call next)) (stopped : stands.Stopped command)
    (silent : ∀ request goal, command = .pause request → stands ≠ .saving goal) (slot : Nat)
    (stale : Bool) :
    Cancelled (operate slot stale files call stands next).2 ∧
      (operate slot stale files call stands next).1.Stopped command := by
  have returns : ∀ result, call.NoTurn result →
      ((CallProgress.returned result).point call next).Stopped command := fun result => (within.2 result).2
  rw [operate]
  cases stands with
  | loading =>
    obtain rfl : call = .load := here
    exact ⟨cancelled, returns _ trivial⟩
  | patching fields =>
    obtain rfl : call = .patch fields := here
    obtain ⟨point, reads, stopped⟩ := patchRead_stopped within.1 cancelled
    rw [CallPoint.step, reads]
    exact ⟨cancelled, stopped⟩
  | checking proposed =>
    obtain rfl : call = .safeSetStatus proposed := here
    obtain ⟨goal, there, state⟩ := cancelled
    have settled : goal.state ≠ .running := by
      rw [state]
      decide
    rw [CallPoint.step, checkRead, there, Option.map_some, Option.getD_some, if_neg settled]
    exact ⟨⟨goal, there, state⟩, returns _ trivial⟩
  | setting proposed => exact stopped.elim
  | saving goal =>
    have state : goal.state = .cancelled := by
      rcases stopped with ⟨request, pauses⟩ | state
      · exact absurd rfl (silent request goal pauses)
      · exact state
    refine ⟨⟨goal, rfl, state⟩, returns _ ?_⟩
    rcases here with ⟨fields, current, rfl, -⟩ | ⟨proposed, rfl⟩
    · exact ⟨goal, rfl, state⟩
    · trivial
  | opening expected after =>
    obtain rfl : call = .compareAndSetStatus expected after := here
    rw [CallPoint.step]
    split_ifs
    · exact ⟨cancelled, trivial⟩
    · exact ⟨cancelled, trivial⟩
  | statting expected after =>
    obtain rfl : call = .compareAndSetStatus expected after := here
    rw [CallPoint.step]
    split_ifs
    · exact ⟨cancelled, trivial⟩
    · exact ⟨cancelled, returns _ trivial⟩
  | breaking expected after =>
    obtain rfl : call = .compareAndSetStatus expected after := here
    rw [CallPoint.step]
    split_ifs
    · exact ⟨cancelled, returns _ trivial⟩
    · exact ⟨cancelled, trivial⟩
  | reopening expected after =>
    obtain rfl : call = .compareAndSetStatus expected after := here
    rw [CallPoint.step]
    split_ifs
    · exact ⟨cancelled, trivial⟩
    · exact ⟨cancelled, returns _ trivial⟩
  | comparing expected after =>
    obtain rfl : call = .compareAndSetStatus expected after := here
    obtain ⟨goal, there, state⟩ := cancelled
    have other : goal.state ≠ expected := by
      rw [state]
      exact (expected_of_allows within.1).2.symm
    rw [CallPoint.step, compareRead, there, Option.map_some, Option.getD_some, if_neg other]
    exact ⟨⟨goal, there, state⟩, trivial⟩
  | swapping expected goal => exact stopped.elim
  | releasing result =>
    obtain ⟨expected, after, rfl⟩ := here
    exact ⟨cancelled, returns _ trivial⟩

variable {system : GoalSystem}

variable {point : GoalPoint}

theorem operates_stopped (operates : point.Operates call stands next)
    (stopped : point.Stopped command) : stands.Stopped command := by
  cases operates with
  | within => exact stopped
  | first => cases call <;> trivial

theorem GoalPoint.Operates.writes {goal : GoalLoopState} (operates : point.Operates call stands next)
    (kind : stands = .saving goal ∨ ∃ expected, stands = .swapping expected goal) :
    point.writes? = some goal := by
  cases operates with
  | within =>
    rcases kind with rfl | ⟨expected, rfl⟩
    · rfl
    · rfl
  | first => cases call <;> rcases kind with same | ⟨expected, same⟩ <;> cases same

theorem goalStep_stopped (sound : system.Sound) (stopped : system.Stopped) (action : GoalAction)
    (guarded : StopGuard system action) : (goalStep system action).Stopped := by
  refine Processes.step_keeps stopped action (fun slot kind _ => (program_within kind).first) ?_
  rintro slot input process rfl here
  have own := sound.procs slot process here
  have rest : ∀ other rival, other ≠ slot → system.procs other = some rival →
      rival.point.Stopped rival.command := fun other rival _ there => stopped.procs other rival there
  rcases move_cases process.point slot input system.shared with
    ⟨call, stands, next, operates, moved⟩ | ⟨program, idle, told, moved⟩
  · have sounds := operates.sound own.within
    have silent : ∀ request goal, process.command = .pause request → stands ≠ .saving goal := by
      rintro request goal pauses rfl
      exact guarded.pauses ⟨process, goal, request, ⟨here, operates.writes (.inl rfl)⟩, pauses⟩ stopped.shared
    have kept := operate_stopped stopped.shared sounds.1 sounds.2
      (operates_stopped operates (stopped.procs slot process here)) silent slot input.lockStale
    exact ⟨by rw [GoalProcess.move, moved]; exact kept.1, by rw [GoalProcess.move, moved]; exact kept.2, rest⟩
  · have within := own.within
    rw [idle] at within
    refine ⟨?_, ?_, rest⟩
    · rw [GoalProcess.move, moved]
      exact stopped.shared
    · rw [GoalProcess.move, moved]
      exact (told_quiet input within told).first

theorem not_startsTurn (stopped : system.Stopped) (action : GoalAction) : ¬ StartsTurn system action := by
  rintro ⟨process, acts, starts⟩
  obtain ⟨slot, input, rfl, here⟩ := Processes.acting_eq_some acts
  have stopped := stopped.procs slot process here
  cases stands : process.point with
  | idle program =>
    rw [stands] at stopped starts
    exact absurd (starts.symm.trans stopped) (by decide)
  | calling call point next =>
    rw [stands] at starts
    exact absurd starts Bool.false_ne_true

theorem writes_eq_some {goal : GoalLoopState} (writes : point.writes? = some goal) :
    ∃ call stands next, point = .calling call stands next ∧
      (stands = .saving goal ∨ ∃ expected, stands = .swapping expected goal) := by
  cases point with
  | idle program => cases writes
  | calling call stands next =>
    cases stands with
    | saving other =>
      obtain rfl := Option.some.inj writes
      exact ⟨call, _, next, rfl, .inl rfl⟩
    | swapping expected other =>
      obtain rfl := Option.some.inj writes
      exact ⟨call, _, next, rfl, .inr ⟨expected, rfl⟩⟩
    | _ => cases writes

theorem stopped_of_not_read (sound : point.Sound command.Allows)
    (unread : command.looks → point.hasRead = false) (first : point.startsTurn = false) :
    point.Stopped command := by
  cases point with
  | idle program => exact first
  | calling call stands next =>
    cases stands with
    | setting proposed =>
      obtain ⟨rfl, within⟩ := sound
      exact absurd (unread (looks_of_allows within.1)) Bool.false_ne_true.symm
    | swapping expected goal =>
      obtain ⟨rfl, within⟩ := sound
      exact absurd (unread (looks_of_expects within.1)) Bool.false_ne_true.symm
    | saving goal =>
      cases command with
      | loop | resume request => exact absurd (unread rfl) Bool.false_ne_true.symm
      | pause request => exact .inl ⟨request, rfl⟩
      | stop request => exact .inr (saves_cancelled sound.1 sound.2.1)
    | _ => trivial

theorem stop_stopped (sound : system.Sound) {action : GoalAction} (stop : StopWrites system action)
    (guarded : StopGuard system action) : (goalStep system action).Stopped := by
  have quiet := guarded.stops stop
  obtain ⟨process, goal, request, ⟨acts, writes⟩, stops⟩ := stop
  obtain ⟨slot, input, rfl, here⟩ := Processes.acting_eq_some acts
  obtain ⟨call, stands, next, point, kind⟩ := writes_eq_some writes
  have own := (sound.procs slot process here).within
  rw [point, stops] at own
  rcases kind with rfl | ⟨expected, rfl⟩
  · have cancelled := saves_cancelled own.1 own.2.1
    have patches : call.NoTurn (some goal) := by
      rcases own.1 with ⟨fields, current, rfl, -⟩ | ⟨proposed, rfl⟩
      · exact ⟨goal, rfl, cancelled⟩
      · trivial
    refine Processes.move_holds here ⟨?_, ?_, fun other rival _ there => ?_⟩
    · rw [GoalProcess.move, point]
      exact ⟨goal, rfl, cancelled⟩
    · rw [GoalProcess.move, point]
      exact (own.2.2 (some goal)).2 patches
    · exact stopped_of_not_read (sound.procs other rival there).within (quiet other rival there).1
        (quiet other rival there).2
  · obtain ⟨rfl, within⟩ := own
    exact absurd (looks_of_expects within.1) Bool.false_ne_true

end

section

/-- **No compare-and-set with an expectation can go through**: the state is another one, and none of them is about
to write. -/
abbrev GoalSystem.Unmatched (expected : GoalLoopStatus) (system : GoalSystem) : Prop :=
  system.Holds (fun files => ∀ goal, files.file = some goal → goal.state ≠ expected)
    fun _ _ process => process.point.swaps? ≠ some expected

variable {expected : GoalLoopStatus} {system : GoalSystem}

theorem idle_swaps {program : GoalProgram} : (GoalPoint.idle program).swaps? ≠ some expected :=
  fun swaps => absurd swaps.symm (Option.some_ne_none _)

theorem step_file (stands : CallPoint) (slot : Nat) (stale : Bool) (files : GoalFiles) :
    (stands.step slot stale files).2.file = files.file ∨
      ∃ goal, (stands.step slot stale files).2.file = some goal ∧
        (stands = .saving goal ∨ ∃ expected, stands = .swapping expected goal) := by
  cases stands with
  | saving goal => exact .inr ⟨goal, rfl, .inl rfl⟩
  | swapping expected goal => exact .inr ⟨goal, rfl, .inr ⟨expected, rfl⟩⟩
  | opening expected next =>
    rw [CallPoint.step]
    split_ifs <;> exact .inl rfl
  | statting expected next =>
    rw [CallPoint.step]
    split_ifs <;> exact .inl rfl
  | breaking expected next =>
    rw [CallPoint.step]
    split_ifs <;> exact .inl rfl
  | reopening expected next =>
    rw [CallPoint.step]
    split_ifs <;> exact .inl rfl
  | _ => exact .inl rfl

theorem point_swaps (progress : CallProgress) (call : GoalCall) (next : Option GoalLoopState → GoalProgram) :
    (progress.point call next).swaps? = some expected →
      ∃ goal, progress = .going (.swapping expected goal) := by
  intro swaps
  cases progress with
  | returned result => cases swaps
  | going point =>
    cases point with
    | swapping other goal =>
      obtain rfl := Option.some.inj swaps
      exact ⟨goal, rfl⟩
    | _ => cases swaps

theorem patchRead_swaps {fields : GoalPatch} {file : Option GoalLoopState} {goal : GoalLoopState} :
    patchRead fields file ≠ .going (.swapping expected goal) := by
  intro reads
  cases file <;> cases reads

theorem checkRead_swaps {proposed : GoalLoopStatus} {file : Option GoalLoopState} {goal : GoalLoopState} :
    checkRead proposed file ≠ .going (.swapping expected goal) := by
  intro reads
  cases file with
  | none => cases reads
  | some current =>
    rw [checkRead, Option.map_some, Option.getD_some] at reads
    split_ifs at reads
    · cases reads

theorem step_swaps {stands : CallPoint} {slot : Nat} {stale : Bool} {files : GoalFiles}
    {goal : GoalLoopState} (swaps : (stands.step slot stale files).1 = .going (.swapping expected goal)) :
    ∃ current, files.file = some current ∧ current.state = expected := by
  cases stands with
  | patching fields => exact absurd swaps patchRead_swaps
  | checking proposed => exact absurd swaps checkRead_swaps
  | setting proposed => exact absurd swaps patchRead_swaps
  | opening other next =>
    rw [CallPoint.step] at swaps
    split_ifs at swaps <;> cases swaps
  | statting other next =>
    rw [CallPoint.step] at swaps
    split_ifs at swaps
    · cases swaps
  | breaking other next =>
    rw [CallPoint.step] at swaps
    split_ifs at swaps
    · cases swaps
  | reopening other next =>
    rw [CallPoint.step] at swaps
    split_ifs at swaps
    · cases swaps
  | comparing other next =>
    have compares : compareRead other next files.file = .swapping expected goal :=
      CallProgress.going.inj swaps
    cases there : files.file with
    | none =>
      rw [there] at compares
      cases compares
    | some current =>
      rw [there, compareRead, Option.map_some, Option.getD_some] at compares
      split_ifs at compares with same
      · obtain ⟨rfl, -⟩ := CallPoint.swapping.inj compares
        exact ⟨current, rfl, same⟩
  | _ => cases swaps

theorem swaps_locks {point : GoalPoint} (swaps : point.swaps? = some expected) : point.locks := by
  cases point with
  | idle program => cases swaps
  | calling call stands next =>
    cases stands with
    | swapping other goal => rfl
    | _ => cases swaps

/-- **No compare-and-set goes through** after another one did, as long as nobody writes the state that it
expects. -/
theorem goalStep_unmatched (unmatched : system.Unmatched expected) (action : GoalAction)
    (unwritten : ¬ WritesState expected system action) : (goalStep system action).Unmatched expected := by
  refine Processes.step_keeps unmatched action (fun slot kind _ => idle_swaps) ?_
  rintro slot input process rfl here
  rcases move_cases process.point slot input system.shared with
    ⟨call, stands, next, operates, moved⟩ | ⟨program, idle, told, moved⟩
  · refine ⟨?_, ?_, fun other rival _ there => unmatched.procs other rival there⟩
    · intro goal after state
      rw [GoalProcess.move, moved, operate] at after
      rcases step_file stands slot input.lockStale system.shared with same | ⟨written, file, kind⟩
      · exact unmatched.shared goal (same ▸ after) state
      · obtain rfl := Option.some.inj (file.symm.trans after)
        exact unwritten ⟨process, written, ⟨here, operates.writes kind⟩, state⟩
    · intro swaps
      rw [GoalProcess.move, moved, operate] at swaps
      obtain ⟨goal, reached⟩ := point_swaps _ call next swaps
      obtain ⟨current, there, state⟩ := step_swaps reached
      exact unmatched.shared current there state
  · refine ⟨?_, ?_, fun other rival _ there => unmatched.procs other rival there⟩
    · rw [GoalProcess.move, moved]
      exact unmatched.shared
    · rw [GoalProcess.move, moved]
      exact idle_swaps

theorem swaps_eq_some {point : GoalPoint} (swaps : point.swaps? = some expected) :
    ∃ call goal next, point = .calling call (.swapping expected goal) next := by
  cases point with
  | idle program => cases swaps
  | calling call stands next =>
    cases stands with
    | swapping other goal =>
      obtain rfl := Option.some.inj swaps
      exact ⟨call, goal, next, rfl⟩
    | _ => cases swaps

theorem swap_unmatched (sound : system.Sound) {action : GoalAction} (swaps : Swaps expected system action) :
    (goalStep system action).Unmatched expected := by
  obtain ⟨process, acts, swaps⟩ := swaps
  obtain ⟨slot, input, rfl, here⟩ := Processes.acting_eq_some acts
  have own := sound.procs slot process here
  obtain ⟨call, goal, next, point⟩ := swaps_eq_some swaps
  have within := own.within
  rw [point] at within
  obtain ⟨rfl, within⟩ := within
  refine Processes.move_holds here ⟨?_, ?_, fun other rival apart there again => ?_⟩
  · intro written after
    rw [GoalProcess.move, point] at after
    obtain rfl := Option.some.inj after
    exact (expected_of_allows within.1).1.symm
  · rw [GoalProcess.move, point]
    exact fun again => absurd again.symm (Option.some_ne_none _)
  · have both := (own.lock (swaps_locks swaps)).symm.trans
      ((sound.procs other rival there).lock (swaps_locks again))
    exact apart (Option.some.inj both).symm

theorem not_swaps (unmatched : system.Unmatched expected) (action : GoalAction) :
    ¬ Swaps expected system action := by
  rintro ⟨process, acts, swaps⟩
  obtain ⟨slot, input, rfl, here⟩ := Processes.acting_eq_some acts
  exact unmatched.procs slot process here swaps

end

section

open Runs

variable {start : GoalSystem} {actions : List GoalAction}

theorem unstarted_sound (unstarted : Unstarted start) : start.Sound := by
  refine ⟨unstarted.file, fun slot process here => ?_⟩
  rw [unstarted.procs slot] at here
  cases here

theorem guarded_sound (system : GoalSystem) (action : GoalAction) (sound : system.Sound)
    (guarded : StopGuard system action) : (goalStep system action).Sound :=
  goalStep_sound sound action guarded.locks

theorem guarded_stopped (system : GoalSystem) (action : GoalAction)
    (held : system.Sound ∧ system.Stopped) (guarded : StopGuard system action) :
    (goalStep system action).Sound ∧ (goalStep system action).Stopped :=
  ⟨guarded_sound system action held.1 guarded, goalStep_stopped held.1 held.2 action guarded⟩

theorem unwritten_unmatched {expected : GoalLoopStatus} (system : GoalSystem) (action : GoalAction)
    (unmatched : system.Unmatched expected) (unwritten : ¬ WritesState expected system action) :
    (goalStep system action).Unmatched expected :=
  goalStep_unmatched unmatched action unwritten

theorem guarded_append {earlier later : List GoalAction}
    (guarded : ∀ taken ∈ transitions goalStep start (earlier ++ later),
      StopGuard taken.before taken.action) :
    (∀ taken ∈ transitions goalStep start earlier, StopGuard taken.before taken.action) ∧
      ∀ taken ∈ transitions goalStep (finish goalStep start earlier) later,
        StopGuard taken.before taken.action := by
  rw [transitions_append] at guarded
  exact ⟨fun taken member => guarded taken (List.mem_append_left _ member),
    fun taken member => guarded taken (List.mem_append_right _ member)⟩

theorem finish_sound (sound : start.Sound)
    (guarded : ∀ taken ∈ transitions goalStep start actions, StopGuard taken.before taken.action) :
    (finish goalStep start actions).Sound :=
  finish_guarded goalStep guarded_sound sound guarded

theorem stopped_run (sound : start.Sound) (stopped : start.Stopped)
    (guarded : ∀ taken ∈ transitions goalStep start actions, StopGuard taken.before taken.action) :
    ∀ taken ∈ transitions goalStep start actions,
      Cancelled taken.after.shared ∧ ¬ StartsTurn taken.before taken.action := by
  intro taken member
  have kept := forall_transitions goalStep guarded_stopped ⟨sound, stopped⟩ guarded taken member
  exact ⟨kept.2.2.shared, not_startsTurn kept.1.2 taken.action⟩

theorem unmatched_run {expected : GoalLoopStatus} (unmatched : start.Unmatched expected)
    (unwritten : ∀ taken ∈ transitions goalStep start actions,
      ¬ WritesState expected taken.before taken.action) :
    (finish goalStep start actions).Unmatched expected :=
  finish_guarded goalStep unwritten_unmatched unmatched unwritten

/-- **A stop wins, in every run that leaves stops alone.** Once it has written `cancelled` the goal is cancelled
in every later state and no turn is started; of two compare-and-sets with one expectation the second one goes
through only after somebody wrote the state that they expect; and never do two of them have the lock. -/
theorem stop_wins (unstarted : Unstarted start)
    (guarded : ∀ taken ∈ transitions goalStep start actions, StopGuard taken.before taken.action) :
    (∀ earlier stop later, actions = earlier ++ stop :: later →
        StopWrites (finish goalStep start earlier) stop →
        Cancelled (finish goalStep start (earlier ++ [stop])).shared ∧
          ∀ taken ∈ transitions goalStep (finish goalStep start (earlier ++ [stop])) later,
            Cancelled taken.after.shared ∧ ¬ StartsTurn taken.before taken.action) ∧
      (∀ earlier first between second later expected,
        actions = earlier ++ first :: (between ++ second :: later) →
        Swaps expected (finish goalStep start earlier) first →
        Swaps expected (finish goalStep start (earlier ++ first :: between)) second →
        ∃ taken ∈ transitions goalStep (finish goalStep start (earlier ++ [first])) between,
          WritesState expected taken.before taken.action) ∧
      ∀ taken ∈ transitions goalStep start actions, ∀ slot other process rival,
        taken.after.procs slot = some process → taken.after.procs other = some rival →
        process.point.locks → rival.point.locks → slot = other := by
  have sound := unstarted_sound unstarted
  refine ⟨?_, ?_, ?_⟩
  · rintro earlier stop later rfl stops
    obtain ⟨before, after⟩ := guarded_append guarded
    have reached := finish_sound sound before
    have here := after _ List.mem_cons_self
    have stopped := stop_stopped reached stops here
    have next : finish goalStep start (earlier ++ [stop]) =
        goalStep (finish goalStep start earlier) stop := by
      rw [finish, List.foldl_append]
      rfl
    rw [next]
    exact ⟨stopped.shared, stopped_run (goalStep_sound reached stop here.locks) stopped
      fun taken member => after taken (List.mem_cons_of_mem _ member)⟩
  · rintro earlier first between second later expected rfl swaps again
    obtain ⟨before, after⟩ := guarded_append guarded
    have unmatched := swap_unmatched (finish_sound sound before) swaps
    have next : finish goalStep start (earlier ++ [first]) =
        goalStep (finish goalStep start earlier) first := by
      rw [finish, List.foldl_append]
      rfl
    have whole : finish goalStep start (earlier ++ first :: between) =
        finish goalStep (goalStep (finish goalStep start earlier) first) between := by
      rw [finish, List.foldl_append]
      rfl
    rw [next]
    rw [whole] at again
    by_contra unwritten
    exact not_swaps (unmatched_run unmatched fun taken member writes =>
      unwritten ⟨taken, member, writes⟩) second again
  · intro taken member slot other process rival here there locks holds
    have kept := forall_transitions goalStep guarded_sound sound guarded taken member
    exact Processes.only_one (fun slot process found locks => (kept.2.procs slot process found).lock locks)
      here there locks holds

end

/-- A goal that is running, with two turns to go. -/
def runningGoal : GoalLoopState where
  ownerSessionId := "s"
  state := .running
  maxTurns := 2
  turnsUsed := 0
  budgetUnlimited := some true
  budgetUsed := 0

def oneGoal : GoalSystem := { shared := { file := some runningGoal }, procs := fun _ => none }

theorem guard_of_silent {system : GoalSystem} {action : GoalAction}
    (silent : ∀ process, system.acting action = some process →
      process.point.writes? = none ∧ process.point.breaks = false) : StopGuard system action where
  stops := by
    rintro ⟨process, next, request, ⟨acts, writes⟩, stops⟩
    exact absurd (writes.symm.trans (silent process acts).1) (Option.some_ne_none next)
  pauses := by
    rintro ⟨process, next, request, ⟨acts, writes⟩, pauses⟩
    exact absurd (writes.symm.trans (silent process acts).1) (Option.some_ne_none next)
  locks := fun process acts breaks =>
    absurd (breaks.symm.trans (silent process acts).2) Bool.false_ne_true.symm

theorem guard_of_looks {system : GoalSystem} {action : GoalAction}
    (looks : ∀ process, system.acting action = some process →
      process.command.looks ∧ process.point.breaks = false) : StopGuard system action where
  stops := by
    rintro ⟨process, next, request, ⟨acts, -⟩, stops⟩
    have other := (looks process acts).1
    rw [stops] at other
    exact absurd other Bool.false_ne_true
  pauses := by
    rintro ⟨process, next, request, ⟨acts, -⟩, pauses⟩
    have other := (looks process acts).1
    rw [pauses] at other
    exact absurd other Bool.false_ne_true
  locks := fun process acts breaks =>
    absurd (breaks.symm.trans (looks process acts).2) Bool.false_ne_true.symm

def waitingLoop : List GoalAction :=
  [.begin 0 .loop, .move 0 {}, .begin 1 (.stop { session := some "s" }), .move 1 {}, .move 1 {}]

def waitOver : List GoalAction := [.move 0 {}, .move 0 {}, .move 0 {}, .move 0 {}]

theorem stop_wins_of_waiting :
    Cancelled (Runs.finish goalStep oneGoal (waitingLoop ++ [.move 1 {}])).shared ∧
      ∀ taken ∈ Runs.transitions goalStep (Runs.finish goalStep oneGoal (waitingLoop ++ [.move 1 {}]))
          waitOver, Cancelled taken.after.shared ∧ ¬ StartsTurn taken.before taken.action := by
  refine (stop_wins ⟨rfl, fun _ => rfl⟩ ?_).1 waitingLoop (.move 1 {}) waitOver rfl
    ⟨_, _, _, ⟨rfl, rfl⟩, rfl⟩
  have silent : ∀ taken ∈ Runs.transitions goalStep oneGoal waitingLoop,
      StopGuard taken.before taken.action := by
    simp only [waitingLoop, Runs.transitions, List.forall_mem_cons]
    refine ⟨?_, ?_, ?_, ?_, ?_, fun taken member => absurd member List.not_mem_nil⟩ <;>
      exact guard_of_silent (by rintro process ⟨⟩ <;> exact ⟨rfl, rfl⟩)
  have stops : StopGuard (Runs.finish goalStep oneGoal waitingLoop) (.move 1 {}) := by
    refine ⟨?_, ?_, ?_⟩
    · rintro - slot process here
      rcases slot with _ | _ | slot
      · obtain rfl := Option.some.inj here
        exact ⟨fun _ => rfl, rfl⟩
      · obtain rfl := Option.some.inj here
        exact ⟨fun looks => absurd looks Bool.false_ne_true, rfl⟩
      · exact absurd here.symm (Option.some_ne_none process)
    · rintro ⟨process, next, request, ⟨⟨⟩, -⟩, ⟨⟩⟩
    · rintro process ⟨⟩ ⟨⟩
  have looks : ∀ taken ∈ Runs.transitions goalStep
      (goalStep (Runs.finish goalStep oneGoal waitingLoop) (.move 1 {})) waitOver,
      StopGuard taken.before taken.action := by
    simp only [waitOver, Runs.transitions, List.forall_mem_cons]
    refine ⟨?_, ?_, ?_, ?_, fun taken member => absurd member List.not_mem_nil⟩ <;>
      exact guard_of_looks (by rintro process ⟨⟩; exact ⟨rfl, rfl⟩)
  rw [Runs.transitions_append, Runs.transitions]
  exact List.forall_mem_append.mpr ⟨silent, List.forall_mem_cons.mpr ⟨stops, looks⟩⟩

def loopAndStop : List GoalAction :=
  [.begin 0 .loop, .move 0 {}, .move 0 {}, .move 0 {}, .move 0 {},
    .begin 1 (.stop { session := some "s" }), .move 1 {}, .move 1 {}]

/-- **A stop that is overwritten**: the stop writes, the loop writes the record that it read before, and starts
its turn. -/
theorem stop_overwritten :
    StopWrites (Runs.finish goalStep oneGoal loopAndStop) (.move 1 {}) ∧
      ¬ Cancelled (Runs.finish goalStep oneGoal (loopAndStop ++ [.move 1 {}, .move 0 {}])).shared ∧
      StartsTurn (Runs.finish goalStep oneGoal (loopAndStop ++ [.move 1 {}, .move 0 {}])) (.move 0 {}) := by
  refine ⟨⟨_, _, _, ⟨rfl, rfl⟩, rfl⟩, ?_, ⟨_, rfl, rfl⟩⟩
  rintro ⟨goal, here, cancelled⟩
  obtain rfl := Option.some.inj here
  exact absurd cancelled (by decide)

end PiCrew.GoalWorkflow
