/-
**Goal processes that share one goal file, one file operation at a time.**

Loops, pauses, stops and resumes of one goal, any number of them, each a process of its own that may come, go on
and crash at any time. A process stands between two calls of the store, or within one; the operations of a call
are single steps, and others come between them.

* `Sound`, `goalStep_sound` — what holds in every state: each process is within a call of its own, and the lock
  file is that of the compare-and-set that has it, where none is taken away from one.
-/

import PiCrew.GoalWorkflow.GoalLoop
import PiCrew.Library.Processes

namespace PiCrew.GoalWorkflow

/-- Where a process stands: between two calls, or within one. -/
inductive GoalPoint where
  | idle (program : GoalProgram)
  | calling (call : GoalCall) (point : CallPoint) (next : Option GoalLoopState → GoalProgram)

structure GoalProcess where
  command : GoalCommand
  point : GoalPoint

def GoalProcess.start (command : GoalCommand) : GoalProcess where
  command := command
  point := .idle command.program

/-- What a program goes on with when it is told something. -/
def GoalProgram.told (input : GoalInput) : GoalProgram → GoalProgram
  | .done reply => .done reply
  | .again goal => iteration input goal
  | .acquire _ next => next input.acquired
  | .release goal => .done (.loopEnded goal)
  | .turn _ next => next
  | .turnEnd next | .judge next | .ask next => next input
  | .call asked next => .call asked next

/-- A process after an operation of its call. -/
def CallProgress.point (call : GoalCall) (next : Option GoalLoopState → GoalProgram) :
    CallProgress → GoalPoint
  | .going point => .calling call point next
  | .returned result => .idle (next result)

def operate (slot : Nat) (stale : Bool) (files : GoalFiles) (call : GoalCall) (point : CallPoint)
    (next : Option GoalLoopState → GoalProgram) : GoalPoint × GoalFiles :=
  ((point.step slot stale files).1.point call next, (point.step slot stale files).2)

/-- **A move of a process**: the next operation of its call, or what it is told between two calls. -/
def GoalPoint.move (slot : Nat) (input : GoalInput) (files : GoalFiles) : GoalPoint → GoalPoint × GoalFiles
  | .calling call point next => operate slot input.lockStale files call point next
  | .idle (.call call next) => operate slot input.lockStale files call call.begin next
  | .idle program => (.idle (program.told input), files)

def GoalProcess.move (slot : Nat) (process : GoalProcess) (input : GoalInput) (files : GoalFiles) :
    GoalProcess × GoalFiles :=
  ({ process with point := (process.point.move slot input files).1 },
    (process.point.move slot input files).2)

abbrev GoalSystem := Processes GoalFiles GoalProcess

abbrev GoalAction := Processes.Action GoalCommand GoalInput

def goalStep : GoalSystem → GoalAction → GoalSystem := Processes.step GoalProcess.start GoalProcess.move

def GoalPoint.writes? : GoalPoint → Option GoalLoopState
  | .calling _ (.saving next) _ | .calling _ (.swapping _ next) _ => some next
  | _ => none

def GoalPoint.hasRead : GoalPoint → Bool
  | .calling _ (.saving _) _ | .calling _ (.setting _) _ | .calling _ (.swapping _ _) _ => true
  | _ => false

def CallPoint.locks : CallPoint → Bool
  | .comparing _ _ | .swapping _ _ | .releasing _ => true
  | _ => false

def GoalPoint.locks : GoalPoint → Bool
  | .calling _ point _ => point.locks
  | .idle _ => false

def CallPoint.breaks : CallPoint → Bool
  | .breaking _ _ => true
  | _ => false

def GoalPoint.breaks : GoalPoint → Bool
  | .calling _ point _ => point.breaks
  | .idle _ => false

def GoalProgram.startsTurn : GoalProgram → Bool
  | .turn _ _ => true
  | _ => false

def GoalProgram.calls : GoalProgram → Bool
  | .call _ _ => true
  | _ => false

def GoalPoint.startsTurn : GoalPoint → Bool
  | .idle program => program.startsTurn
  | _ => false

section

/-- The calls of the processes: a patch keeps the state or cancels the goal, and a compare-and-set changes the
state and does not expect a cancelled one. -/
def GoalCall.Heeds : GoalCall → Prop
  | .load | .safeSetStatus _ => True
  | .patch fields => fields.state = none ∨ fields.state = some .cancelled
  | .compareAndSetStatus expected next => expected ≠ next ∧ expected ≠ .cancelled

/-- The calls of a process, by its command: a pause and a stop set a state without looking at it. -/
def GoalCommand.Allows : GoalCommand → GoalCall → Prop
  | .pause _, call => call = .load ∨ call = .setStatus .paused
  | .stop _, call => call = .load ∨ call = .setStatus .cancelled
  | _, call => call.Heeds

/-- A turn is not started after a call, but after a patch with another result than a cancelled goal. -/
def GoalCall.NoTurn (call : GoalCall) (result : Option GoalLoopState) : Prop :=
  match call with
  | .patch _ => ∃ goal, result = some goal ∧ goal.state = .cancelled
  | _ => True

/-- **A program makes only calls that are allowed**, and starts a turn only after a patch. -/
def GoalProgram.Within (allowed : GoalCall → Prop) : GoalProgram → Prop
  | .done _ | .release _ => True
  | .again _ => ∀ call : GoalCall, call.Heeds → allowed call
  | .acquire _ next => ∀ acquired, (next acquired).Within allowed ∧ (next acquired).startsTurn = false
  | .turn _ next => next.Within allowed ∧ next.startsTurn = false
  | .turnEnd next | .judge next | .ask next =>
    ∀ input, (next input).Within allowed ∧ (next input).startsTurn = false
  | .call asked next => allowed asked ∧
      ∀ result, (next result).Within allowed ∧ (asked.NoTurn result → (next result).startsTurn = false)

variable {allowed : GoalCall → Prop} {goal : GoalLoopState}

/-- A program that is within the allowed calls, and does not start a turn first. -/
structure Quiet (allowed : GoalCall → Prop) (program : GoalProgram) : Prop where
  within : program.Within allowed
  first : program.startsTurn = false

theorem quiet_release : Quiet allowed (.release goal) := ⟨trivial, rfl⟩

theorem quiet_done {reply : GoalReply} : Quiet allowed (.done reply) := ⟨trivial, rfl⟩

theorem quiet_ask {next : GoalInput → GoalProgram} (each : ∀ input, Quiet allowed (next input)) :
    Quiet allowed (.ask next) := ⟨fun input => ⟨(each input).within, (each input).first⟩, rfl⟩

theorem quiet_call {call : GoalCall} {next : Option GoalLoopState → GoalProgram} (good : allowed call)
    (each : ∀ result, Quiet allowed (next result)) : Quiet allowed (.call call next) :=
  ⟨⟨good, fun result => ⟨(each result).within, fun _ => (each result).first⟩⟩, rfl⟩

end

section

variable {allowed : GoalCall → Prop} (heeds : ∀ call : GoalCall, call.Heeds → allowed call)

include heeds

variable {goal : GoalLoopState} {next : GoalLoopState → GoalProgram}

theorem quiet_again : Quiet allowed (.again goal) := ⟨heeds, rfl⟩

theorem quiet_safeSetStatus {proposed : GoalLoopStatus} (each : ∀ goal, Quiet allowed (next goal)) :
    Quiet allowed (safeSetStatus proposed goal next) :=
  quiet_call (heeds _ trivial) fun _ => each _

theorem quiet_patchGoal {fields : GoalPatch}
    (stateless : fields.state = none) (each : ∀ goal, Quiet allowed (next goal)) :
    Quiet allowed (patchGoal fields goal next) :=
  quiet_call (heeds _ (.inl stateless)) fun _ => each _

theorem quiet_afterWait {input : GoalInput}
    (each : ∀ goal, Quiet allowed (next goal)) : Quiet allowed (afterWait input goal next) := by
  rw [afterWait]
  split_ifs
  · exact quiet_safeSetStatus heeds each
  · exact each goal

theorem quiet_leaveLoop (goal : GoalLoopState) : Quiet allowed (leaveLoop goal) := by
  refine quiet_ask fun input => ?_
  split_ifs
  · exact quiet_safeSetStatus heeds fun _ => quiet_release
  · exact quiet_safeSetStatus heeds fun _ => quiet_release
  · exact quiet_release

theorem quiet_failLoop (message : String) (goal : GoalLoopState) : Quiet allowed (failLoop message goal) :=
  quiet_patchGoal heeds rfl fun _ => quiet_safeSetStatus heeds fun _ => quiet_release

theorem quiet_endTurn (turnError : String) (goal : GoalLoopState) : Quiet allowed (endTurn turnError goal) :=
  quiet_patchGoal heeds rfl fun _ => quiet_safeSetStatus heeds (quiet_leaveLoop heeds)

theorem quiet_yieldBetweenTurns (goal : GoalLoopState) : Quiet allowed (yieldBetweenTurns goal) :=
  quiet_ask fun _ => quiet_afterWait heeds fun _ => quiet_again heeds

theorem quiet_applyVerdict (verdict : GoalVerdict) (goal : GoalLoopState) :
    Quiet allowed (applyVerdict verdict goal) := by
  rw [applyVerdict]
  split_ifs
  · exact quiet_safeSetStatus heeds (quiet_leaveLoop heeds)
  · exact quiet_safeSetStatus heeds (quiet_leaveLoop heeds)
  · exact quiet_safeSetStatus heeds (quiet_leaveLoop heeds)
  · refine quiet_ask fun input => ?_
    split_ifs
    · refine quiet_call (heeds _ ⟨by decide, by decide⟩) fun stuck => ?_
      cases stuck with
      | none => exact quiet_yieldBetweenTurns heeds goal
      | some goal => exact quiet_leaveLoop heeds goal
    · exact quiet_yieldBetweenTurns heeds goal

section

variable (turnIndex : Nat) (runId : String)

include turnIndex runId

theorem quiet_afterJudgement (turnBudget : Nat) (input : GoalInput)
    (goal : GoalLoopState) : Quiet allowed (afterJudgement turnIndex runId turnBudget input goal) := by
  rw [afterJudgement]
  cases input.judged with
  | threw message => exact quiet_failLoop heeds message goal
  | gave verdict tokens => exact quiet_patchGoal heeds rfl (quiet_applyVerdict heeds verdict)

theorem quiet_judgeTurn (turnBudget : Nat) (goal : GoalLoopState) :
    Quiet allowed (judgeTurn turnIndex runId turnBudget goal) := by
  have each : ∀ input, Quiet allowed
      (afterWait input goal (afterJudgement turnIndex runId turnBudget input)) :=
    fun input => quiet_afterWait heeds (quiet_afterJudgement heeds turnIndex runId turnBudget input)
  exact ⟨fun input => ⟨(each input).within, (each input).first⟩, rfl⟩

theorem quiet_afterTurn (input : GoalInput) (goal : GoalLoopState) :
    Quiet allowed (afterTurn turnIndex runId input goal) := by
  rw [afterTurn]
  cases input.turn with
  | threw message => exact quiet_failLoop heeds message goal
  | blocked summary | failed summary => exact quiet_endTurn heeds _ goal
  | finished => exact quiet_judgeTurn heeds turnIndex runId _ goal

theorem startTurn_within (goal : GoalLoopState) :
    (startTurn turnIndex runId goal).Within allowed := by
  rw [startTurn]
  split_ifs
  · have each : ∀ input, Quiet allowed (afterWait input goal (afterTurn turnIndex runId input)) :=
      fun input => quiet_afterWait heeds (quiet_afterTurn heeds turnIndex runId input)
    exact ⟨fun input => ⟨(each input).within, (each input).first⟩, rfl⟩
  · exact (quiet_leaveLoop heeds goal).within

end

omit heeds in
theorem startTurn_first {turnIndex : Nat} {runId : String}
    (cancelled : goal.state = .cancelled) : (startTurn turnIndex runId goal).startsTurn = false := by
  rw [startTurn, if_neg (by rw [cancelled]; decide)]
  rfl

theorem quiet_iteration (input : GoalInput) (goal : GoalLoopState) : Quiet allowed (iteration input goal) := by
  rw [iteration]
  split_ifs
  · exact quiet_safeSetStatus heeds (quiet_leaveLoop heeds)
  · exact quiet_safeSetStatus heeds (quiet_leaveLoop heeds)
  · cases input.created with
    | threw message => exact quiet_failLoop heeds message goal
    | made runId =>
      refine ⟨⟨heeds _ (.inl rfl), fun result => ⟨startTurn_within heeds _ runId _, ?_⟩⟩, rfl⟩
      rintro ⟨patched, rfl, cancelled⟩
      exact startTurn_first cancelled
  · exact quiet_leaveLoop heeds goal

theorem quiet_goalLoopProcess : Quiet allowed goalLoopProcess := by
  refine quiet_call (heeds _ trivial) fun loaded => ?_
  cases loaded with
  | none => exact quiet_done
  | some goal =>
    have each : ∀ acquired : Bool, Quiet allowed (if acquired then .again goal
        else safeSetStatus .blocked goal fun goal => .done (.loopEnded goal)) := by
      intro acquired
      split_ifs
      · exact quiet_again heeds
      · exact quiet_safeSetStatus heeds fun _ => quiet_done
    exact ⟨fun acquired => ⟨(each acquired).within, (each acquired).first⟩, rfl⟩

omit heeds in
theorem quiet_withGoal (loads : allowed .load) {request : GoalRequest}
    (each : ∀ goal, Quiet allowed (next goal)) : Quiet allowed (withGoal request next) := by
  refine quiet_call loads fun loaded => ?_
  cases loaded with
  | none => exact quiet_done
  | some goal =>
    rw [Option.map_some, Option.getD_some]
    split_ifs
    · exact each goal
    · exact quiet_done

theorem quiet_spawnLoop {fromState : GoalLoopStatus} (other : .running ≠ fromState) :
    Quiet allowed (spawnLoop fromState) := by
  refine quiet_ask fun input => ?_
  split_ifs
  · exact quiet_done
  · exact quiet_call (heeds _ ⟨other, by decide⟩) fun _ => quiet_done

theorem quiet_handleResume (request : GoalRequest) : Quiet allowed (handleResume request) := by
  refine quiet_withGoal (heeds _ trivial) fun existing => ?_
  split_ifs with resumable
  · have other : .running ≠ existing.state ∧ existing.state ≠ .cancelled := by
      rcases resumable with paused | stuck
      · rw [paused]
        decide
      · rw [stuck]
        decide
    have spawns := quiet_spawnLoop heeds other.1
    refine quiet_call (heeds _ ⟨other.1.symm, other.2⟩) fun updated => ?_
    split_ifs
    · cases request.hint with
      | none => exact spawns
      | some hint => exact quiet_call (heeds _ (.inl rfl)) fun _ => spawns
    · exact quiet_done
  · exact quiet_done

end

theorem program_within (command : GoalCommand) : Quiet command.Allows command.program := by
  cases command with
  | loop => exact quiet_goalLoopProcess fun call heeds => heeds
  | pause request =>
    exact quiet_withGoal (.inl rfl) fun goal => quiet_call (.inr rfl) fun updated => quiet_done
  | stop request =>
    exact quiet_withGoal (.inl rfl) fun goal => quiet_call (.inr rfl) fun updated => quiet_done
  | resume request => exact quiet_handleResume (fun call heeds => heeds) request

section

def CallPoint.Of (call : GoalCall) : CallPoint → Prop
  | .loading => call = .load
  | .patching fields => call = .patch fields
  | .checking proposed | .setting proposed => call = .safeSetStatus proposed
  | .saving next =>
    (∃ fields current, call = .patch fields ∧ next = GoalPatch.apply fields current) ∨
      ∃ proposed, call = .safeSetStatus proposed
  | .opening expected next | .statting expected next | .breaking expected next
  | .reopening expected next | .comparing expected next => call = .compareAndSetStatus expected next
  | .swapping expected next => call = .compareAndSetStatus expected next.state
  | .releasing _ => ∃ expected next, call = .compareAndSetStatus expected next

def CallProgress.Of (call : GoalCall) : CallProgress → Prop
  | .going point => point.Of call
  | .returned _ => True

theorem begin_of (call : GoalCall) : call.begin.Of call := by
  cases call <;> rfl

variable {allowed : GoalCall → Prop} {next : Option GoalLoopState → GoalProgram} {call : GoalCall}

theorem step_of {point : CallPoint} (here : point.Of call) (slot : Nat) (stale : Bool)
    (files : GoalFiles) : (point.step slot stale files).1.Of call := by
  cases point with
  | loading => trivial
  | patching fields =>
    rw [CallPoint.step, patchRead]
    cases files.file with
    | none => trivial
    | some current => exact .inl ⟨fields, current, here, rfl⟩
  | checking proposed =>
    rw [CallPoint.step, checkRead]
    cases files.file with
    | none => exact here
    | some current =>
      rw [Option.map_some, Option.getD_some]
      split_ifs
      · exact here
      · trivial
  | setting proposed =>
    rw [CallPoint.step, patchRead]
    cases files.file with
    | none => trivial
    | some current => exact .inr ⟨proposed, here⟩
  | saving next => trivial
  | opening expected next =>
    rw [CallPoint.step]
    split_ifs
    · exact here
    · exact here
  | statting expected next =>
    rw [CallPoint.step]
    split_ifs
    · exact here
    · trivial
  | breaking expected next =>
    rw [CallPoint.step]
    split_ifs
    · trivial
    · exact here
  | reopening expected next =>
    rw [CallPoint.step]
    split_ifs
    · exact here
    · trivial
  | comparing expected next =>
    rw [CallPoint.step, compareRead]
    cases files.file with
    | none => exact ⟨expected, next, here⟩
    | some current =>
      rw [Option.map_some, Option.getD_some]
      split_ifs
      · exact here
      · exact ⟨expected, next, here⟩
  | swapping expected next => exact ⟨expected, next.state, here⟩
  | releasing result => trivial

def CallProgress.locks : CallProgress → Bool
  | .going point => point.locks
  | .returned _ => false

theorem point_locks (progress : CallProgress) (call : GoalCall) (next : Option GoalLoopState → GoalProgram) :
    (progress.point call next).locks = progress.locks := by
  cases progress <;> rfl

theorem patchRead_locks (fields : GoalPatch) (file : Option GoalLoopState) :
    (patchRead fields file).locks = false := by
  cases file <;> rfl

theorem checkRead_locks (proposed : GoalLoopStatus) (file : Option GoalLoopState) :
    (checkRead proposed file).locks = false := by
  cases file with
  | none => rfl
  | some current =>
    rw [checkRead, Option.map_some, Option.getD_some]
    split_ifs <;> rfl

theorem step_lock (point : CallPoint) (slot : Nat) (stale : Bool) (files : GoalFiles) :
    (point.step slot stale files).2.lock = files.lock ∧
        ((point.step slot stale files).1.locks → point.locks) ∨
      files.lock = none ∧ (point.step slot stale files).2.lock = some slot ∨
      (point.step slot stale files).1.locks = false ∧ (point.locks ∨ point.breaks) := by
  cases point with
  | loading => exact .inl ⟨rfl, id⟩
  | patching fields => exact .inl ⟨rfl, fun locks => absurd (patchRead_locks fields _ ▸ locks) (by decide)⟩
  | checking proposed =>
    exact .inl ⟨rfl, fun locks => absurd (checkRead_locks proposed _ ▸ locks) (by decide)⟩
  | setting proposed => exact .inl ⟨rfl, fun locks => absurd (patchRead_locks _ _ ▸ locks) (by decide)⟩
  | saving next => exact .inl ⟨rfl, id⟩
  | opening expected next =>
    rw [CallPoint.step]
    split_ifs with free
    · exact .inr (.inl ⟨free, rfl⟩)
    · exact .inl ⟨rfl, id⟩
  | statting expected next =>
    rw [CallPoint.step]
    split_ifs
    · exact .inl ⟨rfl, id⟩
    · exact .inl ⟨rfl, id⟩
  | breaking expected next =>
    refine .inr (.inr ⟨?_, .inr rfl⟩)
    rw [CallPoint.step]
    split_ifs <;> rfl
  | reopening expected next =>
    rw [CallPoint.step]
    split_ifs with free
    · exact .inr (.inl ⟨free, rfl⟩)
    · exact .inl ⟨rfl, id⟩
  | comparing expected next | swapping expected next => exact .inl ⟨rfl, fun _ => rfl⟩
  | releasing result => exact .inr (.inr ⟨rfl, .inl rfl⟩)

theorem step_isSome {files : GoalFiles} (there : files.file.isSome) (point : CallPoint) (slot : Nat)
    (stale : Bool) : (point.step slot stale files).2.file.isSome := by
  cases point with
  | opening expected next =>
    rw [CallPoint.step]
    split_ifs <;> exact there
  | statting expected next =>
    rw [CallPoint.step]
    split_ifs <;> exact there
  | breaking expected next =>
    rw [CallPoint.step]
    split_ifs <;> exact there
  | reopening expected next =>
    rw [CallPoint.step]
    split_ifs <;> exact there
  | saving next => rfl
  | swapping expected next => rfl
  | _ => exact there

/-- The operation that comes next: the next one of a call, or the first one of the call that a program is at. -/
inductive GoalPoint.Operates : GoalPoint → GoalCall → CallPoint → (Option GoalLoopState → GoalProgram) → Prop
  | within (call : GoalCall) (point : CallPoint) (next : Option GoalLoopState → GoalProgram) :
      Operates (.calling call point next) call point next
  | first (call : GoalCall) (next : Option GoalLoopState → GoalProgram) :
      Operates (.idle (.call call next)) call call.begin next

theorem move_cases (point : GoalPoint) (slot : Nat) (input : GoalInput) (files : GoalFiles) :
    (∃ call stands next, point.Operates call stands next ∧
        point.move slot input files = operate slot input.lockStale files call stands next) ∨
      ∃ program, point = .idle program ∧ program.calls = false ∧
        point.move slot input files = (.idle (program.told input), files) := by
  cases point with
  | calling call point next => exact .inl ⟨call, point, next, .within call point next, rfl⟩
  | idle program =>
    cases program with
    | call call next => exact .inl ⟨call, call.begin, next, .first call next, rfl⟩
    | _ => exact .inr ⟨_, rfl, rfl, rfl⟩

theorem GoalPoint.Operates.locks {point : GoalPoint} {stands : CallPoint}
    (operates : point.Operates call stands next) :
    stands.locks = point.locks ∧ stands.breaks = point.breaks := by
  cases operates with
  | within => exact ⟨rfl, rfl⟩
  | first => cases call <;> exact ⟨rfl, rfl⟩

/-- **A process is within the calls of its command.** -/
def GoalPoint.Sound (allowed : GoalCall → Prop) : GoalPoint → Prop
  | .idle program => program.Within allowed
  | .calling call point next => point.Of call ∧ GoalProgram.Within allowed (.call call next)

theorem told_quiet (input : GoalInput) {program : GoalProgram}
    (within : program.Within allowed) (told : program.calls = false) :
    Quiet allowed (program.told input) := by
  cases program with
  | done reply => exact quiet_done
  | again goal => exact quiet_iteration within input goal
  | acquire goal next => exact ⟨(within _).1, (within _).2⟩
  | release goal => exact quiet_done
  | turn runId next => exact ⟨within.1, within.2⟩
  | turnEnd next | judge next | ask next => exact ⟨(within input).1, (within input).2⟩
  | call call next => cases told

theorem operate_sound {point : CallPoint} (here : point.Of call)
    (within : GoalProgram.Within allowed (.call call next)) (slot : Nat) (stale : Bool) (files : GoalFiles) :
    (operate slot stale files call point next).1.Sound allowed := by
  have follows := step_of here slot stale files
  rw [operate]
  cases reached : (point.step slot stale files).1 with
  | going other =>
    rw [reached] at follows
    exact ⟨follows, within⟩
  | returned result => exact (within.2 result).1

theorem GoalPoint.Operates.sound {point : GoalPoint} {stands : CallPoint}
    (operates : point.Operates call stands next) (sound : point.Sound allowed) :
    stands.Of call ∧ GoalProgram.Within allowed (.call call next) := by
  cases operates with
  | within => exact sound
  | first => exact ⟨begin_of call, sound⟩

theorem move_sound {command : GoalCommand} {point : GoalPoint} (sound : point.Sound command.Allows)
    (slot : Nat) (input : GoalInput) (files : GoalFiles) :
    (point.move slot input files).1.Sound command.Allows := by
  rcases move_cases point slot input files with
    ⟨call, stands, next, operates, moved⟩ | ⟨program, rfl, told, moved⟩
  · rw [moved]
    exact operate_sound (operates.sound sound).1 (operates.sound sound).2 slot input.lockStale files
  · rw [moved]
    exact (told_quiet input sound told).within

end

section

/-- **A process in its slot**: it is within the calls of its command, and where it has the lock of the
compare-and-set, the lock file is its own. -/
structure GoalProcess.Sound (files : GoalFiles) (slot : Nat) (process : GoalProcess) : Prop where
  within : process.point.Sound process.command.Allows
  lock : process.point.locks → files.lock = some slot

/-- **A sound system**: there is a record, and all processes are sound. -/
abbrev GoalSystem.Sound (system : GoalSystem) : Prop :=
  system.Holds (fun files => files.file.isSome) GoalProcess.Sound

/-- **No lock is taken away**: a lock file that is removed because it is old is not that of a compare-and-set
which is still going on. -/
def LockKept (system : GoalSystem) (action : GoalAction) : Prop :=
  ∀ process, system.acting action = some process → process.point.breaks →
    ∀ holder other, system.shared.lock = some holder → system.procs holder = some other →
      other.point.locks = false

variable {system : GoalSystem}

theorem start_sound (files : GoalFiles) (slot : Nat) (command : GoalCommand) :
    (GoalProcess.start command).Sound files slot :=
  ⟨(program_within command).within, fun locks => absurd locks Bool.false_ne_true⟩

theorem operate_lock {slot : Nat} {stale : Bool} {files : GoalFiles} {call : GoalCall} {stands : CallPoint}
    {next : Option GoalLoopState → GoalProgram} (own : stands.locks → files.lock = some slot)
    (after : (operate slot stale files call stands next).1.locks) :
    (operate slot stale files call stands next).2.lock = some slot := by
  have after : ((stands.step slot stale files).1.point call next).locks := after
  rw [point_locks] at after
  rcases step_lock stands slot stale files with ⟨same, before⟩ | ⟨-, made⟩ | ⟨gone, -⟩
  · exact same.trans (own (before after))
  · exact made
  · exact absurd (gone ▸ after) Bool.false_ne_true

/-- **Every action keeps a system sound**, where it takes no lock away. -/
theorem goalStep_sound (sound : system.Sound) (action : GoalAction) (kept : LockKept system action) :
    (goalStep system action).Sound := by
  refine Processes.step_keeps sound action (fun slot kind _ => start_sound _ slot kind) ?_
  rintro slot input process rfl here
  have own := sound.procs slot process here
  rcases move_cases process.point slot input system.shared with
    ⟨call, stands, next, operates, moved⟩ | ⟨program, idle, told, moved⟩
  · have owns : stands.locks → system.shared.lock = some slot := fun locks =>
      own.lock (operates.locks.1 ▸ locks)
    refine ⟨?_, ⟨move_sound own.within slot input _, fun locks => ?_⟩, fun other rival apart there =>
      ⟨(sound.procs other rival there).within, fun locks => ?_⟩⟩
    · rw [GoalProcess.move, moved]
      exact step_isSome sound.shared stands slot input.lockStale
    · rw [GoalProcess.move, moved] at locks ⊢
      exact operate_lock owns locks
    · have held := (sound.procs other rival there).lock locks
      rw [GoalProcess.move, moved]
      rcases step_lock stands slot input.lockStale system.shared with ⟨same, -⟩ | ⟨free, -⟩ | ⟨-, takes⟩
      · exact same.trans held
      · exact absurd (held.symm.trans free) (Option.some_ne_none other)
      · rcases takes with locked | breaks
        · exact absurd (Option.some.inj (held.symm.trans (owns locked))) apart
        · rw [operates.locks.2] at breaks
          exact absurd ((kept process here breaks other rival held there) ▸ locks) Bool.false_ne_true
  · refine ⟨?_, ⟨move_sound own.within slot input _, fun locks => ?_⟩, fun other rival _ there =>
      ⟨(sound.procs other rival there).within, ?_⟩⟩
    · rw [GoalProcess.move, moved]
      exact sound.shared
    · rw [GoalProcess.move, moved] at locks
      exact absurd locks Bool.false_ne_true
    · rw [GoalProcess.move, moved]
      exact (sound.procs other rival there).lock

end

end PiCrew.GoalWorkflow
