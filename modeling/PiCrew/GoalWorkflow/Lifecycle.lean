/-
**The life of a goal.**

Any number of loops of one goal, a call of each as one action, and the sub-actions pause, stop and resume, each
as one action, by any session. A loop that was spawned waits for the workspace with the record that it loaded;
the loop before it may go on meanwhile.

* `GoalActor.Sound`, `lifeStep_kept` — what one step keeps: a loop in the workspace is the only one there, and
  has the counters that are stored;
* `lifecycle_kept` — runs whose steps all leave it alone.
-/

import PiCrew.GoalWorkflow.GoalSteps
import PiCrew.GoalWorkflow.GoalProcesses

namespace PiCrew.GoalWorkflow

/-- **A process of a goal.** A loop has `entered` while it has the workspace. -/
structure GoalActor where
  command : GoalCommand
  program : GoalProgram
  entered : Bool := false

def GoalActor.start (command : GoalCommand) : GoalActor where
  command := command
  program := command.program

def GoalProgram.enters (input : GoalInput) (world : GoalWorld) : GoalProgram → Bool
  | .acquire _ _ => input.acquired && (decide (world.workspace = none) || input.workspaceStale)
  | _ => false

def GoalProgram.leaves : GoalProgram → Bool
  | .release _ => true
  | _ => false

/-- **A move**: a step of a loop, or a whole sub-action. -/
def GoalActor.move (slot : Nat) (actor : GoalActor) (input : GoalInput) (world : GoalWorld) :
    GoalActor × GoalWorld :=
  if actor.command = .loop then
    ({ actor with
        program := (actor.program.step slot input world).1
        entered := (actor.entered || actor.program.enters input world) && !actor.program.leaves },
      (actor.program.step slot input world).2)
  else
    ({ actor with program := (actor.program.runAll input world.file).1 },
      { world with file := (actor.program.runAll input world.file).2 })

abbrev GoalLife := Processes GoalWorld GoalActor

def lifeStep : GoalLife → GoalAction → GoalLife := Processes.step GoalActor.start GoalActor.move

/-- **A step leaves the law of a goal alone.** A pause is given only to a goal that is not done, and a stop to
one that is not done or is cancelled; a loop is let into the workspace only while no other one of the goal is in
it, and where it found the goal running, at most one turn has been started since it loaded the record. -/
structure LifecycleGuard (system : GoalLife) (action : GoalAction) : Prop where
  pauses : ∀ request, system.acting action = some (GoalActor.start (.pause request)) →
    ∀ goal, system.shared.file = some goal → goal.state.terminal = false
  stops : ∀ request, system.acting action = some (GoalActor.start (.stop request)) →
    ∀ goal, system.shared.file = some goal → goal.state.terminal = false ∨ goal.state = .cancelled
  alone : ∀ slot input actor, action = .move slot input → system.procs slot = some actor →
    actor.program.enters input system.shared → ∀ holder other, system.shared.workspace = some holder →
      system.procs holder = some other → other.entered = false
  recent : ∀ slot input actor goal next stored, action = .move slot input →
    system.procs slot = some actor → actor.program = .acquire goal next →
    actor.program.enters input system.shared → system.shared.file = some stored →
    goal.state = .running → stored.turnsUsed ≤ goal.turnsUsed + 1

section

/-- **A loop outside the workspace**: it was spawned, it waits with the record that it loaded, or it has given
up. -/
inductive GoalProgram.Waits : GoalProgram → Prop
  | spawned : Waits goalLoopProcess
  | queued (goal : GoalLoopState) : Waits (runGoalLoop goal)
  | ending {program : GoalProgram} (mild : program.Mild) : Waits program

/-- **A process in its slot**: a loop in the workspace is named by its lock file, and keeps the counters from
those that are stored. -/
structure GoalActor.Sound (world : GoalWorld) (slot : Nat) (actor : GoalActor) : Prop where
  outside : actor.command = .loop → actor.entered = false → actor.program.Waits
  inside : actor.entered = true → actor.command = .loop ∧ world.workspace = some slot ∧
    ∀ goal, world.file = some goal → actor.program.Keeps goal.turnsUsed goal.budgetUsed
  command : actor.command ≠ .loop → actor = GoalActor.start actor.command ∨
    ∃ reply, actor = { command := actor.command, program := .done reply }

abbrev GoalLife.Sound (system : GoalLife) : Prop :=
  system.Holds (fun world => world.file.isSome) GoalActor.Sound

variable {world other : GoalWorld} {slot : Nat} {actor : GoalActor} {program : GoalProgram}
  {input : GoalInput} {goal : GoalLoopState}

theorem actor_start_sound (world : GoalWorld) (slot : Nat) (command : GoalCommand) :
    (GoalActor.start command).Sound world slot where
  outside := fun loop _ => by
    obtain rfl : command = .loop := loop
    exact .spawned
  inside := fun entered => absurd entered Bool.false_ne_true
  command := fun _ => .inl rfl

theorem GoalActor.Sound.out (sound : actor.Sound world slot) (out : actor.entered = false) :
    actor.Sound other slot :=
  ⟨sound.outside, fun entered => absurd (entered.symm.trans out) Bool.false_ne_true.symm, sound.command⟩

theorem GoalActor.Sound.same (sound : actor.Sound world slot) {after : GoalLoopState}
    (there : world.file = some goal) (next : other.file = some after) (same : SameCounters goal after)
    (workspace : world.workspace = some slot → other.workspace = some slot) : actor.Sound other slot where
  outside := sound.outside
  inside := fun entered => by
    obtain ⟨loop, own, keeps⟩ := sound.inside entered
    refine ⟨loop, workspace own, fun stored found => ?_⟩
    obtain rfl := Option.some.inj (next.symm.trans found)
    rw [same.turnsUsed, same.budgetUsed]
    exact keeps goal there
  command := sound.command

theorem keeps_step (there : world.file = some goal) (keeps : program.Keeps goal.turnsUsed goal.budgetUsed)
    (slot : Nat) (input : GoalInput) :
    ∃ after, (program.step slot input world).2.file = some after ∧ GoalKept goal after ∧
      (program.leaves = true ∧ (program.step slot input world).1.Mild ∨
        program.leaves = false ∧ (program.step slot input world).2.workspace = world.workspace ∧
          (program.step slot input world).1.Keeps after.turnsUsed after.budgetUsed) := by
  cases program with
  | done reply => exact ⟨goal, there, .rfl, .inr ⟨rfl, rfl, trivial⟩⟩
  | again local' => exact ⟨goal, there, .rfl, .inr ⟨rfl, rfl, keeps_iteration input keeps⟩⟩
  | acquire local' next => exact keeps.elim
  | release local' => exact ⟨goal, there, .rfl, .inl ⟨rfl, trivial⟩⟩
  | turn runId next => exact ⟨goal, there, .rfl, .inr ⟨rfl, rfl, keeps⟩⟩
  | turnEnd next | judge next | ask next => exact ⟨goal, there, .rfl, .inr ⟨rfl, rfl, keeps input⟩⟩
  | call asked next =>
    obtain ⟨after, file, kept, rest⟩ := keeps input.casHeld goal rfl rfl
    rw [GoalProgram.step, there]
    exact ⟨after, file, kept, .inr ⟨rfl, rfl, rest⟩⟩

theorem mild_step (there : world.file = some goal) (mild : program.Mild) (slot : Nat) (input : GoalInput) :
    program.enters input world = false ∧ program.leaves = false ∧
      (program.step slot input world).1.Mild ∧
      (program.step slot input world).2.workspace = world.workspace ∧
      ∃ after, (program.step slot input world).2.file = some after ∧ SameCounters goal after := by
  cases program with
  | done reply => exact ⟨rfl, rfl, trivial, rfl, goal, there, .refl goal⟩
  | ask next => exact ⟨rfl, rfl, mild input, rfl, goal, there, .refl goal⟩
  | call asked next =>
    obtain ⟨after, file, same⟩ := mild.1 input.casHeld goal
    refine ⟨rfl, rfl, mild.2 _, rfl, after, ?_, same⟩
    rw [GoalProgram.step, there]
    exact file
  | _ => exact mild.elim

theorem acquire_step (slot : Nat) (input : GoalInput) (world : GoalWorld) (local' : GoalLoopState)
    (next : Bool → GoalProgram) :
    (GoalProgram.acquire local' next).enters input world = true ∧
        (GoalProgram.acquire local' next).step slot input world =
          (next true, { world with workspace := some slot }) ∨
      (GoalProgram.acquire local' next).enters input world = false ∧
        ((GoalProgram.acquire local' next).step slot input world = (.acquire local' next, world) ∨
          (GoalProgram.acquire local' next).step slot input world = (next false, world)) := by
  rw [GoalProgram.enters, GoalProgram.step]
  cases input.acquired with
  | false => exact .inr ⟨rfl, .inr rfl⟩
  | true =>
    rw [Bool.true_and, Bool.not_true, if_neg Bool.false_ne_true]
    by_cases free : world.workspace = none ∨ input.workspaceStale = true
    · rw [if_pos free]
      refine .inl ⟨?_, rfl⟩
      rw [Bool.or_eq_true, decide_eq_true_iff]
      exact free
    · rw [if_neg free]
      refine .inr ⟨Bool.eq_false_iff.mpr fun enters => free ?_, .inl rfl⟩
      rw [Bool.or_eq_true, decide_eq_true_iff] at enters
      exact enters

theorem waits_step (there : world.file = some goal) (waits : program.Waits) (slot : Nat) (input : GoalInput)
    (recent : ∀ local' next, program = .acquire local' next → program.enters input world →
      local'.state = .running → goal.turnsUsed ≤ local'.turnsUsed + 1) :
    program.leaves = false ∧
      (∃ after, (program.step slot input world).2.file = some after ∧ SameCounters goal after) ∧
      (program.enters input world = false ∧ (program.step slot input world).1.Waits ∧
          (program.step slot input world).2.workspace = world.workspace ∨
        program.enters input world = true ∧ (program.step slot input world).2.workspace = some slot ∧
          (program.step slot input world).2.file = some goal ∧
          (program.step slot input world).1.Keeps goal.turnsUsed goal.budgetUsed) := by
  cases waits with
  | spawned =>
    refine ⟨rfl, ⟨goal, there, .refl goal⟩, .inl ⟨rfl, ?_, rfl⟩⟩
    rw [goalLoopProcess, GoalProgram.step, there]
    exact .queued goal
  | queued local' =>
    rw [runGoalLoop] at recent ⊢
    refine ⟨rfl, ?_⟩
    rcases acquire_step slot input world local' _ with ⟨enters, steps⟩ | ⟨stays, steps | steps⟩
    · rw [steps]
      exact ⟨⟨goal, there, .refl goal⟩, .inr ⟨enters, rfl, there, recent local' _ rfl enters⟩⟩
    · rw [steps]
      exact ⟨⟨goal, there, .refl goal⟩, .inl ⟨stays, .queued local', rfl⟩⟩
    · rw [steps]
      have ending : (safeSetStatus .blocked local' fun goal => .done (.loopEnded goal)).Mild :=
        mild_safeSetStatus fun _ => trivial
      exact ⟨⟨goal, there, .refl goal⟩, .inl ⟨stays, .ending ending, rfl⟩⟩
  | ending mild =>
    obtain ⟨stays, leaves, rest, workspace, kept⟩ := mild_step there mild slot input
    exact ⟨leaves, kept, .inl ⟨stays, .ending rest, workspace⟩⟩

end

section

variable {system : GoalLife} {slot : Nat} {actor : GoalActor} {input : GoalInput} {goal : GoalLoopState}

/-- **What a move keeps**: the record in its counters and where it is done, and all processes sound. -/
structure MoveKept (system : GoalLife) (goal : GoalLoopState) (slot : Nat) (moved : GoalActor × GoalWorld) :
    Prop where
  record : ∃ after, moved.2.file = some after ∧ GoalKept goal after
  own : moved.1.Sound moved.2 slot
  others : ∀ other rival, other ≠ slot → system.procs other = some rival → rival.Sound moved.2 other

theorem isSome_of_eq {file : Option GoalLoopState} (there : file = some goal) : file.isSome := by
  rw [there]
  rfl

section

variable (sound : system.Sound) (here : system.procs slot = some actor)

include sound here

theorem rival_outside (entered : actor.entered = true) {other : Nat} {rival : GoalActor} (apart : other ≠ slot)
    (there : system.procs other = some rival) : rival.entered = false := by
  refine Bool.eq_false_iff.mpr fun also => apart ?_
  have first := ((sound.procs slot actor here).inside entered).2.1
  have second := ((sound.procs other rival there).inside also).2.1
  exact Option.some.inj (second.symm.trans first)

theorem move_inside (there : system.shared.file = some goal) (entered : actor.entered = true)
    (input : GoalInput) :
    MoveKept system goal slot (GoalActor.move slot actor input system.shared) := by
  have own := sound.procs slot actor here
  obtain ⟨loop, workspace, keeps⟩ := own.inside entered
  obtain ⟨after, file, kept, rest⟩ := keeps_step there (keeps goal there) slot input
  rw [GoalActor.move, if_pos loop, entered, Bool.true_or, Bool.true_and]
  refine ⟨⟨after, file, kept⟩, ?_, fun other rival apart found =>
    (sound.procs other rival found).out (rival_outside sound here entered apart found)⟩
  rcases rest with ⟨leaves, mild⟩ | ⟨stays, same, keeps⟩
  · rw [leaves]
    exact ⟨fun _ _ => .ending mild, fun entered => absurd entered Bool.false_ne_true,
      fun other => absurd loop other⟩
  · rw [stays]
    refine ⟨fun _ out => absurd out Bool.false_ne_true.symm, fun _ => ⟨loop, same.trans workspace, ?_⟩,
      fun other => absurd loop other⟩
    intro stored found
    obtain rfl := Option.some.inj (file.symm.trans found)
    exact keeps

theorem move_outside (there : system.shared.file = some goal) (loop : actor.command = .loop)
    (out : actor.entered = false) (guarded : LifecycleGuard system (.move slot input)) :
    MoveKept system goal slot (GoalActor.move slot actor input system.shared) := by
  have waits := (sound.procs slot actor here).outside loop out
  obtain ⟨leaves, ⟨after, file, same⟩, rest⟩ := waits_step there waits slot input
    fun local' next at' enters running =>
      guarded.recent slot input actor local' next goal rfl here at' enters there running
  rw [GoalActor.move, if_pos loop, out, leaves, Bool.false_or, Bool.not_false, Bool.and_true]
  refine ⟨⟨after, file, same.kept⟩, ?_, fun other rival apart found => ?_⟩
  · rcases rest with ⟨stays, waits, -⟩ | ⟨enters, workspace, unchanged, keeps⟩
    · rw [stays]
      exact ⟨fun _ _ => waits, fun entered => absurd entered Bool.false_ne_true,
        fun other => absurd loop other⟩
    · rw [enters]
      refine ⟨fun _ out => absurd out Bool.false_ne_true.symm, fun _ => ⟨loop, workspace, ?_⟩,
        fun other => absurd loop other⟩
      intro stored found
      obtain rfl := Option.some.inj (unchanged.symm.trans found)
      exact keeps
  · have rivalSound := sound.procs other rival found
    rcases rest with ⟨-, -, workspace⟩ | ⟨enters, -⟩
    · exact rivalSound.same there file same fun own => workspace.trans own
    · refine rivalSound.out (Bool.eq_false_iff.mpr fun entered => ?_)
      have inside := (rivalSound.inside entered).2.1
      exact absurd (entered.symm.trans (guarded.alone slot input actor rfl here enters other rival inside found))
        Bool.false_ne_true.symm

theorem sub_action_ends (there : system.shared.file = some goal) (command : actor.command ≠ .loop)
    (guarded : LifecycleGuard system (.move slot input)) :
    ∃ reply after, actor.program.runAll input (some goal) = (.done reply, some after) ∧
      SameCounters goal after := by
  rcases (sound.procs slot actor here).command command with begins | ⟨reply, done⟩
  · cases asked : actor.command with
    | loop => exact absurd asked command
    | pause request =>
      rw [asked] at begins
      rw [begins]
      have may := guarded.pauses request (here.trans (congrArg some begins)) goal there
      exact setStatus_kept (.inl may)
    | stop request =>
      rw [asked] at begins
      rw [begins]
      exact setStatus_kept (guarded.stops request (here.trans (congrArg some begins)) goal there)
    | resume request =>
      rw [asked] at begins
      rw [begins]
      exact resume_kept request input goal
  · rw [done]
    exact ⟨reply, goal, rfl, .refl goal⟩

theorem move_sub_action (there : system.shared.file = some goal) (command : actor.command ≠ .loop)
    (guarded : LifecycleGuard system (.move slot input)) :
    MoveKept system goal slot (GoalActor.move slot actor input system.shared) := by
  obtain ⟨reply, after, runs, same⟩ := sub_action_ends sound here there command guarded
  have own := sound.procs slot actor here
  have out : actor.entered = false :=
    Bool.eq_false_iff.mpr fun entered => command (own.inside entered).1
  rw [GoalActor.move, if_neg command, there, runs, out]
  exact ⟨⟨after, rfl, same.kept⟩,
    ⟨fun loop => absurd loop command, fun entered => absurd entered Bool.false_ne_true,
      fun _ => .inr ⟨reply, rfl⟩⟩,
    fun other rival _ found => (sound.procs other rival found).same there rfl same id⟩

theorem move_kept (there : system.shared.file = some goal) (guarded : LifecycleGuard system (.move slot input)) :
    MoveKept system goal slot (GoalActor.move slot actor input system.shared) := by
  by_cases loop : actor.command = .loop
  · cases entered : actor.entered with
    | true => exact move_inside sound here there entered input
    | false => exact move_outside sound here there loop entered guarded
  · exact move_sub_action sound here there loop guarded

end

theorem lifeStep_sound (system : GoalLife) (action : GoalAction) (sound : system.Sound)
    (guarded : LifecycleGuard system action) : (lifeStep system action).Sound := by
  refine Processes.step_keeps sound action (fun slot kind _ => actor_start_sound _ slot kind) ?_
  rintro slot input actor rfl here
  obtain ⟨goal, there⟩ := Option.isSome_iff_exists.mp sound.shared
  have kept := move_kept sound here there guarded
  obtain ⟨after, file, -⟩ := kept.record
  exact ⟨isSome_of_eq file, kept.own, kept.others⟩

/-- **A guarded step keeps the record**: its counters do not go down, and a goal that is done stays so. -/
theorem lifeStep_kept (sound : system.Sound) {action : GoalAction} (guarded : LifecycleGuard system action)
    (there : system.shared.file = some goal) :
    ∃ after, (lifeStep system action).shared.file = some after ∧ GoalKept goal after := by
  cases acts : system.acting action with
  | none =>
    refine ⟨goal, ?_, .rfl⟩
    rw [lifeStep, Processes.shared_of_idle acts]
    exact there
  | some actor =>
    obtain ⟨slot, input, rfl, here⟩ := Processes.acting_eq_some acts
    rw [lifeStep, Processes.step_move here]
    exact (move_kept sound here there guarded).record

end

section

open Runs

/-- A record, and no process yet. -/
structure GoalLife.Unstarted (system : GoalLife) : Prop where
  file : system.shared.file.isSome
  procs : ∀ slot, system.procs slot = none

variable {start : GoalLife}

theorem life_start_sound (unstarted : start.Unstarted) : start.Sound := by
  refine ⟨unstarted.file, fun slot actor here => ?_⟩
  rw [unstarted.procs slot] at here
  cases here

theorem run_kept {system : GoalLife} (sound : system.Sound) {actions : List GoalAction}
    (guarded : ∀ taken ∈ transitions lifeStep system actions, LifecycleGuard taken.before taken.action)
    {goal : GoalLoopState} (there : system.shared.file = some goal) :
    ∃ after, (finish lifeStep system actions).shared.file = some after ∧ GoalKept goal after := by
  induction actions generalizing system goal with
  | nil => exact ⟨goal, there, .rfl⟩
  | cons action rest ih =>
    have here := guarded _ List.mem_cons_self
    obtain ⟨next, file, kept⟩ := lifeStep_kept sound here there
    obtain ⟨after, last, later⟩ := ih (lifeStep_sound system action sound here)
      (fun taken member => guarded taken (List.mem_cons_of_mem _ member)) file
    exact ⟨after, last, kept.trans later⟩

/-- **The law of a goal, in every run that leaves it alone.** From any state of the run to any later one the
counters do not go down, and a goal that is done keeps its state. -/
theorem lifecycle_kept (unstarted : start.Unstarted) {earlier later : List GoalAction}
    (guarded : ∀ taken ∈ transitions lifeStep start (earlier ++ later),
      LifecycleGuard taken.before taken.action) :
    ∃ goal after, (finish lifeStep start earlier).shared.file = some goal ∧
      (finish lifeStep start (earlier ++ later)).shared.file = some after ∧
      goal.turnsUsed ≤ after.turnsUsed ∧ goal.budgetUsed ≤ after.budgetUsed ∧
      (goal.state.terminal → after.state = goal.state) := by
  rw [transitions_append] at guarded
  have reached : (finish lifeStep start earlier).Sound :=
    finish_guarded lifeStep lifeStep_sound (life_start_sound unstarted) fun taken member =>
      guarded taken (List.mem_append_left _ member)
  obtain ⟨goal, there⟩ := Option.isSome_iff_exists.mp reached.shared
  obtain ⟨after, last, kept⟩ := run_kept reached
    (fun taken member => guarded taken (List.mem_append_right _ member)) there
  refine ⟨goal, after, there, ?_, kept.turnsUsed, kept.budgetUsed, kept.state⟩
  rw [finish, List.foldl_append]
  exact last

end

def fiveTurns : GoalLoopState where
  ownerSessionId := "s"
  state := .running
  maxTurns := 5
  turnsUsed := 0
  budgetUnlimited := some true
  budgetUsed := 0

def fiveTurnsLife : GoalLife := { shared := { file := some fiveTurns }, procs := fun _ => none }

theorem guard_of_idle {system : GoalLife} {action : GoalAction} (idle : system.acting action = none) :
    LifecycleGuard system action where
  pauses := fun request acts => absurd (acts.symm.trans idle) (Option.some_ne_none _)
  stops := fun request acts => absurd (acts.symm.trans idle) (Option.some_ne_none _)
  alone := by
    rintro slot input actor rfl here
    exact absurd (here.symm.trans idle) (Option.some_ne_none _)
  recent := by
    rintro slot input actor goal next stored rfl here
    exact absurd (here.symm.trans idle) (Option.some_ne_none _)

theorem lifecycle_kept_of_pause :
    ∃ goal after,
      (Runs.finish lifeStep fiveTurnsLife [.begin 0 .loop, .begin 1 (.pause {})]).shared.file = some goal ∧
      (Runs.finish lifeStep fiveTurnsLife
        ([.begin 0 .loop, .begin 1 (.pause {})] ++ [.move 1 {}, .move 0 {}, .move 0 {}])).shared.file =
          some after ∧
      goal.turnsUsed ≤ after.turnsUsed ∧ goal.budgetUsed ≤ after.budgetUsed ∧
      (goal.state.terminal → after.state = goal.state) := by
  refine lifecycle_kept ⟨rfl, fun _ => rfl⟩ ?_
  simp only [List.cons_append, List.nil_append, Runs.transitions, List.forall_mem_cons]
  refine ⟨guard_of_idle rfl, guard_of_idle rfl, ⟨?_, ?_, ?_, ?_⟩, ⟨?_, ?_, ?_, ?_⟩, ⟨?_, ?_, ?_, ?_⟩,
    fun taken member => absurd member List.not_mem_nil⟩
  · rintro request - goal ⟨⟩
    rfl
  · rintro request ⟨⟩
  · rintro slot input actor ⟨⟩ ⟨⟩ ⟨⟩
  · rintro slot input actor goal next stored ⟨⟩ ⟨⟩ ⟨⟩
  · rintro request ⟨⟩
  · rintro request ⟨⟩
  · rintro slot input actor ⟨⟩ ⟨⟩ ⟨⟩
  · rintro slot input actor goal next stored ⟨⟩ ⟨⟩ ⟨⟩
  · rintro request ⟨⟩
  · rintro request ⟨⟩
  · rintro slot input actor ⟨⟩ ⟨⟩ - holder other ⟨⟩
  · rintro slot input actor goal next stored ⟨⟩ ⟨⟩ ⟨⟩ - ⟨⟩ -
    exact Nat.zero_le _

def notYet : GoalInput := { judged := .gave { turn := 1, achieved := false, reason := "more" } 0 }

def reached : GoalInput := { judged := .gave { turn := 1, achieved := true, reason := "done" } 0 }

/-- A loop in its first turn; the goal is paused and resumed, and the loop that was spawned has loaded it. -/
def pausedAndResumed : List GoalAction := .begin 0 .loop :: List.replicate 5 (.move 0 notYet) ++
    [.begin 1 (.pause {}), .move 1 {}, .begin 2 (.resume {}), .move 2 {}, .begin 3 .loop, .move 3 {}]

def goesOn : List GoalAction :=
  List.replicate 5 (.move 0 notYet) ++ List.replicate 8 (.move 0 notYet) ++
    List.replicate 9 (.move 0 reached)

def letIn : List GoalAction := List.replicate 3 (.move 3 {})

def pausedOnce : List GoalAction :=
  [.begin 4 (.pause {}), .move 4 {}, .begin 5 (.resume {}), .move 5 {}]

/-- **A goal that is reached, counted back, and running again.** -/
theorem reached_goal_runs :
    (Runs.finish lifeStep fiveTurnsLife (pausedAndResumed ++ goesOn)).shared.file.map
        (fun goal => (goal.state, goal.turnsUsed)) = some (.achieved, 3) ∧
      (Runs.finish lifeStep fiveTurnsLife (pausedAndResumed ++ goesOn ++ letIn)).shared.file.map
        (fun goal => (goal.state, goal.turnsUsed)) = some (.achieved, 2) ∧
      (Runs.finish lifeStep fiveTurnsLife (pausedAndResumed ++ goesOn ++ letIn ++ pausedOnce)).shared.file.map
        (fun goal => (goal.state, goal.turnsUsed)) = some (.running, 2) := by
  decide

end PiCrew.GoalWorkflow
