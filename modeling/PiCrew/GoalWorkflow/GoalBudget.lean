/-
**The budget of a goal.**

One loop of a goal after the other, with every ending of every turn, and with the states and hints that pauses,
stops and resumes write between the steps of a loop. Each turn that is executed has the tokens of its run, as
far as its metrics can be read, and those of its judge. A turn that was not judged, because its run ended blocked
or failed, or because something threw, is left on a way that adds nothing to the budget.

* `GoalProgram.Books`, `loopStep_books` — the budget is the first one and what the judged turns have spent, and
  a turn is only started below the gate and the number of turns;
* `budget_accounts` — where a loop is over, the budget is all that was spent exactly if no turn that was not
  judged had tokens.
-/

import PiCrew.GoalWorkflow.GoalSteps
import PiCrew.Library.Runs
import Mathlib.Algebra.BigOperators.Group.List.Basic
import Mathlib.Algebra.Order.BigOperators.Group.List

namespace PiCrew.GoalWorkflow

/-- **A turn that was executed**: the readable tokens of its run, and those of the judge where it gave a
verdict. -/
structure ExecutedTurn where
  worker : Nat := 0
  judge : Option Nat := none
  deriving DecidableEq

def ExecutedTurn.spent (turn : ExecutedTurn) : Nat := turn.worker + turn.judge.getD 0

def ExecutedTurn.lost (turn : ExecutedTurn) : Nat := if turn.judge.isSome then 0 else turn.worker

def ExecutedTurn.accounted (turn : ExecutedTurn) : Nat := if turn.judge.isSome then turn.spent else 0

def recordRun (tokens : Option Nat) : List ExecutedTurn → List ExecutedTurn
  | [] => []
  | turn :: rest => { turn with worker := tokens.getD 0 } :: rest

def Judgement.tokens? : Judgement → Option Nat
  | .threw _ => none
  | .gave _ tokens => some tokens

def recordJudge (judged : Judgement) : List ExecutedTurn → List ExecutedTurn
  | [] => []
  | turn :: rest => { turn with judge := judged.tokens? } :: rest

def GoalProgram.record (input : GoalInput) (turns : List ExecutedTurn) : GoalProgram → List ExecutedTurn
  | .turn _ _ => {} :: turns
  | .turnEnd _ => recordRun input.tokens turns
  | .judge _ => recordJudge input.judged turns
  | _ => turns

/-- **A goal with its loop**, and the turns that were executed for it, the last one first. -/
structure GoalRun where
  world : GoalWorld
  program : GoalProgram
  turns : List ExecutedTurn := []

/-- What happens next: the loop goes on after others have written a state and a hint, or, where it is over, a new
one is spawned. -/
inductive LoopAction where
  | spawn
  | step (flip : Option GoalLoopStatus) (hint : Option String) (input : GoalInput)

/-- What a pause, a stop and a resume write. -/
def writtenBy (flip : Option GoalLoopStatus) (hint : Option String) (goal : GoalLoopState) : GoalLoopState :=
  { goal with
    state := flip.getD goal.state
    nextTurnFeedback := hint.orElse fun _ => goal.nextTurnFeedback }

def GoalProgram.ended : GoalProgram → Bool
  | .done _ => true
  | _ => false

def GoalWorld.written (flip : Option GoalLoopStatus) (hint : Option String) (world : GoalWorld) : GoalWorld :=
  { world with file := world.file.map (writtenBy flip hint) }

def loopStep (run : GoalRun) : LoopAction → GoalRun
  | .spawn => if run.program.ended then { run with program := goalLoopProcess } else run
  | .step flip hint input =>
    { world := (run.program.step 0 input (run.world.written flip hint)).2
      program := (run.program.step 0 input (run.world.written flip hint)).1
      turns := run.program.record input run.turns }

def GoalRun.start (goal : GoalLoopState) : GoalRun where
  world := { file := some goal }
  program := goalLoopProcess

def startsRun (run : GoalRun) (action : LoopAction) : Prop :=
  (∃ flip hint input, action = .step flip hint input) ∧ ∃ runId next, run.program = .turn runId next

/-- **Below the gate**: the budget is below the share of its total that ends a goal, where it has one. -/
def GoalLoopState.BelowGate (goal : GoalLoopState) : Prop :=
  goal.budgetUnlimited ≠ some true → ∀ total abort, goal.budgetTotal = some total → 0 < total →
    goal.budgetAbort = some abort → (goal.budgetUsed : ℚ) < abort * total

/-- What the account of a goal is made of: the record but for its state, its feedback and its history. -/
def GoalLoopState.account (goal : GoalLoopState) : GoalLoopState := { goal with
    state := .running, nextTurnFeedback := none, currentRunId := none, lastTurnError := none,
    verdicts := [], history := [] }

theorem belowGate_of_gate {goal : GoalLoopState} (gate : goal.overBudget = false) : goal.BelowGate := by
  intro limited total abort hasTotal positive hasAbort
  rw [GoalLoopState.overBudget, GoalLoopState.abortsAt, if_neg limited, hasTotal, Option.bind_some, hasAbort,
    Option.bind_some, if_pos positive, Option.any_some, decide_eq_false_iff_not, not_le] at gate
  exact gate

theorem settleStatus_account (proposed : GoalLoopStatus) (goal : GoalLoopState) :
    (settleStatus proposed goal).account = goal.account := by
  rw [settleStatus]
  split_ifs <;> rfl

theorem swap_account (expected next : GoalLoopStatus) (held : Bool) (goal : GoalLoopState) :
    ∃ after, ((GoalCall.compareAndSetStatus expected next).run held (some goal)).2 = some after ∧
      after.account = goal.account := by
  cases held with
  | true => exact ⟨goal, rfl, rfl⟩
  | false =>
    rw [GoalCall.run, if_neg Bool.false_ne_true, Option.bind_some, swapStatus]
    by_cases same : goal.state = expected
    · rw [if_pos same]
      exact ⟨_, rfl, rfl⟩
    · rw [if_neg same]
      exact ⟨_, rfl, rfl⟩

theorem accounted_add_lost (turns : List ExecutedTurn) :
    (turns.map ExecutedTurn.accounted).sum + (turns.map ExecutedTurn.lost).sum =
      (turns.map ExecutedTurn.spent).sum := by
  induction turns with
  | nil => rfl
  | cons turn rest ih =>
    have here : turn.accounted + turn.lost = turn.spent := by
      obtain ⟨worker, judge⟩ := turn
      cases judge with
      | none => exact Nat.zero_add worker
      | some tokens => rfl
    simp only [List.map_cons, List.sum_cons]
    omega

theorem lost_eq_zero (turns : List ExecutedTurn) :
    (turns.map ExecutedTurn.lost).sum = 0 ↔ ∀ turn ∈ turns, turn.judge = none → turn.worker = 0 := by
  rw [List.sum_eq_zero_iff, List.forall_mem_map]
  refine forall₂_congr fun turn _ => ?_
  obtain ⟨worker, judge⟩ := turn
  cases judge with
  | none => exact ⟨fun none _ => none, fun none => none rfl⟩
  | some tokens => exact ⟨fun _ judged => absurd judged (Option.some_ne_none tokens), fun _ => rfl⟩

section

/-- **The books are balanced**: the budget is the first one and what was judged; and each turn was counted. -/
structure Balanced (start : GoalLoopState) (turns : List ExecutedTurn) (account : GoalLoopState) : Prop where
  budget : account.budgetUsed = start.budgetUsed + (turns.map ExecutedTurn.accounted).sum
  turns : turns.length + start.turnsUsed ≤ account.turnsUsed
  cap : account.maxTurns = start.maxTurns

/-- **A program keeps the books**, from the turns that were executed and the account that is stored, whatever
others write over the rest of the record. -/
def GoalProgram.Books (start : GoalLoopState) : GoalProgram → List ExecutedTurn → GoalLoopState → Prop
  | .done _, turns, account | .release _, turns, account => Balanced start turns account
  | .again goal, turns, account => Balanced start turns account ∧ goal.account = account
  | .acquire _ next, turns, account => ∀ acquired, (next acquired).Books start turns account
  | .turn _ next, turns, account =>
    turns.length < start.maxTurns - start.turnsUsed ∧ account.overBudget = false ∧
      next.Books start ({} :: turns) account
  | .turnEnd next, turns, account => ∀ input, (next input).Books start (recordRun input.tokens turns) account
  | .judge next, turns, account => ∀ input, (next input).Books start (recordJudge input.judged turns) account
  | .ask next, turns, account => ∀ input, (next input).Books start turns account
  | .call asked next, turns, account => ∀ held file, file.account = account →
      ∃ after, (asked.run held (some file)).2 = some after ∧
        (next (asked.run held (some file)).1).Books start turns after.account

variable {start account goal : GoalLoopState} {turns rest : List ExecutedTurn}
  {next : GoalLoopState → GoalProgram}

theorem books_safeSetStatus {proposed : GoalLoopStatus}
    (each : ∀ goal : GoalLoopState, goal.account = account → (next goal).Books start turns account) :
    (safeSetStatus proposed goal next).Books start turns account := by
  rintro held file rfl
  refine ⟨settleStatus proposed file, rfl, ?_⟩
  rw [settleStatus_account]
  exact each _ (settleStatus_account proposed file)

theorem books_patchGoal {fields : GoalPatch} (each : ∀ file : GoalLoopState, file.account = account →
      (next (fields.apply file)).Books start turns (fields.apply file).account) :
    (patchGoal fields goal next).Books start turns account := by
  rintro held file rfl
  exact ⟨fields.apply file, rfl, each file rfl⟩

theorem books_afterWait {input : GoalInput} (same : goal.account = account)
    (each : ∀ goal : GoalLoopState, goal.account = account → (next goal).Books start turns account) :
    (afterWait input goal next).Books start turns account := by
  rw [afterWait]
  split_ifs
  · exact books_safeSetStatus each
  · exact each goal same

variable (balanced : Balanced start turns account)

include balanced

theorem books_leaveLoop (goal : GoalLoopState) : (leaveLoop goal).Books start turns account := by
  intro input
  dsimp only
  split_ifs
  · exact books_safeSetStatus fun _ _ => balanced
  · exact books_safeSetStatus fun _ _ => balanced
  · exact balanced

theorem books_failLoop (message : String) (goal : GoalLoopState) :
    (failLoop message goal).Books start turns account := by
  refine books_patchGoal fun file same => ?_
  have kept : (GoalPatch.apply { lastTurnError := some message, currentRunId := some none } file).account =
      account := same
  rw [kept]
  exact books_safeSetStatus fun _ _ => balanced

theorem books_endTurn (turnError : String) (goal : GoalLoopState) :
    (endTurn turnError goal).Books start turns account := by
  refine books_patchGoal fun file same => ?_
  have kept : (GoalPatch.apply { lastTurnError := some turnError, currentRunId := some none } file).account =
      account := same
  rw [kept]
  exact books_safeSetStatus fun goal _ => books_leaveLoop balanced goal

theorem books_yieldBetweenTurns (same : goal.account = account) :
    (yieldBetweenTurns goal).Books start turns account :=
  fun _ => books_afterWait same fun _ same => ⟨balanced, same⟩

theorem books_applyVerdict (verdict : GoalVerdict) (same : goal.account = account) :
    (applyVerdict verdict goal).Books start turns account := by
  rw [applyVerdict]
  split_ifs
  · exact books_safeSetStatus fun goal _ => books_leaveLoop balanced goal
  · exact books_safeSetStatus fun goal _ => books_leaveLoop balanced goal
  · exact books_safeSetStatus fun goal _ => books_leaveLoop balanced goal
  · intro input
    dsimp only
    split_ifs
    · rintro held file rfl
      obtain ⟨after, there, counters⟩ := swap_account .running .stuck held file
      refine ⟨after, there, ?_⟩
      rw [counters]
      cases ((GoalCall.compareAndSetStatus .running .stuck).run held (some file)).1 with
      | none => exact books_yieldBetweenTurns balanced same
      | some goal => exact books_leaveLoop balanced goal
    · exact books_yieldBetweenTurns balanced same

end

section

variable {start account goal : GoalLoopState} {rest turns : List ExecutedTurn}

theorem Balanced.before {turn : ExecutedTurn} (unjudged : turn.judge = none)
    (balanced : Balanced start (turn :: rest) account) : Balanced start rest account where
  budget := by
    have here := balanced.budget
    rw [List.map_cons, List.sum_cons, ExecutedTurn.accounted, unjudged] at here
    simpa using here
  turns := by
    have counted := balanced.turns
    rw [List.length_cons] at counted
    omega
  cap := balanced.cap

theorem Balanced.ran {tokens : Nat} (balanced : Balanced start ({} :: rest) account) :
    Balanced start ({ worker := tokens } :: rest) account :=
  ⟨balanced.budget, balanced.turns, balanced.cap⟩

theorem books_afterJudgement {worker : Nat} (balanced : Balanced start ({ worker := worker } :: rest) account)
    (turnIndex : Nat) (runId : String) (input : GoalInput) (goal : GoalLoopState) :
    (afterJudgement turnIndex runId (account.budgetUsed + worker) input goal).Books start
      (recordJudge input.judged ({ worker := worker } :: rest)) account := by
  rw [afterJudgement]
  cases input.judged with
  | threw message => exact books_failLoop balanced message goal
  | gave verdict tokens =>
    refine books_patchGoal fun file same => books_applyVerdict ⟨?_, ?_, ?_⟩ verdict rfl
    · have earlier := (balanced.before rfl).budget
      have adds : ({ worker := worker, judge := some tokens } : ExecutedTurn).accounted = worker + tokens := rfl
      change account.budgetUsed + worker + tokens = _
      rw [recordJudge, List.map_cons, List.sum_cons]
      change _ = start.budgetUsed +
        (({ worker := worker, judge := some tokens } : ExecutedTurn).accounted + _)
      rw [adds]
      omega
    · obtain rfl := same
      exact balanced.turns
    · obtain rfl := same
      exact balanced.cap

theorem books_afterTurn (balanced : Balanced start ({} :: rest) account) (same : goal.account = account)
    (turnIndex : Nat) (runId : String) (input : GoalInput) :
    (afterTurn turnIndex runId input goal).Books start (recordRun input.tokens ({} :: rest)) account := by
  rw [afterTurn]
  cases input.turn with
  | threw message => exact books_failLoop balanced.ran message goal
  | blocked summary | failed summary => exact books_endTurn balanced.ran _ goal
  | finished =>
    have budget : accumulateBudget goal input.tokens = account.budgetUsed + input.tokens.getD 0 := by
      rw [← same]
      rfl
    rw [judgeTurn, budget]
    exact fun judged => books_afterWait same fun goal _ =>
      books_afterJudgement balanced.ran turnIndex runId judged goal

theorem books_startTurn (balanced : Balanced start ({} :: turns) account) (same : goal.account = account)
    (room : turns.length < start.maxTurns - start.turnsUsed) (gate : account.overBudget = false)
    (turnIndex : Nat) (runId : String) : (startTurn turnIndex runId goal).Books start turns account := by
  rw [startTurn]
  split_ifs
  · exact ⟨room, gate, fun input => books_afterWait same fun goal same =>
      books_afterTurn balanced same turnIndex runId input⟩
  · exact books_leaveLoop (balanced.before rfl) goal

theorem books_iteration (balanced : Balanced start turns account) (same : goal.account = account)
    (input : GoalInput) : (iteration input goal).Books start turns account := by
  rw [iteration]
  split_ifs with runs aborted exceeded
  · exact books_safeSetStatus fun goal _ => books_leaveLoop balanced goal
  · exact books_safeSetStatus fun goal _ => books_leaveLoop balanced goal
  · cases input.created with
    | threw message => exact books_failLoop balanced message goal
    | made runId =>
      have used : goal.turnsUsed = account.turnsUsed := by
        rw [← same]
        rfl
      have cap : goal.maxTurns = start.maxTurns := by
        rw [← balanced.cap, ← same]
        rfl
      have counted := balanced.turns
      refine books_patchGoal fun file kept => books_startTurn ⟨?_, ?_, ?_⟩ rfl ?_ ?_ _ runId
      · obtain rfl := kept
        exact balanced.budget.trans (congrArg _ (Nat.zero_add _).symm)
      · change turns.length + 1 + start.turnsUsed ≤ goal.turnsUsed + 1
        omega
      · obtain rfl := kept
        exact balanced.cap
      · have before := runs.2
        omega
      · have gate : file.account.overBudget = goal.account.overBudget := by rw [kept, same]
        exact gate.trans (Bool.eq_false_iff.mpr exceeded)
  · exact books_leaveLoop balanced goal

theorem books_goalLoopProcess (balanced : Balanced start turns account) :
    goalLoopProcess.Books start turns account := by
  rintro held file rfl
  refine ⟨file, rfl, fun acquired => ?_⟩
  cases acquired with
  | true => exact ⟨balanced, rfl⟩
  | false =>
    have ending : (safeSetStatus .blocked file fun goal => .done (.loopEnded goal)).Books start turns
        file.account := books_safeSetStatus fun _ _ => balanced
    exact ending

end

section

variable {start stored : GoalLoopState} {run : GoalRun} {world : GoalWorld} {program : GoalProgram}
  {turns : List ExecutedTurn}

structure RunBooks (start : GoalLoopState) (run : GoalRun) : Prop where
  record : ∃ stored, run.world.file = some stored ∧ run.program.Books start run.turns stored.account
  turns : run.turns.length ≤ start.maxTurns - start.turnsUsed

theorem record_length (input : GoalInput) (turns : List ExecutedTurn) (program : GoalProgram) :
    (program.record input turns).length = turns.length ∨
      (∃ runId next, program = .turn runId next) ∧ (program.record input turns).length = turns.length + 1 := by
  cases program with
  | turn runId next => exact .inr ⟨⟨runId, next, rfl⟩, rfl⟩
  | turnEnd next | judge next => cases turns <;> exact .inl rfl
  | _ => exact .inl rfl

theorem step_books (there : world.file = some stored) (books : program.Books start turns stored.account)
    (input : GoalInput) :
    ∃ after, (program.step 0 input world).2.file = some after ∧
      (program.step 0 input world).1.Books start (program.record input turns) after.account := by
  cases program with
  | done reply => exact ⟨stored, there, books⟩
  | again goal => exact ⟨stored, there, books_iteration books.1 books.2 input⟩
  | acquire goal next =>
    rw [GoalProgram.step]
    split_ifs
    · exact ⟨stored, there, books false⟩
    · exact ⟨stored, there, books true⟩
    · exact ⟨stored, there, books⟩
  | release goal => exact ⟨stored, there, books⟩
  | turn runId next => exact ⟨stored, there, books.2.2⟩
  | turnEnd next | judge next | ask next => exact ⟨stored, there, books input⟩
  | call asked next =>
    obtain ⟨after, file, rest⟩ := books input.casHeld stored rfl
    rw [GoalProgram.step, there]
    exact ⟨after, file, rest⟩

theorem balanced_of_ended (ended : program.ended) {account : GoalLoopState}
    (books : program.Books start turns account) : Balanced start turns account := by
  cases program with
  | done reply => exact books
  | _ => exact absurd ended Bool.false_ne_true

/-- **Every step keeps the books of a goal.** -/
theorem loopStep_books (run : GoalRun) (action : LoopAction) (books : RunBooks start run) :
    RunBooks start (loopStep run action) := by
  obtain ⟨stored, there, keeps⟩ := books.record
  cases action with
  | spawn =>
    rw [loopStep]
    split_ifs with ended
    · exact ⟨⟨stored, there, books_goalLoopProcess (balanced_of_ended ended keeps)⟩, books.turns⟩
    · exact books
  | step flip hint input =>
    have written : (run.world.written flip hint).file = some (writtenBy flip hint stored) := by
      rw [GoalWorld.written, there]
      rfl
    refine ⟨step_books written keeps input, ?_⟩
    rw [loopStep]
    rcases record_length input run.turns run.program with same | ⟨⟨runId, next, turn⟩, more⟩
    · rw [same]
      exact books.turns
    · rw [turn] at keeps
      rw [more]
      exact keeps.1

theorem books_start (goal : GoalLoopState) : RunBooks goal (GoalRun.start goal) :=
  ⟨⟨goal, rfl, books_goalLoopProcess ⟨rfl, (Nat.zero_add _).le, rfl⟩⟩, Nat.zero_le _⟩

end

section

open Runs

variable {start : GoalLoopState} {run : GoalRun}

theorem starts_belowGate (books : RunBooks start run) {action : LoopAction} (starts : startsRun run action)
    {stored : GoalLoopState} (there : run.world.file = some stored) : stored.BelowGate := by
  obtain ⟨kept, found, keeps⟩ := books.record
  obtain rfl := Option.some.inj (there.symm.trans found)
  obtain ⟨-, runId, next, turn⟩ := starts
  rw [turn] at keeps
  exact belowGate_of_gate keeps.2.1

/-- **A goal keeps within its limits**: there are at most as many turns as it had left, and each of them is
started below the gate. -/
theorem limits_kept (goal : GoalLoopState) (actions : List LoopAction) :
    (finish loopStep (GoalRun.start goal) actions).turns.length ≤ goal.maxTurns - goal.turnsUsed ∧
      ∀ taken ∈ transitions loopStep (GoalRun.start goal) actions, startsRun taken.before taken.action →
        ∀ stored, taken.before.world.file = some stored → stored.BelowGate := by
  refine ⟨(finish_keeps loopStep loopStep_books (books_start goal) actions).turns, ?_⟩
  intro taken member starts stored found
  have held := forall_transitions loopStep (fun run action books (_ : True) => loopStep_books run action books)
    (books_start goal) (fun _ _ => trivial) taken member
  exact starts_belowGate held.1 starts found

/-- **The budget of a goal.** In a run that ends with its loop over: the budget is the first one and all that
the turns have spent, every turn was started below the gate, and there were at most as many turns as the
goal had left, if and only if no turn that was not judged had readable tokens. -/
theorem budget_accounts (goal : GoalLoopState) (actions : List LoopAction)
    (ended : (finish loopStep (GoalRun.start goal) actions).program.ended) :
    ((∃ last, (finish loopStep (GoalRun.start goal) actions).world.file = some last ∧
          last.budgetUsed = goal.budgetUsed +
            ((finish loopStep (GoalRun.start goal) actions).turns.map ExecutedTurn.spent).sum) ∧
        (∀ taken ∈ transitions loopStep (GoalRun.start goal) actions,
          startsRun taken.before taken.action →
            ∀ stored, taken.before.world.file = some stored → stored.BelowGate) ∧
        (finish loopStep (GoalRun.start goal) actions).turns.length ≤ goal.maxTurns - goal.turnsUsed) ↔
      ∀ turn ∈ (finish loopStep (GoalRun.start goal) actions).turns, turn.judge = none → turn.worker = 0 := by
  have books := finish_keeps loopStep loopStep_books (books_start goal) actions
  obtain ⟨last, there, keeps⟩ := books.record
  have balanced := (balanced_of_ended ended keeps).budget
  have split := accounted_add_lost (finish loopStep (GoalRun.start goal) actions).turns
  have budget : last.budgetUsed = last.account.budgetUsed := rfl
  rw [← lost_eq_zero]
  constructor
  · rintro ⟨⟨found, same, total⟩, -, -⟩
    obtain rfl := Option.some.inj (there.symm.trans same)
    omega
  · intro none
    refine ⟨⟨last, there, by omega⟩, ?_, books.turns⟩
    intro taken member starts stored found
    have held := forall_transitions loopStep
      (fun run action books (_ : True) => loopStep_books run action books) (books_start goal)
      (fun _ _ => trivial) taken member
    exact starts_belowGate held.1 starts found

end

def budgetedGoal : GoalLoopState where
  ownerSessionId := "s"
  state := .running
  maxTurns := 2
  turnsUsed := 0
  budgetTotal := some 1000
  budgetAbort := some (19 / 20)
  budgetUsed := 0

def oneTurn (input : GoalInput) (steps : Nat) : List LoopAction :=
  List.replicate steps (.step none none input)

def judgedTurn : GoalInput where
  tokens := some 40
  judged := .gave { turn := 1, achieved := true, reason := "done" } 5

def failedTurn : GoalInput where
  tokens := some 100
  turn := .failed (some "worker died")

theorem budget_accounts_of_judged :
    (∃ last, (Runs.finish loopStep (GoalRun.start budgetedGoal) (oneTurn judgedTurn 11)).world.file =
          some last ∧
        last.budgetUsed = budgetedGoal.budgetUsed +
          ((Runs.finish loopStep (GoalRun.start budgetedGoal) (oneTurn judgedTurn 11)).turns.map
            ExecutedTurn.spent).sum) ∧
      (∀ taken ∈ Runs.transitions loopStep (GoalRun.start budgetedGoal) (oneTurn judgedTurn 11),
        startsRun taken.before taken.action →
          ∀ stored, taken.before.world.file = some stored → stored.BelowGate) ∧
      (Runs.finish loopStep (GoalRun.start budgetedGoal) (oneTurn judgedTurn 11)).turns.length ≤
        budgetedGoal.maxTurns - budgetedGoal.turnsUsed :=
  (budget_accounts budgetedGoal (oneTurn judgedTurn 11) (by decide +kernel)).mpr (by decide +kernel)

/-- **A turn that failed is not counted**: the loop is over, a hundred tokens were spent, and the budget is what
it was. -/
theorem failed_turn_uncounted :
    (Runs.finish loopStep (GoalRun.start budgetedGoal) (oneTurn failedTurn 10)).program.ended ∧
      (Runs.finish loopStep (GoalRun.start budgetedGoal) (oneTurn failedTurn 10)).world.file.map
        GoalLoopState.budgetUsed = some 0 ∧
      ((Runs.finish loopStep (GoalRun.start budgetedGoal) (oneTurn failedTurn 10)).turns.map
        ExecutedTurn.spent).sum = 100 := by
  decide +kernel

end PiCrew.GoalWorkflow
