/-
**The tokens and the calls of a workflow that is resumed.**

What is reserved for a call stands in the tokens spent until its worker ends. A checkpoint that is written
with no call at a worker has the tokens of the workers that were counted, and so have the runs that are
resumed from such checkpoints. The calls are counted on from the checkpoint, those that are replayed too.

* `Lineage` — a run that was resumed any number of times;
* `lineage_accounts` — its tokens and its calls;
* `reserve_checkpointed` — a checkpoint with a call at a worker, and a replay that reaches the cap.
-/

import PiCrew.GoalWorkflow.FaithfulResume
import Mathlib.Algebra.Order.BigOperators.Group.List
import Mathlib.Algebra.Order.Group.Int
import Mathlib.Algebra.Ring.Int.Defs

namespace PiCrew.GoalWorkflow

section

variable (options : MakeWorkflowCtxOptions) (script : Script AgentCallOpts Answer)

def WorkflowCtx.reserved (ctx : WorkflowCtx) : Int :=
  (ctx.inFlight.map fun flight => (flight.estimate : Int)).sum

/-- The tokens that a step counts: those of the worker that ends. -/
def tokensCounted (ctx : WorkflowCtx) : CallStep → Int
  | .beginCall _ => 0
  | .finishCall index outcome =>
    match ctx.inFlight.find? (·.index = index), script.call? ctx.handed index with
    | some _, some _ => outcome.tokens
    | _, _ => 0

/-- **The tokens of the workers that end in a run.** -/
def tokensUsed (start : WorkflowCtx) (steps : List CallStep) : Int :=
  ((Runs.transitions (callStep options script) start steps).map fun taken =>
    tokensCounted script taken.before taken.action).sum

/-- **A run that was resumed any number of times**, each time from a checkpoint that was written with no call
at a worker, and the tokens of its workers up to such a checkpoint. -/
inductive Lineage : WorkflowCtx → Int → Prop
  | fresh (steps : List CallStep) : Lineage (beginRun options script none steps)
        (tokensUsed options script (WorkflowCtx.resume none) steps)
  | resumed {ctx : WorkflowCtx} {used : Int} (earlier : Lineage ctx used) (quiet : ctx.inFlight = [])
      (steps : List CallStep) :
      Lineage (beginRun options script (some ctx.checkpoint) steps)
        (used + tokensUsed options script (WorkflowCtx.resume (some ctx.checkpoint)) steps)

/-- **The calls are counted on from a checkpoint**: each one that was answered once, a replayed one and a
refused one too; and a call is refused only where the cap was reached. -/
structure Counted (start ctx : WorkflowCtx) : Prop where
  count : ctx.agentCount = start.agentCount + ctx.handed.length
  refused : ∀ before index limit used, before ++ [(index, .refused limit used)] <+: ctx.handed →
    limit = options.cap ∧ used = start.agentCount + before.length ∧ options.cap ≤ used

end

section

variable {options : MakeWorkflowCtxOptions} {script : Script AgentCallOpts Answer}
  {start ctx : WorkflowCtx}

theorem acquired_spent {index : Nat} {call : AgentCallOpts} :
    (ctx.acquired options index call).spent - (ctx.acquired options index call).reserved
      = ctx.spent - ctx.reserved := by
  unfold WorkflowCtx.acquired
  by_cases reached : options.cap ≤ ctx.agentCount
  · rw [if_pos reached]
    rfl
  · rw [if_neg reached]
    cases ctx.cached call with
    | some result => rfl
    | none =>
      dsimp only
      split_ifs
      · rfl
      · simp only [WorkflowCtx.reserved, List.map_cons, List.sum_cons]
        omega

theorem settled_spent {flight : Flight} {call : AgentCallOpts} {outcome : Outcome}
    (member : flight ∈ ctx.inFlight) :
    (ctx.settled flight call outcome).spent - (ctx.settled flight call outcome).reserved
      = ctx.spent - ctx.reserved + outcome.tokens := by
  have split := List.sum_map_erase (fun flight : Flight => (flight.estimate : Int)) member
  simp only [WorkflowCtx.reserved, WorkflowCtx.settled, WorkflowCtx.endCall]
  omega

theorem callStep_spent (step : CallStep) :
    (callStep options script ctx step).spent - (callStep options script ctx step).reserved
      = ctx.spent - ctx.reserved + tokensCounted script ctx step := by
  cases step with
  | beginCall index =>
    rw [callStep, WorkflowCtx.beginCall, tokensCounted, add_zero]
    cases script.call? ctx.handed index with
    | none => rfl
    | some call =>
      dsimp only
      split_ifs
      · rfl
      · exact acquired_spent
  | finishCall index outcome =>
    rw [callStep, WorkflowCtx.finishCall, tokensCounted]
    cases found : ctx.inFlight.find? (·.index = index) with
    | none => exact (add_zero _).symm
    | some flight =>
      cases script.call? ctx.handed index with
      | none => exact (add_zero _).symm
      | some call => exact settled_spent (List.mem_of_find?_eq_some found)

theorem runCalls_spent (steps : List CallStep) :
    (runCalls options script start steps).spent - (runCalls options script start steps).reserved
      = start.spent - start.reserved + tokensUsed options script start steps := by
  induction steps generalizing start with
  | nil => exact (add_zero _).symm
  | cons step rest ih =>
    have first : (callStep options script start step).spent
        - (callStep options script start step).reserved
          = start.spent - start.reserved + tokensCounted script start step := callStep_spent step
    have later : (runCalls options script (callStep options script start step) rest).spent
        - (runCalls options script (callStep options script start step) rest).reserved
          = (callStep options script start step).spent - (callStep options script start step).reserved
            + tokensUsed options script (callStep options script start step) rest := ih
    have split : tokensUsed options script start (step :: rest) = tokensCounted script start step
        + tokensUsed options script (callStep options script start step) rest := List.sum_cons
    rw [split]
    exact later.trans (by rw [first, add_assoc])

theorem tokensUsed_nonneg (steps : List CallStep) : 0 ≤ tokensUsed options script start steps := by
  refine List.sum_nonneg ?_
  intro tokens member
  obtain ⟨taken, -, rfl⟩ := List.mem_map.mp member
  unfold tokensCounted
  cases taken.action with
  | beginCall index => exact le_rfl
  | finishCall index outcome =>
    dsimp only
    split
    · cases outcome with
      | threw error | failed error => exact le_rfl
      | broke usage error | mismatched usage text artifactPath error
      | done usage text structured artifactPath => exact Int.natCast_nonneg _
    · exact le_rfl

theorem Lineage.spent_eq {used : Int} (lineage : Lineage options script ctx used) :
    ctx.spent - ctx.reserved = used ∧ 0 ≤ used := by
  induction lineage with
  | fresh steps =>
    have added : (beginRun options script none steps).spent
        - (beginRun options script none steps).reserved
          = 0 + tokensUsed options script (WorkflowCtx.resume none) steps := runCalls_spent steps
    rw [zero_add] at added
    exact ⟨added, tokensUsed_nonneg steps⟩
  | @resumed ctx used earlier quiet steps ih =>
    obtain ⟨spent, positive⟩ := ih
    have none_reserved : ctx.reserved = 0 := by
      rw [WorkflowCtx.reserved, quiet]
      rfl
    rw [none_reserved, sub_zero] at spent
    have taken_over : (WorkflowCtx.resume (some ctx.checkpoint)).spent
        - (WorkflowCtx.resume (some ctx.checkpoint)).reserved = used := by
      have clamped : max 0 ctx.spent = used := by rw [spent, max_eq_right positive]
      exact (sub_zero _).trans clamped
    have added : (beginRun options script (some ctx.checkpoint) steps).spent
        - (beginRun options script (some ctx.checkpoint) steps).reserved
          = (WorkflowCtx.resume (some ctx.checkpoint)).spent
            - (WorkflowCtx.resume (some ctx.checkpoint)).reserved
            + tokensUsed options script (WorkflowCtx.resume (some ctx.checkpoint)) steps :=
      runCalls_spent steps
    rw [taken_over] at added
    exact ⟨added, add_nonneg positive (tokensUsed_nonneg steps)⟩

end

section

variable {options : MakeWorkflowCtxOptions} {script : Script AgentCallOpts Answer}
  {start ctx : WorkflowCtx}

theorem Counted.endCall (counted : Counted options start ctx) {index : Nat} {answer : Answer}
    (right : ∀ limit used, answer = .refused limit used →
      limit = options.cap ∧ used = ctx.agentCount ∧ options.cap ≤ used) :
    Counted options start (ctx.endCall index answer) where
  count := by
    simp only [WorkflowCtx.endCall, List.length_append, List.length_singleton, counted.count, add_assoc]
  refused before other limit used inside := by
    rcases List.prefix_concat_iff.mp inside with whole | earlier
    · obtain ⟨rfl, same⟩ := List.append_inj' whole rfl
      obtain ⟨-, told⟩ := Prod.mk.inj (List.cons.inj same).1
      obtain ⟨limits, uses, reached⟩ := right limit used told.symm
      exact ⟨limits, uses.trans counted.count, reached⟩
    · exact counted.refused before other limit used earlier

theorem Counted.same {other : WorkflowCtx} (counted : Counted options start ctx)
    (count : other.agentCount = ctx.agentCount) (handed : other.handed = ctx.handed) :
    Counted options start other where
  count := by rw [count, handed, counted.count]
  refused := by
    rw [handed]
    exact counted.refused

theorem Counted.acquired (counted : Counted options start ctx) {index : Nat} {call : AgentCallOpts} :
    Counted options start (ctx.acquired options index call) := by
  unfold WorkflowCtx.acquired
  by_cases reached : options.cap ≤ ctx.agentCount
  · rw [if_pos reached]
    refine counted.endCall ?_
    rintro limit used ⟨⟩
    exact ⟨rfl, rfl, reached⟩
  · rw [if_neg reached]
    cases ctx.cached call with
    | some result => exact counted.endCall fun _ _ told => absurd told returned_ne_refused
    | none =>
      dsimp only
      split_ifs
      · exact counted.endCall fun _ _ told => absurd told returned_ne_refused
      · exact counted.same rfl rfl

theorem callStep_counted (counted : Counted options start ctx) (step : CallStep) :
    Counted options start (callStep options script ctx step) := by
  cases step with
  | beginCall index =>
    rw [callStep, WorkflowCtx.beginCall]
    cases script.call? ctx.handed index with
    | none => exact counted
    | some call =>
      dsimp only
      split_ifs
      · exact counted
      · exact counted.acquired
  | finishCall index outcome =>
    rw [callStep, WorkflowCtx.finishCall]
    cases ctx.inFlight.find? (·.index = index) with
    | none => exact counted
    | some flight =>
      cases script.call? ctx.handed index with
      | none => exact counted
      | some call =>
        refine Counted.endCall ?_ fun _ _ told => absurd told returned_ne_refused
        exact counted.same rfl rfl

theorem beginRun_counted (saved : Option DwfCheckpointState) (steps : List CallStep) :
    Counted options (WorkflowCtx.resume saved) (beginRun options script saved steps) := by
  have keeps : ∀ state step, Counted options (WorkflowCtx.resume saved) state →
      Counted options (WorkflowCtx.resume saved) (callStep options script state step) :=
    fun _ step held => callStep_counted held step
  refine Runs.finish_keeps (callStep options script) keeps ?_ steps
  cases saved <;> exact ⟨rfl, fun before _ _ _ inside => by
    have short := inside.length_le
    rw [List.length_append] at short
    exact absurd short (Nat.not_succ_le_zero _)⟩

/-- **The accounts of a run that was resumed any number of times**: with no call at a worker, the tokens spent
are those of its workers; and the calls are counted on from the checkpoint. -/
theorem lineage_accounts {used : Int} (lineage : Lineage options script ctx used)
    (quiet : ctx.inFlight = []) :
    ctx.checkpoint.spent = used ∧
      ∀ saved steps, Counted options (WorkflowCtx.resume saved) (beginRun options script saved steps) := by
  refine ⟨?_, beginRun_counted⟩
  have spent := lineage.spent_eq.1
  rw [WorkflowCtx.reserved, quiet] at spent
  exact (sub_zero _).symm.trans spent

end

def allAtOnce (items : List AgentCallOpts) : Script AgentCallOpts Answer where
  calls _ := items
  grows _ _ := List.prefix_rfl

def spending : Outcome := .done (some { input := some 10, output := some 20 }) "text" none "result.md"

def twoCalls : Script AgentCallOpts Answer := oneByOne [reviewCall, mergeCall ["a"]]

/-- **The accounts of a run that was resumed once**, after the review. -/
theorem lineage_accounts_of_two :
    (beginRun plainOptions twoCalls
      (some (beginRun plainOptions twoCalls none
        [.beginCall 0, .finishCall 0 spending]).checkpoint)
      [.beginCall 0, .beginCall 1, .finishCall 1 spending]).checkpoint.spent = 60 := by
  have earlier : Lineage plainOptions twoCalls
      (beginRun plainOptions twoCalls none [.beginCall 0, .finishCall 0 spending])
      (tokensUsed plainOptions twoCalls (WorkflowCtx.resume none)
        [.beginCall 0, .finishCall 0 spending]) := .fresh _
  have lineage := Lineage.resumed earlier (by decide) [.beginCall 0, .beginCall 1, .finishCall 1 spending]
  exact (lineage_accounts lineage (by decide)).1.trans (by decide)

def cappedOptions : MakeWorkflowCtxOptions := { maxAgentCalls := some 3, countTokens := String.length }

def threeCalls : Script AgentCallOpts Answer :=
  oneByOne [reviewCall, mergeCall ["a"], mergeCall ["b"]]

/-- **What is reserved for a call at a worker is checkpointed**, and stays spent in the run that is resumed;
and a run that makes three calls is refused its second one when it was resumed after that. -/
theorem reserve_checkpointed :
    (beginRun plainOptions (allAtOnce [reviewCall, mergeCall ["a"]]) none
      [.beginCall 0, .beginCall 1, .finishCall 0 spending]).checkpoint.spent = 542 ∧
    (resumeRun plainOptions (allAtOnce [reviewCall, mergeCall ["a"]]) none
      [.beginCall 0, .beginCall 1, .finishCall 0 spending]
      [.beginCall 0, .beginCall 1, .finishCall 1 spending]).checkpoint.spent = 572 ∧
    (beginRun cappedOptions threeCalls none
      [.beginCall 0, .finishCall 0 spending, .beginCall 1, .finishCall 1 spending, .beginCall 2,
        .finishCall 2 spending]).texts = ["text", "text", "text"] ∧
    (resumeRun cappedOptions threeCalls none
      [.beginCall 0, .finishCall 0 spending, .beginCall 1, .finishCall 1 spending]
      [.beginCall 0, .beginCall 1]).handed.getLast? = some (1, .refused 3 3) := by
  refine ⟨by decide, by decide, by decide, by decide⟩

end PiCrew.GoalWorkflow
