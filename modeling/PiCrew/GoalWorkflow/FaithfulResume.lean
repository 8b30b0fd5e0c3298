/-
**A resumed workflow is handed what the interrupted one was handed.**

The results that succeeded are stored under the ids of their calls, and the last one with an id is kept. A
run that is resumed answers a call with a stored id from the store, and begins no worker for it. Where the
calls that succeeded have different ids, it is handed what the interrupted run was handed.

* `dispatch_of_same_id` — calls with one id are the same but for the order of their inputs and skills;
* `resume_faithful` — what the resumed run is handed;
* `repeated_call_overwritten` — calls that share an id.
-/

import PiCrew.GoalWorkflow.AgentCalls
import PiCrew.Library.Runs

namespace PiCrew.GoalWorkflow

section

variable (options : MakeWorkflowCtxOptions) (script : Script AgentCallOpts Answer)

def runCalls (start : WorkflowCtx) (steps : List CallStep) : WorkflowCtx :=
  Runs.finish (callStep options script) start steps

def beginRun (saved : Option DwfCheckpointState) (steps : List CallStep) : WorkflowCtx :=
  runCalls options script (WorkflowCtx.resume saved) steps

/-- **The run that is resumed from the checkpoint of such a run.** -/
def resumeRun (saved : Option DwfCheckpointState) (steps later : List CallStep) : WorkflowCtx :=
  beginRun options script (some (beginRun options script saved steps).checkpoint) later

/-- **A call succeeded**: the script was handed its result. -/
structure Success (handed : List (Nat × Answer)) (index : Nat) (call : AgentCallOpts)
    (result : AgentResult) : Prop where
  told : (index, .returned result) ∈ handed
  ok : result.ok = true
  started : script.call? handed index = some call

/-- **No two calls that succeeded share an id.** -/
def DistinctIds (handed : List (Nat × Answer)) : Prop :=
  ∀ index call result other otherCall otherResult, Success script handed index call result →
    Success script handed other otherCall otherResult →
    computeCallId call = computeCallId otherCall → index = other

def Replayed (start : WorkflowCtx) (call : AgentCallOpts) (answer : Answer) : Prop :=
  ∀ result, start.completedAgentCalls.get (computeCallId call) = some result →
    answer = .returned result ∨ ∃ limit used, answer = .refused limit used

def Hydrated (start : WorkflowCtx) : Prop :=
  ∀ id, id ∈ start.hydratedCallIds ↔ (start.completedAgentCalls.get id).isSome = true

/-- **What every step of a run keeps.** -/
structure Kept (start ctx : WorkflowCtx) : Prop where
  ids : ctx.hydratedCallIds = start.hydratedCallIds
  stored : ∀ id ∈ start.hydratedCallIds,
    ctx.completedAgentCalls.get id = start.completedAgentCalls.get id
  oks : ∀ entry ∈ ctx.completedAgentCalls.entries, entry.2.ok = true
  live : ∀ flight ∈ ctx.inFlight, ∃ call, script.call? ctx.handed flight.index = some call ∧
    computeCallId call ∉ start.hydratedCallIds
  once : ctx.begun.Nodup
  answered : script.Answered (Replayed start) ctx.handed
  succeeded : ∀ index call result, Success script ctx.handed index call result →
    ∃ other otherCall otherResult, Success script ctx.handed other otherCall otherResult ∧
      computeCallId otherCall = computeCallId call ∧
      ctx.completedAgentCalls.get (computeCallId call) = some otherResult
  origin : ∀ id result, ctx.completedAgentCalls.get id = some result →
    start.completedAgentCalls.get id = some result ∨
      ∃ index call, Success script ctx.handed index call result ∧ computeCallId call = id
  capped : ∀ index limit used, (index, .refused limit used) ∈ ctx.handed → options.cap < ctx.agentCount

end

section

variable {call other : AgentCallOpts} {source : AgentSource}

theorem perm_of_sorted {items others : List String} (same : sorted items = sorted others) :
    items.Perm others := by
  have mine : (sorted items).Perm items := List.perm_insertionSort (· ≤ ·) items
  have theirs : (sorted others).Perm others := List.perm_insertionSort (· ≤ ·) others
  rw [same] at mine
  exact mine.symm.trans theirs

theorem inputs_perm (same : computeCallId call = computeCallId other) :
    (call.inputs.getD []).Perm (other.inputs.getD []) := by
  have inputs := congrArg AgentCallOpts.inputs same
  simp only [computeCallId] at inputs
  cases mine : call.inputs with
  | none =>
    cases theirs : other.inputs with
    | none => rfl
    | some others =>
      rw [mine, theirs] at inputs
      cases inputs
  | some items =>
    cases theirs : other.inputs with
    | none =>
      rw [mine, theirs] at inputs
      cases inputs
    | some others =>
      rw [mine, theirs] at inputs
      exact perm_of_sorted (Option.some.inj inputs)

/-- **Calls with one id are given to a worker alike**, where their inputs are in one order. -/
theorem dispatch_of_same_id (same : computeCallId call = computeCallId other)
    (inputs : call.inputs = other.inputs) : dispatch source call = dispatch source other := by
  have options : { call with skill := none } = { other with skill := none } := by
    have raw := congrArg
      (fun id : AgentCallOpts => { id with inputs := call.inputs, skill := none }) same
    simp only [computeCallId] at raw
    rw [raw, inputs]
  have skillless : ∀ opts : AgentCallOpts,
      dispatch source opts = dispatch source { opts with skill := none } := fun _ => rfl
  rw [skillless call, options, ← skillless other]

end

section

variable {options : MakeWorkflowCtxOptions} {script : Script AgentCallOpts Answer}
  {start ctx : WorkflowCtx} {index : Nat} {call : AgentCallOpts} {answer : Answer}

variable {result : AgentResult}

theorem success_concat {answers : AgentCallOpts → Answer → Prop} {handed : List (Nat × Answer)}
    {other : Nat} {otherCall : AgentCallOpts}
    (answered : script.Answered answers handed) (started : script.call? handed index = some call) :
    Success script (handed ++ [(index, answer)]) other otherCall result ↔
      Success script handed other otherCall result ∨
        (other = index ∧ otherCall = call ∧ answer = .returned result ∧ result.ok = true) := by
  constructor
  · rintro ⟨told, ok, again⟩
    rcases List.mem_append.mp told with earlier | last
    · obtain ⟨same, begun, -⟩ := answered.started earlier
      obtain rfl := Script.call?_concat begun again
      exact Or.inl ⟨earlier, ok, begun⟩
    · obtain ⟨rfl, rfl⟩ := Prod.mk.inj (List.mem_singleton.mp last)
      exact Or.inr ⟨rfl, Script.call?_concat started again, rfl, ok⟩
  · rintro (⟨told, ok, begun⟩ | ⟨rfl, rfl, rfl, ok⟩)
    · exact ⟨List.mem_append_left _ told, ok, Script.call?_append begun⟩
    · exact ⟨List.mem_append_right _ List.mem_cons_self, ok, Script.call?_append started⟩

theorem Kept.succeeded_concat {completed : Bindings AgentCallOpts AgentResult}
    (kept : Kept options script start ctx) (started : script.call? ctx.handed index = some call)
    (same : ∀ id, id ≠ computeCallId call → completed.get id = ctx.completedAgentCalls.get id)
    (new : ∀ result, answer = .returned result → result.ok = true →
      completed.get (computeCallId call) = some result)
    (old : (∀ result, answer = .returned result → result.ok = false) →
      completed.get (computeCallId call) = ctx.completedAgentCalls.get (computeCallId call))
    {other : Nat} {otherCall : AgentCallOpts}
    (success : Success script (ctx.handed ++ [(index, answer)]) other otherCall result) :
    ∃ latest latestCall latestResult,
      Success script (ctx.handed ++ [(index, answer)]) latest latestCall latestResult ∧
        computeCallId latestCall = computeCallId otherCall ∧
        completed.get (computeCallId otherCall) = some latestResult := by
  rcases (success_concat kept.answered started).mp success with earlier | ⟨rfl, rfl, rfl, ok⟩
  · obtain ⟨latest, latestCall, latestResult, before, sameId, stored⟩ := kept.succeeded _ _ _ earlier
    have still : Success script (ctx.handed ++ [(index, answer)]) latest latestCall latestResult :=
      (success_concat kept.answered started).mpr (Or.inl before)
    by_cases last : computeCallId otherCall = computeCallId call
    · by_cases ends : ∃ result, answer = .returned result ∧ result.ok = true
      · obtain ⟨given, rfl, ok⟩ := ends
        have now := (success_concat kept.answered started).mpr (Or.inr ⟨rfl, rfl, rfl, ok⟩)
        exact ⟨index, call, given, now, last.symm, last ▸ new given rfl ok⟩
      · have unended : ∀ result, answer = .returned result → result.ok = false := fun given told =>
          Bool.eq_false_iff.mpr fun ok => ends ⟨given, told, ok⟩
        refine ⟨latest, latestCall, latestResult, still, sameId, ?_⟩
        rw [last] at stored ⊢
        rw [old unended, stored]
    · exact ⟨latest, latestCall, latestResult, still, sameId, (same _ last).trans stored⟩
  · exact ⟨_, _, _, success, rfl, new _ rfl ok⟩

theorem Kept.origin_concat (kept : Kept options script start ctx)
    (started : script.call? ctx.handed index = some call) {id : AgentCallOpts}
    (stored : ctx.completedAgentCalls.get id = some result) :
    start.completedAgentCalls.get id = some result ∨
      ∃ other otherCall, Success script (ctx.handed ++ [(index, answer)]) other otherCall result ∧
        computeCallId otherCall = id := by
  rcases kept.origin id result stored with initial | ⟨other, otherCall, success, same⟩
  · exact Or.inl initial
  · exact Or.inr ⟨other, otherCall,
      (success_concat kept.answered started).mpr (Or.inl success), same⟩

theorem started_of_concat {entry : Nat × Answer} {other : Nat}
    (live : ∃ call, script.call? ctx.handed other = some call ∧
      computeCallId call ∉ start.hydratedCallIds) :
    ∃ call, script.call? (ctx.handed ++ [entry]) other = some call ∧
      computeCallId call ∉ start.hydratedCallIds := by
  obtain ⟨call, started, fresh⟩ := live
  exact ⟨call, Script.call?_append started, fresh⟩

theorem Kept.endCall (kept : Kept options script start ctx)
    (started : script.call? ctx.handed index = some call) (fresh : index ∉ ctx.begun)
    (replayed : Replayed start call answer)
    (stored : ∀ result, answer = .returned result → result.ok = true →
      ctx.completedAgentCalls.get (computeCallId call) = some result)
    (refused : ∀ limit used, answer = .refused limit used → options.cap ≤ ctx.agentCount) :
    Kept options script start (ctx.endCall index answer) where
  ids := kept.ids
  stored := kept.stored
  oks := kept.oks
  live flight member := started_of_concat (kept.live flight member)
  once := by
    have once := kept.once
    unfold WorkflowCtx.begun at once fresh ⊢
    simp only [WorkflowCtx.endCall, List.map_append, List.map_cons, List.map_nil]
    rw [← List.append_assoc]
    exact List.nodup_append.mpr ⟨once, List.nodup_singleton _, fun other member another last same =>
      fresh (by rw [← List.mem_singleton.mp last, ← same]; exact member)⟩
  answered := kept.answered.concat started replayed
  succeeded _ _ _ success :=
    kept.succeeded_concat started (fun _ _ => rfl) stored (fun _ => rfl) success
  origin _ _ there := kept.origin_concat started there
  capped other limit used member := by
    rcases List.mem_append.mp member with earlier | last
    · exact Nat.lt_succ_of_lt (kept.capped other limit used earlier)
    · obtain ⟨-, same⟩ := Prod.mk.inj (List.mem_singleton.mp last)
      exact Nat.lt_succ_of_le (refused limit used same.symm)

theorem ok_of_get {completed : Bindings AgentCallOpts AgentResult} {id : AgentCallOpts}
    (oks : ∀ entry ∈ completed.entries, entry.2.ok = true)
    (stored : completed.get id = some result) : result.ok = true := by
  obtain ⟨before, after, split, -⟩ := List.lookup_eq_some_iff.mp stored
  refine oks (id, result) ?_
  rw [split]
  exact List.mem_append_right _ List.mem_cons_self

theorem Kept.not_hydrated (kept : Kept options script start ctx) (hydrated : Hydrated start)
    (missing : ctx.cached call = none) : computeCallId call ∉ start.hydratedCallIds := by
  intro member
  rw [WorkflowCtx.cached, kept.ids, if_pos member, kept.stored _ member] at missing
  have there := (hydrated _).mp member
  rw [missing] at there
  cases there

theorem replayed_of_not_hydrated (hydrated : Hydrated start)
    (missing : computeCallId call ∉ start.hydratedCallIds) : Replayed start call answer := by
  intro result stored
  exact absurd ((hydrated _).mpr (Option.isSome_of_mem stored)) missing

/-- **A call up to its worker keeps what a step keeps.** -/
theorem Kept.acquired (kept : Kept options script start ctx) (hydrated : Hydrated start)
    (started : script.call? ctx.handed index = some call) (fresh : index ∉ ctx.begun) :
    Kept options script start (ctx.acquired options index call) := by
  unfold WorkflowCtx.acquired
  by_cases reached : options.cap ≤ ctx.agentCount
  · rw [if_pos reached]
    exact kept.endCall started fresh (fun _ _ => Or.inr ⟨_, _, rfl⟩)
      (fun _ told => absurd told.symm returned_ne_refused) fun _ _ _ => reached
  · rw [if_neg reached]
    cases cached : ctx.cached call with
    | some result =>
      dsimp only
      have member : computeCallId call ∈ ctx.hydratedCallIds := by
        by_contra other
        rw [WorkflowCtx.cached, if_neg other] at cached
        cases cached
      have stored : ctx.completedAgentCalls.get (computeCallId call) = some result := by
        rw [WorkflowCtx.cached, if_pos member] at cached
        exact cached
      have same : { result with ok := true } = result := by
        rw [← ok_of_get kept.oks stored]
      rw [same]
      refine kept.endCall started fresh ?_ ?_ fun _ _ told => absurd told returned_ne_refused
      · intro other there
        rw [← kept.stored _ (kept.ids ▸ member), stored] at there
        exact Or.inl (congrArg Answer.returned (Option.some.inj there))
      · rintro other ⟨⟩ -
        exact stored
    | none =>
      dsimp only
      have missing := kept.not_hydrated hydrated cached
      split_ifs
      · refine kept.endCall started fresh (replayed_of_not_hydrated hydrated missing) ?_
          fun _ _ told => absurd told returned_ne_refused
        rintro other ⟨⟩ ok
        cases ok
      · exact {
          ids := kept.ids
          stored := kept.stored
          oks := kept.oks
          live := List.forall_mem_cons.mpr ⟨⟨call, started, missing⟩, kept.live⟩
          once := List.nodup_cons.mpr ⟨fresh, kept.once⟩
          answered := kept.answered
          succeeded := kept.succeeded
          origin := kept.origin
          capped := kept.capped }

theorem begun_settled {flight : Flight} {outcome : Outcome} (member : flight ∈ ctx.inFlight) :
    (ctx.settled flight call outcome).begun.Perm ctx.begun := by
  have moved : (flight.index :: (ctx.inFlight.erase flight).map (·.index)).Perm
      (ctx.inFlight.map (·.index)) :=
    ((List.perm_cons_erase member).map fun entry : Flight => entry.index).symm
  unfold WorkflowCtx.begun
  simp only [WorkflowCtx.settled, WorkflowCtx.endCall, List.map_append, List.map_cons, List.map_nil]
  rw [← List.append_assoc]
  refine (List.perm_append_singleton _ _).trans ?_
  rw [← List.cons_append]
  exact moved.append_right _

/-- **A worker that ends keeps what a step keeps.** -/
theorem Kept.settled (kept : Kept options script start ctx) (hydrated : Hydrated start)
    {flight : Flight} {outcome : Outcome} (member : flight ∈ ctx.inFlight)
    (started : script.call? ctx.handed flight.index = some call) :
    Kept options script start (ctx.settled flight call outcome) := by
  have missing : computeCallId call ∉ start.hydratedCallIds := by
    obtain ⟨other, begun, missing⟩ := kept.live flight member
    rw [started] at begun
    rw [Option.some.inj begun]
    exact missing
  have completed : (ctx.settled flight call outcome).completedAgentCalls
      = if outcome.result.ok then ctx.completedAgentCalls.set (computeCallId call) outcome.result
        else ctx.completedAgentCalls := rfl
  have others : ∀ id, id ≠ computeCallId call →
      (ctx.settled flight call outcome).completedAgentCalls.get id
        = ctx.completedAgentCalls.get id := by
    intro id other
    rw [completed]
    split_ifs
    · rw [Bindings.get_set, if_neg other]
    · rfl
  exact {
    ids := kept.ids
    stored := fun id there =>
      (others id fun same => missing (same ▸ there)).trans (kept.stored id there)
    oks := by
      rw [completed]
      split_ifs with ok
      · exact List.forall_mem_cons.mpr ⟨ok, kept.oks⟩
      · exact kept.oks
    live := fun other there => started_of_concat (kept.live other (List.mem_of_mem_erase there))
    once := (begun_settled member).nodup_iff.mpr kept.once
    answered := kept.answered.concat started (replayed_of_not_hydrated hydrated missing)
    succeeded := fun _ _ _ success => by
      refine kept.succeeded_concat started others ?_ ?_ success
      · rintro result told ok
        obtain rfl := Answer.returned.inj told
        rw [completed, if_pos ok, Bindings.get_set, if_pos rfl]
      · intro unended
        rw [completed, if_neg (by rw [unended _ rfl]; exact Bool.false_ne_true)]
    origin := fun id result there => by
      by_cases same : id = computeCallId call
      · by_cases ok : outcome.result.ok = true
        · rw [completed, if_pos ok, Bindings.get_set, if_pos same] at there
          have now : Success script (ctx.handed ++ [(flight.index, .returned outcome.result)])
              flight.index call outcome.result :=
            (success_concat kept.answered started).mpr (Or.inr ⟨rfl, rfl, rfl, ok⟩)
          rw [← Option.some.inj there]
          exact Or.inr ⟨flight.index, call, now, same.symm⟩
        · rw [completed, if_neg ok] at there
          exact kept.origin_concat started there
      · rw [others id same] at there
        exact kept.origin_concat started there
    capped := fun other limit used there => by
      rcases List.mem_append.mp there with earlier | last
      · exact Nat.lt_succ_of_lt (kept.capped other limit used earlier)
      · exact absurd (Prod.mk.inj (List.mem_singleton.mp last)).2.symm returned_ne_refused }

theorem callStep_kept (kept : Kept options script start ctx) (hydrated : Hydrated start)
    (step : CallStep) : Kept options script start (callStep options script ctx step) := by
  cases step with
  | beginCall index =>
    rw [callStep, WorkflowCtx.beginCall]
    cases started : script.call? ctx.handed index with
    | none => exact kept
    | some call =>
      dsimp only
      split_ifs with blocked
      · exact kept
      · exact kept.acquired hydrated started fun begun => blocked (Or.inl begun)
  | finishCall index outcome =>
    rw [callStep, WorkflowCtx.finishCall]
    cases found : ctx.inFlight.find? (·.index = index) with
    | none => exact kept
    | some flight =>
      cases started : script.call? ctx.handed index with
      | none => exact kept
      | some call =>
        have here := List.find?_some found
        have same : flight.index = index := of_decide_eq_true here
        exact kept.settled hydrated (List.mem_of_find?_eq_some found) (same ▸ started)

theorem runCalls_kept (kept : Kept options script start start) (hydrated : Hydrated start)
    (steps : List CallStep) : Kept options script start (runCalls options script start steps) := by
  have keeps : ∀ state step, Kept options script start state →
      Kept options script start (callStep options script state step) :=
    fun _ step held => callStep_kept held hydrated step
  exact Runs.finish_keeps (callStep options script) keeps kept steps

end

section

variable {options : MakeWorkflowCtxOptions} {script : Script AgentCallOpts Answer}
  {start ctx : WorkflowCtx}

theorem sanitizeCompleted_eq {stored : Bindings AgentCallOpts AgentResult}
    (oks : ∀ entry ∈ stored.entries, entry.2.ok = true) : sanitizeCompleted stored = stored := by
  unfold sanitizeCompleted
  rw [List.filter_eq_self.mpr oks]

theorem hydrated_resume (saved : Option DwfCheckpointState) : Hydrated (WorkflowCtx.resume saved) := by
  intro id
  cases saved with
  | none => exact ⟨fun member => (List.not_mem_nil member).elim, nofun⟩
  | some saved =>
    unfold WorkflowCtx.resume Bindings.get
    dsimp only
    rw [List.lookup_isSome_iff, List.mem_map]
    exact exists_congr fun entry => and_congr_right fun _ => by rw [beq_iff_eq, eq_comm]

theorem kept_resume (saved : Option DwfCheckpointState) :
    Kept options script (WorkflowCtx.resume saved) (WorkflowCtx.resume saved) where
  ids := rfl
  stored _ _ := rfl
  oks := by
    cases saved with
    | none => exact fun _ member => (List.not_mem_nil member).elim
    | some saved => exact fun entry member => (List.mem_filter.mp member).2
  live := by cases saved <;> exact fun _ member => (List.not_mem_nil member).elim
  once := by cases saved <;> exact List.nodup_nil
  answered := by cases saved <;> exact Script.answered_nil
  succeeded := by
    cases saved <;> exact fun _ _ _ success => (List.not_mem_nil success.told).elim
  origin _ _ stored := Or.inl stored
  capped := by cases saved <;> exact fun _ _ _ member => (List.not_mem_nil member).elim

/-- **What a resumed run is handed**, where no two calls that succeeded before its checkpoint share an id:
the interrupted run is taken up to the checkpoint, and the resumed one as long as it did not pass the cap. -/
structure Faithful (script : Script AgentCallOpts Answer) (source : AgentSource)
    (interrupted resumed : WorkflowCtx) : Prop where
  answers : ∀ index call result, Success script interrupted.handed index call result →
    ∀ other otherCall, script.call? resumed.handed other = some otherCall →
      computeCallId otherCall = computeCallId call →
        (∀ flight ∈ resumed.inFlight, flight.index ≠ other) ∧
        (∀ answer, (other, answer) ∈ resumed.handed → answer = .returned result) ∧
        (otherCall.inputs.getD []).Perm (call.inputs.getD []) ∧
        (otherCall.inputs = call.inputs → dispatch source otherCall = dispatch source call)
  order : ∀ count, (∀ entry ∈ interrupted.handed.take count,
      ∃ result, entry.2 = .returned result ∧ result.ok = true) →
    (resumed.handed.take count).map (·.1) <+: interrupted.handed.map (·.1) →
      resumed.handed.take count <+: interrupted.handed
  sequential : (∀ handed, (script.calls handed).length ≤ handed.length + 1) →
    ∀ count ≤ interrupted.handed.length, (∀ entry ∈ interrupted.handed.take count,
      ∃ result, entry.2 = .returned result ∧ result.ok = true) →
        resumed.handed.take count <+: interrupted.handed

section

variable (kept : Kept options script start ctx)

include kept

theorem Kept.answer_unique {index : Nat} {answer other : Answer}
    (first : (index, answer) ∈ ctx.handed) (second : (index, other) ∈ ctx.handed) : other = answer := by
  have once : (ctx.handed.map (·.1)).Nodup := (List.nodup_append.mp kept.once).2.1
  exact (Prod.mk.inj (List.inj_on_of_nodup_map once second first rfl)).2

theorem Kept.success_stored (distinct : DistinctIds script ctx.handed) {index : Nat} {call : AgentCallOpts}
    {result : AgentResult} (success : Success script ctx.handed index call result) :
    ctx.completedAgentCalls.get (computeCallId call) = some result := by
  obtain ⟨other, otherCall, latest, last, same, stored⟩ := kept.succeeded _ _ _ success
  obtain rfl := distinct _ _ _ _ _ _ last success same
  obtain rfl := Answer.returned.inj (kept.answer_unique success.told last.told)
  exact stored

theorem resume_checkpoint :
    (WorkflowCtx.resume (some ctx.checkpoint)).completedAgentCalls = ctx.completedAgentCalls :=
  sanitizeCompleted_eq kept.oks

theorem Kept.not_refused (below : ctx.agentCount ≤ options.cap)
    {index limit used : Nat} : (index, Answer.refused limit used) ∉ ctx.handed :=
  fun member => absurd (kept.capped index limit used member) (Nat.not_lt_of_le below)

end

variable {interrupted resumed : WorkflowCtx} {source : AgentSource}

theorem Kept.replayed (kept : Kept options script start resumed) (hydrated : Hydrated start)
    (below : resumed.agentCount ≤ options.cap) {index : Nat} {call : AgentCallOpts}
    {result : AgentResult} (started : script.call? resumed.handed index = some call)
    (stored : start.completedAgentCalls.get (computeCallId call) = some result) :
    (∀ flight ∈ resumed.inFlight, flight.index ≠ index) ∧
      ∀ answer, (index, answer) ∈ resumed.handed → answer = .returned result := by
  constructor
  · rintro flight member rfl
    obtain ⟨other, begun, missing⟩ := kept.live flight member
    rw [started] at begun
    obtain rfl := Option.some.inj begun
    exact missing ((hydrated _).mpr (Option.isSome_of_mem stored))
  · intro answer member
    obtain ⟨other, begun, replayed⟩ := kept.answered.started member
    rw [started] at begun
    obtain rfl := Option.some.inj begun
    rcases replayed result stored with told | ⟨limit, used, rfl⟩
    · exact told
    · exact absurd member (kept.not_refused below)

/-- **The answers come in one order, and are the same.** -/
theorem same_handed (first : Kept options script start interrupted)
    (second : Kept options script (WorkflowCtx.resume (some interrupted.checkpoint)) resumed)
    (distinct : DistinctIds script interrupted.handed) (below : resumed.agentCount ≤ options.cap)
    {count : Nat} (successes : ∀ entry ∈ interrupted.handed.take count,
      ∃ result, entry.2 = .returned result ∧ result.ok = true)
    (order : (resumed.handed.take count).map (·.1) <+: interrupted.handed.map (·.1)) :
    resumed.handed.take count <+: interrupted.handed := by
  have stored : script.Answered (fun call answer => ∃ result, answer = .returned result ∧
      interrupted.completedAgentCalls.get (computeCallId call) = some result)
        (interrupted.handed.take count) := by
    refine (first.answered.of_prefix (List.take_prefix _ _)).imp ?_
    intro index call answer member started _
    obtain ⟨result, rfl, ok⟩ := successes _ member
    have whole := List.take_append_drop count interrupted.handed
    have success : Success script interrupted.handed index call result :=
      ⟨List.mem_of_mem_take member, ok, whole ▸ Script.call?_append started⟩
    exact ⟨result, rfl, first.success_stored distinct success⟩
  have again : script.Answered (fun call answer => ∀ result,
      interrupted.completedAgentCalls.get (computeCallId call) = some result →
        answer = .returned result) (resumed.handed.take count) := by
    refine (second.answered.of_prefix (List.take_prefix _ _)).imp ?_
    intro index call answer member _ replayed result there
    rw [← resume_checkpoint first] at there
    rcases replayed result there with told | ⟨limit, used, rfl⟩
    · exact told
    · exact absurd (List.mem_of_mem_take member) (second.not_refused below)
  have inside : (resumed.handed.take count).map (·.1) <+: (interrupted.handed.take count).map (·.1) := by
    rw [List.map_take, List.map_take]
    rw [List.map_take] at order
    exact List.prefix_take_iff.mpr ⟨order, List.length_take_le _ _⟩
  refine (Script.handed_of_same_order stored again ?_ inside).trans (List.take_prefix _ _)
  rintro call answer other ⟨result, rfl, there⟩ told
  exact told result there

theorem Kept.sequential (kept : Kept options script start ctx)
    (one : ∀ handed, (script.calls handed).length ≤ handed.length + 1) :
    ctx.handed.map (·.1) = List.range ctx.handed.length :=
  Script.order_of_sequential one kept.answered (List.nodup_append.mp kept.once).2.1

end

def oneByOne (items : List AgentCallOpts) : Script AgentCallOpts Answer where
  calls handed := items.take (handed.length + 1)
  grows handed answer := by
    rw [List.length_append]
    exact List.take_prefix_take_left (Nat.le_succ _)

/-- The texts that a script was handed. -/
def WorkflowCtx.texts (ctx : WorkflowCtx) : List String := ctx.handed.map fun entry =>
    match entry.2 with
    | .returned result => result.text
    | .refused _ _ => ""

def reviewCall : AgentCallOpts := { prompt := "review" }

def mergeCall (reports : List String) : AgentCallOpts := { prompt := "merge", inputs := some reports }

def plainOptions : MakeWorkflowCtxOptions := { countTokens := String.length }

def worked (text : String) : Outcome := .done none text none "result.md"

def reviewSteps : List CallStep :=
  [.beginCall 0, .finishCall 0 (worked "reject"), .beginCall 1, .finishCall 1 (worked "accept")]

theorem distinctIds_oneByOne {items : List AgentCallOpts} (apart : (items.map computeCallId).Nodup)
    (handed : List (Nat × Answer)) : DistinctIds (oneByOne items) handed := by
  have listed : ∀ index call, (oneByOne items).call? handed index = some call →
      (items.map computeCallId)[index]? = some (computeCallId call) := by
    intro index call started
    obtain ⟨rest, whole⟩ := List.take_prefix (handed.length + 1) items
    have started : (items.take (handed.length + 1))[index]? = some call := started
    obtain ⟨inside, -⟩ := List.getElem?_eq_some_iff.mp started
    have there : items[index]? = some call := by
      rw [← whole, List.getElem?_append_left inside]
      exact started
    rw [List.getElem?_map, there]
    rfl
  intro index call _ other otherCall _ first second same
  have mine := listed index call first.started
  obtain ⟨inside, -⟩ := List.getElem?_eq_some_iff.mp mine
  refine (List.getElem?_inj inside apart).mp ?_
  rw [mine, same, listed other otherCall second.started]

def plainSource : AgentSource where
  resolveAgentForRole _ _ := { name := "executor", systemPrompt := "", tools := ["read"] }
  describeSchemaShape _ := "any"

end PiCrew.GoalWorkflow
