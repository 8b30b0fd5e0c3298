/-
**What a run lets its tasks delegate.**

The budget of a run is the grant of every task that has no allocation of its own. So each task, and each
grandchild, may delegate as much as the run was granted, and the tasks together a multiple of it.

* `step_fund` — every step, with writes that fail or land, is a step of the pool;
* `delegated_within_grants` — a task reserves at most the grant of its run, in every run of the broker;
* `two_workers_overdraw` — two tasks of one run reserve twice its grant.
-/

import PiCrew.Broker.DelegationAccounts
import PiCrew.Library.Allotment
import Mathlib.Algebra.BigOperators.Ring.Finset

namespace PiCrew.Broker.Delegate

open SpawnPolicy
open State (TaskAllocation TeamTaskStatus)

section

variable (accepted : List Accepted) (runId : String)

def reservedInRun : Nat := ((accepted.filter (·.runId = runId)).map (·.reserved)).sum

def delegators : Finset TaskId := ((accepted.filter (·.runId = runId)).map (·.parentTaskId)).toFinset

variable {accepted runId}

/-- **A run is granted a budget**: nothing was delegated for it, and no task has an allocation. -/
structure Granted (broker : CrewBroker) (runId : String) (budget : Int) : Prop where
  total : ∀ record, broker.runs runId = some record → record.budgetTotal = some budget
  unallocated : ∀ record, broker.runs runId = some record → ∀ task ∈ record.tasks,
    task.allocation = none
  undelegated : ∀ delegation ∈ broker.accepted, delegation.runId ≠ runId

end

section

open CrewBroker
open Allotment (Draw Pool Book)

def accountOf (allocation : TaskAllocation) : Allotment.Account where
  granted := allocation.tokensGranted
  spent := allocation.tokensSpent

def RunRecord.allocation (record : RunRecord) (id : TaskId) : Option TaskAllocation :=
  (record.tasks.find? (·.id = id)).bind (·.allocation)

/-- **The allocations of a run**: a task without one has the budget of the run. -/
def RunRecord.pool (record : RunRecord) : Pool TaskId where
  grant := (if record.budgetUnlimited = some true then none else record.budgetTotal).getD 0
  accounts id := (record.allocation id).map accountOf

def draw (delegation : Accepted) : Draw TaskId where
  key := delegation.parentTaskId
  amount := delegation.reserved

def drawsOf (accepted : List Accepted) (runId : String) : List (Draw TaskId) :=
  (accepted.filter (·.runId = runId)).map draw

def CrewBroker.fund (broker : CrewBroker) (runId : String) : Book TaskId where
  pool := (broker.runs runId).map RunRecord.pool
  draws := drawsOf broker.accepted runId

variable {options : Options} {broker after : CrewBroker} {runId : String}

theorem drawn_drawsOf (accepted : List Accepted) :
    Allotment.drawn (drawsOf accepted runId) = reservedInRun accepted runId := by
  unfold Allotment.drawn drawsOf reservedInRun
  rw [List.map_map]
  rfl

theorem drawers_drawsOf (accepted : List Accepted) :
    Allotment.drawers (drawsOf accepted runId) = delegators accepted runId := by
  unfold Allotment.drawers drawsOf delegators
  rw [List.map_map]
  rfl

theorem drawnBy_drawsOf (accepted : List Accepted) (id : TaskId) :
    (Allotment.drawnBy (drawsOf accepted runId) id : Int) = reservedBy accepted runId id := by
  unfold Allotment.drawnBy drawsOf reservedBy
  rw [List.filter_map, List.filter_filter, List.map_map, Nat.cast_list_sum, List.map_map]
  congr 2
  refine List.filter_congr fun delegation _ => ?_
  exact Bool.and_comm _ _

theorem drawsOf_append (accepted : List Accepted) (delegation : Accepted) :
    drawsOf (accepted ++ [delegation]) runId
      = drawsOf accepted runId ++ if delegation.runId = runId then [draw delegation] else [] := by
  unfold drawsOf
  by_cases own : delegation.runId = runId
  · simp [own]
  · simp [own]

theorem fund_congr (runs : after.runs runId = broker.runs runId)
    (accepted : after.accepted = broker.accepted) : after.fund runId = broker.fund runId := by
  rw [CrewBroker.fund, CrewBroker.fund, runs, accepted]

theorem allocation_map (record : RunRecord) (change : TaskRecord → TaskRecord)
    (ids : ∀ task, (change task).id = task.id) (id : TaskId) :
    RunRecord.allocation { record with tasks := record.tasks.map change } id
      = (record.tasks.find? (·.id = id)).bind fun task => (change task).allocation := by
  have same : (fun task : TaskRecord => decide (task.id = id)) ∘ change
      = fun task => decide (task.id = id) := by
    funext task
    rw [Function.comp_apply, ids]
  unfold RunRecord.allocation
  rw [List.find?_map, same]
  cases record.tasks.find? (·.id = id) <;> rfl

theorem allocation_shadow (record : RunRecord) (request : DelegateRequest) (executionCwd : String)
    (decision : SpawnPolicyDecision) (id : TaskId) :
    RunRecord.allocation
        { record with tasks := record.tasks ++ [shadowTask request executionCwd decision] } id
      = record.allocation id := by
  unfold RunRecord.allocation
  dsimp only
  rw [List.find?_append]
  cases record.tasks.find? (·.id = id) with
  | some task => rfl
  | none =>
    by_cases own : request.subId = id
    · simp [shadowTask, own]
    · simp [shadowTask, own]

theorem pool_congr {record other : RunRecord} (total : other.budgetTotal = record.budgetTotal)
    (unlimited : other.budgetUnlimited = record.budgetUnlimited)
    (allocations : ∀ id, other.allocation id = record.allocation id) : other.pool = record.pool := by
  unfold RunRecord.pool
  rw [total, unlimited, funext allocations]

theorem setStatus_fund (changed : String) (wanted : TaskRecord → Bool) (status : TeamTaskStatus) :
    (broker.setStatus changed wanted status).fund runId = broker.fund runId := by
  unfold CrewBroker.setStatus
  cases read : broker.runs changed with
  | none => rfl
  | some latest =>
    dsimp only
    by_cases own : runId = changed
    · subst own
      have pools : RunRecord.pool {
            latest with
            tasks := latest.tasks.map fun task =>
              if wanted task then { task with status := status } else task } = latest.pool := by
        refine pool_congr rfl rfl fun id => ?_
        rw [allocation_map latest _ (fun task => by split_ifs <;> rfl), RunRecord.allocation]
        congr 1
        funext task
        split_ifs <;> rfl
      unfold CrewBroker.fund CrewBroker.saveRunTasks
      dsimp only
      rw [Function.update_self, read, Option.map_some, Option.map_some, pools]
    · exact fund_congr (Function.update_of_ne own _ _) rfl

theorem promote_fund (changed : String) (subId : TaskId) :
    (broker.promoteShadowToRunning changed subId).fund runId = broker.fund runId := by
  unfold CrewBroker.promoteShadowToRunning
  cases (broker.runs changed).bind fun latest => latest.tasks.find? (·.id = subId) with
  | none => rfl
  | some shadow =>
    dsimp only
    split_ifs
    · exact setStatus_fund changed _ _
    · rfl

theorem settle_fund (index : Nat) (ok saved : Bool) :
    (broker.settle index ok saved).fund runId = broker.fund runId := by
  unfold CrewBroker.settle
  cases broker.live[index]? with
  | none => rfl
  | some grandchild =>
    cases saved with
    | false => rfl
    | true => exact setStatus_fund grandchild.runId _ _

variable {request : DelegateRequest} {catalog : Option (List String)} {fresh : RunRecord} {task : TaskRecord}
  {decision : SpawnPolicyDecision} {slots : NestedSlotBudget TaskId}

theorem account_admission (parent : fresh.tasks.find? (·.id = request.parentTaskId) = some task) :
    let input := broker.admissionInput options fresh task request catalog
    fresh.pool.account request.parentTaskId = { granted := input.granted, spent := input.spent } := by
  have allocation : fresh.allocation request.parentTaskId = task.allocation := by
    rw [RunRecord.allocation, parent]
    rfl
  have account : fresh.pool.account request.parentTaskId
      = (task.allocation.map accountOf).getD { granted := fresh.pool.grant, spent := 0 } := by
    rw [← allocation]
    rfl
  dsimp only
  rw [account, DelegateAdmissionInput.granted, DelegateAdmissionInput.spent]
  unfold CrewBroker.admissionInput
  cases task.allocation <;> rfl

/-- **The tokens that a delegation reserves** are spent from the account of its parent, which has them
left. -/
theorem CrewBroker.Allowed.reserves (allowed : broker.Allowed options request catalog fresh task decision slots)
    (metered : decision.budget.metered = true) :
    (reservedTokens decision.budget : Int) ≤ fresh.pool.left request.parentTaskId ∧
      RunRecord.pool {
          fresh with
          tasks := reserveTasks fresh.tasks request.parentTaskId decision.budget }
        = fresh.pool.spend request.parentTaskId (reservedTokens decision.budget) := by
  obtain ⟨decided, -, enough⟩ := evaluateDelegateAdmission_ok allowed.decided
  have account : fresh.pool.account request.parentTaskId
      = { granted := decision.budget.grantedTokens, spent := decision.budget.spentTokens } := by
    rw [decided]
    exact account_admission allowed.parent
  refine ⟨?_, ?_⟩
  · obtain ⟨tokens, asked⟩ := Option.isSome_iff_exists.mp (allowed.metered.1 ▸ metered)
    have reserved : reservedTokens decision.budget = tokens := by
      rw [reservedTokens, if_pos metered, allowed.metered.2, asked]
      rfl
    rw [reserved, Pool.left, account, decided]
    exact enough tokens asked
  · refine Pool.ext rfl (funext fun id => ?_)
    have found : RunRecord.allocation
          { fresh with tasks := reserveTasks fresh.tasks request.parentTaskId decision.budget } id
        = (fresh.tasks.find? (·.id = id)).bind fun task =>
            if task.id = request.parentTaskId then charge decision.budget task.allocation
            else task.allocation := by
      unfold reserveTasks
      rw [allocation_map fresh _ (fun task => by split_ifs <;> rfl)]
      congr 1
      funext task
      split_ifs <;> rfl
    show (RunRecord.allocation _ id).map accountOf = _
    rw [found, Pool.spend, account]
    dsimp only
    by_cases own : id = request.parentTaskId
    · subst own
      have here := List.find?_some allowed.parent
      rw [Function.update_self, allowed.parent, Option.bind_some, if_pos (of_decide_eq_true here),
        charge, if_pos metered]
      rfl
    · rw [Function.update_of_ne own]
      show _ = (fresh.allocation id).map accountOf
      rw [RunRecord.allocation]
      congr 1
      cases other : fresh.tasks.find? (·.id = id) with
      | none => rfl
      | some task =>
        have there := List.find?_some other
        rw [Option.bind_some, Option.bind_some, of_decide_eq_true there, if_neg own]

theorem register_cases (fresh : RunRecord) (task : TaskRecord) (request : DelegateRequest)
    (decision : SpawnPolicyDecision) (failing : Option StateWrite) :
    broker.register fresh task request decision failing = (broker, .threw) ∨
      (decision.budget.metered = true ∧
        broker.register fresh task request decision failing
          = (broker.saveRunTasks request.runId fresh
              (reserveTasks fresh.tasks request.parentTaskId decision.budget), .threw)) ∨
      broker.register fresh task request decision failing
        = (broker.saveRunTasks request.runId fresh
            (reserveTasks fresh.tasks request.parentTaskId decision.budget
              ++ [shadowTask request task.cwd decision]),
          .ok (admittedOf request task decision)) := by
  cases metered : decision.budget.metered with
  | false =>
    by_cases shadows : failing = some .shadow
    · refine Or.inl ?_
      unfold register
      rw [shadows]
      simp [metered]
    · exact Or.inr (Or.inr (register_lands (fun both => absurd (metered.symm.trans both) Bool.false_ne_true) shadows))
  | true =>
    by_cases reserves : failing = some .reserve
    · refine Or.inl ?_
      unfold register
      simp [metered, reserves]
    · by_cases shadows : failing = some .shadow
      · refine Or.inr (Or.inl ⟨rfl, ?_⟩)
        unfold register
        simp [metered, shadows]
      · exact Or.inr (Or.inr (register_lands (fun _ => reserves) shadows))

theorem saveRunTasks_fund (saved : String) (fresh : RunRecord) (tasks : List TaskRecord) :
    (broker.saveRunTasks saved fresh tasks).fund runId
      = if saved = runId then
          { pool := some (RunRecord.pool { fresh with tasks := tasks })
            draws := (broker.fund runId).draws }
        else broker.fund runId := by
  by_cases own : saved = runId
  · subst own
    rw [if_pos rfl, CrewBroker.fund, CrewBroker.fund, CrewBroker.saveRunTasks]
    dsimp only
    rw [Function.update_self]
    rfl
  · rw [if_neg own]
    exact fund_congr (Function.update_of_ne (Ne.symm own) _ _) rfl

theorem fund_of_read {record : RunRecord} (read : broker.runs runId = some record) :
    broker.fund runId = { pool := some record.pool, draws := drawsOf broker.accepted runId } := by
  rw [CrewBroker.fund, read]
  rfl

theorem accepted_fund (delegation : Accepted) (admitted : List Admitted) :
    ({ broker with
        admitted := admitted
        accepted := broker.accepted ++ [delegation] } : CrewBroker).fund runId
      = { pool := (broker.fund runId).pool
          draws := (broker.fund runId).draws
            ++ if delegation.runId = runId then [draw delegation] else [] } := by
  unfold CrewBroker.fund
  rw [drawsOf_append]

/-- **What the writes of an admission do to the fund of a run**, with the delegation that they come to. -/
theorem register_fund (runId : String)
    (allowed : broker.Allowed options request catalog fresh task decision slots) :
    (decision.budget.metered = true →
      Allotment.Step (broker.fund runId)
        ((broker.saveRunTasks request.runId fresh
          (reserveTasks fresh.tasks request.parentTaskId decision.budget)).fund runId)) ∧
    Allotment.Step (broker.fund runId)
      { pool := ((broker.saveRunTasks request.runId fresh
          (reserveTasks fresh.tasks request.parentTaskId decision.budget
            ++ [shadowTask request task.cwd decision])).fund runId).pool
        draws := (broker.fund runId).draws
          ++ if request.runId = runId then
              [{ key := request.parentTaskId, amount := reservedTokens decision.budget }]
            else [] } := by
  have shadow : RunRecord.pool {
        fresh with
        tasks := reserveTasks fresh.tasks request.parentTaskId decision.budget
          ++ [shadowTask request task.cwd decision] }
      = RunRecord.pool {
          fresh with
          tasks := reserveTasks fresh.tasks request.parentTaskId decision.budget } :=
    pool_congr rfl rfl fun id => allocation_shadow
      { fresh with tasks := reserveTasks fresh.tasks request.parentTaskId decision.budget } request
      task.cwd decision id
  rw [saveRunTasks_fund, saveRunTasks_fund, shadow]
  by_cases own : request.runId = runId
  · subst own
    rw [if_pos rfl, if_pos rfl, fund_of_read allowed.read]
    refine ⟨fun metered => ?_, ?_⟩
    · obtain ⟨enough, spent⟩ := allowed.reserves metered
      rw [spent]
      exact .waste enough
    · cases metered : decision.budget.metered with
      | true =>
        obtain ⟨enough, spent⟩ := allowed.reserves metered
        rw [spent]
        exact .draw enough
      | false =>
        have nothing : reservedTokens decision.budget = 0 := by
          rw [reservedTokens, metered]
          rfl
        rw [reserveTasks_unmetered metered, nothing]
        exact .free
  · rw [if_neg own, if_neg own, List.append_nil]
    exact ⟨fun _ => .idle _, .idle _⟩

theorem resume_fund (index : Nat) (attempt : Attempt) :
    Allotment.Step (broker.fund runId) ((broker.resume options index attempt).fund runId) := by
  cases waits : broker.waiting[index]? with
  | none =>
    rw [CrewBroker.resume, waits]
    exact .idle _
  | some request =>
    unfold CrewBroker.resume
    rw [waits]
    cases attempt with
    | busy | readFails => exact .idle _
    | locked catalog failing =>
      dsimp only
      cases allowed : broker.allows options request catalog with
      | false =>
        obtain ⟨code, message, refused⟩ :=
          admission_denied ((allows_leave index request catalog).trans allowed) failing
        rw [refused]
        exact .idle _
      | true =>
        obtain ⟨fresh, task, decision, slots, facts, admitted⟩ :=
          admission_allowed ((allows_leave index request catalog).trans allowed) failing
        obtain ⟨wastes, draws⟩ := register_fund runId facts
        rw [admitted]
        rcases register_cases fresh task request decision failing with
          threw | ⟨metered, threw⟩ | landed
        · rw [threw]
          exact .idle _
        · rw [threw]
          exact wastes metered
        · rw [landed]
          dsimp only
          rw [accepted_fund]
          exact draws

/-- **Every step is a step of the fund**, whether or not its writes land. -/
theorem step_fund (action : Action) :
    Allotment.Step (broker.fund runId) ((broker.step options action).fund runId) := by
  cases action with
  | request conn id params =>
    rw [CrewBroker.step]
    rcases handleDelegateRequest_cases options broker conn id params with
      ⟨reply, answered⟩ | ⟨request, minted, waits⟩
    · rw [answered]
      exact .idle _
    · rw [waits]
      exact .idle _
  | resume index attempt => exact resume_fund index attempt
  | start index =>
    have same : ((broker.start options index).fund runId) = broker.fund runId := by
      unfold CrewBroker.start
      cases broker.admitted[index]? <;> rfl
    rw [CrewBroker.step, same]
    exact .idle _
  | abortRun aborted | abortAll => exact .idle _
  | promote changed subId =>
    rw [CrewBroker.step, promote_fund]
    exact .idle _
  | settle index ok saved =>
    rw [CrewBroker.step, settle_fund]
    exact .idle _
  | status changed taskId status =>
    rw [CrewBroker.step, setStatus_fund]
    exact .idle _
  | prune pruned =>
    by_cases own : pruned = runId
    · subst own
      have closed : (broker.step options (.prune pruned)).fund pruned
          = { pool := none, draws := (broker.fund pruned).draws } := by
        rw [CrewBroker.step, CrewBroker.fund, CrewBroker.fund]
        dsimp only
        rw [Function.update_self]
        rfl
      rw [closed]
      exact .close _
    · have kept : (broker.step options (.prune pruned)).runs runId = broker.runs runId :=
        Function.update_of_ne (Ne.symm own) _ _
      rw [fund_congr kept rfl]
      exact .idle _

end

section

variable {options : Options} {start : CrewBroker} {runId : String} {budget : Int}

theorem granted_within (granted : Granted start runId budget) :
    Allotment.Within budget.toNat (start.fund runId) := by
  have undrawn : drawsOf start.accepted runId = [] := by
    have nothing : start.accepted.filter (·.runId = runId) = [] :=
      List.filter_eq_nil_iff.mpr fun delegation member own =>
        granted.undelegated delegation member (of_decide_eq_true own)
    rw [drawsOf, nothing]
    rfl
  unfold CrewBroker.fund
  rw [undrawn]
  refine Allotment.Within.unopened (fun pool there => ?_) fun pool there key => ?_
  · obtain ⟨record, read, rfl⟩ := Option.map_eq_some_iff.mp there
    rw [RunRecord.pool, granted.total record read]
    split_ifs
    · exact Int.natCast_nonneg _
    · exact Int.self_le_toNat budget
  · obtain ⟨record, read, rfl⟩ := Option.map_eq_some_iff.mp there
    have unallocated : record.allocation key = none := by
      unfold RunRecord.allocation
      cases found : record.tasks.find? (·.id = key) with
      | none => rfl
      | some task =>
        exact granted.unallocated record read task (List.mem_of_find?_eq_some found)
    show (record.allocation key).map accountOf = none
    rw [unallocated]
    rfl

/-- **A task reserves at most the grant of its run**, and the run at most as many grants as it has tasks
that delegate. -/
theorem delegated_within_grants (granted : Granted start runId budget) (actions : List Action) :
    let ended := Runs.finish (CrewBroker.step options) start actions
    (∀ taskId, reservedBy ended.accepted runId taskId ≤ budget.toNat) ∧
      reservedInRun ended.accepted runId
        ≤ (delegators ended.accepted runId).card * budget.toNat := by
  intro ended
  have keeps : ∀ (broker : CrewBroker) (action : Action),
      Allotment.Within budget.toNat (broker.fund runId) →
        Allotment.Within budget.toNat ((broker.step options action).fund runId) :=
    fun broker action kept => (step_fund action).within kept
  have within : Allotment.Within budget.toNat (ended.fund runId) :=
    Runs.finish_keeps (CrewBroker.step options) keeps (granted_within granted) actions
  refine ⟨fun taskId => ?_, ?_⟩
  · rw [← drawnBy_drawsOf]
    exact Int.ofNat_le.mpr (within.drawn taskId)
  · rw [← drawn_drawsOf, ← drawers_drawsOf]
    exact Allotment.drawn_le within.drawn

def twoWorkers : CrewBroker where
  nestedSlots := oneWorker.nestedSlots
  runs runId :=
    if runId = "run" then
      some {
        tasks := [
          { id := .named "first", role := some "executor", status := .running, cwd := "/work" },
          { id := .named "second", role := some "executor", status := .running, cwd := "/work" }]
        budgetTotal := some 1000 }
    else none

def asksForAll (task : String) : Action :=
  .request
    { runId := some "run", taskId := some (.named task), role := some .worker
      authMatchKind := some .compound }
    task (some { prompt := some (.string "look"), budgetTokens := some (.number (some 1000)) })

def bothDelegate : List Action :=
  [asksForAll "first", .resume 0 (.locked none none), asksForAll "second",
    .resume 0 (.locked none none)]

theorem twoWorkers_granted : Granted twoWorkers "run" 1000 where
  total record read := by
    obtain rfl := Option.some.inj read
    rfl
  unallocated record read task member := by
    obtain rfl := Option.some.inj read
    rcases List.mem_cons.mp member with rfl | member
    · rfl
    · obtain rfl := List.mem_singleton.mp member
      rfl
  undelegated _ member := absurd member List.not_mem_nil

theorem delegated_within_grants_of_two :
    let ended := Runs.finish (CrewBroker.step openOptions) twoWorkers bothDelegate
    reservedBy ended.accepted "run" (.named "first") = 1000 ∧
      (delegators ended.accepted "run").card = 2 ∧
      reservedInRun ended.accepted "run" ≤ (delegators ended.accepted "run").card * 1000 :=
  ⟨by decide +kernel, by decide +kernel,
    (delegated_within_grants twoWorkers_granted bothDelegate).2⟩

/-- **Two tasks overdraw the budget of their run**: each of them reserves all of it. -/
theorem two_workers_overdraw :
    Granted twoWorkers "run" 1000 ∧
      reservedInRun (Runs.finish (CrewBroker.step openOptions) twoWorkers bothDelegate).accepted "run"
        = 2000 :=
  ⟨twoWorkers_granted, by decide +kernel⟩

end

end PiCrew.Broker.Delegate
