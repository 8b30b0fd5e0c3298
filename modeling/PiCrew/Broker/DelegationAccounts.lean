/-
**The accounts of the delegations.**

The slots in use against the grandchildren that live, and the allocation of a task against what its
accepted delegations have reserved.

* `step_books` — every step whose writes land comes to a change of the books;
* `delegation_accounted_iff` — the runs in which the accounts are right, exactly;
* `shadow_write_leaks` — a write that fails leaves the slot and the reservation behind.
-/

import PiCrew.Broker.Delegate
import Mathlib.Algebra.BigOperators.Group.List.Basic
import Mathlib.Algebra.Ring.Int.Defs

namespace PiCrew.Broker.Delegate

open SpawnPolicy
open State (TaskAllocation TeamTaskStatus)

def reservedBy (accepted : List Accepted) (runId : String) (taskId : TaskId) : Int :=
  ((accepted.filter fun delegation => delegation.runId = runId && delegation.parentTaskId = taskId).map
    fun delegation => (delegation.reserved : Int)).sum

def spentOf : Option TaskAllocation → Int
  | some allocation => allocation.tokensSpent
  | none => 0

def WithinGrant : Option TaskAllocation → Prop
  | some allocation => allocation.tokensSpent ≤ allocation.tokensGranted
  | none => True

namespace CrewBroker

def Idle (broker : CrewBroker) : Prop := broker.waiting = [] ∧ broker.admitted = []

def allocationOf (broker : CrewBroker) (runId : String) (taskId : TaskId) : Option TaskAllocation :=
  (broker.runs runId).bind fun record => (record.tasks.find? (·.id = taskId)).bind (·.allocation)

/-- **The accounts are right**: while no request is in progress, a slot is in use for every grandchild
that lives, and a task has spent what its accepted delegations have reserved. It never spends more than its
grant. -/
structure Balanced (broker : CrewBroker) : Prop where
  slots : broker.Idle → broker.nestedSlots.used = broker.live.length
  spent : broker.Idle → ∀ runId record, broker.runs runId = some record → ∀ task ∈ record.tasks,
    spentOf task.allocation = reservedBy broker.accepted runId task.id
  within : ∀ runId record, broker.runs runId = some record → ∀ task ∈ record.tasks,
    WithinGrant task.allocation

end CrewBroker

def Action.isDelegation : Action → Bool
  | .request _ _ _ => true
  | .resume _ _ => true
  | _ => false

/-- **A step is accounted for**: the accounts are right before and after it, and where it does not accept
a delegation, no slot and no allocation is changed. -/
structure Accounted (taken : Runs.Transition CrewBroker Action) : Prop where
  before : taken.before.Balanced
  after : taken.after.Balanced
  declined : taken.action.isDelegation = true → taken.after.accepted = taken.before.accepted →
    taken.after.nestedSlots.held = taken.before.nestedSlots.held ∧
      ∀ runId taskId, taken.after.allocationOf runId taskId = taken.before.allocationOf runId taskId

/-- **The writes land**: no write that an admission makes fails. -/
def WritesLand (options : Options) (broker : CrewBroker) : Action → Prop
  | .resume index (.locked catalog (some write)) =>
    ∀ request ∈ broker.waiting[index]?, broker.makes options request catalog write = false
  | _ => True

/-- An id that no number from `minted` on stands in. -/
def TaskId.Before (minted : Nat) : TaskId → Prop
  | .named _ => True
  | .grandchild number => number < minted

theorem TaskId.Before.later {minted : Nat} {id : TaskId} (before : id.Before minted) :
    id.Before (minted + 1) := by
  cases id with
  | named name => trivial
  | grandchild number => exact Nat.lt_succ_of_lt before

/-- **The broker starts**, with the runs that are there. -/
structure Starts (options : Options) (broker : CrewBroker) : Prop where
  slots : NestedSlotBudget.create (options.globalWorkerSemaphore.getD 4) options.nestingMaxSlots
    = .ok broker.nestedSlots
  waiting : broker.waiting = []
  admitted : broker.admitted = []
  live : broker.live = []
  tasks : ∀ runId record, broker.runs runId = some record → ∀ task ∈ record.tasks,
    task.id.Before broker.minted ∧ WithinGrant task.allocation ∧
      spentOf task.allocation = reservedBy broker.accepted runId task.id
  parents : ∀ delegation ∈ broker.accepted, delegation.parentTaskId.Before broker.minted

abbrev Account := TaskId × Option TaskAllocation

structure Books where
  held : Finset TaskId
  waiting : List TaskId
  admitted : List TaskId
  live : List TaskId
  minted : Nat
  accounts : String → List Account
  accepted : List Accepted

namespace Books

/-- The accounts of a run, with what is charged to one task and the account of a new one. -/
def charged (accounts : List Account) (parent subId : TaskId)
    (charge : Option TaskAllocation → Option TaskAllocation) : List Account :=
  accounts.map (fun account => if account.1 = parent then (account.1, charge account.2) else account)
    ++ [(subId, none)]

/-- The books with one more accepted delegation. -/
def accept (books : Books) (index : Nat) (delegation : Accepted)
    (charge : Option TaskAllocation → Option TaskAllocation) : Books where
  held := insert delegation.subId books.held
  waiting := books.waiting.eraseIdx index
  admitted := books.admitted ++ [delegation.subId]
  live := books.live
  minted := books.minted
  accounts :=
    Function.update books.accounts delegation.runId
      (charged (books.accounts delegation.runId) delegation.parentTaskId delegation.subId charge)
  accepted := books.accepted ++ [delegation]

inductive Step (books : Books) : Books → Prop
  | idle : Step books books
  | arrive :
      Step books {
        books with
        waiting := books.waiting ++ [.grandchild books.minted]
        minted := books.minted + 1 }
  | leave (index : Nat) : Step books { books with waiting := books.waiting.eraseIdx index }
  | accept {index : Nat} {delegation : Accepted} {allocation : Option TaskAllocation}
      {charge : Option TaskAllocation → Option TaskAllocation}
      (waits : books.waiting[index]? = some delegation.subId)
      (account : (delegation.parentTaskId, allocation) ∈ books.accounts delegation.runId)
      (charges : ∀ other, spentOf other = spentOf allocation → WithinGrant other →
        spentOf (charge other) = spentOf allocation + delegation.reserved ∧
          WithinGrant (charge other)) :
      Step books (books.accept index delegation charge)
  | start {index : Nat} {subId : TaskId} (here : books.admitted[index]? = some subId) :
      Step books {
        books with
        admitted := books.admitted.eraseIdx index
        live := books.live ++ [subId] }
  | settle {index : Nat} {subId : TaskId} (here : books.live[index]? = some subId) :
      Step books {
        books with
        held := books.held.erase subId
        live := books.live.eraseIdx index }
  | forget (runId : String) :
      Step books { books with accounts := Function.update books.accounts runId [] }

structure Unused (books : Books) (id : TaskId) : Prop where
  held : id ∉ books.held
  accounts : ∀ runId, ∀ account ∈ books.accounts runId, account.1 ≠ id
  parents : ∀ delegation ∈ books.accepted, delegation.parentTaskId ≠ id

/-- **The books are in balance.** An id that waits, or was not minted yet, stands nowhere else. -/
structure Sound (books : Books) : Prop where
  slots : Slots.HeldBy books.held (books.admitted ++ books.live)
  distinct : books.waiting.Nodup
  minted : ∀ id ∈ books.waiting, id.Before books.minted
  unused : ∀ id, id ∈ books.waiting ∨ ¬ id.Before books.minted → books.Unused id
  spent : ∀ runId, ∀ account ∈ books.accounts runId, WithinGrant account.2 ∧
    spentOf account.2 = reservedBy books.accepted runId account.1

theorem reservedBy_append (accepted : List Accepted) (delegation : Accepted) (runId : String)
    (taskId : TaskId) :
    reservedBy (accepted ++ [delegation]) runId taskId = reservedBy accepted runId taskId
      + if delegation.runId = runId ∧ delegation.parentTaskId = taskId then (delegation.reserved : Int)
        else 0 := by
  unfold reservedBy
  rw [List.filter_append, List.map_append, List.sum_append]
  congr 1
  by_cases own : delegation.runId = runId ∧ delegation.parentTaskId = taskId
  · simp [own]
  · have other : (decide (delegation.runId = runId) && decide (delegation.parentTaskId = taskId))
        = false := by
      rw [← Bool.decide_and]
      exact decide_eq_false own
    rw [if_neg own, List.filter_cons_of_neg (by rw [other]; exact Bool.false_ne_true)]
    rfl

theorem reservedBy_eq_zero {accepted : List Accepted} {taskId : TaskId}
    (unused : ∀ delegation ∈ accepted, delegation.parentTaskId ≠ taskId) (runId : String) :
    reservedBy accepted runId taskId = 0 := by
  have none : accepted.filter
      (fun delegation => delegation.runId = runId && delegation.parentTaskId = taskId) = [] := by
    refine List.filter_eq_nil_iff.mpr fun delegation member own => ?_
    exact unused delegation member (of_decide_eq_true (Bool.and_eq_true_iff.mp own).2)
  rw [reservedBy, none]
  rfl

theorem perm_eraseIdx {ids : List TaskId} {index : Nat} {id : TaskId} (here : ids[index]? = some id) :
    ids.Perm (id :: ids.eraseIdx index) := by
  obtain ⟨inside, rfl⟩ := List.getElem?_eq_some_iff.mp here
  exact (List.getElem_cons_eraseIdx_perm inside).symm

variable {books after : Books}

theorem mem_accept {index : Nat} {delegation : Accepted}
    {charge : Option TaskAllocation → Option TaskAllocation} {runId : String} {account : Account}
    (member : account ∈ (books.accept index delegation charge).accounts runId) :
    (account ∈ books.accounts runId ∧
        ¬ (delegation.runId = runId ∧ delegation.parentTaskId = account.1)) ∨
      (delegation.runId = runId ∧ ∃ allocation,
        (delegation.parentTaskId, allocation) ∈ books.accounts runId ∧
          account = (delegation.parentTaskId, charge allocation)) ∨
      account = (delegation.subId, none) := by
  unfold accept at member
  dsimp only at member
  by_cases own : runId = delegation.runId
  · subst own
    rw [Function.update_self] at member
    rcases List.mem_append.mp member with old | new
    · obtain ⟨⟨id, allocation⟩, there, rfl⟩ := List.mem_map.mp old
      by_cases parent : id = delegation.parentTaskId
      · subst parent
        exact Or.inr (Or.inl ⟨rfl, allocation, there, if_pos rfl⟩)
      · rw [if_neg parent]
        exact Or.inl ⟨there, fun both => parent both.2.symm⟩
    · exact Or.inr (Or.inr (List.mem_singleton.mp new))
  · rw [Function.update_of_ne own] at member
    exact Or.inl ⟨member, fun both => own both.1.symm⟩

/-- **Accepting a delegation** keeps the books in balance. -/
theorem Sound.accept (sound : books.Sound) {index : Nat} {delegation : Accepted}
    {allocation : Option TaskAllocation} {charge : Option TaskAllocation → Option TaskAllocation}
    (waits : books.waiting[index]? = some delegation.subId)
    (account : (delegation.parentTaskId, allocation) ∈ books.accounts delegation.runId)
    (charges : ∀ other, spentOf other = spentOf allocation → WithinGrant other →
      spentOf (charge other) = spentOf allocation + delegation.reserved ∧ WithinGrant (charge other)) :
    (books.accept index delegation charge).Sound := by
  have waiting := List.mem_of_getElem? waits
  have new := sound.unused _ (Or.inl waiting)
  have split := perm_eraseIdx waits
  have apart := List.nodup_cons.mp (split.nodup_iff.mp sound.distinct)
  -- what waits still, or was not minted yet, is not the id that is taken
  have others : ∀ id, id ∈ books.waiting.eraseIdx index ∨ ¬ id.Before books.minted →
      books.Unused id ∧ id ≠ delegation.subId := by
    rintro id (still | later)
    · refine ⟨sound.unused id (Or.inl (List.eraseIdx_subset still)), ?_⟩
      rintro rfl
      exact apart.1 still
    · refine ⟨sound.unused id (Or.inr later), ?_⟩
      rintro rfl
      exact later (sound.minted _ waiting)
  refine ⟨?_, apart.2, fun id there => sound.minted id (List.eraseIdx_subset there), ?_, ?_⟩
  · refine (sound.slots.acquire new.held).move ?_
    show (delegation.subId :: (books.admitted ++ books.live)).Perm
      (books.admitted ++ [delegation.subId] ++ books.live)
    rw [List.append_assoc]
    exact List.perm_middle.symm
  · intro id fresh
    obtain ⟨unused, different⟩ := others id fresh
    refine ⟨fun there => ?_, fun runId entry member => ?_, fun other member => ?_⟩
    · exact (Finset.mem_insert.mp there).elim different unused.held
    · rcases mem_accept member with ⟨old, -⟩ | ⟨rfl, before, old, rfl⟩ | rfl
      · exact unused.accounts runId entry old
      · have other : delegation.parentTaskId ≠ id := unused.accounts _ _ old
        exact other
      · exact different.symm
    · rcases List.mem_append.mp member with old | last
      · exact unused.parents other old
      · obtain rfl := List.mem_singleton.mp last
        exact unused.accounts _ _ account
  · intro runId entry member
    show WithinGrant entry.2 ∧ spentOf entry.2 = reservedBy (books.accepted ++ [delegation]) runId entry.1
    rw [reservedBy_append]
    rcases mem_accept member with ⟨old, other⟩ | ⟨rfl, before, old, rfl⟩ | rfl
    · rw [if_neg other, add_zero]
      exact sound.spent runId entry old
    · have balance := sound.spent _ _ account
      have balance' := sound.spent _ _ old
      have same : spentOf before = spentOf allocation := balance'.2.trans balance.2.symm
      obtain ⟨spent, within⟩ := charges before same balance'.1
      refine ⟨within, ?_⟩
      rw [if_pos ⟨rfl, rfl⟩, spent, balance.2]
    · have parent : delegation.parentTaskId ≠ delegation.subId := new.accounts _ _ account
      rw [reservedBy_eq_zero new.parents, if_neg fun both => parent both.2]
      exact ⟨trivial, rfl⟩

/-- **Every change keeps the books in balance.** -/
theorem Step.sound (step : Step books after) (sound : books.Sound) : after.Sound := by
  cases step with
  | idle => exact sound
  | arrive =>
    refine ⟨sound.slots, ?_, fun id there => ?_, fun id fresh => ?_, sound.spent⟩
    · refine List.nodup_append_comm.mp (List.nodup_cons.mpr ⟨fun there => ?_, sound.distinct⟩)
      exact Nat.lt_irrefl _ (sound.minted _ there)
    · rcases List.mem_append.mp there with old | new
      · exact (sound.minted id old).later
      · obtain rfl := List.mem_singleton.mp new
        exact Nat.lt_succ_self _
    · have unused : books.Unused id := by
        refine sound.unused id ?_
        rcases fresh with there | later
        · rcases List.mem_append.mp there with old | new
          · exact Or.inl old
          · obtain rfl := List.mem_singleton.mp new
            exact Or.inr (Nat.lt_irrefl _)
        · exact Or.inr fun before => later before.later
      exact ⟨unused.held, unused.accounts, unused.parents⟩
  | leave index =>
    refine ⟨sound.slots, sound.distinct.sublist (List.eraseIdx_sublist _ _),
      fun id there => sound.minted id (List.eraseIdx_subset there), fun id fresh => ?_, sound.spent⟩
    have unused := sound.unused id (fresh.imp_left fun there => List.eraseIdx_subset there)
    exact ⟨unused.held, unused.accounts, unused.parents⟩
  | accept waits account charges => exact sound.accept waits account charges
  | start here =>
    refine ⟨?_, sound.distinct, sound.minted, fun id fresh => ?_, sound.spent⟩
    · refine sound.slots.move (((perm_eraseIdx here).append_right _).trans ?_)
      rw [← List.append_assoc]
      exact List.perm_append_singleton _ _ |>.symm
    · have unused := sound.unused id fresh
      exact ⟨unused.held, unused.accounts, unused.parents⟩
  | settle here =>
    refine ⟨?_, sound.distinct, sound.minted, fun id fresh => ?_, sound.spent⟩
    · refine (sound.slots.move (((perm_eraseIdx here).append_left _).trans ?_)).release
      exact List.perm_middle
    · have unused := sound.unused id fresh
      exact ⟨fun there => unused.held (Finset.mem_of_mem_erase there), unused.accounts,
        unused.parents⟩
  | forget runId =>
    have kept : ∀ other, ∀ account ∈ Function.update books.accounts runId [] other,
        account ∈ books.accounts other := by
      intro other account member
      by_cases own : other = runId
      · subst own
        rw [Function.update_self] at member
        cases member
      · rw [Function.update_of_ne own] at member
        exact member
    refine ⟨sound.slots, sound.distinct, sound.minted, fun id fresh => ?_,
      fun other account member => sound.spent other account (kept other account member)⟩
    have unused := sound.unused id fresh
    exact ⟨unused.held, fun other account member => unused.accounts other account
      (kept other account member), unused.parents⟩

end Books

section

variable {options : Options} {broker : CrewBroker}

namespace CrewBroker

def accounts (broker : CrewBroker) (runId : String) : List Account :=
  match broker.runs runId with
  | none => []
  | some record => record.tasks.map fun task => (task.id, task.allocation)

def books (broker : CrewBroker) : Books where
  held := broker.nestedSlots.held
  waiting := broker.waiting.map (·.subId)
  admitted := broker.admitted.map (·.subId)
  live := broker.live.map (·.subId)
  minted := broker.minted
  accounts := broker.accounts
  accepted := broker.accepted

theorem accounts_of_read {runId : String} {record : RunRecord}
    (read : broker.runs runId = some record) :
    broker.accounts runId = record.tasks.map fun task => (task.id, task.allocation) := by
  rw [accounts, read]

theorem forall_accounts {good : String → Account → Prop} :
    (∀ runId, ∀ account ∈ broker.accounts runId, good runId account) ↔
      ∀ runId record, broker.runs runId = some record → ∀ task ∈ record.tasks,
        good runId (task.id, task.allocation) := by
  refine forall_congr' fun runId => ?_
  cases read : broker.runs runId with
  | none =>
    rw [accounts, read]
    exact ⟨fun _ record same => (nomatch same),
      fun _ account member => absurd member List.not_mem_nil⟩
  | some record =>
    rw [accounts_of_read read, List.forall_mem_map]
    exact ⟨fun all other same => Option.some.inj same ▸ all, fun all => all record rfl⟩

theorem accounts_saveRunTasks (runId : String) (fresh : RunRecord) (tasks : List TaskRecord) :
    (broker.saveRunTasks runId fresh tasks).accounts
      = Function.update broker.accounts runId (tasks.map fun task => (task.id, task.allocation)) := by
  funext other
  by_cases own : other = runId
  · subst own
    rw [Function.update_self]
    have read : (broker.saveRunTasks other fresh tasks).runs other
        = some { fresh with tasks := tasks } := Function.update_self ..
    exact accounts_of_read read
  · rw [Function.update_of_ne own, accounts, saveRunTasks]
    dsimp only
    rw [Function.update_of_ne own]
    rfl

theorem setStatus_books (runId : String) (wanted : TaskRecord → Bool) (status : TeamTaskStatus) :
    (broker.setStatus runId wanted status).books = broker.books := by
  unfold setStatus
  cases read : broker.runs runId with
  | none => rfl
  | some latest =>
    dsimp only
    have kept : (broker.saveRunTasks runId latest
        (latest.tasks.map fun task =>
          if wanted task then { task with status := status } else task)).accounts
        = broker.accounts := by
      have same : (latest.tasks.map fun task =>
          if wanted task then { task with status := status } else task).map
            (fun task => (task.id, task.allocation)) = broker.accounts runId := by
        rw [accounts_of_read read, List.map_map]
        refine List.map_congr_left fun task _ => ?_
        show ((if wanted task then { task with status := status } else task).id,
          (if wanted task then { task with status := status } else task).allocation)
            = (task.id, task.allocation)
        split_ifs
        · rfl
        · rfl
      rw [accounts_saveRunTasks, same, Function.update_eq_self]
    unfold books
    rw [kept]
    rfl

theorem promote_books (runId : String) (subId : TaskId) :
    (broker.promoteShadowToRunning runId subId).books = broker.books := by
  unfold promoteShadowToRunning
  cases (broker.runs runId).bind fun latest => latest.tasks.find? (·.id = subId) with
  | none => rfl
  | some shadow =>
    dsimp only
    split_ifs
    · exact setStatus_books runId _ _
    · rfl

theorem abortWhere_books (predicate : String → Bool) :
    (broker.abortWhere predicate).books = broker.books := by
  unfold books abortWhere
  rw [List.map_map]
  rfl

theorem release_books (index : Nat) (aborts : List (TaskId × String)) (subId : TaskId) :
    ({ broker with
        live := broker.live.eraseIdx index
        delegateAborts := aborts
        nestedSlots := broker.nestedSlots.release subId } : CrewBroker).books
      = { broker.books with
          held := broker.books.held.erase subId
          live := broker.books.live.eraseIdx index } := by
  unfold books
  rw [List.eraseIdx_map]
  rfl

theorem prune_books (runId : String) :
    ({ broker with runs := Function.update broker.runs runId none } : CrewBroker).books
      = { broker.books with accounts := Function.update broker.books.accounts runId [] } := by
  have accounts : ({ broker with
        runs := Function.update broker.runs runId none } : CrewBroker).accounts
      = Function.update broker.accounts runId [] := by
    funext other
    by_cases own : other = runId
    · subst own
      rw [Function.update_self, CrewBroker.accounts]
      dsimp only
      rw [Function.update_self]
    · rw [Function.update_of_ne own, CrewBroker.accounts]
      dsimp only
      rw [Function.update_of_ne own]
      rfl
  unfold books
  rw [accounts]

theorem handleDelegateRequest_cases (options : Options) (broker : CrewBroker)
    (conn : ServerConnection) (id : String) (params : Option RawDelegateParams) :
    (∃ reply, broker.handleDelegateRequest options conn id params = broker.send id reply) ∨
      ∃ request : DelegateRequest, request.subId = .grandchild broker.minted ∧
        broker.handleDelegateRequest options conn id params
          = { broker with
              waiting := broker.waiting ++ [request]
              minted := broker.minted + 1 } := by
  unfold handleDelegateRequest
  cases parseDelegateRequestParams params with
  | none =>
    dsimp only
    split
    · split_ifs
      · exact Or.inl ⟨_, rfl⟩
      · exact Or.inl ⟨_, rfl⟩
    · exact Or.inl ⟨_, rfl⟩
  | some requested =>
    dsimp only
    split
    · split_ifs
      · exact Or.inl ⟨_, rfl⟩
      · exact Or.inl ⟨_, rfl⟩
      · exact Or.inl ⟨_, rfl⟩
      · exact Or.inl ⟨_, rfl⟩
      · exact Or.inr ⟨_, rfl, rfl⟩
    · exact Or.inl ⟨_, rfl⟩

def accepting (broker : CrewBroker) (index : Nat) (request : DelegateRequest) (fresh : RunRecord)
    (task : TaskRecord) (decision : SpawnPolicyDecision) (slots : NestedSlotBudget TaskId) :
    CrewBroker :=
  { broker with
    nestedSlots := slots
    runs := Function.update broker.runs request.runId
      (some {
        fresh with
        tasks := reserveTasks fresh.tasks request.parentTaskId decision.budget
          ++ [shadowTask request task.cwd decision] })
    waiting := broker.waiting.eraseIdx index
    admitted := broker.admitted ++ [admittedOf request task decision]
    accepted := broker.accepted ++
      [{ runId := request.runId, parentTaskId := request.parentTaskId, subId := request.subId
         reserved := reservedTokens decision.budget }] }

theorem allows_leave (index : Nat) (request : DelegateRequest) (catalog : Option (List String)) :
    CrewBroker.allows options { broker with waiting := broker.waiting.eraseIdx index } request catalog
      = broker.allows options request catalog := rfl

variable {request : DelegateRequest} {catalog : Option (List String)} {fresh : RunRecord} {task : TaskRecord}
  {decision : SpawnPolicyDecision} {slots : NestedSlotBudget TaskId}

theorem resume_cases {index : Nat} {attempt : Attempt} (waits : broker.waiting[index]? = some request)
    (lands : WritesLand options broker (.resume index attempt)) :
    (∃ reply, broker.resume options index attempt
        = { broker with waiting := broker.waiting.eraseIdx index }.send request.id reply) ∨
      ∃ catalog fresh task decision slots,
        broker.Allowed options request catalog fresh task decision slots ∧
          broker.resume options index attempt
            = broker.accepting index request fresh task decision slots := by
  unfold resume
  rw [waits]
  dsimp only
  cases attempt with
  | busy | readFails => exact Or.inl ⟨_, rfl⟩
  | locked catalog failing =>
    dsimp only
    cases allowed : broker.allows options request catalog with
    | false =>
      obtain ⟨code, message, refused⟩ :=
        admission_denied ((allows_leave index request catalog).trans allowed) failing
      rw [refused]
      exact Or.inl ⟨_, rfl⟩
    | true =>
      obtain ⟨fresh, task, decision, slots, facts, admitted⟩ :=
        admission_allowed ((allows_leave index request catalog).trans allowed) failing
      have landed : ∀ write, failing = some write →
          broker.makes options request catalog write = false := by
        rintro write rfl
        exact lands request waits
      have reserves : decision.budget.metered = true → failing ≠ some .reserve := by
        intro metered fails
        have made := landed .reserve fails
        rw [makes, allowed, ← facts.metered.1, metered] at made
        cases made
      have shadows : failing ≠ some .shadow := by
        intro fails
        have made := landed .shadow fails
        rw [makes, allowed] at made
        cases made
      rw [admitted, register_lands reserves shadows]
      exact Or.inr ⟨catalog, fresh, task, decision, slots,
        ⟨facts.read, facts.parent, facts.decided, facts.slot⟩, rfl⟩

theorem Allowed.charges (allowed : broker.Allowed options request catalog fresh task decision slots)
    (other : Option TaskAllocation) (same : spentOf other = spentOf task.allocation)
    (within : WithinGrant other) :
    spentOf (charge decision.budget other)
        = spentOf task.allocation + (reservedTokens decision.budget : Nat) ∧
      WithinGrant (charge decision.budget other) := by
  obtain ⟨decided, -, remaining⟩ := evaluateDelegateAdmission_ok allowed.decided
  have spent : decision.budget.spentTokens = spentOf task.allocation := by
    rw [decided]
    show DelegateAdmissionInput.spent _ = _
    unfold DelegateAdmissionInput.spent spentOf admissionInput
    rfl
  have granted : decision.budget.grantedTokens
      = (broker.admissionInput options fresh task request catalog).granted := by rw [decided]; rfl
  cases asked : request.requested.budgetTokens with
  | none =>
    have unmetered : decision.budget.metered = false := by rw [allowed.metered.1, asked]; rfl
    rw [charge, reservedTokens, unmetered]
    exact ⟨same.trans (add_zero _).symm, within⟩
  | some tokens =>
    have metered : decision.budget.metered = true := by rw [allowed.metered.1, asked]; rfl
    have reserved : reservedTokens decision.budget = tokens := by
      rw [reservedTokens, metered, allowed.metered.2, asked]
      rfl
    have enough : (tokens : Int)
        ≤ decision.budget.grantedTokens - decision.budget.spentTokens := by
      rw [granted, spent]
      exact remaining tokens asked
    rw [charge, metered, reserved]
    refine ⟨congrArg (· + (tokens : Int)) spent, ?_⟩
    show decision.budget.spentTokens + (tokens : Int) ≤ decision.budget.grantedTokens
    omega

theorem accepting_books {index : Nat}
    (allowed : broker.Allowed options request catalog fresh task decision slots) :
    (broker.accepting index request fresh task decision slots).books
      = broker.books.accept index
          { runId := request.runId, parentTaskId := request.parentTaskId, subId := request.subId
            reserved := reservedTokens decision.budget }
          (charge decision.budget) := by
  have accounts : (broker.accepting index request fresh task decision slots).accounts
      = Function.update broker.accounts request.runId
          (Books.charged (broker.accounts request.runId) request.parentTaskId request.subId
            (charge decision.budget)) := by
    refine (accounts_saveRunTasks request.runId fresh _).trans (congrArg _ ?_)
    rw [accounts_of_read allowed.read, Books.charged, List.map_append, reserveTasks, List.map_map,
      List.map_map]
    refine congrArg (· ++ _) (List.map_congr_left fun other _ => ?_)
    show ((if other.id = request.parentTaskId then
        { other with allocation := charge decision.budget other.allocation } else other).id,
      (if other.id = request.parentTaskId then
        { other with allocation := charge decision.budget other.allocation } else other).allocation)
      = if other.id = request.parentTaskId then (other.id, charge decision.budget other.allocation)
        else (other.id, other.allocation)
    split_ifs
    · rfl
    · rfl
  unfold books Books.accept
  rw [accounts]
  dsimp only [accepting]
  rw [NestedSlotBudget.tryAcquire_held allowed.slot, List.eraseIdx_map, List.map_append]
  rfl

theorem getElem?_ids {α : Type} {entries : List α} {index : Nat} {entry : α} (id : α → TaskId)
    (here : entries[index]? = some entry) : (entries.map id)[index]? = some (id entry) := by
  rw [List.getElem?_map, here]
  rfl

theorem handleDelegateRequest_books (conn : ServerConnection) (id : String)
    (params : Option RawDelegateParams) :
    Books.Step broker.books (broker.handleDelegateRequest options conn id params).books := by
  rcases handleDelegateRequest_cases options broker conn id params with
    ⟨reply, answered⟩ | ⟨request, minted, waits⟩
  · rw [answered]
    exact .idle
  · rw [waits]
    have books : { broker with
          waiting := broker.waiting ++ [request]
          minted := broker.minted + 1 }.books
        = { broker.books with
            waiting := broker.books.waiting ++ [.grandchild broker.books.minted]
            minted := broker.books.minted + 1 } := by
      unfold CrewBroker.books
      rw [List.map_append, List.map_singleton, minted]
      rfl
    rw [books]
    exact .arrive

theorem Allowed.account (allowed : broker.Allowed options request catalog fresh task decision slots) :
    (request.parentTaskId, task.allocation) ∈ broker.books.accounts request.runId := by
  have found := List.find?_some allowed.parent
  have own : task.id = request.parentTaskId := of_decide_eq_true found
  show _ ∈ broker.accounts request.runId
  rw [accounts_of_read allowed.read, ← own]
  exact List.mem_map_of_mem (List.mem_of_find?_eq_some allowed.parent)

theorem resume_books {index : Nat} {attempt : Attempt}
    (lands : WritesLand options broker (.resume index attempt)) :
    Books.Step broker.books (broker.resume options index attempt).books := by
  cases waits : broker.waiting[index]? with
  | none =>
    rw [CrewBroker.resume, waits]
    exact .idle
  | some request =>
    rcases resume_cases waits lands with
      ⟨reply, answered⟩ | ⟨catalog, fresh, task, decision, slots, allowed, accepted⟩
    · rw [answered]
      have books : ({ broker with
            waiting := broker.waiting.eraseIdx index }.send request.id reply).books
          = { broker.books with waiting := broker.books.waiting.eraseIdx index } := by
        unfold CrewBroker.books
        rw [List.eraseIdx_map]
        rfl
      rw [books]
      exact .leave index
    · rw [accepted, accepting_books allowed]
      have place : (broker.waiting.map (·.subId))[index]? = some request.subId :=
        getElem?_ids _ waits
      exact .accept place allowed.account allowed.charges

theorem start_books (index : Nat) :
    Books.Step broker.books (broker.start options index).books := by
  unfold CrewBroker.start
  cases here : broker.admitted[index]? with
  | none => exact .idle
  | some admitted =>
    have books : ({ broker.send admitted.id
            (.result admitted.subId admitted.decision.childDepth
              admitted.decision.timeoutSec) with
          admitted := broker.admitted.eraseIdx index
          delegateAborts :=
            broker.delegateAborts.filter (·.1 ≠ admitted.subId)
              ++ [(admitted.subId, admitted.runId)]
          live := broker.live ++
            [{ toGrandchildSpawn := spawnOf options admitted
               reservedTokens := admitted.reserved }] } : CrewBroker).books
        = { broker.books with
            admitted := broker.books.admitted.eraseIdx index
            live := broker.books.live ++ [admitted.subId] } := by
      unfold CrewBroker.books
      rw [List.eraseIdx_map, List.map_append]
      rfl
    dsimp only
    rw [books]
    have place : (broker.admitted.map (·.subId))[index]? = some admitted.subId :=
      getElem?_ids _ here
    exact .start place

theorem settle_books (index : Nat) (ok saved : Bool) :
    Books.Step broker.books (broker.settle index ok saved).books := by
  unfold CrewBroker.settle
  cases here : broker.live[index]? with
  | none => exact .idle
  | some grandchild =>
    have finalized : (if saved then broker.finalizeDelegateResult grandchild ok
        else broker).books = broker.books := by
      split_ifs
      · exact setStatus_books _ _ _
      · rfl
    dsimp only
    rw [release_books, finalized]
    have place : (broker.live.map (·.subId))[index]? = some grandchild.subId :=
      getElem?_ids _ here
    exact .settle place

end CrewBroker

open CrewBroker

/-- **Every step whose writes land is a change of the books.** -/
theorem step_books {action : Action} (lands : WritesLand options broker action) :
    Books.Step broker.books (broker.step options action).books := by
  cases action with
  | request conn id params => exact handleDelegateRequest_books conn id params
  | resume index attempt => exact resume_books lands
  | start index => exact start_books index
  | abortRun runId | abortAll =>
    rw [CrewBroker.step, abortWhere_books]
    exact .idle
  | promote runId subId =>
    rw [CrewBroker.step, promote_books]
    exact .idle
  | settle index ok saved => exact settle_books index ok saved
  | status runId taskId status =>
    rw [CrewBroker.step, setStatus_books]
    exact .idle
  | prune runId =>
    rw [CrewBroker.step, prune_books]
    exact .forget runId

end

section

variable {options : Options} {broker : CrewBroker} {action : Action}

namespace CrewBroker

theorem balanced_of_sound (sound : broker.books.Sound) : broker.Balanced := by
  have all := forall_accounts.mp sound.spent
  refine ⟨fun idle => ?_, fun _ runId record read task member => (all runId record read task member).2,
    fun runId record read task member => (all runId record read task member).1⟩
  have count : broker.nestedSlots.used
      = (broker.admitted.map (·.subId) ++ broker.live.map (·.subId)).length := sound.slots.card_eq
  rw [count, idle.2, List.map_nil, List.nil_append, List.length_map]

theorem starts_sound (starts : Starts options broker) : broker.books.Sound := by
  have waiting : broker.books.waiting = [] := by rw [books, starts.waiting]; rfl
  have free : broker.books.held = ∅ := NestedSlotBudget.create_held starts.slots
  have accounts : ∀ runId, ∀ account ∈ broker.accounts runId, account.1.Before broker.minted ∧
      WithinGrant account.2 ∧ spentOf account.2 = reservedBy broker.accepted runId account.1 :=
    forall_accounts.mpr starts.tasks
  refine ⟨?_, ?_, fun id there => ?_, fun id fresh => ?_,
    fun runId account member => (accounts runId account member).2⟩
  · have holders : broker.books.admitted ++ broker.books.live = [] := by
      rw [books, starts.admitted, starts.live]
      rfl
    rw [free, holders]
    exact Slots.HeldBy.nobody
  · rw [waiting]
    exact List.nodup_nil
  · rw [waiting] at there
    cases there
  · rw [waiting] at fresh
    have later : ¬ id.Before broker.minted := fresh.resolve_left List.not_mem_nil
    refine ⟨?_, fun runId account member same => ?_, fun delegation member same => ?_⟩
    · rw [free]
      exact Finset.notMem_empty id
    · exact later (same ▸ (accounts runId account member).1)
    · exact later (same ▸ starts.parents delegation member)

end CrewBroker

open CrewBroker

theorem declined_frame (lands : WritesLand options broker action)
    (delegation : action.isDelegation = true)
    (declined : (broker.step options action).accepted = broker.accepted) :
    (broker.step options action).nestedSlots = broker.nestedSlots ∧
      (broker.step options action).runs = broker.runs := by
  cases action with
  | request conn id params =>
    rw [CrewBroker.step]
    rcases handleDelegateRequest_cases options broker conn id params with
      ⟨reply, answered⟩ | ⟨request, minted, waits⟩
    · rw [answered]
      exact ⟨rfl, rfl⟩
    · rw [waits]
      exact ⟨rfl, rfl⟩
  | resume index attempt =>
    rw [CrewBroker.step] at declined ⊢
    cases waits : broker.waiting[index]? with
    | none =>
      rw [CrewBroker.resume, waits]
      exact ⟨rfl, rfl⟩
    | some request =>
      rcases resume_cases waits lands with
        ⟨reply, answered⟩ | ⟨catalog, fresh, task, decision, slots, allowed, accepted⟩
      · rw [answered]
        exact ⟨rfl, rfl⟩
      · rw [accepted] at declined
        have longer := congrArg List.length declined
        rw [accepting, List.length_append] at longer
        exact absurd longer (Nat.succ_ne_self _)
  | _ => cases delegation

theorem resume_fails {index : Nat} {request : DelegateRequest} {catalog : Option (List String)}
    {write : StateWrite} (waits : broker.waiting[index]? = some request)
    (made : broker.makes options request catalog write = true) :
    (broker.resume options index (.locked catalog (some write))).nestedSlots.held
        = insert request.subId broker.nestedSlots.held ∧
      (broker.resume options index (.locked catalog (some write))).accepted = broker.accepted := by
  have allowed : broker.allows options request catalog = true := by
    cases write with
    | reserve => exact (Bool.and_eq_true_iff.mp made).1
    | shadow => exact made
  obtain ⟨fresh, task, decision, slots, facts, admitted⟩ :=
    admission_allowed ((allows_leave index request catalog).trans allowed) (some write)
  have metered : write = .reserve → decision.budget.metered = true := by
    rintro rfl
    rw [facts.metered.1]
    exact (Bool.and_eq_true_iff.mp made).2
  unfold CrewBroker.resume
  rw [waits]
  dsimp only
  rw [admitted]
  obtain ⟨after, threw, held, accepted⟩ := register_fails metered
  rw [threw]
  refine ⟨?_, accepted⟩
  show after.nestedSlots.held = _
  rw [held]
  exact NestedSlotBudget.tryAcquire_held facts.slot

theorem accounted_of_lands (broker : CrewBroker) (action : Action) (sound : broker.books.Sound)
    (lands : WritesLand options broker action) :
    Accounted { before := broker, action := action, after := broker.step options action } where
  before := balanced_of_sound sound
  after := balanced_of_sound ((step_books lands).sound sound)
  declined := by
    intro delegation declined
    obtain ⟨slots, runs⟩ := declined_frame lands delegation declined
    refine ⟨congrArg NestedSlotBudget.held slots, fun runId taskId => ?_⟩
    rw [allocationOf, allocationOf, runs]

theorem unaccounted_of_fails (broker : CrewBroker) (action : Action) (sound : broker.books.Sound)
    (fails : ¬ WritesLand options broker action) :
    ¬ Accounted { before := broker, action := action, after := broker.step options action } := by
  intro accounted
  obtain ⟨index, catalog, write, rfl⟩ : ∃ index catalog write,
      action = .resume index (.locked catalog (some write)) := by
    unfold WritesLand at fails
    split at fails
    · exact ⟨_, _, _, rfl⟩
    · exact absurd trivial fails
  obtain ⟨request, fails⟩ := not_forall.mp fails
  obtain ⟨waits, made⟩ := Classical.not_imp.mp fails
  obtain ⟨held, accepted⟩ := resume_fails waits (Bool.eq_true_of_not_eq_false made)
  have waiting : request.subId ∈ broker.books.waiting :=
    List.mem_map_of_mem (List.mem_of_getElem? waits)
  refine (sound.unused _ (Or.inl waiting)).held ?_
  have unchanged := (accounted.declined rfl accepted).1
  show request.subId ∈ broker.nestedSlots.held
  rw [← unchanged]
  show request.subId ∈ (broker.resume options index _).nestedSlots.held
  rw [held]
  exact Finset.mem_insert_self _ _

/-- **The runs in which the accounts are right** are those in which no write of an admission fails once
its slot is taken. -/
theorem delegation_accounted_iff {start : CrewBroker} (starts : Starts options start)
    (actions : List Action) :
    (∀ taken ∈ Runs.transitions (CrewBroker.step options) start actions, Accounted taken)
      ↔ ∀ taken ∈ Runs.transitions (CrewBroker.step options) start actions,
          WritesLand options taken.before taken.action := by
  have keeps : ∀ (broker : CrewBroker) (action : Action), broker.books.Sound →
      WritesLand options broker action → (broker.step options action).books.Sound :=
    fun broker action sound lands => (step_books lands).sound sound
  exact Runs.good_transitions_iff (CrewBroker.step options) keeps accounted_of_lands
    unaccounted_of_fails (starts_sound starts)

def openOptions : Options where
  cwd := some "/work"
  nestingEnabled := some true
  nestingTrustedEscalation := some true

def oneWorker : CrewBroker where
  nestedSlots := { held := ∅, max := 2, within := by decide }
  runs runId :=
    if runId = "run" then
      some {
        tasks := [{ id := .named "worker", role := some "executor", status := .running, cwd := "/work" }]
        budgetTotal := some 1000 }
    else none

def workerAsks : Action :=
  .request
    { runId := some "run", taskId := some (.named "worker"), role := some .worker
      authMatchKind := some .compound }
    "1" (some { prompt := some (.string "look"), budgetTokens := some (.number (some 400)) })

theorem oneWorker_starts : Starts openOptions oneWorker where
  slots := rfl
  waiting := rfl
  admitted := rfl
  live := rfl
  tasks := by
    intro runId record read task member
    change (if runId = "run" then some _ else none) = some record at read
    split_ifs at read
    obtain rfl := Option.some.inj read
    obtain rfl := List.mem_singleton.mp member
    exact ⟨trivial, trivial, rfl⟩
  parents := fun delegation member => absurd member List.not_mem_nil

def abortedRun : List Action :=
  [workerAsks, .resume 0 (.locked none none), .start 0, .abortAll, .settle 0 false false]

/-- **The run of a grandchild whose end cannot be saved**: its slot is given back, and its tokens stay
spent. -/
theorem delegation_accounted_settles :
    let ended := Runs.finish (CrewBroker.step openOptions) oneWorker abortedRun
    ended.nestedSlots.used = 0 ∧ ended.live.length = 0 ∧ ended.accepted.length = 1 ∧
      ended.allocationOf "run" (.named "worker")
        = some { tokensGranted := 1000, tokensSpent := 400 } ∧
      ∀ taken ∈ Runs.transitions (CrewBroker.step openOptions) oneWorker abortedRun,
        Accounted taken := by
  refine ⟨by decide +kernel, by decide +kernel, by decide +kernel, by decide +kernel, ?_⟩
  refine (delegation_accounted_iff oneWorker_starts abortedRun).mpr (List.forall_mem_cons.mpr
    ⟨trivial, List.forall_mem_cons.mpr ⟨trivial, List.forall_mem_cons.mpr ⟨trivial, ?_⟩⟩⟩)
  exact List.forall_mem_cons.mpr ⟨trivial, List.forall_mem_singleton.mpr trivial⟩

/-- **A shadow task that cannot be written** leaves a slot in use and 400 tokens spent, with no grandchild
and no delegation that was accepted. -/
theorem shadow_write_leaks :
    Starts openOptions oneWorker ∧
      let broken := Runs.finish (CrewBroker.step openOptions) oneWorker
        [workerAsks, .resume 0 (.locked none (some .shadow))]
      broken.Idle ∧ broken.nestedSlots.used = 1 ∧ broken.live.length = 0 ∧ broken.accepted = [] ∧
        broken.allocationOf "run" (.named "worker")
          = some { tokensGranted := 1000, tokensSpent := 400 } ∧
        ¬ ∀ taken ∈ Runs.transitions (CrewBroker.step openOptions) oneWorker
            [workerAsks, .resume 0 (.locked none (some .shadow))], Accounted taken := by
  have idle : (Runs.finish (CrewBroker.step openOptions) oneWorker
      [workerAsks, .resume 0 (.locked none (some .shadow))]).Idle :=
    ⟨by decide +kernel, by decide +kernel⟩
  refine ⟨oneWorker_starts, idle, by decide +kernel, by decide +kernel, by decide +kernel,
    by decide +kernel, fun all => ?_⟩
  have last := all _ (List.mem_cons_of_mem _ List.mem_cons_self)
  exact absurd (last.after.slots idle) (by decide +kernel)

end

end PiCrew.Broker.Delegate
