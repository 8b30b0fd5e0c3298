/-
**The delegations of the broker.**

`runtime/broker/crew-broker-delegate-request.ts`, with the abort registry (`delegate/delegate-abort.ts`),
the end of a grandchild (`delegate/delegate-finalize.ts`) and its start (`delegate/shadow-lifecycle.ts`).
Under the lock of the run the admission takes a slot, adds the tokens that were asked for to what the parent has
spent, and writes a shadow task for the grandchild; the slot is given back when the grandchild has ended.

* `register_lands`, `register_fails` — its writes, where none fails and where one does.

What holds the lock of the run is one step. The lock may be busy, reading may fail, and either write of an
admission may fail. `minted` counts the ids of grandchildren, and `accepted` are the delegations that were
accepted. The events and the mailbox are left out.
-/

import PiCrew.Broker.ParkShield
import PiCrew.Broker.SpawnPolicy
import PiCrew.Broker.Tokens
import Mathlib.Logic.Function.Basic

namespace PiCrew.Broker.Delegate

open SpawnPolicy
open ParkShield.TeamRun (statusText)
open State (TaskAllocation TeamTaskStatus)

/-- A value of a request. A number that is not finite has no value. -/
inductive Wire where
  | string (text : String)
  | number (value : Option Rat)
  | other
  deriving DecidableEq

/-- The fields of a request, as they come in. -/
structure RawDelegateParams where
  prompt : Option Wire := none
  description : Option Wire := none
  role : Option Wire := none
  model : Option Wire := none
  maxTurns : Option Wire := none
  budgetTokens : Option Wire := none
  timeoutSec : Option Wire := none

structure DelegateRequestParams where
  prompt : String
  description : Option String := none
  role : Option String := none
  model : Option String := none
  maxTurns : Option Nat := none
  budgetTokens : Option Nat := none
  timeoutSec : Option Rat := none
  deriving DecidableEq

def delegateMaxTurnsCeiling : Nat := 200

def delegateBudgetTokensCeiling : Nat := 100000000

def delegatePromptMaxChars : Nat := 100000

def promptOf : Option Wire → Option String
  | some (.string text) =>
    if trim text = "" ∨ delegatePromptMaxChars < Tokens.codeUnits text then none else some text
  | _ => none

def optionalString : Option Wire → Option (Option String)
  | none => some none
  | some (.string text) => some (some text)
  | some _ => none

def optionalRole (value : Option Wire) : Option (Option String) :=
  (optionalString value).filter fun role => role.all (· ∈ delegateAllowedRoles)

def optionalInteger (least most : Nat) : Option Wire → Option (Option Nat)
  | none => some none
  | some (.number (some value)) =>
    if value.den = 1 ∧ (least : Int) ≤ value.num ∧ value.num ≤ most then some (some value.num.toNat)
    else none
  | some _ => none

def optionalNumber : Option Wire → Option (Option Rat)
  | none => some none
  | some (.number (some value)) => some (some value)
  | some _ => none

def parseDelegateRequestParams (raw : Option RawDelegateParams) : Option DelegateRequestParams := do
  let fields ← raw
  let prompt ← promptOf fields.prompt
  let description ← optionalString fields.description
  let role ← optionalRole fields.role
  let model ← optionalString fields.model
  let maxTurns ← optionalInteger 1 delegateMaxTurnsCeiling fields.maxTurns
  let budgetTokens ← optionalInteger 0 delegateBudgetTokensCeiling fields.budgetTokens
  let timeoutSec ← optionalNumber fields.timeoutSec
  some {
    prompt := prompt, description := description, role := role, model := model
    maxTurns := maxTurns, budgetTokens := budgetTokens, timeoutSec := timeoutSec }

/-- **The id of a task**: a number that was minted for a grandchild, or a name. -/
inductive TaskId where
  | named (name : String)
  | grandchild (number : Nat)
  deriving DecidableEq

abbrev Message := List (Piece TaskId)

structure TaskRecord where
  id : TaskId
  role : Option String := none
  status : TeamTaskStatus
  cwd : String
  depth : Option Nat := none
  allocation : Option TaskAllocation := none
  model : Option String := none
  deriving DecidableEq

structure RunRecord where
  tasks : List TaskRecord
  budgetTotal : Option Int := none
  budgetUnlimited : Option Bool := none
  deriving DecidableEq

structure ServerConnection where
  runId : Option String := none
  taskId : Option TaskId := none
  role : Option Tokens.Role := none
  authMatchKind : Option Tokens.MatchKind := none

/-- The options of the broker. `envMaxDepth` is the depth that the environment sets, and the catalog of
the models is read when it is needed. -/
structure Options where
  cwd : Option String := none
  nestingEnabled : Option Bool := none
  nestingMaxSlots : Option Nat := none
  nestingMaxDepth : Option Nat := none
  nestingTrustedEscalation : Option Bool := none
  serializeOnPathOverlap : Option Bool := none
  globalWorkerSemaphore : Option Nat := none
  hasModelCatalog : Bool := false
  envMaxDepth : Option Int := none

structure DelegateRequest where
  id : String
  runId : String
  parentTaskId : TaskId
  subId : TaskId
  requested : DelegateRequestParams
  deriving DecidableEq

structure Admitted extends DelegateRequest where
  decision : SpawnPolicyDecision
  reserved : Nat
  executionCwd : String
  parentModel : Option String
  parentRole : Option String
  deriving DecidableEq

/-- What a grandchild is spawned with. `brokerSpawn` are its credentials. -/
structure GrandchildSpawn where
  cwd : String
  runId : String
  parentTaskId : TaskId
  parentRole : Option String
  subId : TaskId
  prompt : String
  role : String
  brokerSpawn : Bool
  model : Option String
  maxTurns : Option Nat
  timeoutSec : Rat
  depthOverride : Nat
  deriving DecidableEq

/-- **A grandchild that lives**: its background function has not ended. -/
structure Grandchild extends GrandchildSpawn where
  reservedTokens : Nat
  aborted : Bool := false
  deriving DecidableEq

structure Accepted where
  runId : String
  parentTaskId : TaskId
  subId : TaskId
  reserved : Nat
  deriving DecidableEq

inductive Reply where
  | error (code : String) (message : Message)
  | result (grandchildTaskRef : TaskId) (childDepth : Nat) (timeoutSec : Rat)
  | closed
  deriving DecidableEq

structure CrewBroker where
  nestedSlots : NestedSlotBudget TaskId
  runs : String → Option RunRecord := fun _ => none
  waiting : List DelegateRequest := []
  admitted : List Admitted := []
  live : List Grandchild := []
  delegateAborts : List (TaskId × String) := []
  sent : List (String × Reply) := []
  minted : Nat := 0
  accepted : List Accepted := []

inductive StateWrite where
  | reserve
  | shadow
  deriving DecidableEq

/-- How the lock of a run goes: it is busy, the run cannot be read, or the admission runs with what the
catalog yields, and may have a write that fails. -/
inductive Attempt where
  | busy
  | readFails
  | locked (catalog : Option (List String)) (failing : Option StateWrite)

def defaultMaxCrewDepth : Nat := 4

def clampDepth (depth : Int) : Option Nat := if 1 ≤ depth then some (min depth 10).toNat else none

def resolveCrewMaxDepth (inputMaxDepth envDepth : Option Int) : Nat :=
  (envDepth.bind clampDepth).getD ((inputMaxDepth.bind clampDepth).getD defaultMaxCrewDepth)

def Options.maxDepth (options : Options) : Nat :=
  options.nestingMaxDepth.getD (resolveCrewMaxDepth none options.envMaxDepth)

namespace CrewBroker

def send (broker : CrewBroker) (id : String) (reply : Reply) : CrewBroker :=
  { broker with sent := broker.sent ++ [(id, reply)] }

def sendError (broker : CrewBroker) (id code : String) (message : Message) : CrewBroker :=
  broker.send id (.error code message)

def runNotFound (runId : String) : Message := [.text ("run '" ++ runId ++ "' not found")]

variable (options : Options)

/-- **A request comes in**: the checks before the lock, and the id of the grandchild. A run that cannot be
read is refused like one that is not there. -/
def handleDelegateRequest (broker : CrewBroker) (conn : ServerConnection) (id : String)
    (params : Option RawDelegateParams) : CrewBroker :=
  match conn.runId.filter (· ≠ ""), conn.taskId.filter (· ≠ .named "") with
  | some runId, some taskId =>
    if conn.role ≠ some .worker ∨ conn.authMatchKind ≠ some .compound then
      broker.sendError id "forbidden"
        [.text "delegate requires a task-scoped token; re-dispatch with PI_CREW_BROKER_TASK_ID"]
    else
      match parseDelegateRequestParams params with
      | none => broker.sendError id "bad-params" [.text "delegate.request: invalid params"]
      | some requested =>
        if options.cwd.getD "" = "" then
          broker.sendError id "no-manifest" [.text "broker has no cwd configured"]
        else if broker.runs runId = none then
          broker.sendError id "no-manifest" (runNotFound runId)
        else if options.nestingEnabled ≠ some true then
          broker.sendError id "policy-disabled"
            [.text ("delegate is disabled: nesting.enabled=false (set nesting.enabled=true in "
              ++ "user config; delegate.rejected recorded in events.jsonl)")]
        else
          { broker with
            waiting := broker.waiting ++
              [{ id := id, runId := runId, parentTaskId := taskId
                 subId := .grandchild broker.minted, requested := requested }]
            minted := broker.minted + 1 }
  | _, _ => broker.sendError id "auth" [.text "not authed"]

def overlapping (fresh : RunRecord) (parent : TaskId) (cwd : String) : Nat :=
  fresh.tasks.countP fun task =>
    task.id ≠ parent && task.status = .running && task.role.any (· ∈ executorClassRoles)
      && task.cwd = cwd

def admissionInput (broker : CrewBroker) (fresh : RunRecord) (task : TaskRecord)
    (request : DelegateRequest) (catalog : Option (List String)) : DelegateAdmissionInput TaskId where
  maxDepth := options.maxDepth
  taskId := request.parentTaskId
  role := task.role
  depth := task.depth
  allocation := task.allocation
  untrusted := options.nestingTrustedEscalation ≠ some true
  slotsUsed := broker.nestedSlots.used
  slotsMax := broker.nestedSlots.max
  parentBudgetGrantTokens := if fresh.budgetUnlimited = some true then none else fresh.budgetTotal
  unmeteredDelegates := .allow
  requested := {
    role := request.requested.role, model := request.requested.model
    budgetTokens := request.requested.budgetTokens, timeoutSec := request.requested.timeoutSec }
  modelCatalog := if options.hasModelCatalog then some (catalog.getD []) else none
  serializeEnabled := options.serializeOnPathOverlap = some true
  overlappingInFlightExecutors := overlapping fresh request.parentTaskId task.cwd

def saveRunTasks (broker : CrewBroker) (runId : String) (fresh : RunRecord)
    (tasks : List TaskRecord) : CrewBroker :=
  { broker with runs := Function.update broker.runs runId (some { fresh with tasks := tasks }) }

def reservedTokens (budget : DelegateBudgetDecision) : Nat :=
  if budget.metered then budget.requestedTokens.getD 0 else 0

def charge (budget : DelegateBudgetDecision) (allocation : Option TaskAllocation) :
    Option TaskAllocation :=
  if budget.metered then
    some {
      tokensGranted := budget.grantedTokens
      tokensSpent := budget.spentTokens + reservedTokens budget }
  else allocation

def reserveTasks (tasks : List TaskRecord) (parent : TaskId) (budget : DelegateBudgetDecision) :
    List TaskRecord :=
  tasks.map fun task =>
    if task.id = parent then { task with allocation := charge budget task.allocation } else task

def shadowTask (request : DelegateRequest) (executionCwd : String) (decision : SpawnPolicyDecision) :
    TaskRecord where
  id := request.subId
  role := some (request.requested.role.getD "explorer")
  status := .queued
  cwd := executionCwd
  depth := some decision.childDepth

def admittedOf (request : DelegateRequest) (task : TaskRecord) (decision : SpawnPolicyDecision) :
    Admitted where
  toDelegateRequest := request
  decision := decision
  reserved := reservedTokens decision.budget
  executionCwd := task.cwd
  parentModel := task.model
  parentRole := task.role

inductive AdmissionOutcome where
  | refused (code : String) (message : Message)
  | threw
  | ok (admitted : Admitted)

/-- **The writes of an admission**, with the slot taken. -/
def register (broker : CrewBroker) (fresh : RunRecord) (task : TaskRecord) (request : DelegateRequest)
    (decision : SpawnPolicyDecision) (failing : Option StateWrite) : CrewBroker × AdmissionOutcome :=
  let metered := decision.budget.metered
  let tasksAfterReserve :=
    if metered then reserveTasks fresh.tasks request.parentTaskId decision.budget else fresh.tasks
  if metered = true ∧ failing = some .reserve then (broker, .threw)
  else
    let saved :=
      if metered then broker.saveRunTasks request.runId fresh tasksAfterReserve else broker
    if failing = some .shadow then (saved, .threw)
    else
      (saved.saveRunTasks request.runId fresh
          (tasksAfterReserve ++ [shadowTask request task.cwd decision]),
        .ok (admittedOf request task decision))

/-- **The admission**, under the lock of the run. -/
def admission (broker : CrewBroker) (request : DelegateRequest) (catalog : Option (List String))
    (failing : Option StateWrite) : CrewBroker × AdmissionOutcome :=
  match broker.runs request.runId with
  | none => (broker, .refused "no-manifest" (runNotFound request.runId))
  | some fresh =>
    match fresh.tasks.find? (·.id = request.parentTaskId) with
    | none =>
      (broker, .refused "no-task"
        [.text "task '", .task request.parentTaskId, .text "' not found"])
    | some task =>
      if task.status ≠ .running then
        (broker, .refused "bad-params"
          [.text "delegate: parent task '", .task request.parentTaskId,
            .text ("' is " ++ statusText task.status ++ ", not running")])
      else
        match evaluateDelegateAdmission
            (broker.admissionInput options fresh task request catalog) with
        | .error denial => (broker, .refused "policy-denied" denial.message)
        | .ok decision =>
          match broker.nestedSlots.tryAcquire request.subId with
          | none =>
            (broker, .refused "policy-denied"
              (.text "delegate rejected: nested spawn budget exhausted; "
                :: broker.nestedSlots.statusLine))
          | some slots =>
            { broker with nestedSlots := slots }.register fresh task request decision failing

/-- **A request goes on**, when its turn at the lock is over. -/
def resume (broker : CrewBroker) (index : Nat) (attempt : Attempt) : CrewBroker :=
  match broker.waiting[index]? with
  | none => broker
  | some request =>
    let rest := { broker with waiting := broker.waiting.eraseIdx index }
    match attempt with
    | .busy =>
      rest.sendError request.id "busy"
        [.text ("run.lock busy (bounded retry budget exhausted): "
          ++ "Run 'run.lock' is locked by another operation.")]
    | .readFails => rest.send request.id .closed
    | .locked catalog failing =>
      match rest.admission options request catalog failing with
      | (after, .refused code message) => after.sendError request.id code message
      | (after, .threw) => after.send request.id .closed
      | (after, .ok admitted) =>
        { after with
          admitted := after.admitted ++ [admitted]
          accepted := after.accepted ++
            [{ runId := admitted.runId, parentTaskId := admitted.parentTaskId
               subId := admitted.subId, reserved := admitted.reserved }] }

def spawnOf (admitted : Admitted) : GrandchildSpawn where
  cwd := admitted.executionCwd
  runId := admitted.runId
  parentTaskId := admitted.parentTaskId
  parentRole := admitted.parentRole
  subId := admitted.subId
  prompt := admitted.requested.prompt
  role := admitted.requested.role.getD "explorer"
  brokerSpawn := admitted.decision.childDepth < options.maxDepth
  model := admitted.requested.model.or admitted.parentModel
  maxTurns := admitted.requested.maxTurns
  timeoutSec := admitted.decision.timeoutSec
  depthOverride := admitted.decision.childDepth

/-- **The grandchild of a request starts**, and can be aborted from then on. -/
def start (broker : CrewBroker) (index : Nat) : CrewBroker :=
  match broker.admitted[index]? with
  | none => broker
  | some admitted =>
    { broker.send admitted.id
        (.result admitted.subId admitted.decision.childDepth admitted.decision.timeoutSec) with
      admitted := broker.admitted.eraseIdx index
      delegateAborts :=
        broker.delegateAborts.filter (·.1 ≠ admitted.subId) ++ [(admitted.subId, admitted.runId)]
      live := broker.live ++
        [{ toGrandchildSpawn := spawnOf options admitted, reservedTokens := admitted.reserved }] }

def abortWhere (broker : CrewBroker) (predicate : String → Bool) : CrewBroker :=
  let victims := broker.delegateAborts.filter (predicate ·.2)
  { broker with
    live := broker.live.map fun grandchild =>
      { grandchild with
        aborted := grandchild.aborted || victims.any (·.1 = grandchild.subId) }
    delegateAborts := broker.delegateAborts.filter (!predicate ·.2) }

def setStatus (broker : CrewBroker) (runId : String) (wanted : TaskRecord → Bool)
    (status : TeamTaskStatus) : CrewBroker :=
  match broker.runs runId with
  | none => broker
  | some latest =>
    broker.saveRunTasks runId latest
      (latest.tasks.map fun task => if wanted task then { task with status := status } else task)

def promoteShadowToRunning (broker : CrewBroker) (runId : String) (subId : TaskId) : CrewBroker :=
  match (broker.runs runId).bind fun latest => latest.tasks.find? (·.id = subId) with
  | none => broker
  | some shadow =>
    if shadow.status = .queued then broker.setStatus runId (·.id = subId) .running else broker

def finalizeDelegateResult (broker : CrewBroker) (grandchild : Grandchild) (ok : Bool) : CrewBroker :=
  broker.setStatus grandchild.runId (·.id = grandchild.subId) (if ok then .completed else .failed)

/-- **A grandchild ends.** Its slot is given back, whether or not its end could be saved. -/
def settle (broker : CrewBroker) (index : Nat) (ok saved : Bool) : CrewBroker :=
  match broker.live[index]? with
  | none => broker
  | some grandchild =>
    let finalized := if saved then broker.finalizeDelegateResult grandchild ok else broker
    { finalized with
      live := finalized.live.eraseIdx index
      delegateAborts := finalized.delegateAborts.filter (·.1 ≠ grandchild.subId)
      nestedSlots := finalized.nestedSlots.release grandchild.subId }

end CrewBroker

/-- **A step.** `status` is any other change of a task, and `prune` removes a run. -/
inductive Action where
  | request (conn : ServerConnection) (id : String) (params : Option RawDelegateParams)
  | resume (index : Nat) (attempt : Attempt)
  | start (index : Nat)
  | abortRun (runId : String)
  | abortAll
  | promote (runId : String) (subId : TaskId)
  | settle (index : Nat) (ok saved : Bool)
  | status (runId : String) (taskId : TaskId) (status : TeamTaskStatus)
  | prune (runId : String)

def CrewBroker.step (options : Options) (broker : CrewBroker) : Action → CrewBroker
  | .request conn id params => broker.handleDelegateRequest options conn id params
  | .resume index attempt => broker.resume options index attempt
  | .start index => broker.start options index
  | .abortRun runId => broker.abortWhere (· = runId)
  | .abortAll => broker.abortWhere fun _ => true
  | .promote runId subId => broker.promoteShadowToRunning runId subId
  | .settle index ok saved => broker.settle index ok saved
  | .status runId taskId status => broker.setStatus runId (·.id = taskId) status
  | .prune runId => { broker with runs := Function.update broker.runs runId none }

namespace CrewBroker

variable (options : Options) (broker : CrewBroker) (request : DelegateRequest)
  (catalog : Option (List String))

/-- **A request is let in**: its parent is running, and no gate denies it. -/
def allows : Bool :=
  match broker.runs request.runId with
  | none => false
  | some fresh =>
    match fresh.tasks.find? (·.id = request.parentTaskId) with
    | none => false
    | some task =>
      task.status = .running &&
        (evaluateDelegateAdmission
          (broker.admissionInput options fresh task request catalog)).isOk

def makes : StateWrite → Bool
  | .reserve => broker.allows options request catalog && request.requested.budgetTokens.isSome
  | .shadow => broker.allows options request catalog

/-- What a request that is let in is decided on, and with. -/
structure Allowed (fresh : RunRecord) (task : TaskRecord) (decision : SpawnPolicyDecision)
    (slots : NestedSlotBudget TaskId) : Prop where
  read : broker.runs request.runId = some fresh
  parent : fresh.tasks.find? (·.id = request.parentTaskId) = some task
  decided :
    evaluateDelegateAdmission (broker.admissionInput options fresh task request catalog) = .ok decision
  slot : broker.nestedSlots.tryAcquire request.subId = some slots

variable {options broker request catalog}

theorem admission_denied (denied : broker.allows options request catalog = false)
    (failing : Option StateWrite) :
    ∃ code message, broker.admission options request catalog failing
      = (broker, .refused code message) := by
  unfold admission
  unfold allows at denied
  cases read : broker.runs request.runId with
  | none => exact ⟨_, _, rfl⟩
  | some fresh =>
  rw [read] at denied
  dsimp only at denied ⊢
  cases parent : fresh.tasks.find? (·.id = request.parentTaskId) with
  | none => exact ⟨_, _, rfl⟩
  | some task =>
  rw [parent] at denied
  dsimp only at denied ⊢
  by_cases running : task.status = .running
  · rw [if_neg (not_not.mpr running)]
    rw [decide_eq_true running, Bool.true_and] at denied
    cases decided : evaluateDelegateAdmission
        (broker.admissionInput options fresh task request catalog) with
    | error denial => exact ⟨_, _, rfl⟩
    | ok decision =>
      rw [decided] at denied
      cases denied
  · rw [if_pos running]
    exact ⟨_, _, rfl⟩

theorem admission_allowed (allowed : broker.allows options request catalog = true)
    (failing : Option StateWrite) :
    ∃ fresh task decision slots, broker.Allowed options request catalog fresh task decision slots ∧
      broker.admission options request catalog failing
        = { broker with nestedSlots := slots }.register fresh task request decision failing := by
  unfold allows at allowed
  unfold admission
  cases read : broker.runs request.runId with
  | none =>
    rw [read] at allowed
    cases allowed
  | some fresh =>
  rw [read] at allowed
  dsimp only at allowed ⊢
  cases parent : fresh.tasks.find? (·.id = request.parentTaskId) with
  | none =>
    rw [parent] at allowed
    cases allowed
  | some task =>
  rw [parent] at allowed
  dsimp only at allowed ⊢
  obtain ⟨running, admits⟩ := Bool.and_eq_true_iff.mp allowed
  rw [if_neg (not_not.mpr (of_decide_eq_true running))]
  cases decided : evaluateDelegateAdmission
      (broker.admissionInput options fresh task request catalog) with
  | error denial =>
    rw [decided] at admits
    cases admits
  | ok decision =>
    have free := (evaluateDelegateAdmission_ok decided).2.1
    obtain ⟨slots, slot⟩ := broker.nestedSlots.tryAcquire_free request.subId free
    refine ⟨fresh, task, decision, slots, ⟨read, parent, decided, slot⟩, ?_⟩
    dsimp only
    rw [slot]

variable {decision : SpawnPolicyDecision}

theorem Allowed.metered {fresh : RunRecord} {task : TaskRecord} {slots : NestedSlotBudget TaskId}
    (allowed : broker.Allowed options request catalog fresh task decision slots) :
    decision.budget.metered = request.requested.budgetTokens.isSome ∧
      decision.budget.requestedTokens = request.requested.budgetTokens := by
  rw [(evaluateDelegateAdmission_ok allowed.decided).1]
  exact ⟨rfl, rfl⟩

theorem reserveTasks_unmetered {budget : DelegateBudgetDecision} (unmetered : budget.metered = false)
    (tasks : List TaskRecord) (parent : TaskId) : reserveTasks tasks parent budget = tasks := by
  unfold reserveTasks
  refine (List.map_congr_left fun task _ => ?_).trans (List.map_id tasks)
  split_ifs
  · rw [charge, unmetered]
    rfl
  · rfl

/-- **The writes of an admission**, where none of them fails. -/
theorem register_lands {fresh : RunRecord} {task : TaskRecord} {failing : Option StateWrite}
    (reserves : decision.budget.metered = true → failing ≠ some .reserve)
    (shadows : failing ≠ some .shadow) :
    broker.register fresh task request decision failing
      = (broker.saveRunTasks request.runId fresh
          (reserveTasks fresh.tasks request.parentTaskId decision.budget
            ++ [shadowTask request task.cwd decision]),
        .ok (admittedOf request task decision)) := by
  unfold register
  cases metered : decision.budget.metered with
  | false =>
    have kept := reserveTasks_unmetered metered fresh.tasks request.parentTaskId
    simp only [Bool.false_eq_true, false_and, if_false, if_neg shadows, kept]
  | true =>
    simp only [if_true, true_and, if_neg (reserves metered), if_neg shadows, saveRunTasks,
      Function.update_idem]

/-- **A write of an admission that fails** ends it, with the slot taken. -/
theorem register_fails {fresh : RunRecord} {task : TaskRecord}
    {write : StateWrite} (made : write = .reserve → decision.budget.metered = true) :
    ∃ after, broker.register fresh task request decision (some write) = (after, .threw) ∧
      after.nestedSlots = broker.nestedSlots ∧ after.accepted = broker.accepted := by
  unfold register
  cases write with
  | reserve => exact ⟨broker, if_pos ⟨made rfl, rfl⟩, rfl, rfl⟩
  | shadow =>
    dsimp only
    rw [if_neg (fun both => nomatch both.2), if_pos rfl]
    refine ⟨_, rfl, ?_⟩
    split_ifs
    · exact ⟨rfl, rfl⟩
    · exact ⟨rfl, rfl⟩

end CrewBroker

end PiCrew.Broker.Delegate
