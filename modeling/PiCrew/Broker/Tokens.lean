/-
**The tokens of the broker.**

`runtime/broker/crew-broker-tokens.ts` and the methods of `crew-broker.ts` that issue, revoke and check tokens. A
token stands under a key made of its run and task, or of a run and a task id kept for its orchestrator.

* `step_sound` — what the operations do to the tokens that authenticate;
* `tokens_isolated` — the isolation of the tokens in every run of `Careful` operations;
* `tokens_not_isolated` — three runs that break it.

A minted token is a new one. The digest of a token and the status of a run on disk are parameters.
-/

import PiCrew.Library.Ledger
import PiCrew.Library.Runs
import Mathlib.Algebra.GroupWithZero.Nat

set_option linter.unusedSectionVars false

namespace PiCrew.Broker.Tokens

def isSafePathId (value : String) : Bool :=
  !value.toList.isEmpty && value.toList.all fun char => char.isAlphanum || char = '_' || char = '-'

structure SafePathId where
  value : String
  safe : isSafePathId value = true

def orchestratorId : String := "__orchestrator__"

/-- The key of a token. An empty task id is none. -/
def key (runId : String) (taskId : Option String) : String :=
  match taskId with
  | some task => if task = "" then runId else runId ++ ":" ++ task
  | none => runId

def orchestratorKey (runId : String) : String := runId ++ ":" ++ orchestratorId

inductive Grant where
  | run (runId : String)
  | task (runId taskId : String)
  | orchestrator (runId : String)
  deriving DecidableEq

def Grant.runId : Grant → String
  | .run runId | .task runId _ | .orchestrator runId => runId

def Grant.taskId : Grant → Option String
  | .task _ taskId => some taskId
  | _ => none

def Grant.key : Grant → String
  | .orchestrator runId => orchestratorKey runId
  | grant => Tokens.key grant.runId grant.taskId

section

structure BrokerTokenRegistry (η : Type) where
  map : Ledger String Nat := {}
  revokedTokenHashes : List η := []
  minted : Nat := 0

inductive Role where
  | orchestrator
  | worker
  deriving DecidableEq

inductive MatchKind where
  | compound
  | runIdFallback
  deriving DecidableEq

variable {η : Type}

namespace BrokerTokenRegistry

def mint (registry : BrokerTokenRegistry η) (key : String) : Nat × BrokerTokenRegistry η :=
  (registry.minted,
    { registry with map := registry.map.put key registry.minted, minted := registry.minted + 1 })

def issueOrchestratorToken (registry : BrokerTokenRegistry η) (runId : String) :
    Nat × BrokerTokenRegistry η :=
  match registry.map.get (orchestratorKey runId) with
  | some existing => (existing, registry)
  | none => registry.mint (orchestratorKey runId)

def delete (registry : BrokerTokenRegistry η) (key : String) : BrokerTokenRegistry η :=
  { registry with map := registry.map.keep fun entry => entry.1 ≠ key }

def revoke (registry : BrokerTokenRegistry η) (runId : String) (taskId : Option String) :
    BrokerTokenRegistry η :=
  let deleted := registry.delete (key runId taskId)
  if taskId.any (· ≠ "") then deleted.delete runId else deleted.delete (orchestratorKey runId)

variable (hashToken : Nat → η)

def revokeToken (registry : BrokerTokenRegistry η) (token : Nat) : BrokerTokenRegistry η :=
  { registry with revokedTokenHashes := hashToken token :: registry.revokedTokenHashes }

variable [DecidableEq η]

/-- **Issue a token**: the registered one, unless it has been revoked. -/
def issue (registry : BrokerTokenRegistry η) (runId : String) (taskId : Option String) :
    Nat × BrokerTokenRegistry η :=
  match registry.map.get (key runId taskId) with
  | some existing =>
    if hashToken existing ∈ registry.revokedTokenHashes then registry.mint (key runId taskId)
    else (existing, registry)
  | none => registry.mint (key runId taskId)

/-- **The role that a token gives**, and how it matched. The key of the orchestrator comes first. -/
def tokenRoleWithMatchKind (registry : BrokerTokenRegistry η) (runId : String)
    (taskId : Option String) (candidate : Nat) : Option (Role × MatchKind) :=
  if registry.map.get (orchestratorKey runId) = some candidate then some (.orchestrator, .compound)
  else
    match taskId with
    | none =>
      if registry.map.get runId = some candidate then some (.worker, .runIdFallback) else none
    | some taskId =>
      if registry.map.get (key runId (some taskId)) = some candidate then some (.worker, .compound)
      else none

def isTaskTokenRevoked (registry : BrokerTokenRegistry η) (runId taskId : String) : Bool :=
  match registry.map.get (key runId (some taskId)) with
  | some token => hashToken token ∈ registry.revokedTokenHashes
  | none => false

end BrokerTokenRegistry

end

section

/-- **The broker**: its registry, and the token issued last for each task id. `issued` are the tokens
given out so far with what they were issued for, `dead` those among them that may not authenticate any
more. -/
structure CrewBroker (η : Type) where
  tokens : BrokerTokenRegistry η := {}
  taskTokens : Ledger String Nat := {}
  issued : List (Nat × Grant) := []
  dead : List Nat := []

variable {η : Type} [DecidableEq η] (hashToken : Nat → η)

def codeUnits (value : String) : Nat :=
  (value.toList.map fun char => if char.val < 0x10000 then 1 else 2).sum

/-- An id that `isHelloParams` lets through. -/
def IsHelloId (value : String) : Prop := 0 < codeUnits value ∧ codeUnits value ≤ 256

instance decidableIsHelloId (value : String) : Decidable (IsHelloId value) :=
  inferInstanceAs (Decidable (_ ∧ _))

def CrewBroker.issueRunToken (broker : CrewBroker η) (runId : String) (taskId : Option String) :
    CrewBroker η :=
  let issued := broker.tokens.issue hashToken runId taskId
  { broker with
    tokens := issued.2
    taskTokens :=
      match taskId with
      | some taskId => broker.taskTokens.put taskId issued.1
      | none => broker.taskTokens
    issued := (issued.1, taskId.elim (.run runId) (.task runId)) :: broker.issued }

def CrewBroker.issueOrchestratorToken (broker : CrewBroker η) (runId : String) : CrewBroker η :=
  let issued := broker.tokens.issueOrchestratorToken runId
  { broker with
    tokens := issued.2
    issued := (issued.1, .orchestrator runId) :: broker.issued }

/-- Revoke the token that was issued last for a task id. -/
def CrewBroker.revokeTaskToken (broker : CrewBroker η) (taskId : String) : CrewBroker η :=
  let dead := (broker.issued.filter fun issue => issue.2.taskId = some taskId).map (·.1)
  match broker.taskTokens.get taskId with
  | some token =>
    { broker with
      tokens := broker.tokens.revokeToken hashToken token
      taskTokens := broker.taskTokens.keep fun entry => entry.1 ≠ taskId
      dead := dead ++ broker.dead }
  | none => { broker with dead := dead ++ broker.dead }

def CrewBroker.revoke (broker : CrewBroker η) (runId : String) (taskId : Option String) :
    CrewBroker η :=
  { broker with
    tokens := broker.tokens.revoke runId taskId
    dead :=
      match taskId with
      | some _ => broker.dead
      | none => (broker.issued.filter fun issue => issue.2.runId = runId).map (·.1) ++ broker.dead }

/-- **Check a hello**: the role that it is accepted in. `terminal` says which runs are terminal. -/
def CrewBroker.handleHello (broker : CrewBroker η) (terminal : String → Bool)
    (runId taskId : String) (token : Nat) : Option Role :=
  if IsHelloId runId ∧ IsHelloId taskId then
    match broker.tokens.tokenRoleWithMatchKind runId (some taskId) token with
    | none => none
    | some (.orchestrator, _) => some .orchestrator
    | some (.worker, _) =>
      if broker.tokens.isTaskTokenRevoked hashToken runId taskId then none
      else if terminal runId then none
      else some .worker
  else none

inductive Operation where
  | issue (runId : SafePathId) (taskId : Option SafePathId)
  | issueOrchestratorToken (runId : SafePathId)
  | revokeTaskToken (taskId : SafePathId)
  | revoke (runId : SafePathId) (taskId : Option SafePathId)

def CrewBroker.step (broker : CrewBroker η) : Operation → CrewBroker η
  | .issue runId taskId => broker.issueRunToken hashToken runId.value (taskId.map (·.value))
  | .issueOrchestratorToken runId => broker.issueOrchestratorToken runId.value
  | .revokeTaskToken taskId => broker.revokeTaskToken hashToken taskId.value
  | .revoke runId taskId => broker.revoke runId.value (taskId.map (·.value))

/-- **The isolation of tokens**, whatever a hello says. -/
structure Isolated (broker : CrewBroker η) : Prop where
  orchestrator : ∀ terminal runId taskId token,
    broker.handleHello hashToken terminal runId taskId token = some .orchestrator →
      (token, .orchestrator runId) ∈ broker.issued
  task : ∀ terminal runId taskId token role,
    broker.handleHello hashToken terminal runId taskId token = some role →
      ∀ run task, (token, .task run task) ∈ broker.issued →
        role = .worker ∧ runId = run ∧ taskId = task
  revoked : ∀ terminal runId taskId token role,
    broker.handleHello hashToken terminal runId taskId token = some role → token ∉ broker.dead

def Live (broker : CrewBroker η) (issue : Nat × Grant) : Prop :=
  broker.tokens.map.get issue.2.key = some issue.1 ∧
    hashToken issue.1 ∉ broker.tokens.revokedTokenHashes

instance decidableLive (broker : CrewBroker η) (issue : Nat × Grant) :
    Decidable (Live hashToken broker issue) :=
  inferInstanceAs (Decidable (_ ∧ _))

/-- **An operation that cannot go wrong**: no token is issued for a task with the id of the orchestrator;
a task token is revoked when it is the only live one of its task id; a run is revoked when none of its
task tokens is live. -/
def Careful (broker : CrewBroker η) : Operation → Prop
  | .issue _ taskId => ∀ task ∈ taskId, task.value ≠ orchestratorId
  | .issueOrchestratorToken _ => True
  | .revokeTaskToken taskId => ∀ issue ∈ broker.issued, issue.2.taskId = some taskId.value →
      Live hashToken broker issue → broker.taskTokens.get taskId.value = some issue.1
  | .revoke runId none => ∀ issue ∈ broker.issued, issue.2.runId = runId.value →
      issue.2.taskId.isSome = true → ¬ Live hashToken broker issue
  | .revoke _ (some _) => True

instance decidableCareful (broker : CrewBroker η) (operation : Operation) :
    Decidable (Careful hashToken broker operation) := by
  cases operation with
  | issue => dsimp only [Careful]; infer_instance
  | issueOrchestratorToken => dsimp only [Careful]; infer_instance
  | revokeTaskToken => dsimp only [Careful]; infer_instance
  | revoke runId taskId => cases taskId <;> (dsimp only [Careful]; infer_instance)

end

theorem split_at_colon {run task other rest : String} (plainRun : ':' ∉ run.toList)
    (plainTask : ':' ∉ task.toList) (same : run ++ ":" ++ task = other ++ ":" ++ rest) :
    run = other ∧ task = rest := by
  have lists : run.toList ++ ':' :: task.toList = other.toList ++ ':' :: rest.toList := by
    simpa using congrArg String.toList same
  rcases List.append_eq_append_iff.mp lists with ⟨between, first, second⟩ | ⟨between, first, second⟩
  · cases between with
    | nil =>
      rw [List.append_nil] at first
      exact ⟨String.toList_injective first.symm,
        String.toList_injective (List.cons.inj second).2⟩
    | cons char chars =>
      rw [List.cons_append] at second
      have tail : task.toList = chars ++ ':' :: rest.toList := (List.cons.inj second).2
      exact absurd (tail ▸ List.mem_append_right _ List.mem_cons_self) plainTask
  · cases between with
    | nil =>
      rw [List.append_nil] at first
      exact ⟨String.toList_injective first,
        String.toList_injective (List.cons.inj second).2.symm⟩
    | cons char chars =>
      rw [List.cons_append] at second
      have colon : ':' = char := (List.cons.inj second).1
      rw [first, ← colon] at plainRun
      exact absurd (List.mem_append_right _ List.mem_cons_self) plainRun

/-- **A grant with proper ids**: without colons, and no task having the id of the orchestrator. -/
structure Grant.Proper (grant : Grant) : Prop where
  run : ':' ∉ grant.runId.toList
  task : ∀ task ∈ grant.taskId, ':' ∉ task.toList ∧ task ≠ "" ∧ task ≠ orchestratorId

theorem SafePathId.plain (id : SafePathId) : ':' ∉ id.value.toList ∧ id.value ≠ "" := by
  have safe := id.safe
  rw [isSafePathId, Bool.and_eq_true, List.all_eq_true] at safe
  constructor
  · intro colon
    exact absurd (safe.2 ':' colon) (by decide)
  · intro empty
    rw [empty] at safe
    exact absurd safe.1 (by decide)

theorem orchestratorId_plain : ':' ∉ orchestratorId.toList := by decide

theorem task_key {runId taskId : String} (filled : taskId ≠ "") :
    key runId (some taskId) = runId ++ ":" ++ taskId := if_neg filled

theorem key_eq_iff {grant : Grant} (proper : grant.Proper) {runId taskId : String} :
    grant.key = runId ++ ":" ++ taskId ↔
      grant = .task runId taskId ∨ grant = .orchestrator runId ∧ taskId = orchestratorId := by
  cases grant with
  | run run =>
    refine ⟨fun same => absurd ?_ proper.run, fun either => ?_⟩
    · have colon : ':' ∈ (runId ++ ":" ++ taskId).toList := by simp
      rwa [← same] at colon
    · rcases either with equal | ⟨equal, -⟩ <;> cases equal
  | task run task =>
    obtain ⟨plain, filled, -⟩ := proper.task task rfl
    constructor
    · intro same
      obtain ⟨rfl, rfl⟩ := split_at_colon proper.run plain ((task_key filled).symm.trans same)
      exact Or.inl rfl
    · rintro (equal | ⟨equal, -⟩)
      · cases equal
        exact task_key filled
      · cases equal
  | orchestrator run =>
    constructor
    · intro same
      obtain ⟨rfl, rfl⟩ := split_at_colon proper.run orchestratorId_plain same
      exact Or.inr ⟨rfl, rfl⟩
    · rintro (equal | ⟨equal, rfl⟩)
      · cases equal
      · cases equal
        rfl

theorem key_injective {first second : Grant} (firstProper : first.Proper)
    (secondProper : second.Proper) (same : first.key = second.key) : first = second := by
  cases second with
  | run run =>
    cases first with
    | run other => exact congrArg Grant.run same
    | task other task =>
      obtain ⟨-, filled, -⟩ := firstProper.task task rfl
      have back := (key_eq_iff secondProper).mp (same.symm.trans (task_key filled))
      rcases back with equal | ⟨equal, -⟩ <;> cases equal
    | orchestrator other =>
      have back := (key_eq_iff secondProper).mp (same.symm.trans rfl)
      rcases back with equal | ⟨equal, -⟩ <;> cases equal
  | task run task =>
    obtain ⟨-, filled, apart⟩ := secondProper.task task rfl
    exact ((key_eq_iff firstProper).mp (same.trans (task_key filled))).resolve_right
      fun orchestrator => apart orchestrator.2
  | orchestrator run =>
    rcases (key_eq_iff firstProper).mp same with rfl | ⟨equal, -⟩
    · exact absurd rfl (firstProper.task _ rfl).2.2
    · exact equal

section

variable {η : Type} [DecidableEq η] {hashToken : Nat → η} {broker : CrewBroker η}

variable (hashToken broker) in
/-- **The invariant**: a registered token was issued for what its key says, a token is issued for one
thing only, and a dead token that is still registered is one of a task and has been revoked. -/
structure Sound : Prop where
  granted : ∀ key token, broker.tokens.map.get key = some token →
    ∃ grant, (token, grant) ∈ broker.issued ∧ grant.key = key
  proper : ∀ issue ∈ broker.issued, issue.2.Proper ∧ issue.1 < broker.tokens.minted
  once : ∀ token first second, (token, first) ∈ broker.issued → (token, second) ∈ broker.issued →
    first = second
  dead : ∀ token ∈ broker.dead, ∃ grant, (token, grant) ∈ broker.issued
  buried : ∀ issue ∈ broker.issued, issue.1 ∈ broker.dead →
    broker.tokens.map.get issue.2.key = some issue.1 →
      issue.2.taskId.isSome = true ∧ hashToken issue.1 ∈ broker.tokens.revokedTokenHashes

theorem start_sound : Sound hashToken ({} : CrewBroker η) where
  granted _ _ found := nomatch found
  proper _ member := absurd member List.not_mem_nil
  once _ _ _ member := absurd member List.not_mem_nil
  dead _ member := absurd member List.not_mem_nil
  buried _ member := absurd member List.not_mem_nil

theorem handleHello_cases {terminal : String → Bool} {runId taskId : String} {token : Nat}
    {role : Role} (hello : broker.handleHello hashToken terminal runId taskId token = some role) :
    role = .orchestrator ∧ broker.tokens.map.get (orchestratorKey runId) = some token ∨
      role = .worker ∧ taskId ≠ "" ∧
        broker.tokens.map.get (orchestratorKey runId) ≠ some token ∧
        broker.tokens.map.get (key runId (some taskId)) = some token ∧
        hashToken token ∉ broker.tokens.revokedTokenHashes := by
  rw [CrewBroker.handleHello] at hello
  by_cases ids : IsHelloId runId ∧ IsHelloId taskId
  · rw [if_pos ids, BrokerTokenRegistry.tokenRoleWithMatchKind] at hello
    by_cases orchestrator : broker.tokens.map.get (orchestratorKey runId) = some token
    · rw [if_pos orchestrator] at hello
      exact Or.inl ⟨(Option.some.inj hello).symm, orchestrator⟩
    · simp only [if_neg orchestrator] at hello
      by_cases task : broker.tokens.map.get (key runId (some taskId)) = some token
      · simp only [if_pos task] at hello
        simp only [BrokerTokenRegistry.isTaskTokenRevoked, task] at hello
        split_ifs at hello with revoked
        refine Or.inr ⟨(Option.some.inj hello).symm, ?_, orchestrator, task, ?_⟩
        · rintro rfl
          exact absurd ids.2.1 (by decide)
        · exact fun member => revoked (decide_eq_true member)
      · simp only [if_neg task] at hello
        cases hello
  · rw [if_neg ids] at hello
    cases hello

theorem Sound.grant_of_hello (sound : Sound hashToken broker) {terminal : String → Bool}
    {runId taskId : String} {token : Nat} {role : Role}
    (hello : broker.handleHello hashToken terminal runId taskId token = some role) :
    ∃ grant, (token, grant) ∈ broker.issued ∧ token ∉ broker.dead ∧
      (role = .orchestrator ∧ grant = .orchestrator runId ∨
        role = .worker ∧ grant = .task runId taskId) := by
  rcases handleHello_cases hello with ⟨orchestrator, found⟩ | ⟨worker, filled, other, found, live⟩
  · obtain ⟨grant, issued, same⟩ := sound.granted _ _ found
    have proper := (sound.proper _ issued).1
    rcases (key_eq_iff proper).mp same with rfl | ⟨rfl, -⟩
    · exact absurd rfl (proper.task _ rfl).2.2
    · refine ⟨_, issued, fun dead => ?_, Or.inl ⟨orchestrator, rfl⟩⟩
      exact absurd (sound.buried _ issued dead found).1 Bool.false_ne_true
  · obtain ⟨grant, issued, same⟩ := sound.granted _ _ found
    have proper := (sound.proper _ issued).1
    refine ⟨grant, issued, fun dead => ?_, Or.inr ⟨worker, ?_⟩⟩
    · exact live (sound.buried _ issued dead (same ▸ found)).2
    · refine ((key_eq_iff proper).mp (same.trans (task_key filled))).resolve_right ?_
      rintro ⟨rfl, rfl⟩
      exact other found

theorem Sound.isolated (sound : Sound hashToken broker) : Isolated hashToken broker where
  orchestrator terminal runId taskId token hello := by
    obtain ⟨grant, issued, -, ⟨-, rfl⟩ | ⟨worker, -⟩⟩ := sound.grant_of_hello hello
    · exact issued
    · cases worker
  task terminal runId taskId token role hello run task granted := by
    obtain ⟨grant, issued, -, ⟨-, rfl⟩ | ⟨worker, rfl⟩⟩ := sound.grant_of_hello hello
    · cases sound.once _ _ _ issued granted
    · cases sound.once _ _ _ issued granted
      exact ⟨worker, rfl, rfl⟩
  revoked terminal runId taskId token role hello := by
    obtain ⟨_, _, alive, _⟩ := sound.grant_of_hello hello
    exact alive

end

section

variable {η : Type} [DecidableEq η] {hashToken : Nat → η} {broker : CrewBroker η}

section

variable (sound : Sound hashToken broker)

include sound

/-- **A new token** for a proper grant. -/
theorem mint_sound {grant : Grant} (proper : grant.Proper)
    (taskTokens : Ledger String Nat) :
    Sound hashToken
      { broker with
        tokens := (broker.tokens.mint grant.key).2
        taskTokens := taskTokens
        issued := ((broker.tokens.mint grant.key).1, grant) :: broker.issued } := by
  have older : ∀ {token other}, (token, other) ∈ broker.issued → token ≠ broker.tokens.minted :=
    fun issued => Nat.ne_of_lt (sound.proper _ issued).2
  refine
    { granted := fun key token found => ?_
      proper := fun issue member => ?_
      once := fun token first second firstIssued secondIssued => ?_
      dead := fun token dead => ?_
      buried := fun issue member dead found => ?_ }
  · rw [BrokerTokenRegistry.mint, Ledger.get_put] at found
    split_ifs at found with here
    · obtain rfl := Option.some.inj found
      exact ⟨grant, List.mem_cons_self, here.symm⟩
    · obtain ⟨other, issued, same⟩ := sound.granted key token found
      exact ⟨other, List.mem_cons_of_mem _ issued, same⟩
  · rcases List.mem_cons.mp member with rfl | before
    · exact ⟨proper, Nat.lt_succ_self _⟩
    · exact (sound.proper issue before).imp_right Nat.lt_succ_of_lt
  · rcases List.mem_cons.mp firstIssued with firstNew | firstBefore
    · rcases List.mem_cons.mp secondIssued with secondNew | secondBefore
      · exact (Prod.mk.inj firstNew).2.trans (Prod.mk.inj secondNew).2.symm
      · exact absurd (Prod.mk.inj firstNew).1 (older secondBefore)
    · rcases List.mem_cons.mp secondIssued with secondNew | secondBefore
      · exact absurd (Prod.mk.inj secondNew).1 (older firstBefore)
      · exact sound.once token first second firstBefore secondBefore
  · obtain ⟨other, issued⟩ := sound.dead token dead
    exact ⟨other, List.mem_cons_of_mem _ issued⟩
  · rcases List.mem_cons.mp member with rfl | before
    · obtain ⟨other, issued⟩ := sound.dead _ dead
      exact absurd rfl (older issued)
    · rw [BrokerTokenRegistry.mint, Ledger.get_put] at found
      split_ifs at found
      · exact absurd (Option.some.inj found).symm (older before)
      · exact sound.buried issue before dead found

theorem reuse_sound {grant : Grant} (proper : grant.Proper)
    {token : Nat} (found : broker.tokens.map.get grant.key = some token)
    (taskTokens : Ledger String Nat) :
    Sound hashToken
      { broker with taskTokens := taskTokens, issued := (token, grant) :: broker.issued } := by
  have issued : (token, grant) ∈ broker.issued := by
    obtain ⟨other, issued, same⟩ := sound.granted _ _ found
    exact key_injective (sound.proper _ issued).1 proper same ▸ issued
  have before : ∀ {issue}, issue ∈ (token, grant) :: broker.issued → issue ∈ broker.issued := by
    intro issue member
    rcases List.mem_cons.mp member with rfl | before
    · exact issued
    · exact before
  exact
    { granted := fun key token found => by
        obtain ⟨other, issued, same⟩ := sound.granted key token found
        exact ⟨other, List.mem_cons_of_mem _ issued, same⟩
      proper := fun issue member => sound.proper issue (before member)
      once := fun token first second firstIssued secondIssued =>
        sound.once token first second (before firstIssued) (before secondIssued)
      dead := fun token dead => by
        obtain ⟨other, issued⟩ := sound.dead token dead
        exact ⟨other, List.mem_cons_of_mem _ issued⟩
      buried := fun issue member => sound.buried issue (before member) }

theorem withdraw_sound {map : Ledger String Nat} {hashes : List η}
    {taskTokens : Ledger String Nat} {dead : List Nat}
    (fewer : ∀ key token, map.get key = some token → broker.tokens.map.get key = some token)
    (more : broker.tokens.revokedTokenHashes ⊆ hashes)
    (issued : ∀ token ∈ dead, ∃ grant, (token, grant) ∈ broker.issued)
    (buried : ∀ issue ∈ broker.issued, issue.1 ∈ dead → map.get issue.2.key = some issue.1 →
      issue.2.taskId.isSome = true ∧ hashToken issue.1 ∈ hashes) :
    Sound hashToken
      { broker with
        tokens := { broker.tokens with map := map, revokedTokenHashes := hashes }
        taskTokens := taskTokens
        dead := dead ++ broker.dead } where
  granted key token found := sound.granted key token (fewer key token found)
  proper := sound.proper
  once := sound.once
  dead token member := by
    rcases List.mem_append.mp member with now | before
    · exact issued token now
    · exact sound.dead token before
  buried issue member given found := by
    rcases List.mem_append.mp given with now | before
    · exact buried issue member now found
    · exact (sound.buried issue member before (fewer _ _ found)).imp_right fun hash => more hash

theorem issueRunToken_sound {runId : String}
    {taskId : Option String} (proper : (taskId.elim (Grant.run runId) (.task runId)).Proper) :
    Sound hashToken (broker.issueRunToken hashToken runId taskId) := by
  have same : key runId taskId = (taskId.elim (Grant.run runId) (.task runId)).key := by
    cases taskId <;> rfl
  simp only [CrewBroker.issueRunToken, BrokerTokenRegistry.issue, same]
  split
  case h_1 token found =>
    split_ifs
    · exact mint_sound sound proper _
    · exact reuse_sound sound proper found _
  case h_2 => exact mint_sound sound proper _

theorem issueOrchestratorToken_sound {runId : String}
    (plain : ':' ∉ runId.toList) : Sound hashToken (broker.issueOrchestratorToken runId) := by
  have proper : (Grant.orchestrator runId).Proper := ⟨plain, nofun⟩
  have same : orchestratorKey runId = (Grant.orchestrator runId).key := rfl
  simp only [CrewBroker.issueOrchestratorToken, BrokerTokenRegistry.issueOrchestratorToken, same]
  split
  case h_1 token found => exact reuse_sound sound proper found _
  case h_2 => exact mint_sound sound proper _

end

theorem issued_of_picked {picked : Nat × Grant → Bool} {token : Nat}
    (member : token ∈ (broker.issued.filter picked).map (·.1)) :
    ∃ grant, (token, grant) ∈ broker.issued ∧ picked (token, grant) = true := by
  obtain ⟨⟨_, grant⟩, there, rfl⟩ := List.mem_map.mp member
  obtain ⟨issued, chosen⟩ := List.mem_filter.mp there
  exact ⟨grant, issued, chosen⟩

theorem revokeTaskToken_sound (sound : Sound hashToken broker) {taskId : String}
    (only : ∀ issue ∈ broker.issued, issue.2.taskId = some taskId → Live hashToken broker issue →
      broker.taskTokens.get taskId = some issue.1) :
    Sound hashToken (broker.revokeTaskToken hashToken taskId) := by
  have issued : ∀ token ∈ (broker.issued.filter fun issue => issue.2.taskId = some taskId).map (·.1),
      ∃ grant, (token, grant) ∈ broker.issued := by
    intro token member
    obtain ⟨grant, issued, -⟩ := issued_of_picked member
    exact ⟨grant, issued⟩
  -- a token given up is one of this task, and live only if it is the last one
  have given : ∀ issue ∈ broker.issued,
      issue.1 ∈ (broker.issued.filter fun issue => issue.2.taskId = some taskId).map (·.1) →
        broker.tokens.map.get issue.2.key = some issue.1 → issue.2.taskId.isSome = true ∧
          (hashToken issue.1 ∈ broker.tokens.revokedTokenHashes ∨
            broker.taskTokens.get taskId = some issue.1) := by
    intro issue member given found
    obtain ⟨grant, other, picked⟩ := issued_of_picked given
    have task : issue.2.taskId = some taskId := by
      rw [sound.once _ _ _ member other]
      exact of_decide_eq_true picked
    refine ⟨by rw [task]; rfl, ?_⟩
    by_contra neither
    obtain ⟨live, other⟩ := not_or.mp neither
    exact other (only issue member task ⟨found, live⟩)
  simp only [CrewBroker.revokeTaskToken]
  split
  case h_1 token last =>
    refine withdraw_sound sound (fun _ _ found => found) (List.subset_cons_self _ _) issued
      fun issue member given' found => ?_
    obtain ⟨task, revoked | same⟩ := given issue member given' found
    · exact ⟨task, List.mem_cons_of_mem _ revoked⟩
    · rw [last] at same
      exact ⟨task, Option.some.inj same ▸ List.mem_cons_self⟩
  case h_2 none =>
    refine withdraw_sound sound (fun _ _ found => found) (List.Subset.refl _) issued
      fun issue member given' found => ?_
    obtain ⟨task, revoked | same⟩ := given issue member given' found
    · exact ⟨task, revoked⟩
    · rw [none] at same
      cases same

theorem get_delete {registry : BrokerTokenRegistry η} {deleted key : String} {token : Nat} :
    (registry.delete deleted).map.get key = some token
      ↔ registry.map.get key = some token ∧ key ≠ deleted := by
  rw [BrokerTokenRegistry.delete, Ledger.get_keep, decide_eq_true_iff]

theorem revoke_sound (sound : Sound hashToken broker) {runId : String} {taskId : Option String}
    (filled : ∀ task ∈ taskId, task ≠ "")
    (none : taskId = none → ∀ issue ∈ broker.issued, issue.2.runId = runId →
      issue.2.taskId.isSome = true → ¬ Live hashToken broker issue) :
    Sound hashToken (broker.revoke runId taskId) := by
  cases taskId with
  | some task =>
    have some : (Option.some task).any (· ≠ "") = true := decide_eq_true (filled task rfl)
    simp only [CrewBroker.revoke, BrokerTokenRegistry.revoke, some, if_true]
    have noneDead : broker.dead = [] ++ broker.dead := rfl
    rw [noneDead]
    exact withdraw_sound sound (fun key token found => (get_delete.mp (get_delete.mp found).1).1)
      (List.Subset.refl _) (fun token member => absurd member List.not_mem_nil)
      fun issue _ member => absurd member List.not_mem_nil
  | none =>
    simp only [CrewBroker.revoke, BrokerTokenRegistry.revoke, Option.any_none, Bool.false_eq_true,
      if_false]
    refine withdraw_sound sound
      (fun key token found => (get_delete.mp (get_delete.mp found).1).1) (List.Subset.refl _)
      (fun token member => ?_) fun issue member given found => ?_
    · obtain ⟨grant, issued, -⟩ := issued_of_picked member
      exact ⟨grant, issued⟩
    · obtain ⟨grant, other, picked⟩ := issued_of_picked given
      obtain ⟨⟨found, notRun⟩, notOrchestrator⟩ := (get_delete.trans (and_congr_left' get_delete)).mp found
      have run : issue.2.runId = runId := by
        rw [sound.once _ _ _ member other]
        exact of_decide_eq_true picked
      obtain ⟨token, granted⟩ := issue
      cases granted with
      | run _ => exact absurd run notRun
      | orchestrator _ => exact absurd (congrArg orchestratorKey run) notOrchestrator
      | task _ _ =>
        refine ⟨rfl, ?_⟩
        by_contra live
        exact none rfl _ member run rfl ⟨found, live⟩

/-- **An operation that cannot go wrong** keeps the invariant. -/
theorem step_sound (broker : CrewBroker η) (operation : Operation) (sound : Sound hashToken broker)
    (careful : Careful hashToken broker operation) :
    Sound hashToken (broker.step hashToken operation) := by
  cases operation with
  | issue runId taskId =>
    refine issueRunToken_sound sound ?_
    cases taskId with
    | none => exact ⟨runId.plain.1, nofun⟩
    | some task =>
      refine ⟨runId.plain.1, fun _ same => ?_⟩
      obtain rfl := Option.some.inj same
      exact ⟨task.plain.1, task.plain.2, careful task rfl⟩
  | issueOrchestratorToken runId => exact issueOrchestratorToken_sound sound runId.plain.1
  | revokeTaskToken taskId => exact revokeTaskToken_sound sound careful
  | revoke runId taskId =>
    cases taskId with
    | none => exact revoke_sound sound nofun fun _ => careful
    | some task =>
      refine revoke_sound sound (fun _ same => ?_) nofun
      exact Option.some.inj same ▸ task.plain.2

/-- **Tokens are isolated** in every run of operations that cannot go wrong. -/
theorem tokens_isolated (hashToken : Nat → η) (operations : List Operation)
    (careful : ∀ taken ∈ Runs.transitions (CrewBroker.step hashToken) {} operations,
      Careful hashToken taken.before taken.action) :
    ∀ taken ∈ Runs.transitions (CrewBroker.step hashToken) {} operations,
      Isolated hashToken taken.before ∧ Isolated hashToken taken.after := by
  intro taken member
  have sound := Runs.forall_transitions (CrewBroker.step hashToken) step_sound start_sound careful
    taken member
  exact ⟨sound.1.isolated, sound.2.isolated⟩

theorem tokens_isolated_reissue :
    let run : SafePathId := ⟨"run-1", by decide⟩
    let build : SafePathId := ⟨"build", by decide⟩
    let test : SafePathId := ⟨"test", by decide⟩
    let steps := Runs.transitions (CrewBroker.step id) {}
      [.issueOrchestratorToken run, .issue run build, .issue run test, .revokeTaskToken build,
        .issue run build, .issue run build, .revokeTaskToken build, .revokeTaskToken test,
        .revoke run none, .issue run build]
    ∀ taken ∈ steps, Isolated id taken.before ∧ Isolated id taken.after :=
  tokens_isolated id _ (by decide +kernel)

theorem step_revoked (hashToken : Nat → η) (broker : CrewBroker η) (operation : Operation) :
    broker.tokens.revokedTokenHashes
      ⊆ (broker.step hashToken operation).tokens.revokedTokenHashes := by
  cases operation with
  | issue runId taskId =>
    simp only [CrewBroker.step, CrewBroker.issueRunToken, BrokerTokenRegistry.issue]
    split
    · split_ifs <;> exact List.Subset.refl _
    · exact List.Subset.refl _
  | issueOrchestratorToken runId =>
    simp only [CrewBroker.step, CrewBroker.issueOrchestratorToken,
      BrokerTokenRegistry.issueOrchestratorToken]
    split <;> exact List.Subset.refl _
  | revokeTaskToken taskId =>
    simp only [CrewBroker.step, CrewBroker.revokeTaskToken]
    split
    · exact List.subset_cons_self _ _
    · exact List.Subset.refl _
  | revoke runId taskId =>
    simp only [CrewBroker.step, CrewBroker.revoke, BrokerTokenRegistry.revoke]
    split_ifs <;> exact List.Subset.refl _

/-- **A revoked task token stays revoked**, whatever operations follow: no hello is accepted for a
worker with it. -/
theorem revoked_for_good (hashToken : Nat → η) (before after : List Operation) (taskId : SafePathId)
    {token : Nat} (last : (Runs.finish (CrewBroker.step hashToken) {} before).taskTokens.get
      taskId.value = some token) (terminal : String → Bool) (runId task : String) :
    (Runs.finish (CrewBroker.step hashToken) {} (before ++ .revokeTaskToken taskId :: after)).handleHello
      hashToken terminal runId task token ≠ some .worker := by
  intro hello
  have revoked : hashToken token ∈ (Runs.finish (CrewBroker.step hashToken) {}
      (before ++ .revokeTaskToken taskId :: after)).tokens.revokedTokenHashes := by
    rw [Runs.finish, List.foldl_append, List.foldl_cons]
    refine @Runs.finish_keeps _ _ _
      (fun broker : CrewBroker η => hashToken token ∈ broker.tokens.revokedTokenHashes)
      (fun broker operation member => step_revoked hashToken broker operation member) _ ?_ after
    show _ ∈ (CrewBroker.revokeTaskToken hashToken (Runs.finish _ _ before) _).tokens.revokedTokenHashes
    rw [CrewBroker.revokeTaskToken, last]
    exact List.mem_cons_self
  rcases handleHello_cases hello with ⟨orchestrator, -⟩ | ⟨-, -, -, -, live⟩
  · cases orchestrator
  · exact live revoked

theorem revoked_for_good_reissue :
    let run : SafePathId := ⟨"run-1", by decide⟩
    let build : SafePathId := ⟨"build", by decide⟩
    (Runs.finish (CrewBroker.step id) {}
      [.issue run build, .revokeTaskToken build, .issue run build]).handleHello id (fun _ => false)
        "run-1" "build" 0 ≠ some .worker :=
  revoked_for_good id [.issue ⟨"run-1", by decide⟩ (some ⟨"build", by decide⟩)]
    [.issue ⟨"run-1", by decide⟩ (some ⟨"build", by decide⟩)] ⟨"build", by decide⟩
    (by decide +kernel) _ _ _

/-- **Three runs that break the isolation**: a task token of a task with the id of the orchestrator is
taken for the token of the orchestrator; of the tokens of a task id in two runs only the last one is
revoked; the token of a task survives the revocation of its run. -/
theorem tokens_not_isolated :
    let first : SafePathId := ⟨"run-1", by decide⟩
    let second : SafePathId := ⟨"run-2", by decide⟩
    let sentinel : SafePathId := ⟨"__orchestrator__", by decide⟩
    let build : SafePathId := ⟨"build", by decide⟩
    (¬ ∀ taken ∈ Runs.transitions (CrewBroker.step id) {} [.issue first sentinel],
        Isolated id taken.after) ∧
      (¬ ∀ taken ∈ Runs.transitions (CrewBroker.step id) {}
          [.issue first build, .issue second build, .revokeTaskToken build],
        Isolated id taken.after) ∧
      ¬ ∀ taken ∈ Runs.transitions (CrewBroker.step id) {} [.issue first build, .revoke first none],
        Isolated id taken.after := by
  refine ⟨fun all => ?_, fun all => ?_, fun all => ?_⟩
  · have last := all _ (List.mem_of_getLast? rfl)
    exact absurd (last.orchestrator (fun _ => false) "run-1" "build" 0 (by decide +kernel))
      (by decide +kernel)
  · have last := all _ (List.mem_of_getLast? rfl)
    exact last.revoked (fun _ => false) "run-1" "build" 0 .worker (by decide +kernel)
      (by decide +kernel)
  · have last := all _ (List.mem_of_getLast? rfl)
    exact last.revoked (fun _ => false) "run-1" "build" 0 .worker (by decide +kernel)
      (by decide +kernel)

end

end PiCrew.Broker.Tokens
