/-
**The admission of a delegation.**

`runtime/spawn-policy.ts`, with the permissions of a role from `runtime/role-permission.ts` and the slots
of `runtime/scheduling/nested-slots.ts`. A task may have a grandchild spawned for it if no gate denies it;
the gates are asked in order, and the first one that denies has the reason and the message.

* `tryAcquire_free` — where a slot is free, it is taken.

The tool policy of the grandchild is left out: the spawner works it out again.
-/

import PiCrew.Library.Slots
import PiCrew.State.Types
import Mathlib.Data.Rat.Defs

set_option linter.unusedSectionVars false

namespace PiCrew.Broker.SpawnPolicy

open State (TaskAllocation)

inductive RolePermissionMode where
  | readOnly
  | workspaceWrite
  deriving DecidableEq

def readOnlyRoles : List String :=
  ["explorer", "reviewer", "security-reviewer", "analyst", "critic", "planner"]

def writeRoles : List String :=
  ["executor", "test-engineer", "writer", "verifier", "agent", "cold-verifier", "chain-executor",
    "worker"]

/-- A role that is not known reads only. -/
def permissionForRole (role : String) : RolePermissionMode :=
  if role ∈ readOnlyRoles then .readOnly
  else if role ∈ writeRoles then .workspaceWrite
  else .readOnly

def parentTaskTier (parentRole : Option String) : RolePermissionMode :=
  permissionForRole (parentRole.getD "")

def delegateAllowedRoles : List String := ["explorer", "analyst", "executor"]

def executorClassRoles : List String := ["executor", "test-engineer"]

/-- White space and line ends, as `trim` has them. -/
def isSpace (char : Char) : Bool :=
  let code := char.toNat
  (0x09 ≤ code && code ≤ 0x0D) || code = 0x20 || code = 0xA0 || code = 0x1680
    || (0x2000 ≤ code && code ≤ 0x200A) || code = 0x2028 || code = 0x2029 || code = 0x202F
    || code = 0x205F || code = 0x3000 || code = 0xFEFF

def trim (text : String) : String :=
  String.ofList ((text.toList.dropWhile isSpace).reverse.dropWhile isSpace).reverse

def modelRefToString (model : String) : Option String :=
  if trim model = "" then none else some (trim model)

section

variable {ι : Type}

inductive Piece (ι : Type) where
  | text (text : String)
  | number (value : Rat)
  | task (id : ι)
  deriving DecidableEq

inductive SpawnPolicyDenyReason where
  | roleDenied
  | parentRoleEscalation
  | trustDenied
  | depthExceeded
  | slotsExhausted
  | budgetInsufficient
  | budgetNotGranted
  | budgetUnmetered
  | modelInvalid
  | timeoutInvalid
  | workspaceConflict
  deriving DecidableEq

structure Denial (ι : Type) where
  reason : SpawnPolicyDenyReason
  message : List (Piece ι)
  deriving DecidableEq

inductive UnmeteredDelegatePolicy where
  | deny
  | allow
  deriving DecidableEq

structure DelegateBudgetDecision where
  metered : Bool
  grantedTokens : Int
  spentTokens : Int
  requestedTokens : Option Nat
  deriving DecidableEq

structure SpawnPolicyDecision where
  childDepth : Nat
  timeoutSec : Rat
  model : Option String
  budget : DelegateBudgetDecision
  deriving DecidableEq

structure Requested where
  role : Option String := none
  model : Option String := none
  budgetTokens : Option Nat := none
  timeoutSec : Option Rat := none
  deriving DecidableEq

structure DelegateAdmissionInput (ι : Type) where
  maxDepth : Nat
  taskId : ι
  role : Option String := none
  depth : Option Nat := none
  allocation : Option TaskAllocation := none
  untrusted : Bool := false
  slotsUsed : Nat
  slotsMax : Nat
  parentBudgetGrantTokens : Option Int := none
  unmeteredDelegates : UnmeteredDelegatePolicy := .deny
  requested : Requested := {}
  modelCatalog : Option (List String) := none
  serializeEnabled : Bool := false
  overlappingInFlightExecutors : Nat := 0

def defaultDelegateTimeoutSec : Rat := 900

def maxDelegateTimeoutSec : Rat := 86400

namespace DelegateAdmissionInput

variable (input : DelegateAdmissionInput ι)

def parentDepth : Nat := input.depth.getD 1

def childDepth : Nat := input.parentDepth + 1

def granted : Int :=
  match input.allocation with
  | some allocation => allocation.tokensGranted
  | none => input.parentBudgetGrantTokens.getD 0

def spent : Int :=
  match input.allocation with
  | some allocation => allocation.tokensSpent
  | none => 0

def remaining : Int := input.granted - input.spent

def requestedIsExecutorClass : Bool := input.requested.role.any (· ∈ executorClassRoles)

def normalizedModel : Option String := input.requested.model.bind modelRefToString

def timeoutSec : Rat := input.requested.timeoutSec.getD defaultDelegateTimeoutSec

end DelegateAdmissionInput

def denyIf (condition : Bool) (reason : SpawnPolicyDenyReason) (message : List (Piece ι)) :
    Option (Denial ι) :=
  if condition then some { reason := reason, message := message } else none

def textOr (missing : String) (text : Option String) : Piece ι := .text (text.getD missing)

variable (input : DelegateAdmissionInput ι)

def roleGate : Option (Denial ι) :=
  denyIf (input.requested.role.any (· ∉ delegateAllowedRoles)) .roleDenied
    [.text "delegate rejected: requested grandchild role '", textOr "" input.requested.role,
      .text "' is not one of explorer/analyst/executor"]

/-- **A task that reads only** does not get a grandchild that writes. -/
def tierGate : Option (Denial ι) :=
  denyIf (input.requestedIsExecutorClass && parentTaskTier input.role = .readOnly)
    .parentRoleEscalation
    [.text "delegate rejected: parent task '", .task input.taskId, .text "' role '",
      textOr "<absent>" input.role,
      .text "' is read-only tier — write-capable grandchild role '", textOr "" input.requested.role,
      .text ("' would escalate beyond the parent's tier (transitive containment, R43-S1); "
        ++ "use a read-only grandchild role (explorer/analyst)")]

def trustGate : Option (Denial ι) := denyIf input.untrusted .trustDenied
    [.text "delegate rejected: untrusted escalation context (trust gate is manual-only)"]

def depthGate : Option (Denial ι) := denyIf (input.maxDepth < input.childDepth) .depthExceeded
    [.text "delegate rejected: spawn depth ", .number input.childDepth, .text " exceeds maxDepth ",
      .number input.maxDepth, .text " (parent task '", .task input.taskId, .text "' is at depth ",
      .number input.parentDepth, .text ")"]

def slotGate : Option (Denial ι) := denyIf (input.slotsMax ≤ input.slotsUsed) .slotsExhausted
    [.text "delegate rejected: nested spawn budget exhausted; ", .number input.slotsUsed, .text "/",
      .number input.slotsMax, .text " in flight"]

/-- **The tokens that are asked for** must be granted, and not spent yet. -/
def budgetGate : Option (Denial ι) :=
  match input.requested.budgetTokens with
  | some tokens =>
    if input.granted ≤ 0 then
      some {
        reason := .budgetNotGranted
        message := [.text "delegate rejected: parent task '", .task input.taskId,
            .text "' has no token budget granted (requested ", .number tokens,
            .text ("); the run has no budgetTotal to seed one from — drop budgetTokens or set a "
              ++ "run budget")] }
    else
      denyIf (input.remaining < tokens) .budgetInsufficient
        [.text "delegate rejected: requested budget ", .number tokens,
          .text " tokens exceeds parent task '", .task input.taskId,
          .text "' remaining allocation ", .number input.remaining, .text " (",
          .number input.granted, .text " granted - ", .number input.spent, .text " spent)"]
  | none =>
    denyIf (input.unmeteredDelegates ≠ .allow) .budgetUnmetered
      [.text ("delegate rejected: budgetTokens is required (an unmetered grandchild escapes run "
        ++ "budget enforcement; grant a budget or opt into unmetered delegation explicitly)")]

/-- A model must be in the catalog, where there is one. -/
def modelGate : Option (Denial ι) :=
  denyIf
    (input.normalizedModel.any fun model => input.modelCatalog.any fun catalog => model ∉ catalog)
    .modelInvalid
    [.text "delegate rejected: model '", textOr "" input.requested.model,
      .text "' is not in the resolved model catalog"]

def timeoutGate : Option (Denial ι) :=
  denyIf (input.timeoutSec < 1 || maxDelegateTimeoutSec < input.timeoutSec) .timeoutInvalid
    [.text "delegate rejected: timeoutSec ", .number input.timeoutSec,
      .text " is outside 1..86400 (default 900)"]

/-- A grandchild that writes does not share its directory with another executor. -/
def workspaceGate : Option (Denial ι) :=
  denyIf (input.requestedIsExecutorClass && !input.serializeEnabled
      && 0 < input.overlappingInFlightExecutors)
    .workspaceConflict
    [.text "delegate rejected: parent task '", .task input.taskId, .text "' cwd overlaps ",
      .number input.overlappingInFlightExecutors,
      .text (" in-flight executor(s) and limits.serializeOnPathOverlap is off — use a read-only "
        ++ "grandchild role (explorer/analyst) or enable serialization")]

def gates : List (Option (Denial ι)) :=
  [roleGate input, tierGate input, trustGate input, depthGate input, slotGate input,
    budgetGate input, modelGate input, timeoutGate input, workspaceGate input]

def admitted : SpawnPolicyDecision where
  childDepth := input.childDepth
  timeoutSec := input.timeoutSec
  model := input.normalizedModel
  budget := {
    metered := input.requested.budgetTokens.isSome
    grantedTokens := input.granted
    spentTokens := input.spent
    requestedTokens := input.requested.budgetTokens }

/-- **Decide on a delegation**: the first gate that denies it decides. -/
def evaluateDelegateAdmission : Except (Denial ι) SpawnPolicyDecision :=
  match (gates input).findSome? id with
  | some denial => .error denial
  | none => .ok (admitted input)

variable {input}

theorem denyIf_eq_none {condition : Bool} {reason : SpawnPolicyDenyReason} {message : List (Piece ι)} :
    denyIf condition reason message = none ↔ condition = false := by
  cases condition <;> simp [denyIf]

theorem evaluateDelegateAdmission_ok {decision : SpawnPolicyDecision}
    (allowed : evaluateDelegateAdmission input = .ok decision) :
    decision = admitted input ∧ input.slotsUsed < input.slotsMax ∧
      ∀ tokens ∈ input.requested.budgetTokens, (tokens : Int) ≤ input.granted - input.spent := by
  unfold evaluateDelegateAdmission at allowed
  cases denied : (gates input).findSome? id with
  | some denial =>
    rw [denied] at allowed
    cases allowed
  | none =>
    rw [denied] at allowed
    have undenied : ∀ gate ∈ gates input, gate = none := List.findSome?_eq_none_iff.mp denied
    have slot : slotGate input = none := undenied _ (by simp [gates])
    have budget : budgetGate input = none := undenied _ (by simp [gates])
    refine ⟨(Except.ok.inj allowed).symm, ?_, fun tokens asked => ?_⟩
    · exact Nat.lt_of_not_le (of_decide_eq_false (denyIf_eq_none.mp slot))
    · unfold budgetGate at budget
      rw [Option.mem_def.mp asked] at budget
      dsimp only at budget
      split_ifs at budget
      exact Int.not_lt.mp (of_decide_eq_false (denyIf_eq_none.mp budget))

end

section

variable {ι : Type} [DecidableEq ι]

/-- **The slots of the grandchildren.** There are never more in use than there are. -/
structure NestedSlotBudget (ι : Type) where
  held : Finset ι
  max : Nat
  within : held.card ≤ max

def defaultNestedSlotBudget (globalWorkerSemaphore : Nat) : Nat := Nat.max 1 (globalWorkerSemaphore / 2)

namespace NestedSlotBudget

/-- A budget of slots, all of them free. A number of slots that is given must not be zero. -/
def create (globalWorkerSemaphore : Nat) (override : Option Nat) :
    Except (List (Piece ι)) (NestedSlotBudget ι) :=
  if override = some 0 then
    .error [.text "nesting.maxSlots must be a positive integer, got ", .number 0]
  else
    .ok {
      held := ∅
      max := override.getD (defaultNestedSlotBudget globalWorkerSemaphore)
      within := by rw [Finset.card_empty]; exact Nat.zero_le _ }

variable (slots : NestedSlotBudget ι)

def used : Nat := slots.held.card

/-- **Take a slot.** To take it again changes nothing. -/
def tryAcquire (grandchildId : ι) : Option (NestedSlotBudget ι) :=
  if grandchildId ∈ slots.held then some slots
  else if free : slots.held.card < slots.max then
    some {
      held := insert grandchildId slots.held
      max := slots.max
      within := (Finset.card_insert_le _ _).trans free }
  else none

def release (grandchildId : ι) : NestedSlotBudget ι where
  held := slots.held.erase grandchildId
  max := slots.max
  within := (Finset.card_erase_le).trans slots.within

def statusLine : List (Piece ι) :=
  [.number slots.used, .text "/", .number slots.max, .text " in flight"]

variable {slots}

theorem create_held {globalWorkerSemaphore : Nat} {override : Option Nat}
    (created : create globalWorkerSemaphore override = .ok slots) : slots.held = ∅ := by
  unfold create at created
  split_ifs at created
  rw [← Except.ok.inj created]

theorem tryAcquire_held {grandchildId : ι} {after : NestedSlotBudget ι}
    (acquired : slots.tryAcquire grandchildId = some after) :
    after.held = insert grandchildId slots.held := by
  unfold tryAcquire at acquired
  split_ifs at acquired with again free
  · obtain rfl := Option.some.inj acquired
    exact (Finset.insert_eq_self.mpr again).symm
  · obtain rfl := Option.some.inj acquired
    rfl

/-- **Where a slot is free, it is taken.** -/
theorem tryAcquire_free (grandchildId : ι) (free : slots.used < slots.max) :
    ∃ after, slots.tryAcquire grandchildId = some after := by
  unfold tryAcquire
  split_ifs with again free'
  · exact ⟨slots, rfl⟩
  · exact ⟨_, rfl⟩
  · exact absurd free free'

end NestedSlotBudget

end

end PiCrew.Broker.SpawnPolicy
