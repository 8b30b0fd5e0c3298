/-
**The agent calls of a dynamic workflow.**

`ctx.agent` (`runtime/goal-workflow/dynamic-workflow-context.ts`) and the checkpoint that a run is resumed
from (`runtime/dwf-state-store.ts`). A call that gets the semaphore is refused by the cap, answered from the
checkpoint, turned away by the budget, or handed to a worker; what it comes to is counted, stored where it
is a success, and saved with the state of the run.

* `WorkflowCtx.resume` — the state of a run that is resumed.

A run is a list of steps of the calls of a script, in any order. Phases, logs, variables, artifacts and the
time that a call took are left out.
-/

import PiCrew.Library.Bindings
import PiCrew.Library.Scripts
import Mathlib.Data.List.Sort
import Mathlib.Order.Basic

namespace PiCrew.GoalWorkflow

/-- The skills of a call: none, or some by their names. -/
inductive SkillOption where
  | off
  | named (skills : List String)
  deriving DecidableEq

/-- **The options of a call.** A schema is its JSON text. -/
structure AgentCallOpts where
  prompt : String
  role : Option String := none
  agent : Option String := none
  description : Option String := none
  model : Option String := none
  skill : Option SkillOption := none
  maxTurns : Option Int := none
  graceTurns : Option Int := none
  inputs : Option (List String) := none
  disableTools : Option Bool := none
  systemPrompt : Option String := none
  schema : Option String := none
  worktree : Option Bool := none
  deriving DecidableEq

def sorted (items : List String) : List String := items.insertionSort (· ≤ ·)

def SkillOption.sorted : SkillOption → SkillOption
  | .off => .off
  | .named skills => .named (GoalWorkflow.sorted skills)

/-- **The id of a call.** The source takes the JSON text of these options, which determines them. -/
def computeCallId (call : AgentCallOpts) : AgentCallOpts :=
  { call with inputs := call.inputs.map sorted, skill := call.skill.map SkillOption.sorted }

def inputBlock (inputs : List String) : String := "\n".intercalate (inputs.map ("- " ++ ·))

def composeAgentTask (call : AgentCallOpts) : String :=
  let inputs := call.inputs.getD []
  let base :=
    if inputs = [] then call.prompt
    else call.prompt ++ "\n\n## Inputs (artifact paths)\n" ++ inputBlock inputs
  if call.schema.isSome then
    base ++ "\n\n## Output format\nRespond with ONLY a single JSON object that matches the schema "
      ++ "described in your instructions. Begin your response with \x7b and end with \x7d. Do not wrap the "
      ++ "JSON in a code fence. Do not add any prose before or after the JSON."
  else base

structure AgentConfig where
  name : String
  systemPrompt : String
  tools : List String
  disableTools : Bool := false
  model : Option String := none
  deriving DecidableEq

structure Dispatch where
  task : String
  agent : AgentConfig
  model : Option String
  maxTurns : Option Int
  graceTurns : Option Int
  worktree : Bool
  role : Option String
  deriving DecidableEq

/-- How a run finds its agents: by the role and the name of a call, the model that is put over theirs, and
the shape of a schema in words. -/
structure AgentSource where
  resolveAgentForRole : Option String → Option String → AgentConfig
  modelOverride : Option String := none
  describeSchemaShape : String → String

def composeSchemaSystemPrompt (source : AgentSource) (base schema : String) : String :=
  let instruction :=
    "You are a structured-output assistant. When responding, output ONLY a single JSON object matching "
      ++ "this shape (no prose, no markdown fences, no commentary): " ++ source.describeSchemaShape schema
      ++ ". Begin your response with \x7b and end with \x7d."
  if base = "" then instruction else base ++ "\n\n" ++ instruction

def effectiveAgent (source : AgentSource) (call : AgentCallOpts) : AgentConfig :=
  let config := source.resolveAgentForRole call.role call.agent
  let untooled := if call.disableTools = some true then { config with disableTools := true, tools := [] }
    else config
  match call.schema, call.systemPrompt with
  | some schema, prompt =>
    { untooled with
      systemPrompt := composeSchemaSystemPrompt source (prompt.getD untooled.systemPrompt) schema }
  | none, some prompt => { untooled with systemPrompt := prompt }
  | none, none => untooled

def dispatch (source : AgentSource) (call : AgentCallOpts) : Dispatch where
  task := composeAgentTask call
  agent := effectiveAgent source call
  model := (call.model.or source.modelOverride).or
    (source.resolveAgentForRole call.role call.agent).model
  maxTurns := call.maxTurns
  graceTurns := call.graceTurns
  worktree := call.worktree = some true
  role := call.role.or call.agent

structure AgentUsage where
  input : Option Nat := none
  output : Option Nat := none
  turns : Option Nat := none
  deriving DecidableEq

def tokensOf (usage : Option AgentUsage) : Int :=
  ((usage.bind (·.input)).getD 0 + (usage.bind (·.output)).getD 0 : Nat)

/-- **What a call comes to.** A structured value is its JSON text. -/
structure AgentResult where
  ok : Bool
  text : String := ""
  structured : Option String := none
  usage : Option AgentUsage := none
  artifactPath : Option String := none
  error : Option String := none
  deriving DecidableEq

/-- What a call hands the script: a result, or the error of the cap. -/
inductive Answer where
  | returned (result : AgentResult)
  | refused (limit used : Nat)
  deriving DecidableEq

theorem returned_ne_refused {result : AgentResult} {limit used : Nat} :
    Answer.returned result ≠ .refused limit used :=
  nofun

/-- **What becomes of a worker.** It throws before it was counted, fails, throws after it was counted,
gives an answer that does not match the schema, or ends well. -/
inductive Outcome where
  | threw (error : String)
  | failed (error : String)
  | broke (usage : Option AgentUsage) (error : String)
  | mismatched (usage : Option AgentUsage) (text artifactPath error : String)
  | done (usage : Option AgentUsage) (text : String) (structured : Option String) (artifactPath : String)
  deriving DecidableEq

def Outcome.tokens : Outcome → Int
  | .threw _ | .failed _ => 0
  | .broke usage _ | .mismatched usage _ _ _ | .done usage _ _ _ => tokensOf usage

def Outcome.result : Outcome → AgentResult
  | .threw error | .failed error | .broke _ error => { ok := false, error := some error }
  | .mismatched usage text artifactPath error =>
    { ok := false, text := text, usage := usage, artifactPath := some artifactPath, error := some error }
  | .done usage text structured artifactPath =>
    { ok := true, text := text, structured := structured, usage := usage
      artifactPath := some artifactPath }

structure MakeWorkflowCtxOptions where
  concurrency : Option Int := none
  tokenBudget : Option Int := none
  maxAgentCalls : Option Int := none
  countTokens : String → Nat

def defaultMaxAgentCalls : Nat := 200

namespace MakeWorkflowCtxOptions

variable (options : MakeWorkflowCtxOptions)

def permits : Nat := (max 1 (options.concurrency.getD 4)).toNat

def cap : Nat := ((options.maxAgentCalls.filter (1 ≤ ·)).map Int.toNat).getD defaultMaxAgentCalls

def estimate (call : AgentCallOpts) : Nat :=
  max 512 (options.countTokens (call.prompt ++ call.systemPrompt.getD ""))

end MakeWorkflowCtxOptions

/-- A call at a worker, and what is reserved for it. -/
structure Flight where
  index : Nat
  estimate : Nat
  deriving DecidableEq

/-- **The state of a run.** `handed` is what the script was handed, each answer with the index of its
call. -/
structure WorkflowCtx where
  agentCount : Nat
  spent : Int
  completedAgentCalls : Bindings AgentCallOpts AgentResult
  hydratedCallIds : List AgentCallOpts
  inFlight : List Flight := []
  handed : List (Nat × Answer) := []

structure DwfCheckpointState where
  spent : Int
  agentCount : Nat
  completedAgentCalls : Bindings AgentCallOpts AgentResult

def sanitizeCompleted (stored : Bindings AgentCallOpts AgentResult) :
    Bindings AgentCallOpts AgentResult :=
  ⟨stored.entries.filter fun entry => entry.2.ok⟩

namespace WorkflowCtx

def checkpoint (ctx : WorkflowCtx) : DwfCheckpointState where
  spent := ctx.spent
  agentCount := ctx.agentCount
  completedAgentCalls := ctx.completedAgentCalls

/-- **The state of a run that is resumed**, or that is fresh. -/
def resume (checkpoint : Option DwfCheckpointState) : WorkflowCtx :=
  match checkpoint with
  | none => { agentCount := 0, spent := 0, completedAgentCalls := {}, hydratedCallIds := [] }
  | some saved =>
    let completed := sanitizeCompleted saved.completedAgentCalls
    { agentCount := saved.agentCount, spent := max 0 saved.spent, completedAgentCalls := completed
      hydratedCallIds := completed.entries.map (·.1) }

variable (ctx : WorkflowCtx)

def begun : List Nat := ctx.inFlight.map (·.index) ++ ctx.handed.map (·.1)

def cached (call : AgentCallOpts) : Option AgentResult :=
  if computeCallId call ∈ ctx.hydratedCallIds then ctx.completedAgentCalls.get (computeCallId call)
  else none

def endCall (index : Nat) (answer : Answer) : WorkflowCtx :=
  { ctx with agentCount := ctx.agentCount + 1, handed := ctx.handed ++ [(index, answer)] }

def exhausted : AgentResult := { ok := false, error := some "workflow token budget exhausted" }

variable (options : MakeWorkflowCtxOptions)

/-- **A call that got the semaphore**, up to its worker. -/
def acquired (index : Nat) (call : AgentCallOpts) : WorkflowCtx :=
  if options.cap ≤ ctx.agentCount then ctx.endCall index (.refused options.cap ctx.agentCount)
  else
    match ctx.cached call with
    | some result => ctx.endCall index (.returned { result with ok := true })
    | none =>
      if options.tokenBudget.any fun total => max 0 (total - ctx.spent) < options.estimate call then
        ctx.endCall index (.returned exhausted)
      else
        { ctx with
          spent := ctx.spent + options.estimate call
          inFlight := { index := index, estimate := options.estimate call } :: ctx.inFlight }

/-- **A worker has ended**: its reserve is given back, its tokens are counted, and a success is stored. -/
def settled (flight : Flight) (call : AgentCallOpts) (outcome : Outcome) : WorkflowCtx :=
  let counted : WorkflowCtx := { ctx with
      spent := ctx.spent + outcome.tokens - flight.estimate
      inFlight := ctx.inFlight.erase flight
      completedAgentCalls :=
        if outcome.result.ok then ctx.completedAgentCalls.set (computeCallId call) outcome.result
        else ctx.completedAgentCalls }
  counted.endCall flight.index (.returned outcome.result)

variable (script : Script AgentCallOpts Answer)

/-- **A call of the script begins**, if it was started and waits for the semaphore. -/
def beginCall (index : Nat) : WorkflowCtx :=
  match script.call? ctx.handed index with
  | none => ctx
  | some call =>
    if index ∈ ctx.begun ∨ options.permits ≤ ctx.inFlight.length then ctx
    else ctx.acquired options index call

/-- **A call of the script ends**, if it is at a worker. -/
def finishCall (index : Nat) (outcome : Outcome) : WorkflowCtx :=
  match ctx.inFlight.find? (·.index = index), script.call? ctx.handed index with
  | some flight, some call => ctx.settled flight call outcome
  | _, _ => ctx

end WorkflowCtx

inductive CallStep where
  | beginCall (index : Nat)
  | finishCall (index : Nat) (outcome : Outcome)
  deriving DecidableEq

def callStep (options : MakeWorkflowCtxOptions) (script : Script AgentCallOpts Answer)
    (ctx : WorkflowCtx) : CallStep → WorkflowCtx
  | .beginCall index => ctx.beginCall options script index
  | .finishCall index outcome => ctx.finishCall script index outcome

end PiCrew.GoalWorkflow
