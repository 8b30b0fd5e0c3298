/-
**The phases of a workflow.**

`runtime/workflow-state.ts` (`canTransitionToPhase`, `transitionPhase`) and
`runtime/workflow-phase-advance.ts` (`advanceWorkflowPhases`). Each step of a workflow is a phase, in the order
of the file. After every round of the scheduler, the phases whose tasks have all ended are passed, from the
current one on. A phase without tasks is stepped over as it is, and a phase whose guard does not allow it
is reported and not passed.

* `advanceFrom`, `advanceWorkflowPhases` — the loop over the phases.

A task is looked up by its id, and where two have the same one, the last is found. Left out: the outputs of a
phase, and the results of tasks in the context of the guard, which it does not read.
-/

import PiCrew.State.Types

namespace PiCrew.Workflow

open PiCrew.State

inductive PhaseStatus where
  | pending | running | completed | failed | skipped
  deriving DecidableEq, Repr

def PhaseStatus.text : PhaseStatus → String
  | .pending => "pending"
  | .running => "running"
  | .completed => "completed"
  | .failed => "failed"
  | .skipped => "skipped"

structure PhaseState where
  name : String
  status : PhaseStatus := .pending
  inputs : List String := []
  startedAt : Option String := none
  finishedAt : Option String := none
  deriving DecidableEq, Repr

structure WorkflowStateMachine where
  phases : List PhaseState
  currentPhaseIndex : Nat := 0
  deriving DecidableEq, Repr

structure PhaseGuardContext where
  completedArtifacts : List String
  previousPhaseStatus : PhaseStatus
  deriving DecidableEq, Repr

inductive GuardResult where
  | allowed
  | refused (reason : String)
  deriving DecidableEq, Repr

/-- A step of the workflow: `reads` are the artifacts it declares as inputs. -/
structure WorkflowStep where
  id : String
  reads : Option (List String) := none
  deriving DecidableEq, Repr

def workflowPhases (steps : List WorkflowStep) : List PhaseState :=
  steps.map fun step => { name := step.id, inputs := step.reads.getD [] }

def createWorkflowStateMachine (phases : List PhaseState) : WorkflowStateMachine := { phases := phases }

def canTransitionToPhase (machine : WorkflowStateMachine) (phaseIndex : Nat) (context : PhaseGuardContext) :
    GuardResult :=
  match machine.phases[phaseIndex]? with
  | none => .refused
      s!"Phase index {phaseIndex} is out of bounds (0..{(machine.phases.length : Int) - 1})."
  | some phase =>
    if 0 < phaseIndex ∧ context.previousPhaseStatus ≠ .completed ∧ context.previousPhaseStatus ≠ .skipped then
      .refused
        s!"Previous phase status is '{context.previousPhaseStatus.text}'; expected 'completed' or 'skipped'."
    else
      let missing := phase.inputs.filter (· ∉ context.completedArtifacts)
      if missing.isEmpty then .allowed
      else .refused ("Missing required artifacts: " ++ ", ".intercalate missing ++ ".")

def PhaseState.transition (phase : PhaseState) (status : PhaseStatus) (now : String) : PhaseState :=
  { phase with
    status := status
    startedAt := if status = .running ∧ phase.startedAt.isNone then some now else phase.startedAt
    finishedAt :=
      if (status = .completed ∨ status = .failed ∨ status = .skipped) ∧ phase.finishedAt.isNone then some now
      else phase.finishedAt }

/-- **A phase takes a new status**, if the guard allows it. -/
def transitionPhase (machine : WorkflowStateMachine) (phaseIndex : Nat) (status : PhaseStatus)
    (context : PhaseGuardContext) (now : String) : WorkflowStateMachine × GuardResult :=
  match canTransitionToPhase machine phaseIndex context with
  | .refused reason => (machine, .refused reason)
  | .allowed =>
    ({ phases := machine.phases.modify phaseIndex fun phase => phase.transition status now
       currentPhaseIndex := max machine.currentPhaseIndex phaseIndex }, .allowed)

inductive ArtifactKind where
  | plan | prompt | result | summary | log | diff | patch | progress | notepad | metadata
  deriving DecidableEq, Repr

structure ManifestArtifact where
  kind : ArtifactKind
  path : String
  deriving DecidableEq, Repr

structure PhaseManifest where
  runId : String := ""
  artifacts : List ManifestArtifact := []
  deriving DecidableEq, Repr

def terminalStatuses : List TeamTaskStatus := [.completed, .failed, .skipped, .cancelled, .needsAttention]

def phaseTaskIds (tasks : List TeamTaskState) (name : String) : List String :=
  (tasks.filter fun task => task.stepId = some name ∧ name ≠ "").map (·.id)

/-- `taskById.get` -/
def taskById (tasks : List TeamTaskState) (id : String) : Option TeamTaskState :=
  tasks.reverse.find? (·.id == id)

def phaseTasks (tasks : List TeamTaskState) (name : String) : List TeamTaskState :=
  (phaseTaskIds tasks name).filterMap (taskById tasks)

def allTerminal (tasks : List TeamTaskState) (name : String) : Bool :=
  (phaseTaskIds tasks name).all fun id => (taskById tasks id).any (·.status ∈ terminalStatuses)

def hasFailedOrCancelled (tasks : List TeamTaskState) (name : String) : Bool :=
  (phaseTasks tasks name).any fun task => task.status == .failed || task.status == .cancelled

def phaseStatus (tasks : List TeamTaskState) (name : String) : PhaseStatus :=
  if hasFailedOrCancelled tasks name then .failed else .completed

def completedArtifacts (manifest : PhaseManifest) : List String :=
  (manifest.artifacts.filter fun artifact => artifact.kind = .result ∨ artifact.kind = .summary).map (·.path)

def previousPhaseStatus (machine : WorkflowStateMachine) (phaseIndex : Nat) : PhaseStatus :=
  if 0 < phaseIndex then ((machine.phases[phaseIndex - 1]?).map (·.status)).getD .pending else .completed

section

inductive PhaseEventType where
  | phaseCompleted | phaseFailed
  | phaseGuardBlocked (phaseName reason : String)
  deriving DecidableEq, Repr

structure PhaseEvent where
  type : PhaseEventType
  runId : String
  message : String
  phaseIndex : Nat
  deriving DecidableEq, Repr

/-- A round: the tasks and the manifest that the loop reads, and the time. -/
structure Round where
  tasks : List TeamTaskState
  manifest : PhaseManifest := {}
  now : String := ""
  deriving DecidableEq, Repr

variable (round : Round)

def guardBlocked (phase : PhaseState) (phaseIndex : Nat) (reason : String) : PhaseEvent where
  type := .phaseGuardBlocked phase.name reason
  runId := round.manifest.runId
  message := s!"Workflow phase '{phase.name}' guard blocked: {reason}"
  phaseIndex := phaseIndex

def phaseEnded (phase : PhaseState) (phaseIndex : Nat) (status : PhaseStatus) : PhaseEvent where
  type := if status = .failed then .phaseFailed else .phaseCompleted
  runId := round.manifest.runId
  message := s!"Workflow phase '{phase.name}' {status.text}."
  phaseIndex := phaseIndex

/-- **The loop over the phases**, with the number of turns that are left. -/
def advanceFrom : Nat → Nat → WorkflowStateMachine → WorkflowStateMachine × List PhaseEvent
  | 0, _, machine => (machine, [])
  | turns + 1, phaseIndex, machine =>
    match machine.phases[phaseIndex]? with
    | none => (machine, [])
    | some phase =>
      if (phaseTaskIds round.tasks phase.name).isEmpty then advanceFrom turns (phaseIndex + 1) machine
      else if !allTerminal round.tasks phase.name then (machine, [])
      else if phase.status ≠ .completed ∧ phase.status ≠ .failed ∧ phase.status ≠ .skipped then
        let context : PhaseGuardContext :=
          { completedArtifacts := completedArtifacts round.manifest
            previousPhaseStatus := previousPhaseStatus machine phaseIndex }
        let status := phaseStatus round.tasks phase.name
        match transitionPhase machine phaseIndex status context round.now with
        | (machine, .refused reason) => (machine, [guardBlocked round phase phaseIndex reason])
        | (machine, .allowed) =>
          let rest := advanceFrom turns (phaseIndex + 1)
            { machine with currentPhaseIndex := phaseIndex + 1 }
          (rest.1, phaseEnded round phase phaseIndex status :: rest.2)
      else advanceFrom turns (phaseIndex + 1) { machine with currentPhaseIndex := phaseIndex + 1 }

/-- **Pass the phases whose tasks have all ended**, from the current one on. -/
def advanceWorkflowPhases (machine : WorkflowStateMachine) : WorkflowStateMachine × List PhaseEvent :=
  advanceFrom round (machine.phases.length - machine.currentPhaseIndex) machine.currentPhaseIndex machine

end

end PiCrew.Workflow
