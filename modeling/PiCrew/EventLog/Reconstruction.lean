/-
**Tasks reconstructed from the event log.**

`state/event-log/event-reconstructor.ts` rebuilds the tasks of a run from its events, for a run whose
`tasks.json` is lost. Each event sets what it knows, and nothing that an earlier event has set is cleared:
a task that was started again keeps the end time and the error of the attempt before.

* `reconstruction_settled_iff` — so the end time and the error are those of the status exactly if the task's
  history ends that way.
-/

import PiCrew.Library.JsonText
import PiCrew.Library.LastWins
import PiCrew.State.Contracts

namespace PiCrew.EventLog.Reconstruction

open JsonText (Text Value JsNumber units)
open State (TeamTaskStatus isTerminalTaskStatus)

section

inductive EventType where
  | created | started | completed | failed | skipped | cancelled | needsAttention
  | waiting | resumed | waitingRepaired | retried | blocked | progress | green | red
  | other
  deriving DecidableEq, Repr

inductive ReconstructedStatus where
  | created | queued | running | completed | failed | cancelled | skipped | waiting | needsAttention
  deriving DecidableEq, Repr

/-- `TASK_LIFECYCLE_EVENT_TYPES`. -/
def EventType.isTaskLifecycle (type : EventType) : Bool := type ≠ .other

/-- `TERMINAL_EVENTS`. -/
def EventType.isTerminal : EventType → Bool
  | .completed | .failed | .cancelled | .skipped | .needsAttention => true
  | _ => false

/-- `EVENT_STATUS_MAP`. -/
def statusFromEventType : EventType → Option ReconstructedStatus
  | .created => some .created
  | .started => some .running
  | .completed => some .completed
  | .failed => some .failed
  | .skipped => some .skipped
  | .cancelled => some .cancelled
  | .needsAttention => some .needsAttention
  | .waiting => some .waiting
  | .resumed => some .running
  | .waitingRepaired => some .waiting
  | .retried => some .queued
  | _ => none

def ReconstructedStatus.isTerminal : ReconstructedStatus → Bool
  | .completed | .failed | .cancelled | .skipped | .needsAttention => true
  | _ => false

variable (ν : Type)

structure TeamEvent where
  time : Text
  type : EventType
  taskId : Option Text := none
  message : Option Text := none
  data : Option (List (Text × Value ν)) := none

structure ReconstructedTaskState where
  id : Text
  status : ReconstructedStatus := .created
  startedAt : Option Text := none
  finishedAt : Option Text := none
  error : Option Text := none
  segment : Option ν := none
  diagnostics : Option (List (Text × Value ν)) := none
  metrics : Option (List (Text × ν)) := none

end

section

variable {ν : Type}

def safeNumber : Option (Value ν) → Option ν
  | some (.number (.finite number)) => some number
  | _ => none

def safeRecord : Option (Value ν) → Option (List (Text × Value ν))
  | some (.object members) => some members
  | _ => none

def safeNumericRecord (value : Option (Value ν)) : Option (List (Text × ν)) :=
  match value with
  | some (.object members) =>
    let record := members.filterMap fun member =>
      (safeNumber (some member.2)).map fun number => (member.1, number)
    if record.isEmpty then none else some record
  | _ => none

def failureMessage (event : TeamEvent ν) : Option Text :=
  if event.type = .failed then event.message.filter (· ≠ []) else none

def applyEvent (task : ReconstructedTaskState ν) (event : TeamEvent ν) : ReconstructedTaskState ν where
  id := task.id
  status := (statusFromEventType event.type).getD task.status
  startedAt := if event.type = .started then some event.time else task.startedAt
  finishedAt := if event.type.isTerminal then some event.time else task.finishedAt
  error := (failureMessage event).or task.error
  segment := (safeNumber (event.data.bind (·.lookup (units "segment")))).or task.segment
  diagnostics := (safeRecord (event.data.bind (·.lookup (units "diagnostics")))).or task.diagnostics
  metrics := (safeNumericRecord (event.data.bind (·.lookup (units "metrics")))).or task.metrics

def taskOf (event : TeamEvent ν) : Option Text :=
  if event.type.isTaskLifecycle then event.taskId.filter (· ≠ []) else none

def processEvent (tasks : Ledger Text (ReconstructedTaskState ν)) (event : TeamEvent ν) :
    Ledger Text (ReconstructedTaskState ν) :=
  match taskOf event with
  | some taskId => tasks.put taskId (applyEvent ((tasks.get taskId).getD { id := taskId }) event)
  | none => tasks

/-- `processEvents`, the tasks of its result. -/
def processEvents (events : List (TeamEvent ν)) : Ledger Text (ReconstructedTaskState ν) :=
  events.foldl processEvent {}

def ownEvents (events : List (TeamEvent ν)) (taskId : Text) : List (TeamEvent ν) :=
  events.filter fun event => taskOf event = some taskId

end

section

variable {ν : Type} {events : List (TeamEvent ν)} {taskId : Text}

theorem ownEvents_append (events : List (TeamEvent ν)) (event : TeamEvent ν) (taskId : Text) :
    ownEvents (events ++ [event]) taskId =
      if taskOf event = some taskId then ownEvents events taskId ++ [event] else ownEvents events taskId := by
  rw [ownEvents, List.filter_append]
  split
  · next own => simp [ownEvents, own]
  · next other => simp [ownEvents, other]

theorem get_processEvents (events : List (TeamEvent ν)) (taskId : Text) :
    (processEvents events).get taskId =
      if ownEvents events taskId = [] then none
      else some ((ownEvents events taskId).foldl applyEvent { id := taskId }) := by
  induction events using List.reverseRecOn with
  | nil => rfl
  | append_singleton events event ih =>
    rw [processEvents, List.foldl_append, List.foldl_cons, List.foldl_nil, ← processEvents, processEvent,
      ownEvents_append]
    cases own : taskOf event with
    | none => simp [ih]
    | some other =>
      by_cases same : other = taskId
      · subst same
        rw [if_pos rfl, if_neg (by simp), List.foldl_append, Ledger.get_put, if_pos rfl, ih]
        by_cases first : ownEvents events other = []
        · simp [first]
        · simp [first]
      · have apart : ¬ (some other = some taskId) := fun equal => same (Option.some.inj equal)
        rw [if_neg apart, Ledger.get_put, if_neg (Ne.symm same), ih]

theorem foldl_field {β : Type} (field : ReconstructedTaskState ν → Option β) (sets : TeamEvent ν → Option β)
    (step : ∀ task event, field (applyEvent task event) = (sets event).or (field task))
    (fresh : field { id := taskId } = none) :
    field (events.foldl applyEvent { id := taskId }) = (events.filterMap sets).getLast? := by
  rw [← LastWins.foldl_latest_some, ← fresh]
  exact (List.foldl_hom field fun task event => (step task event).symm).symm

theorem status_foldl : (events.foldl applyEvent { id := taskId }).status =
      (events.filterMap fun event => statusFromEventType event.type).getLast?.getD .created := by
  rw [← LastWins.foldl_latest]
  exact (List.foldl_hom ReconstructedTaskState.status fun task event => rfl).symm

def lastStart (own : List (TeamEvent ν)) : Option Text :=
  (own.filterMap fun event => if event.type = .started then some event.time else none).getLast?

theorem startedAt_foldl : (events.foldl applyEvent { id := taskId }).startedAt = lastStart events := by
  refine foldl_field _ _ (fun task event => ?_) rfl
  by_cases start : event.type = .started <;> simp [applyEvent, start]

def endTime (event : TeamEvent ν) : Option Text := if event.type.isTerminal then some event.time else none

theorem finishedAt_foldl :
    (events.foldl applyEvent { id := taskId }).finishedAt = (events.filterMap endTime).getLast? := by
  refine foldl_field _ _ (fun task event => ?_) rfl
  cases terminal : event.type.isTerminal <;> simp [applyEvent, endTime, terminal]

theorem error_foldl :
    (events.foldl applyEvent { id := taskId }).error = (events.filterMap failureMessage).getLast? :=
  foldl_field _ _ (fun _ _ => rfl) rfl

end

/-! ## What a reconstructed task carries -/

section

variable {ν : Type} {events : List (TeamEvent ν)} {taskId : Text}

def lastStatus (own : List (TeamEvent ν)) : Option ReconstructedStatus :=
  (own.filterMap fun event => statusFromEventType event.type).getLast?

/-- **A task as its events have left it**: the status of the last event that has one, the last start, an end
time exactly in a terminal status, and an error exactly in a failed one. -/
def Faithful (own : List (TeamEvent ν)) (task : ReconstructedTaskState ν) : Prop :=
  task.status = (lastStatus own).getD .created ∧
  task.startedAt = lastStart own ∧
  (task.finishedAt.isSome ↔ task.status.isTerminal = true) ∧
  (task.error.isSome ↔ task.status = .failed)

/-- **A history that ends as its attempts did**: if an attempt came to an end, the last status is a terminal
one, and a failure told its reason exactly if the last status is that of a failure. -/
def EndsSettled (own : List (TeamEvent ν)) : Prop :=
  ((∃ event ∈ own, event.type.isTerminal = true) →
    ∃ status, lastStatus own = some status ∧ status.isTerminal = true) ∧
  ((∃ event ∈ own, event.type = .failed ∧ ∃ message ∈ event.message, message ≠ []) ↔
    lastStatus own = some .failed)

theorem getLast?_filterMap_isSome {α β : Type} (sets : α → Option β) (rows : List α) :
    (rows.filterMap sets).getLast?.isSome ↔ ∃ row ∈ rows, (sets row).isSome := by
  rw [List.getLast?_isSome, Ne, List.filterMap_eq_nil_iff]
  simp only [not_forall, Option.isSome_iff_ne_none]
  exact ⟨fun ⟨row, member, set⟩ => ⟨row, member, set⟩, fun ⟨row, member, set⟩ => ⟨row, member, set⟩⟩

theorem isTerminal_statusFromEventType {type : EventType} {status : ReconstructedStatus}
    (mapped : statusFromEventType type = some status) : status.isTerminal = type.isTerminal := by
  cases type <;> simp only [statusFromEventType, Option.some.injEq, reduceCtorEq] at mapped <;>
    subst mapped <;> rfl

theorem finishedAt_isSome : (events.foldl applyEvent { id := taskId }).finishedAt.isSome ↔
      ∃ event ∈ events, event.type.isTerminal = true := by
  rw [finishedAt_foldl, getLast?_filterMap_isSome]
  refine exists_congr fun event => and_congr_right fun _ => ?_
  cases terminal : event.type.isTerminal <;> simp [endTime, terminal]

theorem error_isSome : (events.foldl applyEvent { id := taskId }).error.isSome ↔
      ∃ event ∈ events, event.type = .failed ∧ ∃ message ∈ event.message, message ≠ [] := by
  rw [error_foldl, getLast?_filterMap_isSome]
  refine exists_congr fun event => and_congr_right fun _ => ?_
  rw [failureMessage]
  split
  · next failed => cases event.message <;> simp [failed, Option.filter_some]
  · next other => simp [other]

theorem status_isTerminal : (events.foldl applyEvent { id := taskId }).status.isTerminal = true ↔
      ∃ status, lastStatus events = some status ∧ status.isTerminal = true := by
  rw [status_foldl, ← lastStatus]
  cases lastStatus events with
  | none => simp [ReconstructedStatus.isTerminal]
  | some status => simp

theorem status_failed :
    (events.foldl applyEvent { id := taskId }).status = .failed ↔ lastStatus events = some .failed := by
  rw [status_foldl, ← lastStatus]
  cases lastStatus events with
  | none | some status => simp

theorem exists_terminal {status : ReconstructedStatus} (last : lastStatus events = some status)
    (terminal : status.isTerminal = true) : ∃ event ∈ events, event.type.isTerminal = true := by
  obtain ⟨event, member, mapped⟩ := List.mem_filterMap.mp (List.mem_of_getLast? last)
  exact ⟨event, member, by rw [← isTerminal_statusFromEventType mapped, terminal]⟩

/-- **A task is as its events have left it** exactly if its history ends settled: what an earlier attempt has
set is cleared by no event. -/
theorem reconstruction_settled_iff (events : List (TeamEvent ν)) (taskId : Text) :
    (∀ task, (processEvents events).get taskId = some task → Faithful (ownEvents events taskId) task) ↔
      EndsSettled (ownEvents events taskId) := by
  rw [get_processEvents]
  generalize ownEvents events taskId = own
  by_cases none : own = []
  · refine iff_of_true (fun task found => ?_) ?_
    · rw [if_pos none] at found
      cases found
    · rw [none]
      exact ⟨fun ⟨_, member, _⟩ => absurd member List.not_mem_nil, by simp [lastStatus]⟩
  · rw [if_neg none]
    simp only [Option.some.injEq, forall_eq']
    rw [Faithful, EndsSettled, finishedAt_isSome, error_isSome, status_isTerminal, status_failed]
    constructor
    · rintro ⟨-, -, finished, failed⟩
      exact ⟨finished.mp, failed⟩
    · rintro ⟨finished, failed⟩
      refine ⟨status_foldl, startedAt_foldl, ⟨finished, ?_⟩, failed⟩
      rintro ⟨status, last, terminal⟩
      exact exists_terminal last terminal

/-- An event of the task `t` at a time. -/
def eventAt (type : EventType) (time : String) : TeamEvent Nat where
  time := units time
  type := type
  taskId := some (units "t")
  message := some (units "m")

/-- **A task that was retried** has the end time and the error of the attempt before. -/
theorem reconstruction_retried :
    ¬ ∀ (events : List (TeamEvent Nat)) (taskId : Text) (task : ReconstructedTaskState Nat),
      (processEvents events).get taskId = some task → Faithful (ownEvents events taskId) task := by
  intro claim
  have faithful := claim [eventAt .started "1", eventAt .failed "2", eventAt .retried "3",
    eventAt .started "4"] (units "t") _ rfl
  exact absurd (faithful.2.2.1.mp rfl) (by decide)

end

/-! ## The tasks that are loaded -/

end PiCrew.EventLog.Reconstruction
