/-
**What repeated persists do to the status of a task.**

A `PersistRun` is a sequence of calls of `persistSingleTaskUpdate`, each of which writes over the
file that the one before it left. Such a run is `persistAll` (`PersistRun.eq_persistAll`), so the
rules for sequences of updates are rules for runs:

* an update of another task changes nothing.

`persist_status_rule` states them together with the rule for one call, in any environment, relative
to the file that its write was computed from. What the rules leave out is what happens:
an update that is under way takes the place of a settled status (`heartbeat_replaces_settled`).
-/

import PiCrew.TaskRunner.CompareAndSwap

namespace PiCrew.TaskRunner

open PiCrew.State

/-- **A run of calls**, each writing over the tasks the last one left. -/
inductive PersistRun : List TeamTaskState → List TaskUpdate → List TeamTaskState → Prop where
  | done (tasks : List TeamTaskState) : PersistRun tasks [] tasks
  | call {tasks fallbackTasks final : List TeamTaskState} {update : TaskUpdate}
      {rest : List TaskUpdate} {history : DiskHistory} {schedule : Nat → Attempt}
      {skipCoalesce : Bool} {write : Write}
      (written : (persistSingleTaskUpdate history schedule fallbackTasks update
        skipCoalesce).write = some write)
      (honoured : write.basis = some write.moment)
      (replaced : history write.moment = .file tasks)
      (later : PersistRun write.tasks rest final) :
      PersistRun tasks (update :: rest) final

theorem PersistRun.eq_persistAll {tasks final : List TeamTaskState} {updates : List TaskUpdate}
    (run : PersistRun tasks updates final) : final = persistAll tasks updates := by
  induction run with
  | done tasks => rfl
  | call written honoured replaced later ih =>
    rw [ih, write_of_basis written honoured, replaced]
    rfl

/-- **What the disk decides about a status.** Of one call, in any environment: against the task
that its basis held, a settled update leaves a settled status alone, an update under way that knows
of no park leaves a live park alone, and otherwise the status is the update's. Of a run of calls:
settled updates keep the first settled status, updates under way that know of no park keep a live
park, and updates of other tasks keep everything. -/
theorem persist_status_rule (id : String) (held : TeamTaskState) :
    (∀ (history : DiskHistory) (schedule : Nat → Attempt) (fallbackTasks : List TeamTaskState)
        (update : TaskUpdate) (skipCoalesce : Bool) (write : Write) (moment : Nat),
      (persistSingleTaskUpdate history schedule fallbackTasks update skipCoalesce).write
        = some write →
      write.basis = some moment → update.task.id = id →
      taskOf (history moment).contents id = some held →
      ∃ last, taskOf write.tasks id = some last ∧
        (isTerminalTaskStatus held.status = true →
          isTerminalTaskStatus update.task.status = true → last.status = held.status) ∧
        (held.status = .waiting → held.waiting.isSome = true → update.task.waiting = none →
          isTerminalTaskStatus update.task.status = false →
          last.status = .waiting ∧ last.waiting = held.waiting) ∧
        (¬ (isTerminalTaskStatus held.status = true ∧
            isTerminalTaskStatus update.task.status = true) →
          ¬ (held.status = .waiting ∧ held.waiting.isSome = true ∧ update.task.waiting = none ∧
            isTerminalTaskStatus update.task.status = false) →
          last.status = update.task.status)) ∧
    (∀ (tasks final : List TeamTaskState) (updates : List TaskUpdate),
      PersistRun tasks updates final → taskOf tasks id = some held →
      (isTerminalTaskStatus held.status = true →
        (∀ update ∈ updates, update.task.id = id →
          isTerminalTaskStatus update.task.status = true) →
        ∃ last, taskOf final id = some last ∧ last.status = held.status) ∧
      (held.status = .waiting → held.waiting.isSome = true →
        (∀ update ∈ updates, update.task.id = id →
          isTerminalTaskStatus update.task.status = false ∧ update.task.waiting = none) →
        ∃ last, taskOf final id = some last ∧ last.status = .waiting ∧
          last.waiting = held.waiting) ∧
      ((∀ update ∈ updates, update.task.id ≠ id) → taskOf final id = some held)) := by
  refine ⟨?_, ?_⟩
  · intro history schedule fallbackTasks update skipCoalesce write moment written based named found
    have next := taskOf_persistOnto (history moment).contents update id
    rw [← write_of_basis written based, found, Option.map_some, if_pos named] at next
    have status := mergeOnto_status held update.incoming
    unfold mergedStatus at status
    rw [incoming_status] at status
    refine ⟨_, next, ?_, ?_, ?_⟩
    · intro settled final
      rw [status, final, settled]
      rfl
    · intro parked payload unknown underway
      have covered : coversPark held update.incoming = true := by
        simp [coversPark, parked, payload, unknown]
      refine ⟨?_, mergeOnto_waiting _ _ covered (by rw [incoming_status, underway])⟩
      rw [status, underway, covered]
      rfl
    · intro notSettled notParked
      rw [status]
      cases final : isTerminalTaskStatus update.task.status with
      | true =>
        have open_ : isTerminalTaskStatus held.status = false := by
          cases settled : isTerminalTaskStatus held.status with
          | false => rfl
          | true => exact absurd ⟨settled, final⟩ notSettled
        rw [open_]
        rfl
      | false =>
        have uncovered : coversPark held update.incoming = false := by
          cases covered : coversPark held update.incoming with
          | false => rfl
          | true =>
            simp only [coversPark, incoming_waiting, Bool.and_eq_true, decide_eq_true_eq,
              Option.isNone_iff_eq_none] at covered
            exact absurd ⟨covered.1.1, covered.1.2, covered.2, final⟩ notParked
        rw [uncovered]
        rfl
  · intro tasks final updates run found
    rw [run.eq_persistAll]
    refine ⟨fun settled => persistAll_keeps_settled found settled,
      fun parked payload => persistAll_keeps_park found parked payload, fun others => ?_⟩
    obtain ⟨last, present, same⟩ := persistAll_keeps (fun version => version = held)
      (fun _ _ update member named => absurd named (others update member)) found rfl
    rw [present, same]

def completedHistory : DiskHistory := fun _ => .file [{ id := "task", status := .completed }]

/-- A pass during which nobody else commits. -/
def quietSchedule (_ : Nat) : Attempt where
  stat := 0
  load := 0
  restat := 0
  save := 0
  flush := none
  manifestLoads := true
  ordered := by simp

theorem persist_status_rule_settled :
    ∃ last, taskOf [{ id := "task", status := .completed }] "task" = some last ∧
      last.status = .completed := by
  obtain ⟨last, present, settled, -⟩ :=
    (persist_status_rule "task" { id := "task", status := .completed }).1 completedHistory
      quietSchedule [] { task := { id := "task", status := .failed } } true
      ⟨[{ id := "task", status := .completed }], some 0, 0⟩ 0
      (by decide) rfl rfl (by decide)
  exact ⟨last, present, settled rfl rfl⟩

/-- **A heartbeat replaces a settled status**: with `completed`, `failed`, `cancelled`, `skipped` or
`needs_attention` on disk, a stale `running` update is what the file holds afterwards. -/
theorem heartbeat_replaces_settled :
    (teamTerminalTaskStatuses.map fun status =>
      (persistSingleTaskUpdate (fun _ => .file [{ id := "task", status := status }]) quietSchedule
        [] { task := { id := "task", status := .running } } true).write)
      = List.replicate 5 (some ⟨[{ id := "task", status := .running }], some 0, 0⟩) := by
  decide

end PiCrew.TaskRunner
