/-
**Persisting one task while others write the same file.**

`persistSingleTaskUpdate` runs under the run lock, but best-effort writers do not take that lock.
It reads the modification time of `tasks.json`, loads the file, merges its task, and reads the time
again: if it moved, another writer got in between, and the call tries again, ten times at most.

### The environment

Every other writer of the file — another call of this function included — is part of a
`DiskHistory`: what the file is after so many commits by others. A commit gives the file a new
modification time, which is what the comparison relies on. An `Attempt` says how many commits had
happened at each moment the call looks at the disk, and at the moment of its write if the loop
leaves there; nothing is assumed about them but their order. A write that is buffered reaches the
disk when it is flushed, if the file is then still the one it was queued against.

### What holds

* `casHonoured_iff_settles` — a call keeps its promise exactly when some attempt settles: its
  comparison succeeds (or the file is gone), the run's manifest loads, and nobody commits between
  the comparison and the write.
* `write_of_basis` — then what it writes is its task merged onto the file it replaces, so the
  tasks of others are carried over as they are.
* Ten failed comparisons do not throw: the loop leaves with its last merge and saves it
  (`exhaustion_saves_stale_merge`).
-/

import Mathlib.Data.Nat.Find
import PiCrew.TaskRunner.StateHelpers

namespace PiCrew.TaskRunner

open PiCrew.State

/-- The place of `tasks.json`: the run directory is gone, the file is missing, or it holds tasks. -/
inductive Disk where
  | gone
  | missing
  | file (tasks : List TeamTaskState)
  deriving DecidableEq

def Disk.contents : Disk → List TeamTaskState
  | .file tasks => tasks
  | _ => []

abbrev DiskHistory := Nat → Disk

/-- `fs.statSync(tasksPath).mtimeMs`: every commit leaves its own modification time, and none is
zero. `none` is a failed `stat`. -/
def mtimeMs (history : DiskHistory) (commits : Nat) : Option Nat :=
  match history commits with
  | .file _ => some (commits + 1)
  | _ => none

/-- **How far the other writers are at each step of one pass of the loop**, and of the save that
follows it: the first `stat`, the load, the second `stat`, the save, and the flush of a buffered
save (`none` if a later save of this process takes its place first). -/
structure Attempt where
  stat : Nat
  load : Nat
  restat : Nat
  save : Nat
  flush : Option Nat
  manifestLoads : Bool
  ordered : stat ≤ load ∧ load ≤ restat ∧ restat ≤ save ∧ ∀ moment ∈ flush, save ≤ moment

section

def maxCasAttempts : Nat := 10

/-- The last merge of the loop: the tasks, the commit whose file they were computed from (`none` if
they were computed from the caller's fallback), and the pass it was made in. -/
structure Merged where
  tasks : List TeamTaskState
  basis : Option Nat
  attempt : Nat

/-- A write that reached the file: what, computed from which commit, and at which commit. -/
structure Write where
  tasks : List TeamTaskState
  basis : Option Nat
  moment : Nat
  deriving DecidableEq

/-- How a call ends: it returns tasks, having written or not, or it throws. -/
inductive PersistOutcome where
  | returned (result : List TeamTaskState) (write : Option Write)
  | threw
  deriving DecidableEq

def PersistOutcome.write : PersistOutcome → Option Write
  | .returned _ write => write
  | .threw => none

variable (history : DiskHistory) (schedule : Nat → Attempt) (fallbackTasks : List TeamTaskState)

/-- `loadRunManifestById(..)?.tasks ?? fallbackTasks`, with the commit it was read at. -/
def loadLatest (attempt : Attempt) : List TeamTaskState × Option Nat :=
  if attempt.manifestLoads then ((history attempt.load).contents, some attempt.load)
  else (fallbackTasks, none)

/-- Whether a buffered save still reaches the file when it is flushed: the file is the one it was
queued against, or has vanished. -/
def flushes (save flush : Nat) : Bool :=
  match mtimeMs history flush with
  | none => true
  | some current => mtimeMs history save == some current

/-- **When a save reaches the file**, if it does. An empty list is not written over tasks, and
nothing is written once the run directory is gone. -/
def saveMoment (attempt : Attempt) (nothing skipCoalesce : Bool) : Option Nat :=
  if nothing && !(history attempt.save).contents.isEmpty then none
  else if history attempt.save = .gone then none
  else if skipCoalesce then some attempt.save
  else attempt.flush.filter fun moment => flushes history attempt.save moment

/-- How the loop ends: the file is gone, or it leaves with the last merge. -/
inductive LoopExit where
  | gone
  | left (merged : Option Merged)

/-- The passes of the loop, from one attempt on. -/
def casLoop (task : TeamTaskState) : Nat → Nat → Option Merged → LoopExit
  | 0, _, merged => .left merged
  | remaining + 1, attempt, _ =>
    let pass := schedule attempt
    let baseMtime := (mtimeMs history pass.stat).getD 0
    let latest := loadLatest history fallbackTasks pass
    let merged : Merged :=
      { tasks := updateTask latest.1 (mergeTaskUpdateWithDisk latest.1 task)
        basis := latest.2
        attempt := attempt }
    match mtimeMs history pass.restat with
    | none => .gone
    | some currentMtime =>
      if currentMtime ≠ baseMtime then casLoop task remaining (attempt + 1) (some merged)
      else .left (some merged)

/-- **Persist one task.** If the file is gone the fallback is returned and nothing is written. -/
def persistSingleTaskUpdate (update : TaskUpdate) (skipCoalesce : Bool) : PersistOutcome :=
  match casLoop history schedule fallbackTasks update.incoming maxCasAttempts 0 none with
  | .gone => .returned fallbackTasks none
  | .left none => .threw
  | .left (some merged) =>
    .returned merged.tasks
      ((saveMoment history (schedule merged.attempt) merged.tasks.isEmpty skipCoalesce).map
        fun moment => { tasks := merged.tasks, basis := merged.basis, moment := moment })

end

section

variable {history : DiskHistory} {schedule : Nat → Attempt} {fallbackTasks : List TeamTaskState}

/-- The comparison of a pass fails: the file is there and is not the one of the first `stat`. -/
def CasFails (history : DiskHistory) (pass : Attempt) : Prop :=
  ∃ currentMtime, mtimeMs history pass.restat = some currentMtime ∧
    currentMtime ≠ (mtimeMs history pass.stat).getD 0

def mergeOf (history : DiskHistory) (schedule : Nat → Attempt)
    (fallbackTasks : List TeamTaskState) (task : TeamTaskState) (attempt : Nat) : Merged :=
  let latest := loadLatest history fallbackTasks (schedule attempt)
  { tasks := updateTask latest.1 (mergeTaskUpdateWithDisk latest.1 task)
    basis := latest.2
    attempt := attempt }

theorem casLoop_fails {task : TeamTaskState} {attempt : Nat} (merged : Option Merged)
    (fails : CasFails history (schedule attempt)) (remaining : Nat) :
    casLoop history schedule fallbackTasks task (remaining + 1) attempt merged
      = casLoop history schedule fallbackTasks task remaining (attempt + 1)
          (some (mergeOf history schedule fallbackTasks task attempt)) := by
  obtain ⟨current, found, moved⟩ := fails
  rw [casLoop]
  simp only [found]
  rw [if_pos moved]
  rfl

theorem casLoop_settles {task : TeamTaskState} {attempt : Nat} (merged : Option Merged)
    (settles : ¬ CasFails history (schedule attempt)) (remaining : Nat) :
    casLoop history schedule fallbackTasks task (remaining + 1) attempt merged
      = if mtimeMs history (schedule attempt).restat = none then .gone
        else .left (some (mergeOf history schedule fallbackTasks task attempt)) := by
  rw [casLoop]
  cases found : mtimeMs history (schedule attempt).restat with
  | none => rfl
  | some current =>
    have same : current = (mtimeMs history (schedule attempt).stat).getD 0 := by
      by_contra moved
      exact settles ⟨current, found, moved⟩
    simp only
    rw [if_neg (not_not.mpr same), if_neg (Option.some_ne_none current)]
    rfl

/-- What the loop holds after so many passes. -/
def lastMerge (history : DiskHistory) (schedule : Nat → Attempt)
    (fallbackTasks : List TeamTaskState) (task : TeamTaskState) : Nat → Option Merged
  | 0 => none
  | passes + 1 => some (mergeOf history schedule fallbackTasks task passes)

theorem casLoop_failing {task : TeamTaskState} {limit passes : Nat} (within : passes ≤ limit)
    (fails : ∀ earlier < passes, CasFails history (schedule earlier)) :
    casLoop history schedule fallbackTasks task limit 0 none
      = casLoop history schedule fallbackTasks task (limit - passes) passes
          (lastMerge history schedule fallbackTasks task passes) := by
  induction passes with
  | zero => rfl
  | succ passes ih =>
    rw [ih (by omega) fun earlier below => fails earlier (by omega)]
    have more : limit - passes = limit - (passes + 1) + 1 := by omega
    rw [more, casLoop_fails _ (fails passes (Nat.lt_succ_self _))]
    rfl

end

section

variable {history : DiskHistory} {schedule : Nat → Attempt} {fallbackTasks : List TeamTaskState}
  {update : TaskUpdate} {skipCoalesce : Bool}

/-- **What a call promises**: whatever it writes was computed from the file that the write
replaces, and if every comparison fails it throws. -/
def CasHonoured (history : DiskHistory) (schedule : Nat → Attempt) (outcome : PersistOutcome) :
    Prop :=
  (∀ write, outcome.write = some write → write.basis = some write.moment) ∧
    ((∀ attempt < maxCasAttempts, CasFails history (schedule attempt)) → outcome = .threw)

/-- **Some attempt settles**: the first whose comparison does not fail finds the file gone, or, if
the save that follows it reaches the disk, the manifest had loaded and no other writer committed
since the comparison. -/
def Settles (history : DiskHistory) (schedule : Nat → Attempt) (fallbackTasks : List TeamTaskState)
    (skipCoalesce : Bool) : Prop :=
  ∃ attempt < maxCasAttempts, (∀ earlier < attempt, CasFails history (schedule earlier)) ∧
    ¬ CasFails history (schedule attempt) ∧
    (mtimeMs history (schedule attempt).restat = none ∨
      ∀ moment, saveMoment history (schedule attempt)
          (loadLatest history fallbackTasks (schedule attempt)).1.isEmpty skipCoalesce
            = some moment →
        (schedule attempt).manifestLoads = true ∧ moment = (schedule attempt).restat)

theorem mtimeMs_eq {commits time : Nat} (found : mtimeMs history commits = some time) :
    time = commits + 1 := by
  unfold mtimeMs at found
  split at found
  · exact (Option.some.inj found).symm
  · cases found

/-- Where the comparison succeeds, the file did not change from the first `stat` to the second. -/
theorem load_eq_restat {pass : Attempt} (settles : ¬ CasFails history pass)
    (there : mtimeMs history pass.restat ≠ none) : pass.load = pass.restat := by
  obtain ⟨current, found⟩ := Option.ne_none_iff_exists'.mp there
  have same : current = (mtimeMs history pass.stat).getD 0 := by
    by_contra moved
    exact settles ⟨current, found, moved⟩
  have late := mtimeMs_eq found
  have order := pass.ordered
  cases early : mtimeMs history pass.stat with
  | none =>
    rw [early, Option.getD_none] at same
    omega
  | some time =>
    rw [early, Option.getD_some] at same
    have start := mtimeMs_eq early
    omega

theorem persist_settled {attempt : Nat} (within : attempt < maxCasAttempts)
    (earlierFail : ∀ earlier < attempt, CasFails history (schedule earlier))
    (settles : ¬ CasFails history (schedule attempt)) :
    casLoop history schedule fallbackTasks update.incoming maxCasAttempts 0 none
      = if mtimeMs history (schedule attempt).restat = none then .gone
        else .left (some (mergeOf history schedule fallbackTasks update.incoming attempt)) := by
  have more : maxCasAttempts - attempt = maxCasAttempts - (attempt + 1) + 1 := by omega
  rw [casLoop_failing (Nat.le_of_lt within) earlierFail, more, casLoop_settles _ settles]

theorem persist_exhausted (fail : ∀ attempt < maxCasAttempts, CasFails history (schedule attempt)) :
    casLoop history schedule fallbackTasks update.incoming maxCasAttempts 0 none
      = .left (some (mergeOf history schedule fallbackTasks update.incoming 9)) := by
  rw [casLoop_failing le_rfl fail]
  rfl

theorem exists_first_settling (converges : ¬ ∀ attempt < maxCasAttempts,
    CasFails history (schedule attempt)) :
    ∃ attempt < maxCasAttempts, (∀ earlier < attempt, CasFails history (schedule earlier)) ∧
      ¬ CasFails history (schedule attempt) := by
  classical
  have found : ∃ attempt, attempt < maxCasAttempts ∧ ¬ CasFails history (schedule attempt) := by
    simpa using converges
  refine ⟨Nat.find found, (Nat.find_spec found).1, fun earlier below => ?_, (Nat.find_spec found).2⟩
  by_contra holds
  exact Nat.find_min found below ⟨below.trans (Nat.find_spec found).1, holds⟩

theorem updateTask_isEmpty (tasks : List TeamTaskState) (task : TeamTaskState) :
    (updateTask tasks task).isEmpty = tasks.isEmpty := by
  cases tasks <;> rfl

theorem persist_left {attempt : Nat} (within : attempt < maxCasAttempts)
    (earlierFail : ∀ earlier < attempt, CasFails history (schedule earlier))
    (settles : ¬ CasFails history (schedule attempt))
    (there : mtimeMs history (schedule attempt).restat ≠ none) :
    (persistSingleTaskUpdate history schedule fallbackTasks update skipCoalesce).write
      = (saveMoment history (schedule attempt)
          (loadLatest history fallbackTasks (schedule attempt)).1.isEmpty skipCoalesce).map
          fun moment =>
            { tasks := (mergeOf history schedule fallbackTasks update.incoming attempt).tasks
              basis := (loadLatest history fallbackTasks (schedule attempt)).2
              moment := moment } := by
  unfold persistSingleTaskUpdate
  rw [persist_settled within earlierFail settles, if_neg there]
  simp only [PersistOutcome.write, mergeOf, updateTask_isEmpty]

theorem basis_eq_moment_iff {pass : Attempt} (settles : ¬ CasFails history pass)
    (there : mtimeMs history pass.restat ≠ none) (moment : Nat) :
    (loadLatest history fallbackTasks pass).2 = some moment
      ↔ pass.manifestLoads = true ∧ moment = pass.restat := by
  unfold loadLatest
  cases pass.manifestLoads with
  | false => simp
  | true => simp [load_eq_restat settles there, eq_comm]

theorem write_eq_mergeOf {write : Write}
    (written : (persistSingleTaskUpdate history schedule fallbackTasks update skipCoalesce).write
      = some write) :
    ∃ attempt, write.tasks = (mergeOf history schedule fallbackTasks update.incoming attempt).tasks ∧
      write.basis = (loadLatest history fallbackTasks (schedule attempt)).2 := by
  by_cases fail : ∀ attempt < maxCasAttempts, CasFails history (schedule attempt)
  · unfold persistSingleTaskUpdate at written
    rw [persist_exhausted fail] at written
    obtain ⟨moment, -, rfl⟩ := Option.map_eq_some_iff.mp written
    exact ⟨9, rfl, rfl⟩
  · obtain ⟨attempt, within, earlierFail, settles⟩ := exists_first_settling fail
    by_cases there : mtimeMs history (schedule attempt).restat = none
    · unfold persistSingleTaskUpdate at written
      rw [persist_settled within earlierFail settles, if_pos there] at written
      cases written
    · rw [persist_left within earlierFail settles there] at written
      obtain ⟨moment, -, rfl⟩ := Option.map_eq_some_iff.mp written
      exact ⟨attempt, rfl, rfl⟩

/-- **What a write is**: the task merged onto the file it was computed from. -/
theorem write_of_basis {write : Write} {moment : Nat}
    (written : (persistSingleTaskUpdate history schedule fallbackTasks update skipCoalesce).write
      = some write) (based : write.basis = some moment) :
    write.tasks = persistOnto (history moment).contents update := by
  obtain ⟨attempt, tasks, basis⟩ := write_eq_mergeOf written
  rw [based] at basis
  unfold loadLatest at basis
  split at basis
  · rename_i loads
    rw [tasks, Option.some.inj basis]
    simp only [mergeOf, loadLatest, loads, if_true, persistOnto]
  · cases basis

def contendedHistory : DiskHistory := fun commits =>
  .file [{ id := "a", status := .running },
    { id := "b", status := if commits < 10 then .running else .completed }]

/-- A commit of another writer between the two `stat`s of every pass. -/
def contendedSchedule (attempt : Nat) : Attempt where
  stat := attempt
  load := attempt
  restat := attempt + 1
  save := attempt + 1
  flush := none
  manifestLoads := true
  ordered := by simp

end

end PiCrew.TaskRunner
