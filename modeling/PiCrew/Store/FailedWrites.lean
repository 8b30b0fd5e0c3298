/-
**What a failed write loses.**

`state/atomic-write.ts` (`atomicWriteFile`, `renameWithLinkSync`, `cancelPendingCoalescedWrite`). An immediate write first cancels what is queued for its path, and then checks
the path, writes a temporary file and renames it into place. Each of these steps may throw, and a rename that is
refused for the destination removes it before it is tried again.

* `rename_failed` — a rename that fails leaves the destination as it was, or removed;
* `failed_write_keeps_iff` — what was queued for the path of a failed write is kept just if the file had it
  already, and still has;
* `refused_write_drops_queued` — a write that is refused at its first check has dropped what was queued.

The calls are synchronous: nothing else happens to the path while one runs.
-/

import Mathlib.Logic.Function.Basic
import PiCrew.Library.Stamps

namespace PiCrew.Store.FailedWrites

section

inductive Platform where
  | posix
  | win32
  deriving DecidableEq, Repr

/-- The code of an error of the file system. -/
inductive Errno where
  | EPERM
  | EBUSY
  | EACCES
  | ENOENT
  | EEXIST
  | ENOTDIR
  | other (code : String)
  deriving DecidableEq, Repr

inductive WriteError where
  | refusedToWrite
  | refusedToRename
  | notARegularFile
  | errno (code : Errno)
  deriving DecidableEq, Repr

/-- `RETRYABLE_LINK_CODES` -/
def isRetryableLinkError (code : Errno) : Bool :=
  code ∈ [Errno.EPERM, .EBUSY, .EACCES, .ENOENT, .EEXIST]

/-- What the file system answers to one turn of the loop of `renameWithLinkSync`. `unlink` says whether
`unlinkSync` removes the destination. -/
structure RenameAttempt where
  rename : Except Errno Unit
  unlink : Bool := false
  renameAgain : Except Errno Unit := .ok ()
  deriving DecidableEq

/-- What the file system answers to a write, each call with what it throws. -/
structure WriteAnswers where
  platform : Platform := .posix
  isSymlinkSafe : Bool := true
  ensureDir : Except Errno Unit := .ok ()
  mkdirCanonical : Except Errno Unit := .ok ()
  openTemp : Except Errno Unit := .ok ()
  ensureDirAgain : Except Errno Unit := .ok ()
  openTempAgain : Except Errno Unit := .ok ()
  isFile : Except Errno Bool := .ok true
  writeSync : Except Errno Unit := .ok ()
  fsyncSync : Except Errno Unit := .ok ()
  closeSync : Except Errno Unit := .ok ()
  isSymlinkSafeAgain : Bool := true
  attempts : Nat → RenameAttempt := fun _ => { rename := .ok () }
  isSymbolicLink : Except Errno Bool := .ok false

inductive WriteDurability where
  | full
  | bestEffort
  deriving DecidableEq, Repr

/-- `CoalescedAtomicWrite`. `queued` is what the file was when the value was queued. -/
structure CoalescedAtomicWrite (ν : Type) where
  value : ν
  compact : Bool := false
  retryCount : Nat := 0
  generation : Nat := 0
  durability : WriteDurability := .full
  queued : Option Stamp := none
  deriving DecidableEq, Repr

/-- **The writer of a process, and the files**: what is queued for each path, and what is at it. -/
structure WriterState (π ν κ : Type) where
  pendingAtomicWrites : π → Option (CoalescedAtomicWrite ν)
  files : π → Option κ

variable {π ν κ : Type}

inductive Turn (κ : Type) where
  | done (file : Option κ)
  | again (file : Option κ) (error : Errno)
  | failed (file : Option κ) (error : Errno)

/-- The end of a turn that threw: another one, unless the error is not one to retry or this was the last. -/
def retryOr (last : Bool) (file : Option κ) (error : Errno) : Turn κ :=
  if !isRetryableLinkError error || last then .failed file error else .again file error

/-- `unlinkSync(filePath)`, then `renameSync(tempPath, filePath)`. -/
def unlinkThenRename (attempt : RenameAttempt) (last : Bool) (temp : κ) (file : Option κ) : Turn κ :=
  match attempt.renameAgain with
  | .ok _ => .done (some temp)
  | .error error => retryOr last (if attempt.unlink then none else file) error

def renameTurn (platform : Platform) (attempt : RenameAttempt) (last : Bool) (temp : κ) (file : Option κ) :
    Turn κ :=
  match attempt.rename with
  | .ok _ => .done (some temp)
  | .error error =>
    match platform with
    | .win32 =>
      if isRetryableLinkError error && !last then .again file error
      else unlinkThenRename attempt last temp file
    | .posix =>
      if error ≠ .EEXIST ∧ error ≠ .EPERM then retryOr last file error
      else unlinkThenRename attempt last temp file

/-- **`renameWithLinkSync`**, from an attempt on, with so many more to make behind it. -/
def renameWithLinkSync (platform : Platform) (attempts : Nat → RenameAttempt) (temp : κ) :
    Nat → Nat → Option κ → Except Errno Unit × Option κ
  | 0, attempt, file =>
    match renameTurn platform (attempts attempt) true temp file with
    | .done file => (.ok (), file)
    | .again file error | .failed file error => (.error error, file)
  | more + 1, attempt, file =>
    match renameTurn platform (attempts attempt) false temp file with
    | .done file => (.ok (), file)
    | .again file _ => renameWithLinkSync platform attempts temp more (attempt + 1) file
    | .failed file error => (.error error, file)

def renameRetries : Nat := 8

namespace WriteAnswers

variable (answers : WriteAnswers)

/-- `ensureDirSync`, and on Windows the canonical form of the directory where that is not permitted. -/
def ensureParent : Except WriteError Unit :=
  match answers.ensureDir with
  | .ok _ => .ok ()
  | .error error =>
    if answers.platform = .win32 ∧ error = .EPERM then answers.mkdirCanonical.mapError .errno
    else .error (.errno error)

def openTempFile : Except WriteError Unit :=
  match answers.openTemp with
  | .ok _ => .ok ()
  | .error error =>
    if error ≠ .ENOENT then .error (.errno error)
    else do
      answers.ensureDirAgain.mapError .errno
      answers.openTempAgain.mapError .errno

/-- The steps of a write up to its rename, which leave the path alone. -/
def writeTempFile (durability : WriteDurability) : Except WriteError Unit := do
  if !answers.isSymlinkSafe then throw .refusedToWrite
  answers.ensureParent
  answers.openTempFile
  let isFile ← answers.isFile.mapError .errno
  if !isFile then throw .notARegularFile
  answers.writeSync.mapError .errno
  if durability = .full then answers.fsyncSync.mapError .errno
  answers.closeSync.mapError .errno

/-- What is thrown where the rename threw: the look at the path may throw in its turn. -/
def rethrown (renameError : WriteError) : WriteError :=
  match answers.isSymbolicLink with
  | .ok _ => renameError
  | .error error => if error ≠ .ENOENT ∧ error ≠ .ENOTDIR then .errno error else renameError

/-- The rename of a write, between the second check of the path and its `catch`. -/
def renameTempFile (content : κ) (file : Option κ) : Except WriteError Unit × Option κ :=
  if !answers.isSymlinkSafeAgain then (.error (answers.rethrown .refusedToRename), file)
  else
    match renameWithLinkSync answers.platform answers.attempts content renameRetries 0 file with
    | (.ok _, file) => (.ok (), file)
    | (.error error, file) => (.error (answers.rethrown (.errno error)), file)

end WriteAnswers

namespace WriterState

variable [DecidableEq π] (state : WriterState π ν κ) (path : π)

/-- `pendingAtomicWrites.delete(filePath)`, or an entry for it. -/
def setPending (entry : Option (CoalescedAtomicWrite ν)) : WriterState π ν κ :=
  { state with pendingAtomicWrites := Function.update state.pendingAtomicWrites path entry }

def cancelPendingCoalescedWrite : WriterState π ν κ := state.setPending path none

def atomicWriteFile (content : κ) (durability : WriteDurability) (answers : WriteAnswers) :
    Except WriteError Unit × WriterState π ν κ :=
  let cancelled := state.cancelPendingCoalescedWrite path
  match answers.writeTempFile durability with
  | .error error => (.error error, cancelled)
  | .ok _ =>
    let (outcome, file) := answers.renameTempFile content (cancelled.files path)
    (outcome, { cancelled with files := Function.update cancelled.files path file })

/-- `atomicWriteJson`, and `atomicWriteJsonCoalesced` where `skipCoalesce` is set. `text` is
`JSON.stringify` with a line break behind it, compact or not. -/
def atomicWriteJson (text : Bool → ν → κ) (value : ν) (compact : Bool) (durability : WriteDurability)
    (answers : WriteAnswers) : Except WriteError Unit × WriterState π ν κ :=
  state.atomicWriteFile path (text compact value) durability answers

end WriterState

end

/-! ### The rename -/

section

variable {κ : Type} (platform : Platform) (attempts : Nat → RenameAttempt)

/-- A turn of the loop asks for the destination to be removed. -/
def asksToUnlink (attempt : RenameAttempt) (last : Bool) : Bool :=
  match attempt.rename with
  | .ok _ => false
  | .error error =>
    match platform with
    | .win32 => !(isRetryableLinkError error && !last)
    | .posix => decide (error = .EEXIST ∨ error = .EPERM)

def lastRename (attempt : RenameAttempt) (last : Bool) : Except Errno Unit :=
  if asksToUnlink platform attempt last then attempt.renameAgain else attempt.rename

/-- The destination is removed in one of the turns that are made. -/
def removesDestination : Nat → Nat → Bool
  | 0, attempt => asksToUnlink platform (attempts attempt) true && (attempts attempt).unlink
  | more + 1, attempt =>
    (asksToUnlink platform (attempts attempt) false && (attempts attempt).unlink)
      || (match lastRename platform (attempts attempt) false with
          | .ok _ => false
          | .error error => isRetryableLinkError error)
        && removesDestination more (attempt + 1)

theorem renameTurn_of_asked {attempt : RenameAttempt} {last : Bool}
    (asked : asksToUnlink platform attempt last = true) (temp : κ) (file : Option κ) :
    renameTurn platform attempt last temp file = unlinkThenRename attempt last temp file := by
  unfold asksToUnlink at asked
  unfold renameTurn
  cases renamed : attempt.rename with
  | ok _ => simp [renamed] at asked
  | error error =>
    rw [renamed] at asked
    cases platform with
    | win32 =>
      refine if_neg ?_
      simpa [or_iff_not_imp_left] using asked
    | posix =>
      refine if_neg ?_
      simpa [or_iff_not_imp_left] using asked

theorem renameTurn_of_plain {attempt : RenameAttempt} {last : Bool}
    (plain : asksToUnlink platform attempt last = false) (temp : κ) (file : Option κ) :
    renameTurn platform attempt last temp file =
      match attempt.rename with
      | .ok _ => .done (some temp)
      | .error error => retryOr last file error := by
  unfold asksToUnlink at plain
  unfold renameTurn
  cases renamed : attempt.rename with
  | ok _ => rfl
  | error error =>
    rw [renamed] at plain
    cases platform with
    | win32 =>
      have retried : isRetryableLinkError error = true ∧ last = false := by simpa using plain
      simp [retryOr, retried.1, retried.2]
    | posix => exact if_pos (by simpa [not_or] using plain)

theorem renameTurn_eq (attempt : RenameAttempt) (last : Bool) (temp : κ) (file : Option κ) :
    renameTurn platform attempt last temp file =
      match lastRename platform attempt last with
      | .ok _ => .done (some temp)
      | .error error =>
        retryOr last (if asksToUnlink platform attempt last && attempt.unlink then none else file) error := by
  unfold lastRename
  by_cases asked : asksToUnlink platform attempt last = true
  · rw [renameTurn_of_asked platform asked, if_pos asked, asked, Bool.true_and]
    rfl
  · rw [renameTurn_of_plain platform (Bool.eq_false_iff.mpr asked), if_neg asked,
      Bool.eq_false_iff.mpr asked, Bool.false_and]
    rfl

theorem rename_spec (temp : κ) (more attempt : Nat) (file : Option κ) :
    renameWithLinkSync platform attempts temp more attempt file = (.ok (), some temp)
      ∨ ∃ error, renameWithLinkSync platform attempts temp more attempt file
        = (.error error, if removesDestination platform attempts more attempt then none else file) := by
  induction more generalizing attempt file with
  | zero =>
    rw [renameWithLinkSync, renameTurn_eq, removesDestination]
    cases lastRename platform (attempts attempt) true with
    | ok _ => exact .inl rfl
    | error error => exact .inr ⟨error, by simp [retryOr]⟩
  | succ more ih =>
    rw [renameWithLinkSync, renameTurn_eq, removesDestination]
    cases lastRename platform (attempts attempt) false with
    | ok _ => exact .inl rfl
    | error error =>
      by_cases retried : isRetryableLinkError error = true
      · -- what the next turns leave, of a destination that this one may have removed
        have later := ih (attempt + 1) (if (asksToUnlink platform (attempts attempt) false
          && (attempts attempt).unlink) = true then none else file)
        simp only [retryOr, retried, Bool.not_true, Bool.or_self, Bool.false_eq_true, if_false, Bool.true_and]
        refine later.imp_right fun ⟨error, left⟩ => ⟨error, left.trans ?_⟩
        cases asksToUnlink platform (attempts attempt) false && (attempts attempt).unlink <;> simp
      · exact .inr ⟨error, by simp [retryOr, retried]⟩

end

/-! ### The write -/

section

variable {π ν κ : Type} [DecidableEq π]

namespace WriteAnswers

/-- A write comes to its rename, and that removes the destination. -/
def removesDestination (answers : WriteAnswers) (durability : WriteDurability) : Bool :=
  (answers.writeTempFile durability).isOk && answers.isSymlinkSafeAgain
    && FailedWrites.removesDestination answers.platform answers.attempts renameRetries 0

end WriteAnswers

variable (text : Bool → ν → κ)

/-- A file has a value, compact or not. -/
def Holds (file : Option κ) (value : ν) : Prop := ∃ compact, file = some (text compact value)

/-- **What was queued for a path is not lost**: it is queued still, or the file has it. -/
def Keeps (before after : WriterState π ν κ) (path : π) : Prop :=
  ∀ entry ∈ before.pendingAtomicWrites path,
    (∃ still ∈ after.pendingAtomicWrites path, still.value = entry.value)
      ∨ Holds text (after.files path) entry.value

variable {text} (state : WriterState π ν κ) (path : π) (content : κ) (durability : WriteDurability)
  (answers : WriteAnswers)

theorem renameTempFile_failed {error : WriteError} {file : Option κ}
    (failed : (answers.renameTempFile content file).1 = .error error) :
    (answers.renameTempFile content file).2 = if answers.isSymlinkSafeAgain
          && removesDestination answers.platform answers.attempts renameRetries 0 then none else file := by
  unfold WriteAnswers.renameTempFile at failed ⊢
  by_cases safe : answers.isSymlinkSafeAgain = true
  · rw [safe] at failed ⊢
    rcases rename_spec answers.platform answers.attempts content renameRetries 0 file with
      done | ⟨thrown, left⟩
    · rw [done] at failed
      cases failed
    · rw [left]
      rfl
  · rw [Bool.eq_false_iff.mpr safe]
    rfl

theorem atomicWriteFile_failed {error : WriteError}
    (failed : (state.atomicWriteFile path content durability answers).1 = .error error) :
    (state.atomicWriteFile path content durability answers).2.pendingAtomicWrites path = none
      ∧ (state.atomicWriteFile path content durability answers).2.files path
        = if answers.removesDestination durability then none else state.files path := by
  have cancelled : (state.cancelPendingCoalescedWrite path).pendingAtomicWrites path = none :=
    Function.update_self ..
  unfold WriterState.atomicWriteFile at failed ⊢
  rw [WriteAnswers.removesDestination]
  cases prepared : answers.writeTempFile durability with
  | error thrown => exact ⟨cancelled, rfl⟩
  | ok _ =>
    rw [prepared] at failed
    refine ⟨cancelled, ?_⟩
    have same : (state.cancelPendingCoalescedWrite path).files path = state.files path := rfl
    have left := renameTempFile_failed content answers failed
    dsimp only
    rw [Function.update_self, left, same]
    rfl

/-- **When a failed write loses nothing.** What was queued for its path is queued still, or on disk, just if
nothing was queued, or the file had it already and the rename did not remove it. -/
theorem failed_write_keeps_iff {error : WriteError}
    (failed : (state.atomicWriteFile path content durability answers).1 = .error error) :
    Keeps text state (state.atomicWriteFile path content durability answers).2 path ↔
      ∀ entry ∈ state.pendingAtomicWrites path,
        Holds text (state.files path) entry.value ∧ answers.removesDestination durability = false := by
  obtain ⟨cancelled, left⟩ := atomicWriteFile_failed state path content durability answers failed
  refine forall₂_congr fun entry queued => ?_
  rw [cancelled, left]
  constructor
  · rintro (⟨still, there, -⟩ | ⟨compact, holds⟩)
    · exact absurd there (Option.not_mem_none _)
    · by_cases removed : answers.removesDestination durability = true
      · rw [if_pos removed] at holds
        cases holds
      · rw [if_neg removed] at holds
        exact ⟨⟨compact, holds⟩, Bool.eq_false_iff.mpr removed⟩
  · rintro ⟨⟨compact, holds⟩, kept⟩
    refine .inr ⟨compact, ?_⟩
    rw [if_neg (Bool.eq_false_iff.mp kept), holds]

/-- Lines of text as values, which are written with a line break behind them. -/
def lineText (_compact : Bool) (line : String) : String := line ++ "\n"

/-- A status is queued for a file that has an older one. -/
def statusQueued : WriterState String String String where
  pendingAtomicWrites := fun path => if path = "status.json" then some { value := "completed" } else none
  files := fun path => if path = "status.json" then some "running\n" else none

def linkedDirectory : WriteAnswers := { isSymlinkSafe := false }

/-- The rename is refused for the destination, which is removed, and then for the disk. -/
def renameRefused : WriteAnswers where
  attempts := fun _ => { rename := .error .EEXIST, unlink := true, renameAgain := .error (.other "ENOSPC") }

theorem failed_write_keeps_iff_refused :
    (statusQueued.atomicWriteFile "status.json" "failed\n" .full renameRefused).1
        = .error (.errno (.other "ENOSPC"))
      ∧ (Keeps lineText statusQueued
          (statusQueued.atomicWriteFile "status.json" "failed\n" .full renameRefused).2 "status.json" ↔
        ∀ entry ∈ statusQueued.pendingAtomicWrites "status.json",
          Holds lineText (statusQueued.files "status.json") entry.value
            ∧ renameRefused.removesDestination .full = false) :=
  ⟨rfl, failed_write_keeps_iff statusQueued "status.json" "failed\n" .full renameRefused rfl⟩

/-- **A write that is refused has dropped what was queued**: the status is no longer queued, and the file has
the old one. -/
theorem refused_write_drops_queued :
    (statusQueued.atomicWriteFile "status.json" "failed\n" .full linkedDirectory).1 = .error .refusedToWrite
      ∧ (statusQueued.pendingAtomicWrites "status.json").map (·.value) = some "completed"
      ∧ (statusQueued.atomicWriteFile "status.json" "failed\n" .full linkedDirectory).2.pendingAtomicWrites
        "status.json" = none
      ∧ ¬ Keeps lineText statusQueued
        (statusQueued.atomicWriteFile "status.json" "failed\n" .full linkedDirectory).2 "status.json" := by
  refine ⟨rfl, rfl, rfl, fun keeps => ?_⟩
  rcases keeps { value := "completed" } rfl with ⟨still, there, -⟩ | ⟨compact, holds⟩
  · exact absurd there (Option.not_mem_none still)
  · have differ : "running\n" ≠ "completed\n" := by decide
    exact absurd (Option.some.inj holds) differ

end

end PiCrew.Store.FailedWrites
