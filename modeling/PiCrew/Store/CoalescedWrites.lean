/-
**The last write of a process.**

`state/atomic-write.ts` (`atomicWriteFile`, `atomicWriteFileAsync`, `atomicWriteJsonCoalesced`,
`flushOnePendingAtomicWrite`, `cancelPendingCoalescedWrite`). A process writes one file in three ways. An
immediate write puts its value there at once, a coalesced one buffers it until a timer or a flush writes it,
and an asynchronous one renames its value into place some time after it was called. Immediate and
asynchronous writes cancel what is buffered when they are called; nothing cancels an asynchronous write.

* `step_latest` — the value of the last call is about to be renamed, or in the buffer, or in the file;
* `last_write_wins` — once all is settled the file has that value, in a run whose renames are all made while
  the last call is an asynchronous one that has not renamed;
* `late_rename_drops_last` — a rename that makes a flush drop what was buffered after it was called.

The model is of one path and of one process, without other writers. A flush may fail and is tried again, up
to a limit. The other writes succeed: one that fails tells its caller. A flush is synchronous, so no call is
made in the middle of it.
-/

import PiCrew.Library.Runs
import PiCrew.Library.Stamps

namespace PiCrew.Store

open Runs

def maxFlushRetries : Nat := 5

structure WrittenFile (ν : Type) where
  content : ν
  stamp : Stamp
  deriving DecidableEq, Repr

/-- A value in the buffer (`CoalescedAtomicWrite`), with what the file was when it was put there. -/
structure CoalescedAtomicWrite (ν : Type) where
  value : ν
  queued : Option Stamp
  retryCount : Nat := 0
  deriving DecidableEq, Repr

structure AsyncWrite (ν : Type) where
  call : Nat
  value : ν
  deriving DecidableEq, Repr

/-- **A path that the process writes to.** `made` has the values of the calls, the last one first, and
`exhausted` counts the values that were given up after too many failed flushes. -/
structure PathState (ν : Type) where
  file : Option (WrittenFile ν) := none
  pending : Option (CoalescedAtomicWrite ν) := none
  inFlight : List (AsyncWrite ν) := []
  exhausted : Nat := 0
  made : List ν := []
  deriving DecidableEq, Repr

/-- What happens next. `stamp` is what the file has once it is written. A flush is of a timer or of
`flushPendingAtomicWrites`. -/
inductive WriteAction (ν : Type) where
  | atomicWriteJson (value : ν) (stamp : Stamp)
  | atomicWriteJsonCoalesced (value : ν) (skipCoalesce : Bool) (stamp : Stamp)
  | atomicWriteFileAsync (value : ν)
  | rename (call : Nat) (stamp : Stamp)
  | flush (succeeds : Bool) (stamp : Stamp)

namespace PathState

variable {ν : Type} (path : PathState ν)

def called (value : ν) : PathState ν := { path with made := value :: path.made }

def cancelPendingCoalescedWrite : PathState ν := { path with pending := none }

def put (value : ν) (stamp : Stamp) : PathState ν := { path with file := some ⟨value, stamp⟩ }

/-- `atomicWriteFile`: it cancels what is buffered. -/
def atomicWriteFile (value : ν) (stamp : Stamp) : PathState ν :=
  path.cancelPendingCoalescedWrite.put value stamp

/-- `atomicWriteJsonCoalesced`, without `skipCoalesce`. -/
def queue (value : ν) : PathState ν :=
  { path with pending := some { value := value, queued := path.file.map (·.stamp) } }

def startAsync (value : ν) : PathState ν :=
  { path.cancelPendingCoalescedWrite with inFlight := ⟨path.made.length, value⟩ :: path.inFlight }

/-- An asynchronous write renames its value into place. -/
def renameWithLinkAsync (call : Nat) (stamp : Stamp) : PathState ν :=
  match path.inFlight.find? (·.call == call) with
  | some write =>
    { path.put write.value stamp with inFlight := path.inFlight.filter (·.call != call) }
  | none => path

/-- The flush failed: the value goes back into the buffer, or is given up. -/
def retry (entry : CoalescedAtomicWrite ν) : PathState ν :=
  if maxFlushRetries ≤ entry.retryCount + 1 then
    { path.cancelPendingCoalescedWrite with exhausted := path.exhausted + 1 }
  else { path with pending := some { entry with retryCount := entry.retryCount + 1 } }

def Overtaken (entry : CoalescedAtomicWrite ν) : Prop := ∃ file ∈ path.file, entry.queued ≠ some file.stamp

instance decidableOvertaken (entry : CoalescedAtomicWrite ν) : Decidable (path.Overtaken entry) :=
  inferInstanceAs (Decidable (∃ file ∈ path.file, entry.queued ≠ some file.stamp))

/-- **Flush what is buffered** (`flushOnePendingAtomicWrite`). It is dropped where the file has changed. -/
def flushOnePendingAtomicWrite (succeeds : Bool) (stamp : Stamp) : PathState ν :=
  match path.pending with
  | none => path
  | some entry =>
    if path.Overtaken entry then path.cancelPendingCoalescedWrite
    else if succeeds then path.atomicWriteFile entry.value stamp
    else path.retry entry

def step (path : PathState ν) : WriteAction ν → PathState ν
  | .atomicWriteJson value stamp => (path.called value).atomicWriteFile value stamp
  | .atomicWriteJsonCoalesced value skipCoalesce stamp =>
    if skipCoalesce then (path.called value).atomicWriteFile value stamp else (path.called value).queue value
  | .atomicWriteFileAsync value => (path.called value).startAsync value
  | .rename call stamp => path.renameWithLinkAsync call stamp
  | .flush succeeds stamp => path.flushOnePendingAtomicWrite succeeds stamp

/-- Every asynchronous write has renamed, and every buffered value was flushed without being given up. -/
structure Settled : Prop where
  renamed : path.inFlight = []
  flushed : path.pending = none
  without : path.exhausted = 0

def LastInFlight : Prop := ∃ write ∈ path.inFlight, write.call = path.made.length

/-- **A rename that is not late**: the last call is an asynchronous write that has not renamed, be it this one
or another. -/
def RenamesInTime : WriteAction ν → Prop
  | .rename call _ => ∀ write ∈ path.inFlight, write.call = call → path.LastInFlight
  | _ => True

instance decidableRenamesInTime (action : WriteAction ν) : Decidable (path.RenamesInTime action) :=
  match action with
  | .rename call _ =>
    inferInstanceAs (Decidable (∀ write ∈ path.inFlight, write.call = call →
      ∃ last ∈ path.inFlight, last.call = path.made.length))
  | .atomicWriteJson _ _ | .atomicWriteJsonCoalesced _ _ _ | .atomicWriteFileAsync _ | .flush _ _ =>
    inferInstanceAs (Decidable True)

end PathState

section

variable {ν : Type} {path : PathState ν}

/-- **Where the value of the last call is**: it is about to be renamed, with nothing buffered, or it is in
the buffer of an unchanged file, or in the file. -/
structure PathState.Latest (path : PathState ν) : Prop where
  made : ∀ write ∈ path.inFlight, write.call ≤ path.made.length
  flying : ∀ write ∈ path.inFlight, write.call = path.made.length →
    path.made.head? = some write.value ∧ path.pending = none
  buffered : ∀ entry ∈ path.pending, path.made.head? = some entry.value ∧
    entry.queued = path.file.map (·.stamp)
  landed : path.pending = none → ¬ path.LastInFlight → path.exhausted = 0 →
    ∀ value ∈ path.made.head?, path.file.map (·.content) = some value

section

variable (latest : path.Latest)

include latest

theorem unsent_of_called (value : ν) : ¬ (path.called value).LastInFlight := by
  rintro ⟨write, there, last⟩
  exact absurd (latest.made write there) (Nat.not_le.mpr (last ▸ Nat.lt_succ_self _))

theorem not_overtaken {entry : CoalescedAtomicWrite ν}
    (pending : path.pending = some entry) : ¬ path.Overtaken entry := by
  rintro ⟨file, there, differs⟩
  rw [(latest.buffered entry pending).2, Option.mem_def.mp there] at differs
  exact differs rfl

theorem atomicWriteFile_latest (value : ν) (stamp : Stamp) :
    ((path.called value).atomicWriteFile value stamp).Latest where
  made write there := Nat.le_succ_of_le (latest.made write there)
  flying write there last := absurd ⟨write, there, last⟩ (unsent_of_called latest value)
  buffered _ there := absurd there (Option.not_mem_none _)
  landed _ _ _ _ head := head

theorem queue_latest (value : ν) : ((path.called value).queue value).Latest where
  made write there := Nat.le_succ_of_le (latest.made write there)
  flying write there last := absurd ⟨write, there, last⟩ (unsent_of_called latest value)
  buffered := by
    rintro _ ⟨⟩
    exact ⟨rfl, rfl⟩
  landed empty := nomatch empty

theorem startAsync_latest (value : ν) : ((path.called value).startAsync value).Latest where
  made := List.forall_mem_cons.mpr
    ⟨Nat.le_refl _, fun write there => Nat.le_succ_of_le (latest.made write there)⟩
  flying := List.forall_mem_cons.mpr ⟨fun _ => ⟨rfl, rfl⟩, fun write there last =>
    absurd ⟨write, there, last⟩ (unsent_of_called latest value)⟩
  buffered _ there := absurd there (Option.not_mem_none _)
  landed _ unsent := absurd ⟨_, List.mem_cons_self, rfl⟩ unsent

theorem renameWithLinkAsync_latest {call : Nat} {stamp : Stamp}
    (inTime : path.RenamesInTime (.rename call stamp)) : (path.renameWithLinkAsync call stamp).Latest := by
  rw [PathState.renameWithLinkAsync]
  cases found : path.inFlight.find? (·.call == call) with
  | none => exact latest
  | some write =>
    have there := List.mem_of_find?_eq_some found
    have test := List.find?_some found
    have mine : write.call = call := beq_iff_eq.mp test
    obtain ⟨last, flies, called⟩ := inTime write there mine
    obtain ⟨head, unbuffered⟩ := latest.flying last flies called
    refine ⟨fun other kept => latest.made other (List.mem_of_mem_filter kept),
      fun other kept => latest.flying other (List.mem_of_mem_filter kept),
      fun entry pending => absurd (unbuffered.symm.trans pending) nofun, fun _ unsent _ value made => ?_⟩
    -- where nothing of the last call is left, this was its rename
    have same : write.call = path.made.length := by
      by_contra other
      refine unsent ⟨last, List.mem_filter.mpr ⟨flies, ?_⟩, called⟩
      exact bne_iff_ne.mpr fun equal => other (mine.trans (equal.symm.trans called))
    exact congrArg some (Option.some.inj ((latest.flying write there same).1.symm.trans made))

theorem flushOnePendingAtomicWrite_latest (succeeds : Bool) (stamp : Stamp) :
    (path.flushOnePendingAtomicWrite succeeds stamp).Latest := by
  rw [PathState.flushOnePendingAtomicWrite]
  cases pending : path.pending with
  | none => exact latest
  | some entry =>
    have unsent : ¬ path.LastInFlight := by
      rintro ⟨write, there, last⟩
      exact absurd ((latest.flying write there last).2.symm.trans pending) nofun
    obtain ⟨head, unchanged⟩ := latest.buffered entry pending
    dsimp only
    rw [if_neg (not_overtaken latest pending)]
    split_ifs
    · exact ⟨latest.made, fun write there last => absurd ⟨write, there, last⟩ unsent,
        fun _ there => absurd there (Option.not_mem_none _),
        fun _ _ _ value made => congrArg some (Option.some.inj (head.symm.trans made))⟩
    · rw [PathState.retry]
      split_ifs
      · exact ⟨latest.made, fun write there last => absurd ⟨write, there, last⟩ unsent,
          fun _ there => absurd there (Option.not_mem_none _), nofun⟩
      · refine ⟨latest.made, fun write there last => absurd ⟨write, there, last⟩ unsent, ?_,
          nofun⟩
        rintro _ ⟨⟩
        exact ⟨head, unchanged⟩

/-- **A step keeps the value of the last call**, unless it is a late rename. -/
theorem step_latest (action : WriteAction ν) (inTime : path.RenamesInTime action) :
    (path.step action).Latest := by
  cases action with
  | atomicWriteJson value stamp => exact atomicWriteFile_latest latest value stamp
  | atomicWriteJsonCoalesced value skipCoalesce stamp =>
    rw [PathState.step]
    split_ifs
    · exact atomicWriteFile_latest latest value stamp
    · exact queue_latest latest value
  | atomicWriteFileAsync value => exact startAsync_latest latest value
  | rename call stamp => exact renameWithLinkAsync_latest latest inTime
  | flush succeeds stamp => exact flushOnePendingAtomicWrite_latest latest succeeds stamp

end

/-- **The last write wins.** For every sequence of calls, renames and flushes on a path: if each rename is made
while the last call is an asynchronous write that has not renamed, then wherever every asynchronous write
has renamed and every buffered value was flushed, the file has the value of the last call. -/
theorem last_write_wins (file : Option (WrittenFile ν)) (actions : List (WriteAction ν))
    (inTime : ∀ taken ∈ transitions PathState.step { file := file } actions,
      taken.before.RenamesInTime taken.action)
    (settled : (finish PathState.step { file := file } actions).Settled) :
    ∀ value ∈ (finish PathState.step { file := file } actions).made.head?,
      (finish PathState.step { file := file } actions).file.map (·.content) = some value := by
  have initial : PathState.Latest { file := file } :=
    ⟨fun write there => absurd there List.not_mem_nil, fun write there => absurd there List.not_mem_nil,
      fun entry there => absurd there (Option.not_mem_none _), fun _ _ _ value there => nomatch there⟩
  have keeps : ∀ (path : PathState ν) (action : WriteAction ν), path.Latest → path.RenamesInTime action →
      (path.step action).Latest :=
    fun path action latest inTime => step_latest latest action inTime
  have latest : (finish PathState.step { file := file } actions).Latest :=
    finish_guarded PathState.step keeps initial inTime
  refine latest.landed settled.flushed ?_ settled.without
  rintro ⟨write, there, -⟩
  exact absurd (settled.renamed ▸ there) List.not_mem_nil

def writesInTurn : List (WriteAction String) :=
  [.atomicWriteFileAsync "merged", .rename 1 ⟨1, 6⟩, .atomicWriteJsonCoalesced "progress" false ⟨0, 0⟩,
    .flush false ⟨0, 0⟩, .flush true ⟨2, 8⟩, .atomicWriteJsonCoalesced "done" true ⟨3, 4⟩]

theorem writesInTurn_last :
    (finish PathState.step {} writesInTurn).made.head? = some "done" ∧
      (finish PathState.step {} writesInTurn).file.map (·.content) = some "done" :=
  ⟨rfl, last_write_wins none writesInTurn (by decide) ⟨rfl, rfl, rfl⟩ "done" rfl⟩

def writesCrossed : List (WriteAction String) :=
  [.atomicWriteJson "created" ⟨1, 7⟩, .atomicWriteFileAsync "merged",
    .atomicWriteJsonCoalesced "progress" false ⟨0, 0⟩, .rename 2 ⟨2, 6⟩, .flush true ⟨3, 8⟩]

/-- **A late rename** makes the flush drop what was buffered after it was called: all is settled, and the file
has the value of the call before the last. -/
theorem late_rename_drops_last :
    (finish PathState.step {} writesCrossed).Settled ∧
      (finish PathState.step {} writesCrossed).made.head? = some "progress" ∧
      (finish PathState.step {} writesCrossed).file.map (·.content) = some "merged" :=
  ⟨⟨rfl, rfl, rfl⟩, rfl, rfl⟩

end

end PiCrew.Store
