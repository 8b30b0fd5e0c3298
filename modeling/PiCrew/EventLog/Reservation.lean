/-
**Reservations by several processes.**

`state/event-log/sequence-cache.ts`. Each process has a counter in memory; the `.seq` sidecar and the log are
shared. A reservation runs under `.seqlock` from reading the sidecar to writing it, so it is one step. Between
steps a counter may be evicted, and a process may restart or die.

* `reserve_above` — a reservation starts above the sidecar, and leaves its last number there;
* `reservations_apart` — after every run no number was reserved twice, and the numbers of each
  process increase.

Sidecar writes succeed. The log is read for a missing sidecar only, so it may change in any way.
-/

import PiCrew.EventLog.Sequence

namespace PiCrew.EventLog

section

/-- A number that a process reserved. -/
structure Reservation (π : Type) where
  process : π
  seq : Nat
  deriving DecidableEq, Repr

/-- **An events path and the processes on it**: the counter of each, the sidecar, the numbers of the
lines in the log, and what was reserved so far. -/
structure SharedPath (π : Type) where
  counters : π → Option Nat
  sidecar : Option Nat := none
  log : List Nat := []
  reserved : List (Reservation π) := []

inductive SequenceStep (π : Type) where
  | reserve (process : π) (count : Nat)
  | reserveAndDie (process : π) (count : Nat)
  | advance (process : π) (seq : Nat)
  | persist (process : π) (seq : Nat)
  | forget (process : π)
  | changeLog (lines : List Nat)

variable {π : Type} [DecidableEq π]

def SharedPath.view (path : SharedPath π) (process : π) : EventPath :=
  { counter := path.counters process, sidecar := path.sidecar, log := path.log }

def SharedPath.commit (path : SharedPath π) (process : π) (view : EventPath) : SharedPath π :=
  { path with
    counters := Function.update path.counters process view.counter
    sidecar := view.sidecar, log := view.log }

def SharedPath.forget (path : SharedPath π) (process : π) : SharedPath π :=
  { path with counters := Function.update path.counters process none }

/-- **One step.** A process that restarts, or whose counter is evicted, forgets it. -/
def SharedPath.step (path : SharedPath π) : SequenceStep π → SharedPath π
  | .reserve process count =>
    let taken := reserveSequenceLocked (path.view process) count
    { path.commit process taken.2 with
      reserved := path.reserved ++
        (List.range' taken.1 count).map fun seq => { process := process, seq := seq } }
  | .reserveAndDie process count =>
    (path.commit process (reserveSequenceLocked (path.view process) count).2).forget process
  | .advance process seq => path.commit process (advanceSequenceCounter (path.view process) seq)
  | .persist process seq => path.commit process (persistSequenceMonotonic (path.view process) seq)
  | .forget process => path.forget process
  | .changeLog lines => { path with log := lines }

def SharedPath.start (counters : π → Option Nat) (sidecar : Option Nat) (log : List Nat) :
    SharedPath π :=
  { counters := counters, sidecar := sidecar, log := log }

/-- **The reserved numbers are apart**: none was reserved twice, and those of one process increase
in the order it got them. -/
structure ReservationsApart (path : SharedPath π) : Prop where
  unique : (path.reserved.map (·.seq)).Nodup
  increasing : ∀ process,
    ((path.reserved.filter (·.process = process)).map (·.seq)).Pairwise (· < ·)

end

section

variable {π : Type} [DecidableEq π]

def SharedPath.stored (path : SharedPath π) : Nat := path.sidecar.getD 0

/-- **All reserved numbers are in order and covered by the sidecar.** -/
structure SidecarCovers (path : SharedPath π) : Prop where
  ordered : path.reserved.Pairwise fun earlier later => earlier.seq < later.seq
  covered : ∀ reservation ∈ path.reserved, reservation.seq ≤ path.stored

theorem reserve_above (path : EventPath) (count : Nat) :
    path.sidecar.getD 0 < (reserveSequenceLocked path count).1 ∧
      (reserveSequenceLocked path count).2.sidecar
        = some ((reserveSequenceLocked path count).1 + count - 1) := by
  refine ⟨?_, rfl⟩
  show path.sidecar.getD 0 < lastReserved path + 1
  have below := published_le_lastReserved path
  rw [published] at below
  omega

theorem sidecar_grows (path : SharedPath π) (step : SequenceStep π) :
    path.stored ≤ (path.step step).stored := by
  have reserves : ∀ process count,
      path.stored ≤ (reserveSequenceLocked (path.view process) count).2.sidecar.getD 0 := by
    intro process count
    obtain ⟨above, left⟩ := reserve_above (path.view process) count
    rw [left, Option.getD_some]
    show path.sidecar.getD 0 ≤ _
    have here : (path.view process).sidecar = path.sidecar := rfl
    rw [here] at above
    omega
  cases step with
  | reserve process count | reserveAndDie process count => exact reserves process count
  | advance process seq =>
    obtain ⟨counter, advanced, -⟩ := advanceSequenceCounter_eq (path.view process) seq
    show path.sidecar.getD 0 ≤ (advanceSequenceCounter (path.view process) seq).sidecar.getD 0
    rw [advanced]
    exact Nat.le_refl _
  | persist process seq =>
    obtain ⟨sidecar, persisted, above⟩ := persistSequenceMonotonic_eq (path.view process) seq
    show path.sidecar.getD 0 ≤ (persistSequenceMonotonic (path.view process) seq).sidecar.getD 0
    rw [persisted]
    exact above
  | forget process | changeLog lines => exact Nat.le_refl _

theorem covers_of_unchanged {path : SharedPath π} (covers : SidecarCovers path)
    {step : SequenceStep π} (unchanged : (path.step step).reserved = path.reserved) :
    SidecarCovers (path.step step) := by
  refine ⟨unchanged ▸ covers.ordered, fun reservation member => ?_⟩
  rw [unchanged] at member
  exact Nat.le_trans (covers.covered reservation member) (sidecar_grows path step)

theorem step_covers (path : SharedPath π) (step : SequenceStep π) (covers : SidecarCovers path) :
    SidecarCovers (path.step step) := by
  cases step with
  | reserve process count =>
    obtain ⟨above, left⟩ := reserve_above (path.view process) count
    have fresh : ∀ reservation ∈ (List.range' (reserveSequenceLocked (path.view process) count).1
          count).map fun seq => ({ process := process, seq := seq } : Reservation π),
        (reserveSequenceLocked (path.view process) count).1 ≤ reservation.seq ∧
          reservation.seq < (reserveSequenceLocked (path.view process) count).1 + count := by
      intro reservation member
      obtain ⟨seq, listed, rfl⟩ := List.mem_map.mp member
      exact List.mem_range'_1.mp listed
    refine ⟨List.pairwise_append.mpr ⟨covers.ordered, ?_, ?_⟩, ?_⟩
    · exact List.pairwise_map.mpr (List.pairwise_lt_range' ..)
    · intro earlier old later new
      have bound : earlier.seq ≤ path.sidecar.getD 0 := covers.covered earlier old
      have start := (fresh later new).1
      have here : (path.view process).sidecar = path.sidecar := rfl
      rw [here] at above
      omega
    · intro reservation member
      rcases List.mem_append.mp member with old | new
      · exact Nat.le_trans (covers.covered reservation old)
          (sidecar_grows path (.reserve process count))
      · have range := fresh reservation new
        show reservation.seq ≤ (reserveSequenceLocked (path.view process) count).2.sidecar.getD 0
        rw [left, Option.getD_some]
        omega
  | reserveAndDie process count | advance process seq | persist process seq | forget process
  | changeLog lines => exact covers_of_unchanged covers rfl

theorem SidecarCovers.apart {path : SharedPath π} (covers : SidecarCovers path) :
    ReservationsApart path where
  unique := List.pairwise_map.mpr (covers.ordered.imp Nat.ne_of_lt)
  increasing := fun _ => List.pairwise_map.mpr (covers.ordered.filter _)

/-- **Reserved numbers are unique across processes, and increase in each.** For every run of
reservations by any processes, with counters that are raised, evicted or lost, from whatever is in
memory and on disk. -/
theorem reservations_apart (counters : π → Option Nat) (sidecar : Option Nat) (log : List Nat)
    (steps : List (SequenceStep π)) :
    ReservationsApart
      (Runs.finish SharedPath.step (SharedPath.start counters sidecar log) steps) := by
  have initial : SidecarCovers (SharedPath.start counters sidecar log) :=
    ⟨List.Pairwise.nil, fun reservation member => absurd member List.not_mem_nil⟩
  exact (Runs.finish_keeps SharedPath.step step_covers initial steps).apart

end

end PiCrew.EventLog
