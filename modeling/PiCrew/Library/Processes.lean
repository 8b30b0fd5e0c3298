/-
**Processes that take turns on one shared state.**

A system has a shared state and, in numbered slots, processes. An action begins a process in a free slot, lets
the process of a slot make one move on the shared state, or ends a process where it stands, as a crash does.

* `only_one` — where each process of some kind is the holder of one token, there is at most one of them.
-/

import PiCrew.Library.Runs
import Mathlib.Logic.Function.Basic

/-- **A shared state and its processes**, by their slots. -/
structure Processes (σ π : Type*) where
  shared : σ
  procs : Nat → Option π

namespace Processes

inductive Action (κ ι : Type*) where
  | begin (slot : Nat) (kind : κ)
  | move (slot : Nat) (input : ι)
  | crash (slot : Nat)

def Action.slot {κ ι : Type*} : Action κ ι → Nat
  | .begin slot _ | .move slot _ | .crash slot => slot

section

variable {σ π κ ι : Type*} (start : κ → π) (move : Nat → π → ι → σ → π × σ)

/-- **A step.** A slot that is taken begins no other process, and a free one does not move. -/
def step (system : Processes σ π) : Action κ ι → Processes σ π
  | .begin slot kind =>
    if (system.procs slot).isSome then system
    else { system with procs := Function.update system.procs slot (some (start kind)) }
  | .move slot input =>
    (system.procs slot).elim system fun proc =>
      let moved := move slot proc input system.shared
      { shared := moved.2, procs := Function.update system.procs slot (some moved.1) }
  | .crash slot => { system with procs := Function.update system.procs slot none }

def acting (system : Processes σ π) : Action κ ι → Option π
  | .move slot _ => system.procs slot
  | _ => none

variable {start move} {system : Processes σ π}

theorem step_move {slot : Nat} {input : ι} {proc : π} (here : system.procs slot = some proc) :
    step start move system (.move slot input) =
      { shared := (move slot proc input system.shared).2,
        procs := Function.update system.procs slot (some (move slot proc input system.shared).1) } := by
  rw [step, here]
  rfl

theorem step_move_free {slot : Nat} {input : ι} (free : system.procs slot = none) :
    step start move system (.move slot input) = system := by
  rw [step, free]
  rfl

theorem step_others {action : Action κ ι} {other : Nat} (apart : other ≠ action.slot) :
    (step start move system action).procs other = system.procs other := by
  cases action with
  | begin slot kind =>
    rw [step]
    split_ifs
    · rfl
    · exact Function.update_of_ne apart _ _
  | move slot input =>
    cases here : system.procs slot with
    | none => rw [step_move_free here]
    | some proc =>
      rw [step_move here]
      exact Function.update_of_ne apart _ _
  | crash slot => exact Function.update_of_ne apart _ _

theorem shared_of_idle {action : Action κ ι} (idle : system.acting action = none) :
    (step start move system action).shared = system.shared := by
  cases action with
  | begin slot kind =>
    rw [step]
    split_ifs <;> rfl
  | move slot input => rw [step_move_free idle]
  | crash slot => rfl

theorem acting_eq_some {action : Action κ ι} {proc : π} (acts : system.acting action = some proc) :
    ∃ slot input, action = .move slot input ∧ system.procs slot = some proc := by
  cases action with
  | begin slot kind => cases acts
  | move slot input => exact ⟨slot, input, rfl, acts⟩
  | crash slot => cases acts

end

section

variable {σ π κ ι : Type*} {start : κ → π} {move : Nat → π → ι → σ → π × σ}

/-- **An invariant of the shared state, and of each process in its slot.** -/
structure Holds (whole : σ → Prop) (each : σ → Nat → π → Prop) (system : Processes σ π) : Prop where
  shared : whole system.shared
  procs : ∀ slot proc, system.procs slot = some proc → each system.shared slot proc

/-- What a move must keep, of its own process and of the others. -/
structure Keeps (whole : σ → Prop) (each : σ → Nat → π → Prop) (system : Processes σ π) (slot : Nat)
    (moved : π × σ) : Prop where
  shared : whole moved.2
  own : each moved.2 slot moved.1
  others : ∀ other proc, other ≠ slot → system.procs other = some proc → each moved.2 other proc

variable {whole : σ → Prop} {each : σ → Nat → π → Prop} {system : Processes σ π}

theorem procs_update {shared : σ} {slot : Nat} {proc : Option π}
    (own : ∀ value, proc = some value → each shared slot value)
    (others : ∀ other value, other ≠ slot → system.procs other = some value → each shared other value) :
    ∀ other value, Function.update system.procs slot proc other = some value →
      each shared other value := by
  intro other value found
  by_cases same : other = slot
  · subst same
    rw [Function.update_self] at found
    exact own value found
  · rw [Function.update_of_ne same] at found
    exact others other value same found

theorem move_holds {slot : Nat} {input : ι} {proc : π} (here : system.procs slot = some proc)
    (keeps : Keeps whole each system slot (move slot proc input system.shared)) :
    Holds whole each (step start move system (.move slot input)) := by
  rw [step_move here]
  refine ⟨keeps.shared, procs_update ?_ keeps.others⟩
  rintro value ⟨⟩
  exact keeps.own

theorem step_keeps (holds : Holds whole each system) (action : Action κ ι)
    (begins : ∀ slot kind, action = .begin slot kind → each system.shared slot (start kind))
    (moves : ∀ slot input proc, action = .move slot input → system.procs slot = some proc →
      Keeps whole each system slot (move slot proc input system.shared)) :
    Holds whole each (step start move system action) := by
  cases action with
  | begin slot kind =>
    rw [step]
    split_ifs
    · exact holds
    · refine ⟨holds.shared, procs_update ?_ fun other value _ found => holds.procs other value found⟩
      rintro value ⟨⟩
      exact begins slot kind rfl
  | move slot input =>
    cases here : system.procs slot with
    | none =>
      rw [step_move_free here]
      exact holds
    | some proc => exact move_holds here (moves slot input proc rfl here)
  | crash slot =>
    exact ⟨holds.shared, procs_update (fun value found => nomatch found)
      fun other value _ found => holds.procs other value found⟩

/-- **A token has one holder**: two processes that are its holders are in one slot. -/
theorem only_one {token : σ → Option Nat} {has : π → Prop}
    (holds : ∀ slot proc, system.procs slot = some proc → has proc → token system.shared = some slot)
    {slot other : Nat} {proc rival : π} (here : system.procs slot = some proc)
    (there : system.procs other = some rival) (first : has proc) (second : has rival) : slot = other :=
  Option.some.inj ((holds slot proc here first).symm.trans (holds other rival there second))

end

end Processes
