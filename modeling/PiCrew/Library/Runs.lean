/-
**Runs of a state machine with a total step function.**

A run is a list of actions applied in order. Its `transitions` are the steps it takes, each with
the state before, the action and the state after.

* `good_transitions_iff` — the same for what is good of a step, with the state before and after.
-/

import Mathlib.Data.List.Basic

namespace Runs

section

variable {σ α : Type*} (step : σ → α → σ)

structure Transition (σ α : Type*) where
  before : σ
  action : α
  after : σ

def transitions : σ → List α → List (Transition σ α)
  | _, [] => []
  | state, action :: rest =>
    { before := state, action := action, after := step state action }
      :: transitions (step state action) rest

def finish (state : σ) (actions : List α) : σ := actions.foldl step state

theorem finish_keeps {invariant : σ → Prop}
    (keeps : ∀ state action, invariant state → invariant (step state action)) {start : σ}
    (initial : invariant start) (actions : List α) : invariant (finish step start actions) := by
  induction actions generalizing start with
  | nil => exact initial
  | cons action rest ih => exact ih (keeps start action initial)

theorem finish_keeps_of {invariant : σ → Prop} {allowed : α → Prop}
    (keeps : ∀ state action, invariant state → allowed action → invariant (step state action))
    {start : σ} {actions : List α} (initial : invariant start)
    (all : ∀ action ∈ actions, allowed action) : invariant (finish step start actions) := by
  induction actions generalizing start with
  | nil => exact initial
  | cons action rest ih =>
    exact ih (keeps start action initial (all action List.mem_cons_self))
      fun other there => all other (List.mem_cons_of_mem _ there)

theorem transition_after {start : σ} {actions : List α} {taken : Transition σ α}
    (member : taken ∈ transitions step start actions) :
    taken.after = step taken.before taken.action := by
  induction actions generalizing start with
  | nil => cases member
  | cons action rest ih =>
    rcases List.mem_cons.mp member with rfl | later
    · rfl
    · exact ih later

theorem transition_action {start : σ} {actions : List α} {taken : Transition σ α}
    (member : taken ∈ transitions step start actions) : taken.action ∈ actions := by
  induction actions generalizing start with
  | nil => cases member
  | cons action rest ih =>
    rcases List.mem_cons.mp member with rfl | later
    · exact List.mem_cons_self
    · exact List.mem_cons_of_mem _ (ih later)

theorem transitions_iff {good : σ → σ → Prop} {guard : σ → α → Prop}
    (each : ∀ state action, good state (step state action) ↔ guard state action)
    (start : σ) (actions : List α) :
    (∀ taken ∈ transitions step start actions, good taken.before taken.after)
      ↔ ∀ taken ∈ transitions step start actions, guard taken.before taken.action := by
  refine forall₂_congr fun taken member => ?_
  rw [transition_after step member]
  exact each taken.before taken.action

theorem forall_transitions {invariant : σ → Prop} {guard : σ → α → Prop}
    (keeps : ∀ state action, invariant state → guard state action → invariant (step state action))
    {start : σ} {actions : List α} (initial : invariant start)
    (guarded : ∀ taken ∈ transitions step start actions, guard taken.before taken.action) :
    ∀ taken ∈ transitions step start actions, invariant taken.before ∧ invariant taken.after := by
  induction actions generalizing start with
  | nil => exact fun taken member => absurd member List.not_mem_nil
  | cons action rest ih =>
    have first := guarded _ List.mem_cons_self
    have next := keeps start action initial first
    intro taken member
    rcases List.mem_cons.mp member with rfl | later
    · exact ⟨initial, next⟩
    · exact ih next (fun other there => guarded other (List.mem_cons_of_mem _ there)) taken later

theorem transitions_append (start : σ) (first second : List α) :
    transitions step start (first ++ second) =
      transitions step start first ++ transitions step (finish step start first) second := by
  induction first generalizing start with
  | nil => rfl
  | cons action rest ih =>
    rw [List.cons_append, transitions, transitions, ih, List.cons_append]
    rfl

theorem finish_guarded {invariant : σ → Prop} {guard : σ → α → Prop}
    (keeps : ∀ state action, invariant state → guard state action → invariant (step state action))
    {start : σ} {actions : List α} (initial : invariant start)
    (guarded : ∀ taken ∈ transitions step start actions, guard taken.before taken.action) :
    invariant (finish step start actions) := by
  induction actions generalizing start with
  | nil => exact initial
  | cons action rest ih =>
    exact ih (keeps start action initial (guarded _ List.mem_cons_self))
      fun other there => guarded other (List.mem_cons_of_mem _ there)

/-- **The exact run rule**, for runs whose steps are all `allowed`. -/
theorem good_iff_guarded {invariant good : σ → Prop} {allowed guard : σ → α → Prop}
    (implies : ∀ state, invariant state → good state)
    (keeps : ∀ state action, invariant state → allowed state action → guard state action →
      invariant (step state action))
    (breaks : ∀ state action, invariant state → allowed state action → ¬ guard state action →
      ¬ good (step state action))
    {start : σ} {actions : List α} (initial : invariant start)
    (all : ∀ taken ∈ transitions step start actions, allowed taken.before taken.action) :
    (∀ taken ∈ transitions step start actions, good taken.before ∧ good taken.after)
      ↔ ∀ taken ∈ transitions step start actions, guard taken.before taken.action := by
  constructor
  · intro goods
    induction actions generalizing start with
    | nil => exact fun taken member => absurd member List.not_mem_nil
    | cons action rest ih =>
      have first := all _ List.mem_cons_self
      have guarded : guard start action := by
        by_contra unguarded
        exact breaks start action initial first unguarded (goods _ List.mem_cons_self).2
      intro taken member
      rcases List.mem_cons.mp member with rfl | later
      · exact guarded
      · exact ih (keeps start action initial first guarded)
          (fun other there => all other (List.mem_cons_of_mem _ there))
          (fun other there => goods other (List.mem_cons_of_mem _ there)) taken later
  · intro guards taken member
    have kept := forall_transitions step
      (fun state action held (both : allowed state action ∧ guard state action) =>
        keeps state action held both.1 both.2) initial
      (fun other there => ⟨all other there, guards other there⟩) taken member
    exact ⟨implies _ kept.1, implies _ kept.2⟩

/-- **The exact run rule for steps**: where a guarded step is good and keeps the invariant, and any other
step is not good. -/
theorem good_transitions_iff {invariant : σ → Prop} {good : Transition σ α → Prop}
    {guard : σ → α → Prop}
    (keeps : ∀ state action, invariant state → guard state action → invariant (step state action))
    (implies : ∀ state action, invariant state → guard state action →
      good { before := state, action := action, after := step state action })
    (breaks : ∀ state action, invariant state → ¬ guard state action →
      ¬ good { before := state, action := action, after := step state action })
    {start : σ} {actions : List α} (initial : invariant start) :
    (∀ taken ∈ transitions step start actions, good taken)
      ↔ ∀ taken ∈ transitions step start actions, guard taken.before taken.action := by
  induction actions generalizing start with
  | nil =>
    exact ⟨fun _ taken member => absurd member List.not_mem_nil,
      fun _ taken member => absurd member List.not_mem_nil⟩
  | cons action rest ih =>
    rw [transitions, List.forall_mem_cons, List.forall_mem_cons]
    by_cases guarded : guard start action
    · have later := ih (keeps start action initial guarded)
      exact ⟨fun goods => ⟨guarded, later.mp goods.2⟩,
        fun guards => ⟨implies start action initial guarded, later.mpr guards.2⟩⟩
    · exact ⟨fun goods => absurd goods.1 (breaks start action initial guarded),
        fun guards => absurd guards.1 guarded⟩

end

end Runs
