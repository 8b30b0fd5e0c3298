/-
**Scripts that are determined by what they are handed.**

A script starts calls, some of them at one time, and goes on by the answers that it is handed, in the order
in which they come. What it has started is a function of what it was handed, and it takes no call back.

* `order_of_sequential` — the answers of a script that starts one call at a time come in one order.
-/

import Mathlib.Data.List.Basic
import Mathlib.Data.List.Nodup
import Mathlib.Data.List.Induction

/-- **A script**: the calls that it has started, by the answers that it was handed, each with the index of
its call. -/
structure Script (γ α : Type*) where
  calls : List (Nat × α) → List γ
  grows : ∀ handed answer, calls handed <+: calls (handed ++ [answer])

namespace Script

section

variable {γ α : Type*} (script : Script γ α)

def call? (handed : List (Nat × α)) (index : Nat) : Option γ := (script.calls handed)[index]?

/-- **The answers are for calls that were started before**, and are such as a relation has them. -/
def Answered (answers : γ → α → Prop) (handed : List (Nat × α)) : Prop :=
  ∀ before index answer, before ++ [(index, answer)] <+: handed →
    ∃ call, script.call? before index = some call ∧ answers call answer

variable {script}

theorem calls_append (handed more : List (Nat × α)) :
    script.calls handed <+: script.calls (handed ++ more) := by
  induction more using List.reverseRecOn with
  | nil => exact ⟨[], by rw [List.append_nil, List.append_nil]⟩
  | append_singleton earlier answer ih =>
    rw [← List.append_assoc]
    exact ih.trans (script.grows _ answer)

theorem call?_append {handed more : List (Nat × α)} {index : Nat} {call : γ}
    (started : script.call? handed index = some call) :
    script.call? (handed ++ more) index = some call := by
  obtain ⟨rest, whole⟩ := script.calls_append handed more
  obtain ⟨inside, -⟩ := List.getElem?_eq_some_iff.mp started
  rw [call?, ← whole, List.getElem?_append_left inside]
  exact started

variable {answers : γ → α → Prop} {handed : List (Nat × α)}

theorem answered_nil : script.Answered answers [] := by
  intro before index answer inside
  have short := inside.length_le
  rw [List.length_append, List.length_singleton, List.length_nil] at short
  exact absurd short (Nat.not_succ_le_zero _)

theorem Answered.concat {index : Nat} {answer : α} {call : γ} (answered : script.Answered answers handed)
    (started : script.call? handed index = some call) (right : answers call answer) :
    script.Answered answers (handed ++ [(index, answer)]) := by
  intro before other given inside
  rcases List.prefix_concat_iff.mp inside with whole | earlier
  · obtain ⟨rfl, same⟩ := List.append_inj' whole rfl
    obtain ⟨rfl, rfl⟩ := Prod.mk.inj (List.cons.inj same).1
    exact ⟨call, started, right⟩
  · exact answered before other given earlier

theorem Answered.imp {answers others : γ → α → Prop} (answered : script.Answered answers handed)
    (implies : ∀ index call answer, (index, answer) ∈ handed → script.call? handed index = some call →
      answers call answer → others call answer) : script.Answered others handed := by
  intro before index answer inside
  obtain ⟨call, started, right⟩ := answered before index answer inside
  obtain ⟨after, rfl⟩ := inside
  refine ⟨call, started, implies index call answer ?_ ?_ right⟩
  · exact List.mem_append_left _ (List.mem_append_right _ List.mem_cons_self)
  · exact call?_append (call?_append started)

theorem Answered.of_prefix {handed earlier : List (Nat × α)}
    (answered : script.Answered answers handed) (inside : earlier <+: handed) :
    script.Answered answers earlier :=
  fun before index answer there => answered before index answer (there.trans inside)

theorem Answered.started {index : Nat} {answer : α}
    (answered : script.Answered answers handed) (member : (index, answer) ∈ handed) :
    ∃ call, script.call? handed index = some call ∧ answers call answer := by
  obtain ⟨before, after, rfl⟩ := List.append_of_mem member
  obtain ⟨call, started, right⟩ := answered before index answer ⟨after, by simp⟩
  exact ⟨call, call?_append started, right⟩

theorem call?_concat {entry : Nat × α} {index : Nat} {call other : γ}
    (started : script.call? handed index = some call)
    (again : script.call? (handed ++ [entry]) index = some other) : other = call := by
  rw [call?_append started] at again
  exact (Option.some.inj again).symm

theorem handed_of_same_order {answers others : γ → α → Prop} {handed again : List (Nat × α)}
    (first : script.Answered answers handed) (second : script.Answered others again)
    (same : ∀ call answer other, answers call answer → others call other → other = answer)
    (order : again.map (·.1) <+: handed.map (·.1)) : again <+: handed := by
  induction again using List.reverseRecOn with
  | nil => exact List.nil_prefix
  | append_singleton earlier entry ih =>
    obtain ⟨index, answer⟩ := entry
    rw [List.map_append] at order
    obtain ⟨rest, rfl⟩ := ih (second.of_prefix (List.prefix_append _ _))
      ((List.prefix_append _ _).trans order)
    rw [List.map_append, List.prefix_append_right_inj] at order
    cases rest with
    | nil => exact absurd order.length_le (by simp)
    | cons head later =>
      obtain ⟨at', given⟩ := head
      have here : index = at' := (List.cons_prefix_cons.mp order).1
      subst here
      obtain ⟨call, started, right⟩ := first earlier index given ⟨later, by simp⟩
      obtain ⟨other, again, told⟩ := second earlier index answer List.prefix_rfl
      rw [started] at again
      obtain rfl := Option.some.inj again
      rw [same call given answer right told]
      exact ⟨later, by simp⟩

/-- **The answers of a script that starts one call at a time come in one order.** -/
theorem order_of_sequential (sequential : ∀ other, (script.calls other).length ≤ other.length + 1)
    (answered : script.Answered answers handed) (once : (handed.map (·.1)).Nodup) :
    handed.map (·.1) = List.range handed.length := by
  induction handed using List.reverseRecOn with
  | nil => rfl
  | append_singleton earlier entry ih =>
    obtain ⟨index, answer⟩ := entry
    rw [List.map_append, List.nodup_append] at once
    have indices := ih (answered.of_prefix (List.prefix_append _ _)) once.1
    obtain ⟨call, started, -⟩ := answered earlier index answer List.prefix_rfl
    obtain ⟨inside, -⟩ := List.getElem?_eq_some_iff.mp started
    have bound := sequential earlier
    have fresh : index ∉ List.range earlier.length := by
      rw [← indices]
      exact fun member => once.2.2 index member index List.mem_cons_self rfl
    have last : index = earlier.length := by
      rw [List.mem_range] at fresh
      omega
    rw [List.map_append, indices, last, List.length_append, List.length_singleton, List.range_succ]
    rfl

end

end Script
