/-
**Splitting a list into parts that keep its order.**

A `Partition` of a list: parts that are sublists of it, and that hold its elements, each as often as
it does. What sorts items into bins, and what cuts a bin into pieces, makes one.

* `foldl_firstFit_partition` — **first fit**: each item goes into the first bin that takes it, or into
  a new one;
* `foldl_firstFit_forall` — what holds of a fresh bin, and of a bin that takes an item, holds of all.
-/

import Mathlib.Data.List.Basic
import Mathlib.Data.List.Nodup
import Mathlib.Data.List.Flatten
import Mathlib.Data.List.Induction
import Mathlib.Data.List.Pairwise

namespace Partitions

section

variable {α : Type*}

/-- Parts of a list, in its order, that together are the list. -/
structure Partition (parts : List (List α)) (items : List α) : Prop where
  ordered : ∀ part ∈ parts, part.Sublist items
  whole : parts.flatten.Perm items

theorem Partition.nil : Partition ([] : List (List α)) [] := ⟨nofun, .nil⟩

theorem Partition.of_flatten {parts : List (List α)} {items : List α} (joined : parts.flatten = items) :
    Partition parts items :=
  ⟨fun _ member => joined ▸ List.sublist_flatten_of_mem member, .of_eq joined⟩

theorem flatten_flatMap_perm {parts : List (List α)} {split : List α → List (List α)}
    (each : ∀ part ∈ parts, (split part).flatten.Perm part) :
    (parts.flatMap split).flatten.Perm parts.flatten := by
  induction parts with
  | nil => exact .nil
  | cons part rest ih =>
    rw [List.flatMap_cons, List.flatten_append, List.flatten_cons]
    exact (each part List.mem_cons_self).append
      (ih fun other member => each other (List.mem_cons_of_mem _ member))

theorem Partition.refine {parts : List (List α)} {items : List α} (outer : Partition parts items)
    {split : List α → List (List α)} (inner : ∀ part ∈ parts, Partition (split part) part) :
    Partition (parts.flatMap split) items where
  ordered piece member := by
    obtain ⟨part, inParts, inPart⟩ := List.mem_flatMap.mp member
    exact ((inner part inParts).ordered piece inPart).trans (outer.ordered part inParts)
  whole := (flatten_flatMap_perm fun part member => (inner part member).whole).trans outer.whole

end

section

variable {α β : Type*} (fits : β → α → Bool) (add : β → α → β) (fresh : α → β)

/-- Put an item into the first bin that takes it, or into a new one behind them. -/
def firstFit : List β → α → List β
  | [], item => [fresh item]
  | bin :: rest, item =>
    if fits bin item then add bin item :: rest else bin :: firstFit rest item

theorem mem_firstFit {bins : List β} {item : α} {bin : β}
    (member : bin ∈ firstFit fits add fresh bins item) :
    bin ∈ bins ∨ (∃ before ∈ bins, fits before item = true ∧ bin = add before item)
      ∨ bin = fresh item := by
  induction bins with
  | nil => exact .inr (.inr (List.mem_singleton.mp member))
  | cons head rest ih =>
    rw [firstFit] at member
    split at member
    · rename_i taken
      rcases List.mem_cons.mp member with rfl | later
      · exact .inr (.inl ⟨head, List.mem_cons_self, taken, rfl⟩)
      · exact .inl (List.mem_cons_of_mem _ later)
    · rcases List.mem_cons.mp member with rfl | later
      · exact .inl List.mem_cons_self
      · rcases ih later with old | ⟨before, there, taken, same⟩ | new
        · exact .inl (List.mem_cons_of_mem _ old)
        · exact .inr (.inl ⟨before, List.mem_cons_of_mem _ there, taken, same⟩)
        · exact .inr (.inr new)

/-- **What every bin keeps.** -/
theorem foldl_firstFit_forall {holds : β → Prop} (initial : ∀ item, holds (fresh item))
    (keeps : ∀ bin item, fits bin item = true → holds bin → holds (add bin item)) (items : List α)
    {bins : List β} (before : ∀ bin ∈ bins, holds bin) :
    ∀ bin ∈ items.foldl (firstFit fits add fresh) bins, holds bin := by
  induction items generalizing bins with
  | nil => exact before
  | cons item rest ih =>
    refine ih fun bin member => ?_
    rcases mem_firstFit fits add fresh member with old | ⟨other, there, taken, rfl⟩ | rfl
    · exact before bin old
    · exact keeps other item taken (before other there)
    · exact initial item

variable (contents : β → List α) (added : ∀ bin item, contents (add bin item) = contents bin ++ [item])
  (begun : ∀ item, contents (fresh item) = [item])

include added begun

theorem firstFit_perm (bins : List β) (item : α) :
    ((firstFit fits add fresh bins item).flatMap contents).Perm (bins.flatMap contents ++ [item]) := by
  induction bins with
  | nil => simp [firstFit, begun]
  | cons bin rest ih =>
    rw [firstFit]
    split
    · rw [List.flatMap_cons, List.flatMap_cons, added, List.append_assoc, List.append_assoc]
      exact List.perm_append_comm.append_left _
    · rw [List.flatMap_cons, List.flatMap_cons, List.append_assoc]
      exact ih.append_left _

/-- **Sorting items into bins by first fit** makes a partition of them. -/
theorem foldl_firstFit_partition (items : List α) :
    Partition ((items.foldl (firstFit fits add fresh) []).map contents) items := by
  induction items using List.reverseRec with
  | nil => exact .nil
  | append_singleton before item ih =>
    rw [List.foldl_append, List.foldl_cons, List.foldl_nil]
    refine ⟨fun part member => ?_, ?_⟩
    · obtain ⟨bin, inBins, rfl⟩ := List.mem_map.mp member
      rcases mem_firstFit fits add fresh inBins with old | ⟨other, there, -, rfl⟩ | rfl
      · exact (ih.ordered _ (List.mem_map_of_mem old)).trans (List.sublist_append_left _ _)
      · rw [added]
        exact (ih.ordered _ (List.mem_map_of_mem there)).append (List.Sublist.refl _)
      · rw [begun]
        exact List.sublist_append_right _ _
    · have placed := firstFit_perm fits add fresh contents added begun
        (before.foldl (firstFit fits add fresh) []) item
      rw [List.flatMap_def, List.flatMap_def] at placed
      exact placed.trans (ih.whole.append_right _)

end

end Partitions
