/-
**Paging by watermark.**

A reader keeps the highest key that it was given so far, and asks for what lies above it: a page is
the lowest such entries, up to a limit. The keys of the entries are unique, the order they are stored
in is arbitrary.

* `pages_complete`, `pages_end`, `pages_quiet` — as many pages as entries hold them all, an empty page
  comes only when they do, and nothing comes after.
-/

import Mathlib.Algebra.GroupWithZero.Nat
import Mathlib.Data.List.Sort
import Mathlib.Algebra.BigOperators.Group.List.Basic

namespace Paging

variable {ε κ : Type*} [LinearOrder κ] (key : ε → κ)

section

def inOrder (entries : List ε) : List ε :=
  entries.insertionSort fun first second => key first ≤ key second

instance keyOrder_total : Std.Total fun first second : ε => key first ≤ key second :=
  ⟨fun first second => le_total (key first) (key second)⟩

instance keyOrder_trans : IsTrans ε fun first second => key first ≤ key second :=
  ⟨fun _ _ _ => le_trans⟩

theorem inOrder_perm (entries : List ε) : (inOrder key entries).Perm entries :=
  List.perm_insertionSort _ entries

theorem inOrder_sorted (entries : List ε) :
    (inOrder key entries).Pairwise fun first second => key first ≤ key second :=
  List.pairwise_insertionSort _ entries

variable {key}

theorem inOrder_increasing {entries : List ε} (unique : (entries.map key).Nodup) :
    (inOrder key entries).Pairwise fun first second => key first < key second := by
  have apart : ((inOrder key entries).map key).Nodup :=
    ((inOrder_perm key entries).map key).nodup_iff.mpr unique
  exact (inOrder_sorted key entries).imp₂
    (fun _ _ below different => lt_of_le_of_ne below different) (List.pairwise_map.mp apart)

theorem inOrder_eq {entries ordered : List ε} (same : ordered.Perm entries)
    (increasing : ordered.Pairwise fun first second => key first < key second) :
    inOrder key entries = ordered := by
  have unique : (entries.map key).Nodup :=
    (same.map key).nodup_iff.mp (List.pairwise_map.mpr (increasing.imp fun below => ne_of_lt below))
  exact List.Perm.eq_of_pairwise (fun _ _ _ _ below above => absurd above below.asymm)
    (inOrder_increasing unique) increasing ((inOrder_perm key entries).trans same.symm)

theorem inOrder_congr {entries others : List ε} (same : entries.Perm others)
    (unique : (entries.map key).Nodup) : inOrder key entries = inOrder key others :=
  (inOrder_eq ((inOrder_perm key entries).trans same) (inOrder_increasing unique)).symm

end

section

def highest (mark : κ) (given : List ε) : κ :=
  given.foldl (fun reached entry => max reached (key entry)) mark

def above (mark : κ) (entries : List ε) : List ε := entries.filter fun entry => mark < key entry

/-- **A page**: the lowest entries above a mark. -/
def page (entries : List ε) (mark : κ) (limit : Nat) : List ε :=
  (inOrder key (above key mark entries)).take limit

/-- The pages of a reader with these limits, each from the mark after the one before. -/
def pages (entries : List ε) : κ → List Nat → List (List ε)
  | _, [] => []
  | mark, limit :: rest =>
    page key entries mark limit ::
      pages entries (highest key mark (page key entries mark limit)) rest

variable {key}

theorem le_highest (mark : κ) (given : List ε) : mark ≤ highest key mark given := by
  induction given generalizing mark with
  | nil => exact le_rfl
  | cons entry rest ih => exact le_trans (le_max_left _ _) (ih (max mark (key entry)))

theorem key_le_highest (mark : κ) {given : List ε} {entry : ε} (member : entry ∈ given) :
    key entry ≤ highest key mark given := by
  induction given generalizing mark with
  | nil => cases member
  | cons first rest ih =>
    rcases List.mem_cons.mp member with rfl | later
    · exact le_trans (le_max_right _ _) (le_highest (max mark (key entry)) rest)
    · exact ih (max mark (key first)) later

theorem highest_cases (mark : κ) (given : List ε) :
    highest key mark given = mark ∨ ∃ entry ∈ given, highest key mark given = key entry := by
  induction given generalizing mark with
  | nil => exact Or.inl rfl
  | cons first rest ih =>
    rcases ih (max mark (key first)) with same | ⟨entry, member, same⟩
    · rcases le_total mark (key first) with below | beyond
      · exact Or.inr ⟨first, List.mem_cons_self, same.trans (max_eq_right below)⟩
      · exact Or.inl (same.trans (max_eq_left beyond))
    · exact Or.inr ⟨entry, List.mem_cons_of_mem _ member, same⟩

theorem highest_lt {mark bound : κ} {given : List ε} (below : mark < bound)
    (all : ∀ entry ∈ given, key entry < bound) : highest key mark given < bound := by
  induction given generalizing mark with
  | nil => exact below
  | cons entry rest ih =>
    exact ih (max_lt below (all entry List.mem_cons_self))
      fun later member => all later (List.mem_cons_of_mem _ member)

/-- **What lies above the mark after a page** is what the page left. -/
theorem above_highest {mark : κ} {entries : List ε} (unique : (entries.map key).Nodup) (limit : Nat) :
    inOrder key (above key (highest key mark (page key entries mark limit)) entries)
      = (inOrder key (above key mark entries)).drop limit := by
  have unique' : ((above key mark entries).map key).Nodup :=
    unique.sublist (List.filter_sublist.map key)
  have increasing := inOrder_increasing unique'
  set ordered := inOrder key (above key mark entries) with named
  set next := highest key mark (page key entries mark limit) with reached
  have everything : ordered.take limit ++ ordered.drop limit = ordered :=
    List.take_append_drop limit ordered
  have across := List.pairwise_append.mp (everything.symm ▸ increasing)
  have marked : ∀ entry ∈ ordered, mark < key entry := by
    intro entry member
    have inside := (inOrder_perm key _).mem_iff.mp member
    exact of_decide_eq_true (List.mem_filter.mp inside).2
  have taken : (ordered.take limit).filter (fun entry => next < key entry) = [] :=
    List.filter_eq_nil_iff.mpr fun entry member beyond =>
      absurd (of_decide_eq_true beyond) (key_le_highest mark member).not_gt
  have left : (ordered.drop limit).filter (fun entry => next < key entry) = ordered.drop limit :=
    List.filter_eq_self.mpr fun entry member => decide_eq_true
      (highest_lt (marked entry (List.mem_of_mem_drop member))
        fun given there => across.2.2 given there entry member)
  have narrowed : above key next entries
      = (above key mark entries).filter fun entry => next < key entry := by
    rw [above, above, List.filter_filter]
    refine List.filter_congr fun entry _ => ?_
    by_cases beyond : next < key entry
    · have low : mark < key entry :=
        lt_of_le_of_lt (le_highest mark (page key entries mark limit)) beyond
      rw [decide_eq_true beyond, decide_eq_true low, Bool.and_true]
    · rw [decide_eq_false beyond, Bool.false_and]
  have rest : ordered.filter (fun entry => next < key entry) = ordered.drop limit :=
    calc ordered.filter (fun entry => next < key entry)
        = (ordered.take limit ++ ordered.drop limit).filter (fun entry => next < key entry) := by
          rw [everything]
      _ = ordered.drop limit := by rw [List.filter_append, taken, left, List.nil_append]
  refine inOrder_eq ?_ across.2.1
  rw [narrowed, ← rest]
  exact (inOrder_perm key (above key mark entries)).filter _

theorem flatten_pages {entries : List ε} (unique : (entries.map key).Nodup) (mark : κ)
    (limits : List Nat) :
    (pages key entries mark limits).flatten
      = (inOrder key (above key mark entries)).take limits.sum := by
  induction limits generalizing mark with
  | nil => rfl
  | cons limit rest ih =>
    rw [pages, List.flatten_cons, ih, above_highest unique, List.sum_cons, List.take_add]
    rfl

theorem length_pages (entries : List ε) (mark : κ) (limits : List Nat) :
    (pages key entries mark limits).length = limits.length := by
  induction limits generalizing mark with
  | nil => rfl
  | cons limit rest ih => exact congrArg Nat.succ (ih _)

theorem take_pages (entries : List ε) (mark : κ) (limits : List Nat) (count : Nat) :
    (pages key entries mark limits).take count = pages key entries mark (limits.take count) := by
  induction limits generalizing mark count with
  | nil => rw [List.take_nil, pages, List.take_nil]
  | cons limit rest ih =>
    cases count with
    | zero => rfl
    | succ count => exact congrArg _ (ih _ count)

end

section

variable {key}

variable {limits : List Nat}

theorem length_le_sum (positive : ∀ limit ∈ limits, 1 ≤ limit) : limits.length ≤ limits.sum := by
  induction limits with
  | nil => exact Nat.le_refl 0
  | cons limit rest ih =>
    have first := positive limit List.mem_cons_self
    have others := ih fun other member => positive other (List.mem_cons_of_mem _ member)
    rw [List.length_cons, List.sum_cons]
    omega

variable {entries : List ε} (unique : (entries.map key).Nodup)

include unique

/-- **As many pages as entries hold them all.** -/
theorem pages_complete (mark : κ) (positive : ∀ limit ∈ limits, 1 ≤ limit)
    (enough : (inOrder key (above key mark entries)).length ≤ limits.length) :
    (pages key entries mark limits).flatten = inOrder key (above key mark entries) := by
  rw [flatten_pages unique]
  exact List.take_of_length_le (Nat.le_trans enough (length_le_sum positive))

/-- **An empty page comes only when everything was given.** -/
theorem pages_end {mark : κ} (positive : ∀ limit ∈ limits, 1 ≤ limit) {before : List (List ε)}
    (start : before ++ [[]] <+: pages key entries mark limits) :
    before.flatten = inOrder key (above key mark entries) := by
  have reached := start.length_le
  rw [length_pages, List.length_append, List.length_singleton] at reached
  have whole := List.prefix_iff_eq_take.mp start
  rw [List.length_append, List.length_singleton, take_pages] at whole
  have part := List.prefix_iff_eq_take.mp ((List.prefix_append before [[]]).trans start)
  rw [take_pages] at part
  have given := flatten_pages unique mark (limits.take before.length)
  have still := flatten_pages unique mark (limits.take (before.length + 1))
  rw [← whole, List.flatten_append, List.flatten_singleton, List.append_nil] at still
  rw [← part] at given
  have one : 1 ≤ limits[before.length] := positive _ (List.getElem_mem reached)
  rw [List.sum_take_succ _ _ reached] at still
  -- the limit of the empty page left nothing above what was given before it
  have lengths := congrArg List.length (given.symm.trans still)
  rw [List.length_take, List.length_take] at lengths
  rw [given]
  exact List.take_of_length_le (by omega)

/-- **Nothing comes after everything was given.** -/
theorem pages_quiet (mark : κ) (positive : ∀ limit ∈ limits, 1 ≤ limit) :
    ∀ page ∈ (pages key entries mark limits).drop
      (inOrder key (above key mark entries)).length, page = [] := by
  set count := (inOrder key (above key mark entries)).length with counted
  by_cases enough : count ≤ limits.length
  · have first : ((pages key entries mark limits).take count).flatten
        = inOrder key (above key mark entries) := by
      rw [take_pages]
      refine pages_complete unique mark
        (fun limit member => positive limit (List.mem_of_mem_take member)) ?_
      rw [List.length_take]
      omega
    have all := pages_complete unique mark positive enough
    rw [← List.take_append_drop count (pages key entries mark limits), List.flatten_append, first]
      at all
    exact List.flatten_eq_nil_iff.mp (List.append_right_eq_self.mp all)
  · intro page member
    rw [List.drop_of_length_le (by rw [length_pages]; omega)] at member
    cases member

end

end Paging
