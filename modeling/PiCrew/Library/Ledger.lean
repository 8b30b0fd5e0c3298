/-
**Maps in the order of their first writes.**

A map that remembers the order in which its keys were first written: a write to a key that is there
changes its value in place, another one goes to the end. No key stands twice.

* `keys_put`, `values_eq` — the keys after a write, and the values from the keys.
-/

import Mathlib.Data.List.Basic
import Mathlib.Data.List.Nodup

/-- **A map in the order of its first writes.** -/
structure Ledger (κ : Type*) (ν : Type*) where
  entries : List (κ × ν) := []
  unique : (entries.map (·.1)).Nodup := by exact List.nodup_nil

namespace Ledger

variable {κ ν : Type*} [DecidableEq κ]

def get (ledger : Ledger κ ν) (key : κ) : Option ν := ledger.entries.lookup key

def written (entries : List (κ × ν)) (key : κ) (value : ν) : List (κ × ν) :=
  if key ∈ entries.map (·.1) then
    entries.map fun entry => if entry.1 = key then (key, value) else entry
  else entries ++ [(key, value)]

theorem written_unique {entries : List (κ × ν)} (unique : (entries.map (·.1)).Nodup) (key : κ)
    (value : ν) : ((written entries key value).map (·.1)).Nodup := by
  unfold written
  by_cases present : key ∈ entries.map (·.1)
  · rw [if_pos present, List.map_map]
    have same : ((·.1) ∘ fun entry : κ × ν => if entry.1 = key then (key, value) else entry)
        = (·.1) := by
      funext entry
      show (if entry.1 = key then (key, value) else entry).1 = entry.1
      by_cases here : entry.1 = key
      · rw [if_pos here, here]
      · rw [if_neg here]
    rw [same]
    exact unique
  · rw [if_neg present, List.map_append]
    exact List.nodup_append_comm.mp (List.nodup_cons.mpr ⟨present, unique⟩)

theorem lookup_written [BEq κ] [LawfulBEq κ] (entries : List (κ × ν)) (key other : κ) (value : ν) :
    (written entries key value).lookup other
      = if other = key then some value else entries.lookup other := by
  unfold written
  by_cases present : key ∈ entries.map (·.1)
  · rw [if_pos present]
    induction entries with
    | nil => cases present
    | cons entry rest ih =>
      obtain ⟨first, held⟩ := entry
      rw [List.map_cons, List.lookup_cons, List.lookup_cons]
      by_cases here : first = key
      · subst here
        rw [if_pos rfl]
        by_cases same : other = first
        · rw [if_pos same, beq_iff_eq.mpr same]
        · rw [if_neg same, beq_false_of_ne same]
          by_cases later : first ∈ rest.map (·.1)
          · rw [ih later, if_neg same]
          · have others : rest.map (fun entry => if entry.1 = first then (first, value) else entry)
                = rest := by
              refine (List.map_congr_left fun entry member => ?_).trans (List.map_id _)
              refine if_neg fun again : entry.1 = first => later ?_
              rw [← again]
              exact List.mem_map_of_mem member
            rw [others]
      · have later := (List.mem_cons.mp present).resolve_left fun same => here same.symm
        rw [if_neg here, ih later]
        by_cases same : other = first
        · have apart : other ≠ key := fun again => here (same.symm.trans again)
          rw [beq_iff_eq.mpr same, if_neg apart, if_neg apart]
        · rw [beq_false_of_ne same]
  · rw [if_neg present, List.lookup_append]
    by_cases same : other = key
    · have missing : entries.lookup other = none := by
        refine List.lookup_eq_none_iff.mpr fun entry member => bne_iff_ne.mpr fun here => present ?_
        rw [← same, here]
        exact List.mem_map_of_mem member
      rw [if_pos same, missing, same]
      exact List.lookup_cons_self
    · rw [if_neg same, List.lookup_cons, beq_false_of_ne same]
      exact Option.or_none

def put (ledger : Ledger κ ν) (key : κ) (value : ν) : Ledger κ ν where
  entries := written ledger.entries key value
  unique := written_unique ledger.unique key value

def keep (ledger : Ledger κ ν) (wanted : κ × ν → Bool) : Ledger κ ν where
  entries := ledger.entries.filter wanted
  unique := ledger.unique.sublist (List.filter_sublist.map _)

def dropOldest (ledger : Ledger κ ν) : Ledger κ ν where
  entries := ledger.entries.tail
  unique := ledger.unique.sublist ((List.tail_sublist _).map _)

variable {ledger : Ledger κ ν} {key : κ}

theorem get_eq_some_iff {value : ν} :
    ledger.get key = some value ↔ (key, value) ∈ ledger.entries := by
  obtain ⟨entries, unique⟩ := ledger
  show entries.lookup key = some value ↔ (key, value) ∈ entries
  induction entries with
  | nil => exact ⟨fun found => (by cases found), fun member => absurd member List.not_mem_nil⟩
  | cons entry rest ih =>
    obtain ⟨first, held⟩ := entry
    obtain ⟨absent, others⟩ := List.nodup_cons.mp unique
    by_cases here : key = first
    · subst here
      rw [List.lookup_cons_self]
      constructor
      · intro found
        rw [Option.some.inj found]
        exact List.mem_cons_self
      · intro member
        rcases List.mem_cons.mp member with same | later
        · rw [(Prod.mk.inj same).2]
        · exact absurd (List.mem_map_of_mem later) absent
    · have apart : (key == first) = false := beq_false_of_ne here
      rw [List.lookup_cons, apart]
      refine (ih others).trans ⟨List.mem_cons_of_mem _, fun member => ?_⟩
      exact (List.mem_cons.mp member).resolve_left fun same => here (Prod.mk.inj same).1

theorem get_eq_none_iff : ledger.get key = none ↔ key ∉ ledger.entries.map (·.1) := by
  constructor
  · intro missing present
    obtain ⟨⟨other, value⟩, member, rfl⟩ := List.mem_map.mp present
    rw [get_eq_some_iff.mpr member] at missing
    cases missing
  · intro absent
    cases found : ledger.get key with
    | none => rfl
    | some value => exact absurd (List.mem_map_of_mem (get_eq_some_iff.mp found)) absent

theorem get_put (ledger : Ledger κ ν) (key other : κ) (value : ν) :
    (ledger.put key value).get other = if other = key then some value else ledger.get other := by
  have mem : ∀ entry, entry ∈ written ledger.entries key value ↔
      entry = (key, value) ∨ (entry ∈ ledger.entries ∧ entry.1 ≠ key) := by
    intro entry
    unfold written
    by_cases present : key ∈ ledger.entries.map (·.1)
    · rw [if_pos present, List.mem_map]
      constructor
      · rintro ⟨held, member, rfl⟩
        by_cases here : held.1 = key
        · exact Or.inl (if_pos here)
        · rw [if_neg here]
          exact Or.inr ⟨member, here⟩
      · rintro (rfl | ⟨member, apart⟩)
        · obtain ⟨held, member, here⟩ := List.mem_map.mp present
          exact ⟨held, member, if_pos here⟩
        · exact ⟨entry, member, if_neg apart⟩
    · rw [if_neg present, List.mem_append, List.mem_singleton]
      constructor
      · rintro (member | rfl)
        · refine Or.inr ⟨member, fun here => present ?_⟩
          exact here ▸ List.mem_map_of_mem member
        · exact Or.inl rfl
      · rintro (rfl | ⟨member, -⟩)
        · exact Or.inr rfl
        · exact Or.inl member
  by_cases here : other = key
  · rw [if_pos here, here]
    exact get_eq_some_iff.mpr ((mem _).mpr (Or.inl rfl))
  · rw [if_neg here]
    ext held
    refine get_eq_some_iff.trans (((mem _).trans ?_).trans get_eq_some_iff.symm)
    exact ⟨fun either => (either.resolve_left fun same => here (Prod.mk.inj same).1).1,
      fun member => Or.inr ⟨member, here⟩⟩

theorem get_keep {wanted : κ × ν → Bool} {value : ν} : (ledger.keep wanted).get key = some value
      ↔ ledger.get key = some value ∧ wanted (key, value) = true :=
  get_eq_some_iff.trans (List.mem_filter.trans (and_congr_left' get_eq_some_iff.symm))

theorem get_of_dropOldest {value : ν}
    (found : ledger.dropOldest.get key = some value) : ledger.get key = some value :=
  get_eq_some_iff.mpr (List.mem_of_mem_tail (get_eq_some_iff.mp found))

omit [DecidableEq κ] in
theorem keep_eq_self {wanted : κ × ν → Bool}
    (all : ∀ entry ∈ ledger.entries, wanted entry = true) : ledger.keep wanted = ledger := by
  obtain ⟨entries, unique⟩ := ledger
  have same : entries.filter wanted = entries := List.filter_eq_self.mpr all
  simp only [keep, same]

theorem entries_put (missing : ledger.get key = none) (value : ν) :
    (ledger.put key value).entries = ledger.entries ++ [(key, value)] :=
  if_neg (get_eq_none_iff.mp missing)

theorem keys_put (ledger : Ledger κ ν) (key : κ) (value : ν) :
    (ledger.put key value).entries.map (·.1)
      = if key ∈ ledger.entries.map (·.1) then ledger.entries.map (·.1)
        else ledger.entries.map (·.1) ++ [key] := by
  show (written ledger.entries key value).map (·.1) = _
  unfold written
  by_cases present : key ∈ ledger.entries.map (·.1)
  · rw [if_pos present, if_pos present, List.map_map]
    refine List.map_congr_left fun entry _ => ?_
    by_cases here : entry.1 = key
    · simp [here]
    · simp [here]
  · rw [if_neg present, if_neg present, List.map_append]
    rfl

theorem values_eq (ledger : Ledger κ ν) :
    ledger.entries.map (·.2) = (ledger.entries.map (·.1)).filterMap ledger.get := by
  rw [List.filterMap_map, ← List.filterMap_eq_map]
  exact List.filterMap_congr fun entry member => (get_eq_some_iff.mpr member).symm

theorem put_put (missing : ledger.get key = none)
    (first second : ν) : (ledger.put key first).put key second = ledger.put key second := by
  have absent := get_eq_none_iff.mp missing
  have same : written (written ledger.entries key first) key second
      = written ledger.entries key second := by
    have present : key ∈ (written ledger.entries key first).map (·.1) := by
      rw [written, if_neg absent, List.map_append]
      exact List.mem_append_right _ List.mem_cons_self
    have others : ledger.entries.map (fun entry => if entry.1 = key then (key, second) else entry)
        = ledger.entries := by
      refine (List.map_congr_left fun entry member => ?_).trans (List.map_id _)
      refine if_neg fun here : entry.1 = key => absent ?_
      rw [← here]
      exact List.mem_map_of_mem member
    rw [written, if_pos present, written, if_neg absent, written, if_neg absent, List.map_append,
      others]
    exact congrArg (fun last => ledger.entries ++ [last]) (if_pos rfl)
  simp only [put, same]

end Ledger
