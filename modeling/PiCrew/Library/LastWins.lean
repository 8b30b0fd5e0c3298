/-
**Rows by key, the last one of a key in the place of the first.**

A reader that merges several files goes through their rows in order and keeps one row for each key: the
last one, where the key came first.

* `foldl_latest` — a single value that some rows set is the one that the last of them sets.
-/

import Mathlib.Data.List.Induction
import PiCrew.Library.Ledger

namespace LastWins

variable {ρ κ : Type*} [DecidableEq κ] (key : ρ → κ)

def collect (rows : List ρ) : Ledger κ ρ :=
  rows.foldl (fun merged row => merged.put (key row) row) {}

def merge (rows : List ρ) : List ρ := (collect key rows).entries.map (·.2)

def latest (rows : List ρ) (wanted : κ) : Option ρ := rows.reverse.find? fun row => key row = wanted

def firsts (keys : List κ) : List κ :=
  keys.foldl (fun seen other => if other ∈ seen then seen else seen ++ [other]) []

variable {key} {rows : List ρ} {row : ρ} {wanted : κ}

theorem collect_append (rows : List ρ) (row : ρ) :
    collect key (rows ++ [row]) = (collect key rows).put (key row) row := by
  simp [collect]

theorem firsts_append (keys : List κ) (other : κ) :
    firsts (keys ++ [other])
      = if other ∈ firsts keys then firsts keys else firsts keys ++ [other] := by
  rw [firsts, List.foldl_append]
  rfl

theorem mem_firsts {keys : List κ} : wanted ∈ firsts keys ↔ wanted ∈ keys := by
  induction keys using List.reverseRecOn with
  | nil => exact Iff.rfl
  | append_singleton keys other ih =>
    rw [firsts_append, List.mem_append, List.mem_singleton]
    by_cases seen : other ∈ firsts keys
    · rw [if_pos seen, ih]
      refine ⟨Or.inl, fun either => either.elim id fun same => ?_⟩
      rw [same]
      rwa [← same, ih, same] at seen
    · rw [if_neg seen, List.mem_append, List.mem_singleton, ih]

theorem keys_collect (rows : List ρ) :
    (collect key rows).entries.map (·.1) = firsts (rows.map key) := by
  induction rows using List.reverseRecOn with
  | nil => rfl
  | append_singleton rows row ih =>
    rw [collect_append, Ledger.keys_put, ih, List.map_append, List.map_singleton, firsts_append]

theorem latest_append (older newer : List ρ) (wanted : κ) :
    latest key (older ++ newer) wanted = (latest key newer wanted).or (latest key older wanted) := by
  rw [latest, List.reverse_append, List.find?_append]
  rfl

theorem latest_concat (rows : List ρ) (row : ρ) (wanted : κ) :
    latest key (rows ++ [row]) wanted = if key row = wanted then some row
      else latest key rows wanted := by
  rw [latest_append]
  by_cases here : key row = wanted
  · simp [latest, here]
  · simp [latest, here]

theorem latest_isSome : (latest key rows wanted).isSome ↔ wanted ∈ rows.map key := by
  simp [latest]

theorem get_collect (rows : List ρ) (wanted : κ) :
    (collect key rows).get wanted = latest key rows wanted := by
  induction rows using List.reverseRecOn with
  | nil => rfl
  | append_singleton rows row ih =>
    rw [collect_append, Ledger.get_put, latest_concat, ih]
    simp only [eq_comm]

theorem merge_eq (rows : List ρ) :
    merge key rows = (firsts (rows.map key)).filterMap (latest key rows) := by
  rw [merge, Ledger.values_eq, keys_collect]
  exact List.filterMap_congr fun wanted _ => get_collect rows wanted

theorem mem_merge (member : row ∈ merge key rows) : row ∈ rows := by
  rw [merge_eq] at member
  obtain ⟨wanted, -, found⟩ := List.mem_filterMap.mp member
  exact List.mem_reverse.mp (List.mem_of_find?_eq_some found)

theorem mem_map_merge : wanted ∈ (merge key rows).map key ↔ wanted ∈ rows.map key := by
  constructor
  · intro member
    obtain ⟨row, inside, rfl⟩ := List.mem_map.mp member
    exact List.mem_map_of_mem (mem_merge inside)
  · intro member
    obtain ⟨row, found⟩ := Option.isSome_iff_exists.mp (latest_isSome.mpr member)
    have here : key row = wanted := by simpa using List.find?_some found
    rw [← here, merge_eq]
    refine List.mem_map_of_mem (List.mem_filterMap.mpr ⟨wanted, mem_firsts.mpr member, found⟩)

theorem merge_new (fresh : key row ∉ rows.map key) :
    merge key (rows ++ [row]) = merge key rows ++ [row] := by
  have missing : (collect key rows).get (key row) = none := by
    rw [get_collect, ← Option.not_isSome_iff_eq_none, latest_isSome]
    exact fresh
  rw [merge, collect_append, Ledger.entries_put missing, List.map_append]
  rfl

theorem merge_of_nodup (apart : (rows.map key).Nodup) : merge key rows = rows := by
  induction rows using List.reverseRecOn with
  | nil => rfl
  | append_singleton rows row ih =>
    rw [List.map_append, List.map_singleton] at apart
    obtain ⟨fresh, others⟩ := List.nodup_cons.mp (List.nodup_append_comm.mp apart)
    rw [merge_new fresh, ih others]

section

variable {update : ρ → ρ}

theorem merge_congr {updated : List ρ} (keys : firsts (updated.map key) = firsts (rows.map key))
    (last : ∀ wanted, latest key updated wanted = (latest key rows wanted).map update) :
    merge key updated = (merge key rows).map update := by
  rw [merge_eq, merge_eq, keys, List.map_filterMap]
  exact List.filterMap_congr fun wanted _ => last wanted

/-- An update of one key leaves the rows of the others. -/
structure Updates (key : ρ → κ) (wanted : κ) (update : ρ → ρ) : Prop where
  keeps_key : ∀ row, key (update row) = key row
  keeps_others : ∀ row, key row ≠ wanted → update row = row

theorem latest_updated (updates : Updates key wanted update) {other : κ} (apart : other ≠ wanted)
    (rows : List ρ) : (latest key rows other).map update = latest key rows other := by
  cases found : latest key rows other with
  | none => rfl
  | some row =>
    have here : key row = other := by simpa using List.find?_some found
    exact congrArg some (updates.keeps_others row fun same => apart (here.symm.trans same))

theorem merge_known (updates : Updates key (key row) update)
    (known : (latest key rows (key row)).map update = some row) :
    merge key (rows ++ [row]) = (merge key rows).map update := by
  have present : key row ∈ rows.map key := by
    rw [← latest_isSome, ← Option.isSome_map (f := update), known]
    rfl
  refine merge_congr ?_ fun other => ?_
  · rw [List.map_append, List.map_singleton, firsts_append, if_pos (mem_firsts.mpr present)]
  · rw [latest_concat]
    by_cases here : key row = other
    · rw [if_pos here, ← here, known]
    · rw [if_neg here, latest_updated updates (Ne.symm here)]

omit [DecidableEq κ] in
theorem map_key_updated (updates : Updates key wanted update) (rows : List ρ) :
    (rows.map update).map key = rows.map key := by
  rw [List.map_map]
  exact List.map_congr_left fun row _ => updates.keeps_key row

theorem latest_map (updates : Updates key wanted update) (rows : List ρ) (other : κ) :
    latest key (rows.map update) other = (latest key rows other).map update := by
  rw [latest, ← List.map_reverse, List.find?_map]
  simp only [Function.comp_def, updates.keeps_key]
  rfl

theorem merge_updated (updates : Updates key wanted update) {older newer : List ρ}
    (present : wanted ∈ newer.map key) :
    merge key (older ++ newer.map update) = (merge key (older ++ newer)).map update := by
  refine merge_congr ?_ fun other => ?_
  · rw [List.map_append, List.map_append, map_key_updated updates]
  · rw [latest_append, latest_append, latest_map updates]
    by_cases here : other = wanted
    · rw [here]
      obtain ⟨row, found⟩ := Option.isSome_iff_exists.mp (latest_isSome.mpr present)
      rw [found]
      rfl
    · rw [Option.map_or, latest_updated updates here older]

end

section

variable {α β : Type*}

/-- **A value that some rows set** is the one that the last of them sets, or what it was. -/
theorem foldl_latest (sets : α → Option β) (rows : List α) (initial : β) :
    rows.foldl (fun value row => (sets row).getD value) initial =
      (rows.filterMap sets).getLast?.getD initial := by
  induction rows using List.reverseRecOn with
  | nil => rfl
  | append_singleton rows row ih =>
    rw [List.foldl_append, ih, List.filterMap_append]
    cases set : sets row with
    | none | some value => simp [set]

theorem foldl_latest_some (sets : α → Option β) (rows : List α) :
    rows.foldl (fun value row => (sets row).or value) none = (rows.filterMap sets).getLast? := by
  induction rows using List.reverseRecOn with
  | nil => rfl
  | append_singleton rows row ih =>
    rw [List.foldl_append, ih, List.filterMap_append]
    cases set : sets row with
    | none | some value => simp [set]

end

end LastWins
