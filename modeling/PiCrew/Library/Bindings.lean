/-
**Finite maps built by successive `set` calls.**

A map that is filled from a list of keyed items and read afterwards: a later binding of a key hides
an earlier one. The newest binding stands first, so that a read is a plain `List.lookup`.

* `get_ofKeyed_nodup` — with distinct keys every item is read back at its own key.
-/

import Mathlib.Data.List.Basic
import Mathlib.Data.List.Nodup

structure Bindings (κ : Type*) (ν : Type*) where
  entries : List (κ × ν) := []

namespace Bindings

section

variable {κ ν α : Type*} [DecidableEq κ]

def get (bindings : Bindings κ ν) (key : κ) : Option ν := bindings.entries.lookup key

def set (bindings : Bindings κ ν) (key : κ) (value : ν) : Bindings κ ν :=
  ⟨(key, value) :: bindings.entries⟩

def ofEntries (entries : List (κ × ν)) : Bindings κ ν := ⟨entries.reverse⟩

def ofKeyed (key : α → κ) (items : List α) : Bindings κ α :=
  ofEntries (items.map fun item => (key item, item))

@[simp]
theorem get_set (bindings : Bindings κ ν) (key other : κ) (value : ν) :
    (bindings.set key value).get other = if other = key then some value else bindings.get other := by
  by_cases same : other = key
  · subst same
    simp [get, set]
  · have apart : (other == key) = false := beq_false_of_ne same
    simp [get, set, List.lookup_cons, apart, same]

theorem get_ofEntries_mem {entries : List (κ × ν)} {key : κ} {value : ν}
    (found : (ofEntries entries).get key = some value) : (key, value) ∈ entries := by
  obtain ⟨before, after, split, -⟩ := List.lookup_eq_some_iff.mp found
  have listed : (key, value) ∈ (ofEntries entries).entries := by
    rw [split]
    exact List.mem_append_right _ List.mem_cons_self
  exact List.mem_reverse.mp listed

theorem get_ofEntries_eq_none {entries : List (κ × ν)} {key : κ} :
    (ofEntries entries).get key = none ↔ ∀ entry ∈ entries, entry.1 ≠ key := by
  simp only [get, ofEntries, List.lookup_eq_none_iff, List.mem_reverse, bne_iff_ne, ne_comm]

theorem get_ofEntries_append {before behind : List (κ × ν)} {key : κ} :
    (ofEntries (before ++ behind)).get key = ((ofEntries behind).get key).or ((ofEntries before).get key) := by
  simp [get, ofEntries, List.lookup_append]

theorem get_ofKeyed (key : α → κ) (items : List α) (wanted : κ) :
    (ofKeyed key items).get wanted = items.reverse.find? fun item => key item == wanted := by
  simp only [get, ofKeyed, ofEntries, ← List.map_reverse]
  induction items.reverse with
  | nil => rfl
  | cons item rest ih =>
    by_cases same : key item = wanted
    · simp [same]
    · have apart : (wanted == key item) = false := beq_false_of_ne fun equal => same equal.symm
      simpa [List.lookup_cons, List.find?_cons, same, apart] using ih

variable {key : α → κ}

theorem get_ofKeyed_mem {items : List α} {wanted : κ} {item : α}
    (found : (ofKeyed key items).get wanted = some item) : item ∈ items ∧ key item = wanted := by
  rw [get_ofKeyed] at found
  exact ⟨List.mem_reverse.mp (List.mem_of_find?_eq_some found),
    by simpa using List.find?_some found⟩

theorem get_ofKeyed_eq_none {items : List α} {wanted : κ} :
    (ofKeyed key items).get wanted = none ↔ ∀ item ∈ items, key item ≠ wanted := by
  simp [get_ofKeyed]

theorem get_ofKeyed_map {change : α → α} (keeps : ∀ item, key (change item) = key item)
    (items : List α) (wanted : κ) :
    (ofKeyed key (items.map change)).get wanted = ((ofKeyed key items).get wanted).map change := by
  simp only [get_ofKeyed, ← List.map_reverse, List.find?_map]
  congr 2
  funext item
  simp [keeps]

theorem get_ofKeyed_nodup {items : List α} (distinct : (items.map key).Nodup)
    {item : α} (member : item ∈ items) : (ofKeyed key items).get (key item) = some item := by
  cases found : (ofKeyed key items).get (key item) with
  | none => exact absurd rfl (get_ofKeyed_eq_none.mp found item member)
  | some other =>
    obtain ⟨present, same⟩ := get_ofKeyed_mem found
    rw [List.inj_on_of_nodup_map distinct present member same]

end

end Bindings
