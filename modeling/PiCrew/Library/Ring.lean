/-
**A ring buffer keeps the newest entries.**

A ring of fixed capacity is filled slot by slot; when it is full, every further entry takes the slot
of the oldest one. Read from the slot that is written next, it holds the newest entries in order.

* `contents_foldl` — all of them.
-/

import Mathlib.Data.List.Rotate

namespace Ring

variable {ε : Type*}

structure Buffer (ε : Type*) where
  slots : List ε := []
  next : Nat := 0
  deriving DecidableEq, Repr

def push (capacity : Nat) (buffer : Buffer ε) (entry : ε) : Buffer ε where
  slots :=
    if buffer.slots.length < capacity then buffer.slots ++ [entry]
    else buffer.slots.set buffer.next entry
  next := (buffer.next + 1) % capacity

def contents (capacity : Nat) (buffer : Buffer ε) : List ε :=
  if buffer.slots.length < capacity then buffer.slots else buffer.slots.rotate buffer.next

def newest (count : Nat) (entries : List ε) : List ε := entries.drop (entries.length - count)

/-- **A ring holds the newest of the entries written.** -/
structure Holds (capacity : Nat) (entries : List ε) (buffer : Buffer ε) : Prop where
  filling : entries.length < capacity → buffer.slots = entries ∧ buffer.next = entries.length
  full : capacity ≤ entries.length → buffer.slots.length = capacity ∧ buffer.next < capacity ∧
    buffer.slots.drop buffer.next ++ buffer.slots.take buffer.next = newest capacity entries

theorem newest_concat {capacity : Nat} {entries : List ε} (full : capacity ≤ entries.length)
    (positive : 0 < capacity) (entry : ε) :
    newest capacity (entries ++ [entry]) = (newest capacity entries).tail ++ [entry] := by
  unfold newest
  rw [List.length_append, List.length_singleton, List.tail_drop,
    List.drop_append_of_le_length (by omega)]
  congr 2
  omega

/-- **One step of the ring.** -/
theorem push_holds {capacity : Nat} (positive : 0 < capacity) {entries : List ε}
    {buffer : Buffer ε} (holds : Holds capacity entries buffer) (entry : ε) :
    Holds capacity (entries ++ [entry]) (push capacity buffer entry) := by
  have longer : (entries ++ [entry]).length = entries.length + 1 := by
    rw [List.length_append, List.length_singleton]
  rcases Nat.lt_or_ge entries.length capacity with filling | full
  · obtain ⟨slots, next⟩ := holds.filling filling
    have pushed : (push capacity buffer entry).slots = entries ++ [entry] := by
      show (if _ then _ else _) = _
      rw [slots, if_pos filling]
    have moved : (push capacity buffer entry).next = (entries.length + 1) % capacity :=
      congrArg (fun slot => (slot + 1) % capacity) next
    refine ⟨fun still => ⟨pushed, ?_⟩, fun now => ?_⟩
    · rw [moved, longer]
      exact Nat.mod_eq_of_lt (longer ▸ still)
    · have exact : entries.length + 1 = capacity := by omega
      rw [moved, pushed, exact, Nat.mod_self]
      refine ⟨longer.trans exact, positive, ?_⟩
      rw [newest, longer, exact, Nat.sub_self, List.drop_zero, List.take_zero, List.append_nil]
  · obtain ⟨size, inside, order⟩ := holds.full full
    have slot : buffer.next < buffer.slots.length := size.symm ▸ inside
    have pushed : (push capacity buffer entry).slots
        = buffer.slots.take buffer.next ++ entry :: buffer.slots.drop (buffer.next + 1) := by
      show (if _ then _ else _) = _
      rw [if_neg (by omega), List.set_eq_take_append_cons_drop, if_pos slot]
    have oldest : (newest capacity entries).tail
        = buffer.slots.drop (buffer.next + 1) ++ buffer.slots.take buffer.next := by
      rw [← order, List.tail_append_of_ne_nil (by
        intro none
        have gone := List.drop_eq_nil_iff.mp none
        omega), List.tail_drop]
    have taken : (buffer.slots.take buffer.next).length = buffer.next :=
      List.length_take_of_le (Nat.le_of_lt slot)
    refine ⟨fun still => absurd still (by omega), fun _ => ⟨?_, Nat.mod_lt _ positive, ?_⟩⟩
    · rw [pushed, List.length_append, taken, List.length_cons, List.length_drop]
      omega
    · rw [newest_concat full positive, oldest, pushed]
      show List.drop ((buffer.next + 1) % capacity) _ ++ List.take ((buffer.next + 1) % capacity) _
        = _
      rcases Nat.lt_or_ge (buffer.next + 1) capacity with before | last
      · have split : buffer.slots.take buffer.next ++ entry :: buffer.slots.drop (buffer.next + 1)
            = (buffer.slots.take buffer.next ++ [entry]) ++ buffer.slots.drop (buffer.next + 1) := by
          rw [List.append_assoc, List.singleton_append]
        have written : (buffer.slots.take buffer.next ++ [entry]).length = buffer.next + 1 := by
          rw [List.length_append, taken, List.length_singleton]
        rw [Nat.mod_eq_of_lt before, split, ← written, List.drop_left, List.take_left, written,
          List.append_assoc]
      · have wraps : buffer.next + 1 = capacity := by omega
        have nothing : buffer.slots.drop (buffer.next + 1) = [] :=
          List.drop_eq_nil_iff.mpr (by omega)
        rw [wraps, Nat.mod_self, List.drop_zero, List.take_zero, List.append_nil, ← wraps, nothing,
          List.nil_append]

theorem foldl_holds {capacity : Nat} (positive : 0 < capacity) (entries : List ε) :
    Holds capacity entries (entries.foldl (push capacity) {}) := by
  induction entries using List.reverseRecOn with
  | nil => exact ⟨fun _ => ⟨rfl, rfl⟩, fun full => absurd positive (Nat.not_lt.mpr full)⟩
  | append_singleton entries entry ih =>
    rw [List.foldl_append]
    exact push_holds positive ih entry

/-- **A ring holds the newest entries, in order.** -/
theorem contents_foldl {capacity : Nat} (positive : 0 < capacity) (entries : List ε) :
    contents capacity (entries.foldl (push capacity) {}) = newest capacity entries := by
  have holds := foldl_holds positive entries
  unfold contents
  rcases Nat.lt_or_ge entries.length capacity with filling | full
  · have slots := (holds.filling filling).1
    rw [slots, if_pos filling, newest, Nat.sub_eq_zero_of_le (Nat.le_of_lt filling), List.drop_zero]
  · obtain ⟨size, inside, order⟩ := holds.full full
    rw [if_neg (by omega), List.rotate_eq_drop_append_take (by omega), order]

end Ring
