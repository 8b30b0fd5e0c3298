/-
**Matches that are erased.**

A pass over a text that drops what a matcher finds, from the left, and keeps the rest, as `replace` of a
global expression with nothing does. The matcher gives the length of the match that begins at a place, zero
if there is none.

* `erase_sublist` — what is kept stands in the order of the text.
-/

import PiCrew.Library.Scanner

namespace Erasing

open Scanner

variable {α : Type*} (length : List α → Nat)

def eraseMove (text : List α) : Move α :=
  if 0 < length text then ⟨[], length text⟩ else ⟨text.take 1, 1⟩

/-- **A text without the matches.** -/
def erase (text : List α) : List α := scan (eraseMove length) text

variable {length} {text front rest : List α}

theorem eraseMove_advances : Advances (eraseMove length) := by
  intro item rest
  rw [eraseMove]
  split
  · assumption
  · exact Nat.one_pos

@[simp]
theorem erase_nil : erase length [] = [] := rfl

theorem erase_match (nonempty : front ≠ []) (found : length (front ++ rest) = front.length) :
    erase length (front ++ rest) = erase length rest := by
  obtain ⟨item, behind, rfl⟩ := List.exists_cons_of_ne_nil nonempty
  have long : 0 < length (item :: (behind ++ rest)) := by
    rw [← List.cons_append, found]
    exact Nat.succ_pos _
  rw [List.cons_append, erase, scan_cons eraseMove_advances, eraseMove, if_pos long, List.nil_append,
    ← List.cons_append, found, List.drop_left]
  rfl

theorem erase_skip {item : α} (none : length (item :: rest) = 0) :
    erase length (item :: rest) = item :: erase length rest := by
  rw [erase, scan_cons eraseMove_advances, eraseMove, if_neg (by rw [none]; decide)]
  rfl

theorem erase_keep (none : ∀ item ∈ front, ∀ rest, length (item :: rest) = 0) :
    erase length (front ++ rest) = front ++ erase length rest := by
  induction front with
  | nil => rfl
  | cons item front ih =>
    obtain ⟨first, others⟩ := List.forall_mem_cons.mp none
    rw [List.cons_append, erase_skip (first _), ih others, List.cons_append]

/-- **What is kept** stands in the order of the text. -/
theorem erase_sublist (text : List α) : (erase length text).Sublist text := by
  induction bound : text.length using Nat.strongRecOn generalizing text with
  | ind size ih =>
    subst bound
    cases text with
    | nil => exact List.Sublist.slnil
    | cons item rest =>
      have moves := @eraseMove_advances _ length item rest
      have kept := ih _ (by rw [List.length_drop, List.length_cons]; omega)
        ((item :: rest).drop (eraseMove length (item :: rest)).length) rfl
      rw [erase, scan_cons eraseMove_advances]
      rw [eraseMove] at kept ⊢
      split
      · next found =>
          rw [if_pos found] at kept
          exact kept.trans (List.drop_sublist _ _)
      · next none =>
          rw [if_neg none] at kept
          exact kept.cons_cons item

end Erasing
