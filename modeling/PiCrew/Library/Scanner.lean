/-
**Scans of a text.**

A scan stands at a place of a text, puts something out for what it sees there, and moves on by some items.
It reaches some places of the text and skips the others.

* `scan_closed` — what holds of every output at a place holds of the whole, if it can be put together.
-/

import Mathlib.Data.List.Basic

namespace Scanner

variable {α β : Type*}

/-- What is put out at a place, and by how much the scan moves on. -/
structure Move (β : Type*) where
  out : List β
  length : Nat

variable (move : List α → Move β)

def Advances : Prop := ∀ item rest, 0 < (move (item :: rest)).length

def scanTimes : Nat → List α → List β
  | 0, _ => []
  | _ + 1, [] => []
  | times + 1, item :: rest =>
    (move (item :: rest)).out ++ scanTimes times ((item :: rest).drop (move (item :: rest)).length)

def scan (text : List α) : List β := scanTimes move text.length text

/-- **The places that a scan reaches**, each as the text from there on. -/
inductive Reaches (text : List α) : List α → Prop where
  | start : Reaches text text
  | moved {item rest} : Reaches text (item :: rest) →
      Reaches text ((item :: rest).drop (move (item :: rest)).length)

@[simp]
theorem scan_nil : scan move [] = [] := rfl

variable {move}

theorem scanTimes_eq (advances : Advances move) {times : Nat} {text : List α}
    (enough : text.length ≤ times) : scanTimes move times text = scan move text := by
  suffices same : ∀ bound first second (text : List α), text.length ≤ bound → text.length ≤ first →
      text.length ≤ second → scanTimes move first text = scanTimes move second text from
    same _ _ _ text (Nat.le_refl _) enough (Nat.le_refl _)
  intro bound
  induction bound with
  | zero =>
    intro first second text short _ _
    obtain rfl : text = [] := List.length_eq_zero_iff.mp (Nat.le_zero.mp short)
    cases first <;> cases second <;> rfl
  | succ bound ih =>
    intro first second text short firstEnough secondEnough
    cases text with
    | nil => cases first <;> cases second <;> rfl
    | cons item rest =>
      have moves := advances item rest
      have shorter : ((item :: rest).drop (move (item :: rest)).length).length ≤ rest.length := by
        rw [List.length_drop, List.length_cons]
        omega
      simp only [List.length_cons] at short firstEnough secondEnough
      obtain ⟨first, rfl⟩ := Nat.exists_eq_add_one.mpr (Nat.lt_of_lt_of_le (Nat.succ_pos _) firstEnough)
      obtain ⟨second, rfl⟩ := Nat.exists_eq_add_one.mpr (Nat.lt_of_lt_of_le (Nat.succ_pos _) secondEnough)
      rw [scanTimes, scanTimes, ih first second _ (by omega) (by omega) (by omega)]

theorem scan_cons (advances : Advances move) (item : α) (rest : List α) : scan move (item :: rest) =
      (move (item :: rest)).out ++ scan move ((item :: rest).drop (move (item :: rest)).length) := by
  have moves := advances item rest
  rw [scan, List.length_cons, scanTimes, scanTimes_eq advances]
  rw [List.length_drop, List.length_cons]
  omega

theorem scan_reaches (advances : Advances move) {text rest : List α} (reached : Reaches move text rest) :
    ∃ front, scan move text = front ++ scan move rest := by
  induction reached with
  | start => exact ⟨[], rfl⟩
  | @moved item rest _ ih =>
    obtain ⟨front, same⟩ := ih
    exact ⟨front ++ (move (item :: rest)).out, by rw [same, scan_cons advances, List.append_assoc]⟩

/-- **What holds of the output at every place that is reached** holds of the whole. -/
theorem scan_closed (advances : Advances move) {P : List β → Prop} (none : P [])
    (both : ∀ {front back}, P front → P back → P (front ++ back)) {text : List α}
    (each : ∀ item rest, Reaches move text (item :: rest) → P (move (item :: rest)).out) :
    P (scan move text) := by
  suffices whole : ∀ bound (rest : List α), rest.length ≤ bound → Reaches move text rest →
      P (scan move rest) from whole _ text (Nat.le_refl _) .start
  intro bound
  induction bound with
  | zero =>
    intro rest short _
    obtain rfl : rest = [] := List.length_eq_zero_iff.mp (Nat.le_zero.mp short)
    exact none
  | succ bound ih =>
    intro rest short reached
    cases rest with
    | nil => exact none
    | cons item rest =>
      have moves := advances item rest
      rw [scan_cons advances]
      refine both (each item rest reached) (ih _ ?_ reached.moved)
      rw [List.length_drop]
      omega

end Scanner
