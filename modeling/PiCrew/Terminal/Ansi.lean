/-
**Escape sequences of a terminal.**

The helpers for lines of the terminal treat an escape sequence as one unit without width. A control
sequence ends with its final byte, a string of the operating system or of an application with the bell or
the string terminator.

* `consumeAnsi_cut` — what stands behind a sequence does not matter to it.
-/

import PiCrew.Library.JsonText

namespace PiCrew.Terminal

open JsonText

def esc : UInt16 := 0x1B

def isFinal (unit : UInt16) : Bool := 0x40 ≤ unit && unit ≤ 0x7E

def finalByte : Text → Option Nat
  | [] => none
  | unit :: rest => if isFinal unit then some 1 else (finalByte rest).map (· + 1)

/-- The units of a string behind its introducer, to the bell or the string terminator. -/
def terminator : Text → Option Nat
  | [] => none
  | unit :: rest =>
    if unit = 0x07 then some 1
    else if unit = esc ∧ rest.head? = some 0x5C then some 2
    else if unit < 0x20 then none
    else (terminator rest).map (· + 1)

/-- The length of the sequence that a text begins with, zero if there is none. -/
def consumeAnsi : Text → Nat
  | unit :: next :: rest =>
    if unit ≠ esc then 0
    else if next = 0x5B then ((finalByte rest).map (· + 2)).getD 0
    else if next ≠ 0x5D ∧ next ≠ 0x5F then 0
    else ((terminator rest).map (· + 2)).getD 0
  | _ => 0

section

variable {text rest : Text} {count : Nat}

theorem finalByte_eq_some : finalByte text = some count ↔
    ∃ body final tail, text = body ++ final :: tail ∧ count = body.length + 1 ∧
      (∀ unit ∈ body, isFinal unit = false) ∧ isFinal final = true := by
  constructor
  · intro found
    induction text generalizing count with
    | nil => cases found
    | cons unit text ih =>
      rw [finalByte] at found
      split at found
      · next final =>
          obtain rfl := Option.some.inj found
          exact ⟨[], unit, text, rfl, rfl, List.forall_mem_nil _, final⟩
      · next other =>
          obtain ⟨count, within, rfl⟩ := Option.map_eq_some_iff.mp found
          obtain ⟨body, final, tail, rfl, rfl, none, last⟩ := ih within
          exact ⟨unit :: body, final, tail, rfl, rfl,
            List.forall_mem_cons.mpr ⟨Bool.eq_false_iff.mpr other, none⟩, last⟩
  · rintro ⟨body, final, tail, rfl, rfl, none, last⟩
    induction body with
    | nil => rw [List.nil_append, finalByte, if_pos last]; rfl
    | cons unit body ih =>
      obtain ⟨first, others⟩ := List.forall_mem_cons.mp none
      rw [List.cons_append, finalByte, if_neg (Bool.eq_false_iff.mp first), ih others]
      rfl

theorem finalByte_le (found : finalByte text = some count) : 0 < count ∧ count ≤ text.length := by
  obtain ⟨body, final, tail, rfl, rfl, -, -⟩ := finalByte_eq_some.mp found
  simp only [List.length_append, List.length_cons]
  omega

theorem terminator_le (found : terminator text = some count) : 0 < count ∧ count ≤ text.length := by
  induction text generalizing count with
  | nil => cases found
  | cons unit text ih =>
    rw [terminator] at found
    split at found
    · obtain rfl := Option.some.inj found
      simp
    · split at found
      · next string =>
          obtain rfl := Option.some.inj found
          have : text ≠ [] := by
            rintro rfl
            simp at string
          have := List.length_pos_iff.mpr this
          simp only [List.length_cons]
          omega
      · split at found
        · cases found
        · obtain ⟨count, within, rfl⟩ := Option.map_eq_some_iff.mp found
          have := ih within
          simp only [List.length_cons]
          omega

theorem consumeAnsi_le (text : Text) : consumeAnsi text ≤ text.length := by
  fun_cases consumeAnsi text with
  | case1 => exact Nat.zero_le _
  | case2 =>
    cases found : finalByte _ with
    | none => simp
    | some count =>
      have := finalByte_le found
      simp
      omega
  | case3 => exact Nat.zero_le _
  | case4 =>
    cases found : terminator _ with
    | none => simp
    | some count =>
      have := terminator_le found
      simp
      omega
  | case5 => exact Nat.zero_le _

theorem finalByte_cut (found : finalByte text = some count) (other : Text) :
    finalByte (text.take count ++ other) = some count := by
  obtain ⟨body, final, tail, rfl, rfl, none, last⟩ := finalByte_eq_some.mp found
  refine finalByte_eq_some.mpr ⟨body, final, other, ?_, rfl, none, last⟩
  rw [List.append_cons, List.take_left' (by simp), List.append_assoc, List.singleton_append]

theorem terminator_cut (found : terminator text = some count) (other : Text) :
    terminator (text.take count ++ other) = some count := by
  induction text generalizing count with
  | nil => cases found
  | cons unit text ih =>
    rw [terminator] at found
    split at found
    · next bell =>
        obtain rfl := Option.some.inj found
        exact if_pos bell
    · next ordinary =>
        split at found
        · next string =>
            obtain rfl := Option.some.inj found
            obtain ⟨next, rest, rfl⟩ := @List.exists_cons_of_ne_nil _ text (by
              rintro rfl
              simp at string)
            exact (if_neg ordinary).trans (if_pos string)
        · split at found
          · cases found
          · next printed =>
              obtain ⟨count, within, rfl⟩ := Option.map_eq_some_iff.mp found
              have other : unit ≠ esc := by
                rintro rfl
                exact printed (by decide)
              rw [List.take_succ_cons, List.cons_append, terminator, if_neg ordinary,
                if_neg fun both => other both.1, if_neg printed, ih within]
              rfl

theorem consumeAnsi_control (rest : Text) :
    consumeAnsi (esc :: 0x5B :: rest) = ((finalByte rest).map (· + 2)).getD 0 := rfl

theorem consumeAnsi_string {next : UInt16} {body : Text} (introducer : next = 0x5D ∨ next = 0x5F)
    (found : terminator body = some count) : consumeAnsi (esc :: next :: body) = count + 2 := by
  have other : next ≠ 0x5B := by
    rcases introducer with rfl | rfl <;> decide
  rw [consumeAnsi, if_neg (not_not.mpr rfl), if_neg other,
    if_neg fun both => introducer.elim both.1 both.2, found]
  rfl

theorem consumeAnsi_cases (found : 0 < consumeAnsi text) : ∃ next body count, text = esc :: next :: body ∧
    (next = 0x5B ∧ finalByte body = some count ∨
      (next = 0x5D ∨ next = 0x5F) ∧ terminator body = some count) := by
  fun_cases consumeAnsi text with
  | case1 unit next rest other => simp [consumeAnsi, other] at found
  | case2 unit rest same =>
    obtain rfl := not_not.mp same
    cases within : finalByte rest with
    | none => simp [consumeAnsi, within] at found
    | some count => exact ⟨_, rest, count, rfl, .inl ⟨rfl, within⟩⟩
  | case3 unit next rest same control string => simp [consumeAnsi, control, string] at found
  | case4 unit next rest same control string =>
    obtain rfl := not_not.mp same
    cases within : terminator rest with
    | none => simp [consumeAnsi, control, within] at found
    | some count => exact ⟨next, rest, count, rfl, .inr ⟨by tauto, within⟩⟩
  | case5 => simp [consumeAnsi] at found

/-- **What stands behind a sequence** does not matter to it. -/
theorem consumeAnsi_cut (found : 0 < consumeAnsi text) (other : Text) :
    consumeAnsi (text.take (consumeAnsi text) ++ other) = consumeAnsi text := by
  obtain ⟨next, body, count, rfl, ⟨rfl, within⟩ | ⟨introducer, within⟩⟩ := consumeAnsi_cases found
  · rw [consumeAnsi_control, within]
    dsimp only [Option.map_some, Option.getD_some]
    rw [List.take_succ_cons, List.take_succ_cons, List.cons_append, List.cons_append, consumeAnsi_control,
      finalByte_cut within other]
    rfl
  · rw [consumeAnsi_string introducer within, List.take_succ_cons, List.take_succ_cons, List.cons_append,
      List.cons_append, consumeAnsi_string introducer (terminator_cut within other)]

end

end PiCrew.Terminal
