/-
**Lines of a worker before they are drawn.**

A line that a worker wrote may carry any escape sequence. The sanitiser drops strings and control
sequences, keeps those that end with `m` as colours, and puts a space for every other control character.
It looks for the final byte of a control sequence without a look at what stands before it, and keeps the
whole sequence, so a control character between the bracket and the `m` is kept with it.

* `sanitizeMove_cases` — what is put out at one place;
* `sanitizeUntrustedLine_safe_iff` — the output is safe just if all sequences that are kept are.
-/

import PiCrew.Library.Scanner
import PiCrew.Terminal.Ansi

namespace PiCrew.Terminal

open JsonText Scanner

def isControl (unit : UInt16) : Bool := unit < 0x20 || (0x7F ≤ unit && unit ≤ 0x9F)

/-- One pass of the loop: what it puts behind the result, and by how much the index moves on. -/
def sanitizeMove : Text → Move UInt16
  | [] => ⟨[], 0⟩
  | unit :: rest =>
    if unit = esc then
      match rest with
      | [] => ⟨[], 1⟩
      | next :: payload =>
        if next = 0x5D ∨ next = 0x5F then
          -- a string of the operating system or of an application
          let length := consumeAnsi (unit :: rest)
          ⟨[], if 0 < length then length else 1⟩
        else if next = 0x5B then
          let length := consumeAnsi (unit :: rest)
          if 0 < length then
            let sequence := (unit :: rest).take length
            ⟨if sequence.getLast? = some 0x6D then sequence else [], length⟩
          else ⟨[], 1⟩
        else if next = 0x50 ∨ next = 0x58 ∨ next = 0x5E then
          -- a device control string, or a privacy message; its loop is that of `consumeAnsi`
          ⟨[], ((terminator payload).map (· + 2)).getD 2⟩
        else ⟨[], 1⟩
    else if isControl unit then ⟨[0x20], 1⟩
    else ⟨[unit], 1⟩

/-- **Neutralise a line of a worker.** -/
def sanitizeUntrustedLine (value : Text) : Text := scan sanitizeMove value

section

def isParameter (unit : UInt16) : Bool := 0x30 ≤ unit && unit ≤ 0x39 || unit = 0x3A || unit = 0x3B

/-- **No stray control character**: every one is an `esc` that begins a complete sequence for colours. -/
def Safe (line : Text) : Prop :=
  ∀ front unit rest, line = front ++ unit :: rest → isControl unit = true →
    unit = esc ∧ ∃ parameters tail, rest = 0x5B :: (parameters ++ 0x6D :: tail) ∧
      ∀ parameter ∈ parameters, isParameter parameter = true

/-- The scan keeps a sequence for colours at some place, with this between the bracket and the `m`. -/
def KeepsColour (value body : Text) : Prop :=
  ∃ tail, Reaches sanitizeMove value (esc :: 0x5B :: (body ++ 0x6D :: tail)) ∧
    ∀ unit ∈ body, isFinal unit = false

variable {front back body value : Text}

theorem safe_nil : Safe [] := by
  intro front unit rest parts
  cases front <;> cases parts

theorem safe_append (first : Safe front) (second : Safe back) : Safe (front ++ back) := by
  intro before unit rest parts control
  rcases List.append_eq_append_iff.mp parts with ⟨middle, rfl, later⟩ | ⟨middle, rfl, here⟩
  · exact second middle unit rest later control
  · cases middle with
    | nil => exact second [] unit rest here.symm control
    | cons head middle =>
      rw [List.cons_append, List.cons.injEq] at here
      obtain ⟨rfl, rfl⟩ := here
      obtain ⟨same, parameters, tail, rfl, valid⟩ := first before unit middle rfl control
      exact ⟨same, parameters, tail ++ back, by simp, valid⟩

theorem safe_singleton {unit : UInt16} (printed : isControl unit = false) : Safe [unit] := by
  intro before other rest parts control
  cases before with
  | nil =>
    obtain ⟨rfl, -⟩ := List.cons.inj parts
    rw [printed] at control
    cases control
  | cons head before => simp at parts

theorem isParameter_spec {unit : UInt16} (parameter : isParameter unit = true) :
    isControl unit = false ∧ isFinal unit = false := by
  simp only [isParameter, isControl, isFinal, Bool.or_eq_true, Bool.and_eq_true, decide_eq_true_eq,
    Bool.or_eq_false_iff, Bool.and_eq_false_iff, decide_eq_false_iff_not, UInt16.le_iff_toNat_le,
    UInt16.lt_iff_toNat_lt, ← UInt16.toNat_inj, UInt16.reduceToNat] at parameter ⊢
  omega

/-- Of two parts of a text that end with its first `m`, one has no unit that the other lacks. -/
theorem parameters_of_same {parameters tail rest : Text}
    (valid : ∀ parameter ∈ parameters, isParameter parameter = true)
    (plain : ∀ unit ∈ body, isFinal unit = false)
    (same : body ++ 0x6D :: rest = parameters ++ 0x6D :: tail) : body = parameters := by
  have last : isFinal 0x6D = true := by decide
  induction body generalizing parameters with
  | nil =>
    cases parameters with
    | nil => rfl
    | cons parameter parameters =>
      obtain ⟨rfl, -⟩ := List.cons.inj same
      have := (isParameter_spec (valid _ List.mem_cons_self)).2
      rw [last] at this
      cases this
  | cons unit body ih =>
    cases parameters with
    | nil =>
      obtain ⟨rfl, -⟩ := List.cons.inj same
      have := plain _ List.mem_cons_self
      rw [last] at this
      cases this
    | cons parameter parameters =>
      obtain ⟨rfl, others⟩ := List.cons.inj same
      rw [ih (fun other within => valid other (List.mem_cons_of_mem _ within))
        (fun other within => plain other (List.mem_cons_of_mem _ within)) others]

/-- **A sequence for colours is safe** if all before its `m` are parameters. -/
theorem safe_colour (valid : ∀ parameter ∈ body, isParameter parameter = true) :
    Safe (esc :: 0x5B :: (body ++ [0x6D])) := by
  intro before unit rest parts control
  cases before with
  | nil =>
    obtain ⟨rfl, rfl⟩ := List.cons.inj parts
    exact ⟨rfl, body, [], rfl, valid⟩
  | cons head before =>
    exfalso
    obtain ⟨-, parts⟩ := List.cons.inj parts
    have within : unit ∈ 0x5B :: (body ++ [0x6D]) := by
      rw [parts]
      exact List.mem_append_right _ List.mem_cons_self
    have printed : isControl unit = false := by
      rcases List.mem_cons.mp within with rfl | within
      · decide
      · rcases List.mem_append.mp within with within | within
        · exact (isParameter_spec (valid unit within)).1
        · rw [List.mem_singleton.mp within]
          decide
    rw [printed] at control
    cases control

theorem parameters_of_safe (plain : ∀ unit ∈ body, isFinal unit = false)
    (safe : Safe (front ++ (esc :: 0x5B :: (body ++ [0x6D]) ++ back))) :
    ∀ parameter ∈ body, isParameter parameter = true := by
  have parts : front ++ (esc :: 0x5B :: (body ++ [0x6D]) ++ back) =
      front ++ esc :: (0x5B :: (body ++ 0x6D :: back)) := by simp
  obtain ⟨-, parameters, tail, same, valid⟩ := safe _ _ _ parts (by decide)
  obtain ⟨-, same⟩ := List.cons.inj same
  rwa [parameters_of_same valid plain same]

end

section

variable {value body : Text}

theorem sanitizeMove_advances : Advances sanitizeMove := by
  intro unit rest
  unfold sanitizeMove
  dsimp only
  split
  · split
    · exact Nat.one_pos
    · next next payload =>
        split
        · dsimp only
          split <;> omega
        · split
          · split
            · next some => exact some
            · exact Nat.one_pos
          · split
            · cases found : terminator payload <;> simp
            · exact Nat.one_pos
  · split <;> exact Nat.one_pos

theorem sanitizeMove_control {final : UInt16} {tail : Text} (plain : ∀ unit ∈ body, isFinal unit = false)
    (last : isFinal final = true) :
    sanitizeMove (esc :: 0x5B :: (body ++ final :: tail)) =
      ⟨if final = 0x6D then esc :: 0x5B :: (body ++ [final]) else [], body.length + 3⟩ := by
  have length : consumeAnsi (esc :: 0x5B :: (body ++ final :: tail)) = body.length + 3 := by
    rw [consumeAnsi_control, finalByte_eq_some.mpr ⟨body, final, tail, rfl, rfl, plain, last⟩]
    rfl
  have taken : (esc :: 0x5B :: (body ++ final :: tail)).take (body.length + 3) =
      esc :: 0x5B :: (body ++ [final]) := by
    rw [show body.length + 3 = (body.length + 1) + 1 + 1 by rfl, List.take_succ_cons, List.take_succ_cons,
      show body ++ final :: tail = (body ++ [final]) ++ tail by simp]
    rw [List.take_left' (by simp)]
  simp only [sanitizeMove, if_true, length, taken, Nat.zero_lt_succ]
  rw [if_neg (by decide)]
  congr 1
  simp [List.getLast?_cons]

/-- **What is put out at one place**: a unit that is printed, a sequence for colours, or nothing. -/
theorem sanitizeMove_cases (unit : UInt16) (rest : Text) : (sanitizeMove (unit :: rest)).out = [] ∨
      (∃ printed, isControl printed = false ∧ (sanitizeMove (unit :: rest)).out = [printed]) ∨
      ∃ body tail, unit :: rest = esc :: 0x5B :: (body ++ 0x6D :: tail) ∧
        (∀ unit ∈ body, isFinal unit = false) := by
  by_cases sequence : unit = esc
  · subst sequence
    cases rest with
    | nil => exact .inl rfl
    | cons next payload =>
      by_cases control : next = 0x5B
      · subst control
        cases found : finalByte payload with
        | none =>
          left
          simp [sanitizeMove, consumeAnsi_control, found]
        | some count =>
          obtain ⟨body, final, tail, rfl, -, plain, last⟩ := finalByte_eq_some.mp found
          by_cases colour : final = 0x6D
          · exact .inr (.inr ⟨body, tail, by rw [colour], plain⟩)
          · left
            rw [sanitizeMove_control plain last, if_neg colour]
      · left
        simp only [sanitizeMove, if_true, if_neg control]
        split
        · rfl
        · split <;> rfl
  · right
    left
    unfold sanitizeMove
    dsimp only
    rw [if_neg sequence]
    split
    · exact ⟨0x20, by decide, rfl⟩
    · next printed => exact ⟨unit, Bool.eq_false_iff.mpr printed, rfl⟩

/-- **A line of a worker comes out safe** just if every sequence for colours that is kept has digits and
separators only between its bracket and its `m`. -/
theorem sanitizeUntrustedLine_safe_iff (value : Text) :
    Safe (sanitizeUntrustedLine value) ↔
      ∀ body, KeepsColour value body → ∀ parameter ∈ body, isParameter parameter = true := by
  constructor
  · rintro safe body ⟨tail, reached, plain⟩
    obtain ⟨front, whole⟩ := scan_reaches sanitizeMove_advances reached
    rw [scan_cons sanitizeMove_advances, sanitizeMove_control plain (by decide), if_pos rfl] at whole
    rw [sanitizeUntrustedLine, whole] at safe
    exact parameters_of_safe plain safe
  · intro valid
    apply scan_closed sanitizeMove_advances safe_nil safe_append
    intro unit rest reached
    rcases sanitizeMove_cases unit rest with none | ⟨printed, plain, same⟩ | ⟨body, tail, same, plain⟩
    · rw [none]
      exact safe_nil
    · rw [same]
      exact safe_singleton plain
    · rw [same] at reached ⊢
      rw [sanitizeMove_control plain (by decide), if_pos rfl]
      exact safe_colour (valid body ⟨tail, reached, plain⟩)

/-- A line break between the bracket and the `m`. -/
theorem line_break_kept :
    sanitizeUntrustedLine [esc, 0x5B, 0x0A, 0x33, 0x31, 0x6D] = [esc, 0x5B, 0x0A, 0x33, 0x31, 0x6D] ∧
      ¬ Safe (sanitizeUntrustedLine [esc, 0x5B, 0x0A, 0x33, 0x31, 0x6D]) := by
  have kept : sanitizeUntrustedLine [esc, 0x5B, 0x0A, 0x33, 0x31, 0x6D] =
      [esc, 0x5B, 0x0A, 0x33, 0x31, 0x6D] := by decide +kernel
  refine ⟨kept, fun safe => ?_⟩
  rw [kept] at safe
  obtain ⟨same, -⟩ := safe [esc, 0x5B] 0x0A [0x33, 0x31, 0x6D] rfl (by decide)
  exact absurd same (by decide)

end

end PiCrew.Terminal
