/-
**Files of lines, read by byte offset.**

A file is its complete lines, each with its length in bytes and the value it parses to, and the bytes
of an unfinished line behind them. A line that parses to nothing (a blank or a broken one) still
takes its bytes.

* `write_write`, `write_eq_of_size` — two writes are one, and one that adds no byte is none.
-/

import Mathlib.Algebra.GroupWithZero.Nat
import Mathlib.Algebra.Order.Group.Nat
import Mathlib.Data.List.Basic
import Mathlib.Algebra.BigOperators.Group.List.Basic

namespace Lines

variable {ε : Type*}

section

structure Line (ε : Type*) where
  value : Option ε
  bytes : Nat
  deriving DecidableEq, Repr

def Line.length (line : Line ε) : Nat := line.bytes + 1

def size (lines : List (Line ε)) : Nat := (lines.map Line.length).sum

def values (lines : List (Line ε)) : List ε := lines.filterMap (·.value)

structure Item (ε : Type*) where
  value : ε
  offset : Nat
  deriving DecidableEq, Repr

/-- The values of some lines with their offsets, given where the first line starts. -/
def itemsFrom : Nat → List (Line ε) → List (Item ε)
  | _, [] => []
  | start, line :: rest =>
    (line.value.map fun value => { value := value, offset := start }).toList ++
      itemsFrom (start + line.length) rest

/-- What is left of some lines behind a number of bytes. A line that is cut parses to nothing. -/
def dropBytes : Nat → List (Line ε) → List (Line ε)
  | _, [] => []
  | count, line :: rest =>
    if count = 0 then line :: rest
    else if count < line.length then { value := none, bytes := line.length - count - 1 } :: rest
    else dropBytes (count - line.length) rest

@[simp]
theorem size_nil : size ([] : List (Line ε)) = 0 := rfl

@[simp]
theorem size_cons (line : Line ε) (rest : List (Line ε)) :
    size (line :: rest) = line.length + size rest := List.sum_cons

@[simp]
theorem size_append (first second : List (Line ε)) :
    size (first ++ second) = size first + size second := by
  rw [size, List.map_append, List.sum_append]
  rfl

theorem length_pos (line : Line ε) : 0 < line.length := Nat.succ_pos _

variable {lines : List (Line ε)}

theorem size_eq_zero (empty : size lines = 0) : lines = [] := by
  cases lines with
  | nil => rfl
  | cons line rest =>
    rw [size_cons] at empty
    have positive := length_pos line
    omega

theorem values_append (first second : List (Line ε)) :
    values (first ++ second) = values first ++ values second := List.filterMap_append

theorem itemsFrom_append (start : Nat) (first second : List (Line ε)) :
    itemsFrom start (first ++ second)
      = itemsFrom start first ++ itemsFrom (start + size first) second := by
  induction first generalizing start with
  | nil => rfl
  | cons line rest ih =>
    rw [List.cons_append, itemsFrom, ih, itemsFrom, List.append_assoc, size_cons, Nat.add_assoc]

theorem map_value_itemsFrom (start : Nat) (lines : List (Line ε)) :
    (itemsFrom start lines).map (·.value) = values lines := by
  induction lines generalizing start with
  | nil => rfl
  | cons line rest ih =>
    rw [itemsFrom, List.map_append, ih]
    cases found : line.value with
    | none => rw [values, values, List.filterMap_cons_none found]; rfl
    | some value => rw [values, values, List.filterMap_cons_some found]; rfl

theorem le_offset {start : Nat} {item : Item ε}
    (member : item ∈ itemsFrom start lines) : start ≤ item.offset := by
  induction lines generalizing start with
  | nil => cases member
  | cons line rest ih =>
    rcases List.mem_append.mp member with here | later
    · obtain ⟨value, -, rfl⟩ := Option.map_eq_some_iff.mp (Option.mem_toList.mp here)
      exact Nat.le_refl _
    · exact Nat.le_trans (Nat.le_add_right _ _) (ih later)

theorem itemsFrom_sorted (start : Nat) (lines : List (Line ε)) :
    (itemsFrom start lines).Pairwise fun earlier later => earlier.offset < later.offset := by
  induction lines generalizing start with
  | nil => exact List.Pairwise.nil
  | cons line rest ih =>
    refine List.pairwise_append.mpr ⟨?_, ih _, ?_⟩
    · cases line.value with
      | none => exact List.Pairwise.nil
      | some value => exact List.pairwise_singleton _ _
    · intro item here later member
      obtain ⟨value, -, rfl⟩ := Option.map_eq_some_iff.mp (Option.mem_toList.mp here)
      have behind := le_offset member
      have positive := length_pos line
      show start < later.offset
      omega

theorem suffix_whole {start : Nat} {before rest : List (Item ε)}
    {first : Item ε} (split : itemsFrom start lines = before ++ first :: rest)
    (starts : first.offset = start) : before = [] := by
  cases before with
  | nil => rfl
  | cons earlier others =>
    have sorted := itemsFrom_sorted start lines
    rw [split] at sorted
    have ahead := (List.pairwise_append.mp sorted).2.2 earlier List.mem_cons_self first
      List.mem_cons_self
    have inside : earlier ∈ itemsFrom start lines := by
      rw [split]
      exact List.mem_append_left _ List.mem_cons_self
    have behind := le_offset inside
    omega

theorem dropBytes_size (first second : List (Line ε)) :
    dropBytes (size first) (first ++ second) = second := by
  induction first with
  | nil =>
    cases second with
    | nil => rfl
    | cons line rest => exact if_pos rfl
  | cons line rest ih =>
    have positive := length_pos line
    rw [List.cons_append, dropBytes, size_cons, if_neg (by omega), if_neg (by omega),
      Nat.add_sub_cancel_left]
    exact ih

theorem suffix_of_dropBytes {count : Nat} {first : Line ε}
    {whole : List (Line ε)} (cut : dropBytes count lines = first :: whole) : whole <:+ lines := by
  induction lines generalizing count with
  | nil => cases cut
  | cons line rest ih =>
    rw [dropBytes] at cut
    by_cases here : count = 0
    · rw [if_pos here] at cut
      obtain ⟨-, rfl⟩ := List.cons.inj cut
      exact List.suffix_cons line rest
    · rw [if_neg here] at cut
      by_cases inside : count < line.length
      · rw [if_pos inside] at cut
        obtain ⟨-, rfl⟩ := List.cons.inj cut
        exact List.suffix_cons line rest
      · rw [if_neg inside] at cut
        exact (ih cut).trans (List.suffix_cons line rest)

end

/-- **A file**: its complete lines, and the bytes of an unfinished one behind them. -/
structure File (ε : Type*) where
  lines : List (Line ε) := []
  torn : Nat := 0
  deriving DecidableEq, Repr

def File.size (file : File ε) : Nat := Lines.size file.lines + file.torn

def finishTorn (torn : Nat) : List (Line ε) → List (Line ε)
  | [] => []
  | line :: rest => { line with bytes := line.bytes + torn } :: rest

/-- **Append to a file**: the end of its unfinished line and further lines, and the beginning of
another. -/
def File.write (file : File ε) (lines : List (Line ε)) (torn : Nat) : File ε :=
  match lines with
  | [] => { file with torn := file.torn + torn }
  | _ :: _ => { lines := file.lines ++ finishTorn file.torn lines, torn := torn }

theorem lines_write (file : File ε) (lines : List (Line ε)) (torn : Nat) :
    (file.write lines torn).lines = file.lines ++ finishTorn file.torn lines := by
  cases lines with
  | nil => exact (List.append_nil _).symm
  | cons line rest => rfl

theorem size_write (file : File ε) (lines : List (Line ε)) (torn : Nat) :
    (file.write lines torn).size = file.size + Lines.size lines + torn := by
  cases lines with
  | nil =>
    show Lines.size file.lines + (file.torn + torn) = _
    rw [size_nil, File.size]
    omega
  | cons line rest =>
    show Lines.size (file.lines ++ finishTorn file.torn (line :: rest)) + torn = _
    rw [size_append, finishTorn, size_cons, size_cons, File.size]
    simp only [Line.length]
    omega

theorem finishTorn_add (torn between : Nat) (lines : List (Line ε)) :
    finishTorn (torn + between) lines = finishTorn torn (finishTorn between lines) := by
  cases lines with
  | nil => rfl
  | cons line rest =>
    show { line with bytes := line.bytes + (torn + between) } :: rest
      = { line with bytes := line.bytes + between + torn } :: rest
    rw [Nat.add_comm torn between, Nat.add_assoc]

/-- **Two writes are one.** -/
theorem write_write (file : File ε) (first second : List (Line ε)) (between torn : Nat) :
    ∃ lines rest, (file.write first between).write second torn = file.write lines rest := by
  cases second with
  | nil =>
    refine ⟨first, between + torn, ?_⟩
    cases first with
    | nil => exact congrArg (File.mk file.lines) (Nat.add_assoc _ _ _)
    | cons line rest => rfl
  | cons line rest =>
    refine ⟨first ++ finishTorn between (line :: rest), torn, ?_⟩
    cases first with
    | nil =>
      have joined := finishTorn_add file.torn between (line :: rest)
      exact congrArg (fun lines => File.mk (file.lines ++ lines) torn) joined
    | cons start others =>
      show File.mk (file.lines ++ finishTorn file.torn (start :: others)
        ++ finishTorn between (line :: rest)) torn = _
      rw [List.append_assoc]
      rfl

theorem write_eq_of_size {file : File ε} {lines : List (Line ε)} {torn : Nat}
    (same : (file.write lines torn).size = file.size) : file.write lines torn = file := by
  rw [size_write] at same
  obtain rfl : lines = [] := size_eq_zero (by omega)
  obtain rfl : torn = 0 := by omega
  rfl

end Lines
