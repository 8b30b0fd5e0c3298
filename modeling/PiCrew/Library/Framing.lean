/-
**Lines of a stream that arrives in pieces.**

A stream is cut at a separator into complete lines and an unfinished one. A reader that keeps the
unfinished line and puts the next piece behind it sees the lines of the whole stream, wherever the pieces
end.

* `lines_append`, `tail_append` — the lines of a stream from those of its front and what is unfinished
  in it.
-/

import Mathlib.Data.List.Infix
import Mathlib.Data.List.Flatten

namespace Framing

variable {α : Type*} [DecidableEq α] (separator : α)

section

/-- **The complete lines of a stream and the unfinished one.** -/
def cut : List α → List (List α) × List α
  | [] => ([], [])
  | item :: rest =>
    if item = separator then ([] :: (cut rest).1, (cut rest).2)
    else match (cut rest).1 with
      | [] => ([], item :: (cut rest).2)
      | line :: others => ((item :: line) :: others, (cut rest).2)

def lines (stream : List α) : List (List α) := (cut separator stream).1

def tail (stream : List α) : List α := (cut separator stream).2

/-- **The first line**, and what stands behind its separator. -/
def takeLine : List α → Option (List α × List α)
  | [] => none
  | item :: rest =>
    if item = separator then some ([], rest)
    else (takeLine rest).map fun taken => (item :: taken.1, taken.2)

variable {separator}

theorem cut_separator (rest : List α) :
    cut separator (separator :: rest) = ([] :: lines separator rest, tail separator rest) :=
  if_pos rfl

theorem cut_open {item : α} (apart : item ≠ separator) {rest : List α}
    (none : lines separator rest = []) :
    cut separator (item :: rest) = ([], item :: tail separator rest) := by
  rw [cut, if_neg apart, show (cut separator rest).1 = [] from none]
  rfl

theorem cut_line {item : α} (apart : item ≠ separator) {rest line : List α} {others : List (List α)}
    (some : lines separator rest = line :: others) :
    cut separator (item :: rest) = ((item :: line) :: others, tail separator rest) := by
  rw [cut, if_neg apart, show (cut separator rest).1 = line :: others from some]
  rfl

section

variable {stream : List α} (apart : separator ∉ stream)

include apart

theorem cut_of_not_mem : cut separator stream = ([], stream) := by
  induction stream with
  | nil => rfl
  | cons item rest ih =>
    obtain ⟨first, others⟩ := List.ne_and_not_mem_of_not_mem_cons apart
    have none : lines separator rest = [] := congrArg Prod.fst (ih others)
    rw [cut_open first.symm none, tail, ih others]

theorem lines_of_not_mem : lines separator stream = [] :=
  congrArg Prod.fst (cut_of_not_mem apart)

theorem tail_of_not_mem : tail separator stream = stream :=
  congrArg Prod.snd (cut_of_not_mem apart)

end

theorem not_mem_tail (stream : List α) : separator ∉ tail separator stream := by
  induction stream with
  | nil => exact List.not_mem_nil
  | cons item rest ih =>
    by_cases same : item = separator
    · subst same
      rw [tail, cut_separator]
      exact ih
    · cases first : lines separator rest with
      | nil =>
        rw [tail, cut_open same first]
        exact List.not_mem_cons_of_ne_of_not_mem (fun other => same other.symm) ih
      | cons line others =>
        rw [tail, cut_line same first]
        exact ih

theorem cut_line_append {line : List α} (apart : separator ∉ line) (rest : List α) :
    cut separator (line ++ separator :: rest) = (line :: lines separator rest, tail separator rest) := by
  induction line with
  | nil => exact cut_separator rest
  | cons item line ih =>
    obtain ⟨first, others⟩ := List.ne_and_not_mem_of_not_mem_cons apart
    have found : lines separator (line ++ separator :: rest) = line :: lines separator rest :=
      congrArg Prod.fst (ih others)
    rw [List.cons_append, cut_line first.symm found, tail, ih others]

theorem takeLine_spec (separator : α) (stream : List α) :
    match takeLine separator stream with
    | none => separator ∉ stream
    | some (line, rest) => separator ∉ line ∧ stream = line ++ separator :: rest := by
  induction stream with
  | nil => exact List.not_mem_nil
  | cons item stream ih =>
    by_cases same : item = separator
    · subst same
      rw [takeLine, if_pos rfl]
      exact ⟨List.not_mem_nil, rfl⟩
    · rw [takeLine, if_neg same]
      have apart : separator ≠ item := fun other => same other.symm
      cases taken : takeLine separator stream with
      | none =>
        rw [taken] at ih
        exact List.not_mem_cons_of_ne_of_not_mem apart ih
      | some pair =>
        obtain ⟨line, rest⟩ := pair
        rw [taken] at ih
        exact ⟨List.not_mem_cons_of_ne_of_not_mem apart ih.1, congrArg (item :: ·) ih.2⟩

theorem takeLine_none {stream : List α} (none : takeLine separator stream = none) :
    separator ∉ stream := by
  have spec := takeLine_spec separator stream
  rwa [none] at spec

theorem takeLine_some {stream line rest : List α} (some : takeLine separator stream = some (line, rest)) :
    separator ∉ line ∧ stream = line ++ separator :: rest := by
  have spec := takeLine_spec separator stream
  rwa [some] at spec

end

section

variable {separator}

def written (separator : α) (lines : List (List α)) : List α := lines.flatMap (· ++ [separator])

omit [DecidableEq α] in
theorem written_cons (line : List α) (others : List (List α)) :
    written separator (line :: others) = line ++ separator :: written separator others := by
  rw [written, List.flatMap_cons, List.append_assoc, List.singleton_append]
  rfl

theorem not_mem_lines (stream : List α) : ∀ line ∈ lines separator stream, separator ∉ line := by
  induction stream with
  | nil => exact fun line member => nomatch member
  | cons item rest ih =>
    by_cases same : item = separator
    · subst same
      rw [lines, cut_separator]
      exact List.forall_mem_cons.mpr ⟨List.not_mem_nil, ih⟩
    · cases first : lines separator rest with
      | nil =>
        rw [lines, cut_open same first]
        exact fun line member => nomatch member
      | cons line others =>
        rw [lines, cut_line same first]
        rw [first] at ih
        obtain ⟨apart, more⟩ := List.forall_mem_cons.mp ih
        exact List.forall_mem_cons.mpr
          ⟨List.not_mem_cons_of_ne_of_not_mem (fun other => same other.symm) apart, more⟩

theorem written_lines (separator : α) (stream : List α) :
    written separator (lines separator stream) ++ tail separator stream = stream := by
  induction stream with
  | nil => rfl
  | cons item rest ih =>
    by_cases same : item = separator
    · subst same
      rw [lines, tail, cut_separator, written_cons, List.nil_append, List.cons_append, ih]
    · cases first : lines separator rest with
      | nil =>
        rw [first] at ih
        rw [lines, tail, cut_open same first]
        exact congrArg (item :: ·) ih
      | cons line others =>
        rw [first, written_cons] at ih
        rw [lines, tail, cut_line same first, written_cons, List.cons_append, List.cons_append, ih]

section

variable {front : List (List α)} (apart : ∀ line ∈ front, separator ∉ line) (rest : List α)

include apart rest

theorem cut_written : cut separator (written separator front ++ rest)
      = (front ++ lines separator rest, tail separator rest) := by
  induction front with
  | nil => rfl
  | cons line front ih =>
    obtain ⟨first, others⟩ := List.forall_mem_cons.mp apart
    rw [written_cons, List.append_assoc, List.cons_append, cut_line_append first, lines, tail,
      ih others]
    rfl

theorem lines_written :
    lines separator (written separator front ++ rest) = front ++ lines separator rest :=
  (congrArg Prod.fst (cut_written apart rest) :)

theorem tail_written : tail separator (written separator front ++ rest) = tail separator rest :=
  (congrArg Prod.snd (cut_written apart rest) :)

end

/-- **The lines of a stream** from those of its front and what is unfinished in it. -/
theorem lines_append (front rest : List α) : lines separator (front ++ rest)
      = lines separator front ++ lines separator (tail separator front ++ rest) := by
  conv_lhs => rw [← written_lines separator front, List.append_assoc]
  exact lines_written (not_mem_lines front) _

theorem tail_append (front rest : List α) :
    tail separator (front ++ rest) = tail separator (tail separator front ++ rest) := by
  conv_lhs => rw [← written_lines separator front, List.append_assoc]
  exact tail_written (not_mem_lines front) _

end

end Framing
