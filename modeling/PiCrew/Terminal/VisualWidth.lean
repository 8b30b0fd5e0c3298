/-
**Lines that fit the terminal.**

The width of a text is measured by the renderer. The helpers cut or wrap a line segment by segment, where a
segment is an escape sequence, of no width, or what they take for a character and measure. They take
characters in two ways: the one that wraps takes a surrogate pair as its two halves.

* `tailLoop_spec` — the tail is read from the end, up to the first line that is enough;
* `visualWidth_bounds` — the bounds on the width, and the tail against the whole.
-/

import Mathlib.Data.List.DropRight
import PiCrew.EventLog.LogStats
import PiCrew.Library.Scanner
import PiCrew.Terminal.Ansi

namespace PiCrew.Terminal.VisualWidth

open JsonText Scanner
open EventLog.LogStats (isSpace)

section

/-- `text.codePointAt(0)`: a surrogate without its partner is a code of its own. -/
def codePointAt : Text → Nat
  | [] => 0
  | [unit] => unit.toNat
  | unit :: next :: _ =>
    if isLead unit && isTrail next then
      (unit.toNat - 0xD800) * 0x400 + (next.toNat - 0xDC00) + 0x10000
    else unit.toNat

def wholeCodePoint (text : Text) : Nat := if 0xFFFF < codePointAt text then 2 else 1

/-- The units of a character, as the loop that wraps takes it. A pair has a code above its range, so it
takes two units only at a lead without its trail. -/
def takeCodePoint (text : Text) : Nat :=
  let code := codePointAt text
  if 0xD800 ≤ code ∧ code ≤ 0xDBFF ∧ 1 < text.length then 2 else 1

/-- What a loop reads in one pass. -/
inductive Segment where
  | sequence (code : Text)
  | chunk (text : Text)
  deriving DecidableEq

def Segment.text : Segment → Text
  | .sequence code => code
  | .chunk text => text

/-- One pass: an escape sequence, or else a character. -/
def segmentMove (take : Text → Nat) (text : Text) : Move Segment :=
  let ansiLen := consumeAnsi text
  if 0 < ansiLen then ⟨[.sequence (text.take ansiLen)], ansiLen⟩
  else ⟨[.chunk (text.take (take text))], take text⟩

def segments (take : Text → Nat) (text : Text) : List Segment := scan (segmentMove take) text

variable (visibleWidth : Text → Nat)

def truncateLoop (limit : Nat) (ellipsis : Text) : Text → Nat → List Segment → Text
  | output, _, [] => output
  | output, renderedWidth, .sequence code :: rest =>
    truncateLoop limit ellipsis (output ++ code) renderedWidth rest
  | output, renderedWidth, .chunk text :: rest =>
    let charWidth := visibleWidth text
    if renderedWidth + charWidth > limit then output ++ ellipsis
    else truncateLoop limit ellipsis (output ++ text) (renderedWidth + charWidth) rest

/-- **A text cut to a width**, with the ellipsis behind what is kept. -/
def truncateToWidth (value : Text) (width : Nat) (ellipsis : Text) : Text :=
  if width = 0 then []
  else if visibleWidth value ≤ width then value
  else if width ≤ ellipsis.length then ellipsis.take width
  else truncateLoop visibleWidth (width - ellipsis.length) ellipsis [] 0 (segments wholeCodePoint value)

/-- The variables of the loop that wraps. -/
structure Wrapping where
  lines : List Text
  current : Text
  currentWidth : Nat

def wrapStep (width : Nat) (loop : Wrapping) : Segment → Wrapping
  | .sequence code => { loop with current := loop.current ++ code }
  | .chunk text =>
    let chunkWidth := visibleWidth text
    if chunkWidth > width then ⟨loop.lines ++ [loop.current ++ text], [], 0⟩
    else if loop.currentWidth + chunkWidth > width then
      ⟨if loop.current ≠ [] then loop.lines ++ [loop.current] else loop.lines, text, chunkWidth⟩
    else ⟨loop.lines, loop.current ++ text, loop.currentWidth + chunkWidth⟩

def wrapHard (value : Text) (width : Nat) : List Text :=
  if width = 0 ∨ value = [] then []
  else
    let loop := (segments takeCodePoint value).foldl (wrapStep visibleWidth width) ⟨[], [], 0⟩
    let lines := if loop.current ≠ [] then loop.lines ++ [loop.current] else loop.lines
    if lines.length > 0 then lines else [[]]

def pad (value : Text) (width : Nat) : Text :=
  let current := visibleWidth value
  if current ≥ width then value else value ++ List.replicate (width - current) 0x20

def trimEnd (text : Text) : Text := (text.reverse.dropWhile isSpace).reverse

structure VisualTruncateResult where
  visualLines : List Text
  skippedCount : Nat

/-- `Math.max(1, width - paddingX * 2)` -/
def effectiveWidth (width paddingX : Int) : Nat := (max 1 (width - paddingX * 2)).toNat

/-- `Math.max(1, maxVisualLines)` -/
def limitOf (maxVisualLines : Int) : Nat := (max 1 maxVisualLines).toNat

def visualLinesOf (width : Nat) (line : Text) : List Text :=
  wrapHard visibleWidth (trimEnd (pad visibleWidth line width)) width

/-- **The last visual lines of a text**, of which all are wrapped. -/
def truncateToVisualLines (text : Text) (maxVisualLines width paddingX : Int) : VisualTruncateResult :=
  if text = [] then ⟨[], 0⟩
  else
    let limit := limitOf maxVisualLines
    let visualLines :=
      (text.splitOn 0x0A).flatMap (visualLinesOf visibleWidth (effectiveWidth width paddingX))
    if visualLines.length ≤ limit then ⟨visualLines, 0⟩
    else ⟨visualLines.rtake limit, visualLines.length - limit⟩

/-- The loop from the last line of the source: what was wrapped, and how many lines are left. -/
def tailLoop (wrap : Text → List Text) (limit : Nat) :
    List (List Text) → Nat → List Text → List (List Text) × Nat
  | wrapped, _, [] => (wrapped, 0)
  | wrapped, collected, line :: before =>
    if collected < limit then
      tailLoop wrap limit (wrapped ++ [wrap line]) (collected + (wrap line).length) before
    else (wrapped, (line :: before).length)

/-- **The last visual lines of a text**, wrapped from its end. -/
def truncateToVisualLinesTail (text : Text) (maxVisualLines width paddingX : Int) : VisualTruncateResult :=
  if text = [] then ⟨[], 0⟩
  else
    let limit := limitOf maxVisualLines
    let (wrapped, left) := tailLoop (visualLinesOf visibleWidth (effectiveWidth width paddingX)) limit [] 0
      (text.splitOn 0x0A).reverse
    ⟨wrapped.reverse.flatten.rtake limit, left⟩

end

section

variable {take : Text → Nat} {visibleWidth : Text → Nat} {text rest other : Text}

def textOf (run : List Segment) : Text := run.flatMap Segment.text

def Segment.width (visibleWidth : Text → Nat) : Segment → Nat
  | .sequence _ => 0
  | .chunk text => visibleWidth text

def cost (visibleWidth : Text → Nat) (run : List Segment) : Nat :=
  (run.map (Segment.width visibleWidth)).sum

@[simp]
theorem cost_nil : cost visibleWidth [] = 0 := rfl

@[simp]
theorem cost_cons (segment : Segment) (run : List Segment) :
    cost visibleWidth (segment :: run) = segment.width visibleWidth + cost visibleWidth run := List.sum_cons

@[simp]
theorem cost_append (front back : List Segment) :
    cost visibleWidth (front ++ back) = cost visibleWidth front + cost visibleWidth back := by
  simp [cost]

@[simp]
theorem textOf_append (front back : List Segment) : textOf (front ++ back) = textOf front ++ textOf back :=
  List.flatMap_append

/-- **The width of a text is that of its segments**, as they are taken. -/
def Additive (take : Text → Nat) (visibleWidth : Text → Nat) (text : Text) : Prop :=
  visibleWidth text = cost visibleWidth (segments take text)

theorem wholeCodePoint_pos (text : Text) : 0 < wholeCodePoint text := by
  rw [wholeCodePoint]
  split <;> decide

theorem takeCodePoint_pos (text : Text) : 0 < takeCodePoint text := by
  rw [takeCodePoint]
  split <;> decide

variable (positive : ∀ text, 0 < take text)

include positive

theorem segmentMove_advances : Advances (segmentMove take) := by
  intro item rest
  rw [segmentMove]
  split
  · assumption
  · exact positive _

theorem segments_sequence (found : 0 < consumeAnsi text) : segments take text =
    .sequence (text.take (consumeAnsi text)) :: segments take (text.drop (consumeAnsi text)) := by
  cases text with
  | nil => simp [consumeAnsi] at found
  | cons item rest =>
    rw [segments, scan_cons (segmentMove_advances positive), segmentMove,
      if_pos found]
    rfl

theorem segments_chunk (none : consumeAnsi text = 0) (nonempty : text ≠ []) : segments take text =
    .chunk (text.take (take text)) :: segments take (text.drop (take text)) := by
  obtain ⟨item, rest, rfl⟩ := List.exists_cons_of_ne_nil nonempty
  rw [segments, scan_cons (segmentMove_advances positive), segmentMove,
    if_neg (by rw [none]; decide)]
  rfl

theorem textOf_segments (text : Text) :
    textOf (segments take text) = text ∧ ∀ segment ∈ segments take text, segment.text ≠ [] := by
  induction length : text.length using Nat.strong_induction_on generalizing text with
  | _ bound ih =>
    subst length
    by_cases nonempty : text = []
    · subst nonempty
      exact ⟨rfl, List.forall_mem_nil _⟩
    · have long := List.length_pos_iff.mpr nonempty
      by_cases found : 0 < consumeAnsi text
      · obtain ⟨same, each⟩ := ih _ (by rw [List.length_drop]; omega) (text.drop (consumeAnsi text)) rfl
        rw [segments_sequence positive found]
        refine ⟨?_, List.forall_mem_cons.mpr ⟨?_, each⟩⟩
        · rw [textOf, List.flatMap_cons, ← textOf, same]
          exact List.take_append_drop _ _
        · exact fun empty => (List.take_eq_nil_iff.mp empty).elim (Nat.ne_of_gt found) nonempty
      · have step := positive text
        obtain ⟨same, each⟩ := ih _ (by rw [List.length_drop]; omega) (text.drop (take text)) rfl
        rw [segments_chunk positive (Nat.eq_zero_of_not_pos found) nonempty]
        refine ⟨?_, List.forall_mem_cons.mpr ⟨?_, each⟩⟩
        · rw [textOf, List.flatMap_cons, ← textOf, same]
          exact List.take_append_drop _ _
        · exact fun empty => (List.take_eq_nil_iff.mp empty).elim (Nat.ne_of_gt step) nonempty

end

section

variable {take : Text → Nat} {visibleWidth : Text → Nat} {text front rest ending : Text}

/-- A character is taken from a text that has it, and has a unit at least. -/
structure Takes (take : Text → Nat) : Prop where
  positive : ∀ text, 0 < take text
  within : ∀ text, text ≠ [] → take text ≤ text.length

def Stable (take : Text → Nat) (ending : Text) : Prop :=
  ∀ front rest : Text, front ≠ [] → take (front ++ rest) ≤ front.length →
    take (front ++ ending) = take (front ++ rest)

theorem consumeAnsi_completed (none : consumeAnsi (front ++ rest) = 0)
    (found : 0 < consumeAnsi (front ++ ending)) : front.length < consumeAnsi (front ++ ending) := by
  by_contra short
  have short := Nat.le_of_not_lt short
  have cut := consumeAnsi_cut found (front.drop (consumeAnsi (front ++ ending)) ++ rest)
  rw [List.take_append_of_le_length short, ← List.append_assoc, List.take_append_drop, none] at cut
  exact Nat.ne_of_lt found cut

variable (takes : Takes take)

include takes

theorem segments_append_sequence {code : Text} (found : 0 < consumeAnsi code)
    (whole : consumeAnsi code = code.length) :
    segments take (code ++ rest) = .sequence code :: segments take rest := by
  have same := consumeAnsi_cut found rest
  rw [whole, List.take_length] at same
  rw [segments_sequence takes.positive (by rw [same, ← whole]; exact found), same, List.take_left' rfl,
    List.drop_left' rfl]

theorem segments_append_chunk {chunk : Text} (nonempty : chunk ≠ []) (none : consumeAnsi (chunk ++ rest) = 0)
    (taken : take (chunk ++ rest) = chunk.length) :
    segments take (chunk ++ rest) = .chunk chunk :: segments take rest := by
  rw [segments_chunk takes.positive none fun empty => nonempty (List.append_eq_nil_iff.mp empty).1, taken,
    List.take_left' rfl, List.drop_left' rfl]

theorem segments_head {segment : Segment} {later : List Segment}
    (parts : segments take text = segment :: later) :
    ∃ rest, text = segment.text ++ rest ∧ segments take rest = later ∧
      match segment with
      | .sequence code => 0 < consumeAnsi code ∧ consumeAnsi code = code.length
      | .chunk chunk => chunk ≠ [] ∧ consumeAnsi (chunk ++ rest) = 0 ∧ take (chunk ++ rest) = chunk.length := by
  have nonempty : text ≠ [] := by
    rintro rfl
    cases parts
  by_cases found : 0 < consumeAnsi text
  · rw [segments_sequence takes.positive found, List.cons.injEq] at parts
    obtain ⟨rfl, rfl⟩ := parts
    have same := consumeAnsi_cut found []
    rw [List.append_nil] at same
    refine ⟨_, (List.take_append_drop _ _).symm, rfl, ?_⟩
    dsimp only
    rw [same, List.length_take]
    exact ⟨found, (Nat.min_eq_left (consumeAnsi_le text)).symm⟩
  · have none := Nat.eq_zero_of_not_pos found
    rw [segments_chunk takes.positive none nonempty, List.cons.injEq] at parts
    obtain ⟨rfl, rfl⟩ := parts
    refine ⟨_, (List.take_append_drop _ _).symm, rfl, ?_⟩
    dsimp only
    rw [List.take_append_drop, List.length_take]
    refine ⟨fun empty => ?_, none, (Nat.min_eq_left (takes.within text nonempty)).symm⟩
    exact (List.take_eq_nil_iff.mp empty).elim (Nat.ne_of_gt (takes.positive text)) nonempty

/-- **A text cut between two segments** has the same segments, and those of its ending, unless the ending
completes a sequence. -/
theorem segments_cut (stable : Stable take ending) {run later : List Segment}
    (parts : segments take text = run ++ later) :
    segments take (textOf run ++ ending) = run ++ segments take ending ∨
      ending ≠ [] ∧ ∃ kept code rest, kept <+: run ∧ rest <:+ ending ∧
        segments take (textOf run ++ ending) = kept ++ .sequence code :: segments take rest := by
  induction run generalizing text with
  | nil => exact .inl rfl
  | cons segment run ih =>
    rw [List.cons_append] at parts
    obtain ⟨rest, rfl, behind, first⟩ := segments_head takes parts
    have further (read : segments take (segment.text ++ (textOf run ++ ending)) =
        segment :: segments take (textOf run ++ ending)) :
        segments take (textOf (segment :: run) ++ ending) = segment :: run ++ segments take ending ∨
          ending ≠ [] ∧ ∃ kept code rest, kept <+: segment :: run ∧ rest <:+ ending ∧
            segments take (textOf (segment :: run) ++ ending) =
              kept ++ .sequence code :: segments take rest := by
      rw [textOf, List.flatMap_cons, ← textOf, List.append_assoc, read]
      rcases ih behind with same | ⟨completed, kept, code, last, within, suffix, same⟩
      · exact .inl (by rw [same]; rfl)
      · exact .inr ⟨completed, segment :: kept, code, last, List.cons_prefix_cons.mpr ⟨rfl, within⟩,
          suffix, by rw [same]; rfl⟩
    cases segment with
    | sequence code => exact further (segments_append_sequence takes first.1 first.2)
    | chunk chunk =>
      obtain ⟨nonempty, none, taken⟩ := first
      have split : rest = textOf run ++ textOf later := by
        rw [← textOf_append, ← behind, (textOf_segments takes.positive rest).1]
      subst split
      by_cases found : 0 < consumeAnsi (chunk ++ (textOf run ++ ending))
      · -- the sequence takes all that was kept, and some of the ending
        rw [← List.append_assoc] at none found
        have long := consumeAnsi_completed none found
        have bound := consumeAnsi_le (chunk ++ textOf run ++ ending)
        have read : segments take (textOf (.chunk chunk :: run) ++ ending) =
            .sequence ((chunk ++ textOf run ++ ending).take (consumeAnsi (chunk ++ textOf run ++ ending))) ::
              segments take (ending.drop (consumeAnsi (chunk ++ textOf run ++ ending) -
                (chunk ++ textOf run).length)) := by
          rw [textOf, List.flatMap_cons, ← textOf, Segment.text, segments_sequence takes.positive found,
            List.drop_append, List.drop_eq_nil_of_le (Nat.le_of_lt long), List.nil_append]
        refine .inr ⟨?_, [], _, _, List.nil_prefix, List.drop_suffix _ _, read⟩
        rintro rfl
        rw [List.append_nil] at long bound
        omega
      · refine further (segments_append_chunk takes nonempty (Nat.eq_zero_of_not_pos found) ?_)
        have same := stable (chunk ++ textOf run) (textOf later)
          (fun empty => nonempty (List.append_eq_nil_iff.mp empty).1)
          (by rw [List.append_assoc, taken, List.length_append]; omega)
        rw [Segment.text, ← List.append_assoc, same, List.append_assoc, taken]

theorem segments_run (stable : Stable take []) {before run later : List Segment}
    (parts : segments take text = before ++ (run ++ later)) : segments take (textOf run) = run := by
  have behind : ∀ (before : List Segment) text, segments take text = before ++ (run ++ later) →
      ∃ rest, segments take rest = run ++ later := by
    intro before
    induction before with
    | nil => exact fun text parts => ⟨text, parts⟩
    | cons segment before ih =>
      intro text parts
      obtain ⟨rest, -, same, -⟩ := segments_head takes parts
      exact ih rest same
  obtain ⟨rest, same⟩ := behind before text parts
  rcases segments_cut takes stable same with whole | ⟨completed, -⟩
  · simpa [segments] using whole
  · exact absurd rfl completed

end

theorem codePointAt_pair {lead trail : UInt16} (first : isLead lead = true) (second : isTrail trail = true)
    (rest : Text) : 0xFFFF < codePointAt (lead :: trail :: rest) := by
  rw [codePointAt, if_pos (by rw [first, second]; rfl)]
  omega

theorem codePointAt_alone {unit : UInt16} {rest : Text}
    (alone : isLead unit = false ∨ ∀ next ∈ rest.head?, isTrail next = false) :
    codePointAt (unit :: rest) = unit.toNat := by
  cases rest with
  | nil => rfl
  | cons next rest =>
    rw [codePointAt, if_neg]
    rcases alone with first | second
    · simp [first]
    · simp [second next rfl]

theorem codePointAt_append {front : Text} (two : 2 ≤ front.length) (rest : Text) :
    codePointAt (front ++ rest) = codePointAt front := by
  match front, two with
  | _ :: _ :: _, _ => rfl

theorem takes_wholeCodePoint : Takes wholeCodePoint where
  positive := wholeCodePoint_pos
  within text nonempty := by
    rw [wholeCodePoint]
    match text, nonempty with
    | [unit], _ =>
      rw [codePointAt, if_neg (Nat.not_lt.mpr (Nat.le_of_lt_succ unit.toNat_lt))]
      exact Nat.le_refl _
    | _ :: _ :: _, _ =>
      simp only [List.length_cons]
      split <;> omega

theorem takes_takeCodePoint : Takes takeCodePoint where
  positive := takeCodePoint_pos
  within text nonempty := by
    have := List.length_pos_iff.mpr nonempty
    rw [takeCodePoint]
    split <;> omega

theorem stable_wholeCodePoint {ending : Text} (whole : ∀ unit ∈ ending.head?, isTrail unit = false) :
    Stable wholeCodePoint ending := by
  intro front rest nonempty taken
  match front, nonempty with
  | [unit], _ =>
    have small {text : Text} (same : codePointAt (unit :: text) = unit.toNat) :
        wholeCodePoint (unit :: text) = 1 := by
      rw [wholeCodePoint, same]
      exact if_neg (Nat.not_lt.mpr (Nat.le_of_lt_succ unit.toNat_lt))
    have alone : isLead unit = false ∨ ∀ next ∈ rest.head?, isTrail next = false := by
      by_contra pair
      obtain ⟨first, second⟩ := not_or.mp pair
      simp only [not_forall] at second
      obtain ⟨next, here, second⟩ := second
      obtain ⟨rest, rfl⟩ : ∃ later, rest = next :: later := by
        cases rest with
        | nil => cases here
        | cons head later =>
          cases here
          exact ⟨later, rfl⟩
      have pair := codePointAt_pair (Bool.eq_true_of_not_eq_false first)
        (Bool.eq_true_of_not_eq_false second) rest
      rw [List.singleton_append, wholeCodePoint, if_pos pair] at taken
      exact absurd taken (Nat.not_succ_le_self 1)
    rw [List.singleton_append, List.singleton_append, small (codePointAt_alone (.inr whole)),
      small (codePointAt_alone alone)]
  | first :: second :: front, _ =>
    have two : 2 ≤ (first :: second :: front).length := Nat.le_add_left 2 _
    rw [wholeCodePoint, wholeCodePoint, codePointAt_append two, codePointAt_append two]

theorem stable_takeCodePoint : Stable takeCodePoint [] := by
  intro front rest nonempty taken
  match front, nonempty with
  | [unit], _ =>
    have least := takeCodePoint_pos ([unit] ++ rest)
    have alone : takeCodePoint [unit] = 1 := if_neg fun both => Nat.lt_irrefl 1 both.2.2
    rw [List.append_nil, alone]
    exact Nat.le_antisymm least taken
  | first :: second :: front, _ =>
    have two : 2 ≤ (first :: second :: front).length := Nat.le_add_left 2 _
    have long (rest : Text) : 1 < (first :: second :: front ++ rest).length := by
      rw [List.length_append]
      omega
    simp only [takeCodePoint, codePointAt_append two, long]

section

variable {visibleWidth : Text → Nat} {value ellipsis : Text}

def Narrow (visibleWidth : Text → Nat) (text : Text) : Prop :=
  ∀ unit ∈ text, isLead unit = false ∧ isTrail unit = false ∧ visibleWidth [unit] ≤ 1

/-- **What the renderer promises of a text and its ellipsis**, which are measured together. -/
structure Measured (visibleWidth : Text → Nat) (value ellipsis : Text) : Prop where
  whole : Additive wholeCodePoint visibleWidth value
  kept : ∀ front, front <+: value → Additive wholeCodePoint visibleWidth (front ++ ellipsis)
  cut : ∀ front, front <+: ellipsis → Additive wholeCodePoint visibleWidth front

theorem wholeCodePoint_narrow {unit : UInt16} (alone : isLead unit = false) (rest : Text) :
    wholeCodePoint (unit :: rest) = 1 := by
  rw [wholeCodePoint, codePointAt_alone (.inl alone)]
  exact if_neg (Nat.not_lt.mpr (Nat.le_of_lt_succ unit.toNat_lt))

theorem cost_narrow {text : Text} (narrow : Narrow visibleWidth text) :
    cost visibleWidth (segments wholeCodePoint text) ≤ text.length := by
  induction length : text.length using Nat.strong_induction_on generalizing text with
  | _ bound ih =>
    subst length
    have shorter (count : Nat) (positive : 0 < count) (nonempty : text ≠ []) :
        cost visibleWidth (segments wholeCodePoint (text.drop count)) ≤ (text.drop count).length := by
      have long := List.length_pos_iff.mpr nonempty
      exact ih _ (by rw [List.length_drop]; omega)
        (fun unit within => narrow unit (List.mem_of_mem_drop within)) rfl
    cases text with
    | nil => exact Nat.le_refl _
    | cons unit rest =>
      by_cases found : 0 < consumeAnsi (unit :: rest)
      · have later := shorter _ found (List.cons_ne_nil _ _)
        rw [segments_sequence wholeCodePoint_pos found, cost_cons]
        rw [List.length_drop] at later
        simp only [Segment.width]
        omega
      · obtain ⟨alone, -, small⟩ := narrow unit List.mem_cons_self
        have later := shorter 1 Nat.one_pos (List.cons_ne_nil _ _)
        rw [segments_chunk wholeCodePoint_pos (Nat.eq_zero_of_not_pos found) (List.cons_ne_nil _ _),
          wholeCodePoint_narrow alone, cost_cons]
        have here : Segment.width visibleWidth (.chunk ((unit :: rest).take 1)) ≤ 1 := small
        simp only [List.drop_succ_cons, List.drop_zero, List.length_cons] at later ⊢
        omega

theorem cost_cut (narrow : Narrow visibleWidth ellipsis) {run later : List Segment}
    (parts : segments wholeCodePoint value = run ++ later) :
    cost visibleWidth (segments wholeCodePoint (textOf run ++ ellipsis)) ≤
      cost visibleWidth run + ellipsis.length := by
  have stable := @stable_wholeCodePoint ellipsis fun unit first =>
    (narrow unit (List.mem_of_mem_head? first)).2.1
  rcases segments_cut takes_wholeCodePoint stable parts with same | ⟨-, kept, code, rest, within, behind, same⟩
  · rw [same, cost_append]
    exact Nat.add_le_add_left (cost_narrow narrow) _
  · obtain ⟨others, rfl⟩ := within
    have small := @cost_narrow visibleWidth rest fun unit member => narrow unit (behind.subset member)
    have short := behind.length_le
    rw [same, cost_append, cost_cons, cost_append]
    simp only [Segment.width]
    omega

/-- **What the loop keeps**: a run that fits, with the ellipsis, or all. -/
theorem truncateLoop_spec {limit : Nat} {done : List Segment} (fits : cost visibleWidth done ≤ limit)
    (run : List Segment) :
    (∃ kept later, run = kept ++ later ∧ cost visibleWidth (done ++ kept) ≤ limit ∧
      truncateLoop visibleWidth limit ellipsis (textOf done) (cost visibleWidth done) run =
        textOf (done ++ kept) ++ ellipsis) ∨
    (cost visibleWidth (done ++ run) ≤ limit ∧
      truncateLoop visibleWidth limit ellipsis (textOf done) (cost visibleWidth done) run =
        textOf (done ++ run)) := by
  induction run generalizing done with
  | nil =>
    rw [List.append_nil]
    exact .inr ⟨fits, rfl⟩
  | cons segment run ih =>
    have further (small : cost visibleWidth (done ++ [segment]) ≤ limit)
        (step : truncateLoop visibleWidth limit ellipsis (textOf done) (cost visibleWidth done)
            (segment :: run) = truncateLoop visibleWidth limit ellipsis (textOf (done ++ [segment]))
            (cost visibleWidth (done ++ [segment])) run) :
        (∃ kept later, segment :: run = kept ++ later ∧ cost visibleWidth (done ++ kept) ≤ limit ∧
          truncateLoop visibleWidth limit ellipsis (textOf done) (cost visibleWidth done) (segment :: run) =
            textOf (done ++ kept) ++ ellipsis) ∨
        (cost visibleWidth (done ++ segment :: run) ≤ limit ∧
          truncateLoop visibleWidth limit ellipsis (textOf done) (cost visibleWidth done) (segment :: run) =
            textOf (done ++ segment :: run)) := by
      rw [step, List.append_cons done segment run]
      rcases ih small with ⟨kept, later, rfl, short, same⟩ | whole
      · refine .inl ⟨segment :: kept, later, rfl, ?_, ?_⟩
        · rwa [List.append_cons]
        · rw [same, List.append_cons done segment kept]
      · exact .inr whole
    cases segment with
    | sequence code =>
      refine further ?_ ?_
      · simpa [Segment.width] using fits
      · rw [truncateLoop]
        simp [Segment.width, textOf, Segment.text]
    | chunk text =>
      by_cases wide : cost visibleWidth done + visibleWidth text > limit
      · refine .inl ⟨[], _, rfl, ?_, ?_⟩
        · rwa [List.append_nil]
        · rw [truncateLoop, if_pos wide, List.append_nil]
      · refine further ?_ ?_
        · simpa [Segment.width] using Nat.le_of_not_lt wide
        · rw [truncateLoop, if_neg wide]
          simp [Segment.width, textOf, Segment.text]

theorem truncateToWidth_le {width : Nat} (positive : 1 ≤ width)
    (measured : Measured visibleWidth value ellipsis) (narrow : Narrow visibleWidth ellipsis) :
    visibleWidth (truncateToWidth visibleWidth value width ellipsis) ≤ width := by
  rw [truncateToWidth, if_neg (Nat.ne_of_gt positive)]
  split
  · assumption
  · next long =>
      split
      · have cut := List.take_prefix width ellipsis
        rw [measured.cut _ cut]
        refine Nat.le_trans (cost_narrow fun unit within => narrow unit (cut.subset within)) ?_
        exact List.length_take_le _ _
      · next room =>
          rcases @truncateLoop_spec visibleWidth ellipsis (width - ellipsis.length) [] (Nat.zero_le _)
            (segments wholeCodePoint value) with
            ⟨kept, later, parts, fits, same⟩ | ⟨fits, -⟩
          · have within : textOf kept <+: value := by
              rw [← (textOf_segments wholeCodePoint_pos value).1, parts, textOf_append]
              exact List.prefix_append _ _
            have bound := cost_cut narrow parts
            rw [List.nil_append] at fits same
            rw [show truncateLoop visibleWidth (width - ellipsis.length) ellipsis [] 0
              (segments wholeCodePoint value) = textOf kept ++ ellipsis from same, measured.kept _ within]
            omega
          · rw [List.nil_append, ← measured.whole] at fits
            omega

end

section

variable {visibleWidth : Text → Nat} {width : Nat} {value : Text}

/-- **What the loop that wraps keeps**: the lines are runs of the segments so far, each within the width if
its segments are, and what is left is a run that fits. -/
structure Wraps (visibleWidth : Text → Nat) (width : Nat) (run : List Segment) (loop : Wrapping)
    (lines : List (List Segment)) (current : List Segment) : Prop where
  parts : run = lines.flatten ++ current
  textLines : loop.lines = lines.map textOf
  textCurrent : loop.current = textOf current
  currentWidth : loop.currentWidth = cost visibleWidth current
  fits : cost visibleWidth current ≤ width
  narrow : ∀ line ∈ lines, (∀ segment ∈ line, segment.width visibleWidth ≤ width) →
    cost visibleWidth line ≤ width

theorem width_le_cost {segment : Segment} {run : List Segment} (within : segment ∈ run) :
    segment.width visibleWidth ≤ cost visibleWidth run := by
  obtain ⟨front, back, rfl⟩ := List.append_of_mem within
  rw [cost_append, cost_cons]
  omega

theorem textOf_eq_nil {run : List Segment} (each : ∀ segment ∈ run, segment.text ≠ []) :
    textOf run = [] ↔ run = [] := by
  cases run with
  | nil => simp [textOf]
  | cons segment run =>
    refine ⟨fun empty => absurd (List.append_eq_nil_iff.mp empty).1 (each segment List.mem_cons_self),
      nofun⟩

theorem wraps_step {run : List Segment} {loop : Wrapping} {lines : List (List Segment)} {current : List Segment}
    (wraps : Wraps visibleWidth width run loop lines current) (each : ∀ segment ∈ run, segment.text ≠ [])
    (segment : Segment) : ∃ lines current,
      Wraps visibleWidth width (run ++ [segment]) (wrapStep visibleWidth width loop segment) lines current := by
  obtain ⟨rfl, textLines, textCurrent, currentWidth, fits, narrow⟩ := wraps
  cases segment with
  | sequence code =>
    refine ⟨lines, current ++ [.sequence code], by simp, textLines, ?_, ?_, ?_, narrow⟩
    · simp [wrapStep, textCurrent, textOf, Segment.text]
    · simp [wrapStep, currentWidth, Segment.width]
    · simpa [Segment.width] using fits
  | chunk text =>
    by_cases wide : visibleWidth text > width
    · refine ⟨lines ++ [current ++ [.chunk text]], [], by simp, ?_, ?_, ?_, Nat.zero_le _, ?_⟩
      · simp [wrapStep, wide, textLines, textCurrent, textOf, Segment.text]
      · simp [wrapStep, wide, textOf]
      · simp [wrapStep, wide]
      · refine List.forall_mem_append.mpr ⟨narrow, List.forall_mem_singleton.mpr fun all => ?_⟩
        exact absurd (all (.chunk text) (by simp)) (Nat.not_le.mpr wide)
    · by_cases full : loop.currentWidth + visibleWidth text > width
      · refine ⟨if current = [] then lines else lines ++ [current], [.chunk text], ?_, ?_, ?_, ?_, ?_, ?_⟩
        · split <;> simp_all
        · have empty := textOf_eq_nil fun segment within => each segment (List.mem_append_right _ within)
          by_cases none : current = []
          · simp [wrapStep, wide, full, textLines, textCurrent, none, textOf]
          · simp [wrapStep, wide, full, textLines, textCurrent, none, empty]
        · simp [wrapStep, wide, full, textOf, Segment.text]
        · simp [wrapStep, wide, full, Segment.width]
        · simpa [Segment.width] using Nat.le_of_not_lt wide
        · split
          · exact narrow
          · exact List.forall_mem_append.mpr ⟨narrow, List.forall_mem_singleton.mpr fun _ => fits⟩
      · refine ⟨lines, current ++ [.chunk text], by simp, ?_, ?_, ?_, ?_, narrow⟩
        · simp [wrapStep, wide, full, textLines]
        · simp [wrapStep, wide, full, textCurrent, textOf, Segment.text]
        · simpa [wrapStep, wide, full, Segment.width] using currentWidth
        · rw [currentWidth] at full
          simpa [Segment.width] using Nat.le_of_not_lt full

theorem wraps_foldl (run : List Segment) (each : ∀ segment ∈ run, segment.text ≠ []) :
    ∃ lines current, Wraps visibleWidth width run
      (run.foldl (wrapStep visibleWidth width) ⟨[], [], 0⟩) lines current := by
  induction run using List.reverseRecOn with
  | nil => exact ⟨[], [], rfl, rfl, rfl, rfl, Nat.zero_le _, List.forall_mem_nil _⟩
  | append_singleton run segment ih =>
    obtain ⟨before, _⟩ := List.forall_mem_append.mp each
    obtain ⟨lines, current, wraps⟩ := ih before
    rw [List.foldl_append]
    exact wraps_step wraps before segment

theorem wrapHard_runs (positive : 1 ≤ width) : ∃ lines : List (List Segment),
    wrapHard visibleWidth value width = lines.map textOf ∧ segments takeCodePoint value = lines.flatten ∧
      ∀ line ∈ lines, (∀ segment ∈ line, segment.width visibleWidth ≤ width) →
        cost visibleWidth line ≤ width := by
  by_cases empty : value = []
  · subst empty
    exact ⟨[], if_pos (.inr rfl), rfl, List.forall_mem_nil _⟩
  · have each := (textOf_segments takeCodePoint_pos value).2
    obtain ⟨lines, current, parts, textLines, textCurrent, -, fits, narrow⟩ :=
      @wraps_foldl visibleWidth width (segments takeCodePoint value) each
    have currentEmpty := @textOf_eq_nil current fun segment within =>
      each segment (parts ▸ List.mem_append_right _ within)
    rw [wrapHard, if_neg (not_or.mpr ⟨Nat.ne_of_gt positive, empty⟩)]
    dsimp only
    rw [textLines, textCurrent]
    by_cases none : current = []
    · have some : lines ≠ [] := by
        rintro rfl
        rw [none] at parts
        exact empty (by rw [← (textOf_segments takeCodePoint_pos value).1, parts]; rfl)
      refine ⟨lines, ?_, by rw [parts, none, List.append_nil], narrow⟩
      rw [if_neg (not_not.mpr (currentEmpty.mpr none)),
        if_pos (by rw [List.length_map]; exact List.length_pos_iff.mpr some)]
    · refine ⟨lines ++ [current], ?_, by rw [parts]; simp, ?_⟩
      · rw [if_pos fun same => none (currentEmpty.mp same), if_pos (by simp)]
        simp
      · exact List.forall_mem_append.mpr ⟨narrow, List.forall_mem_singleton.mpr fun _ => fits⟩

theorem flatten_wrapHard (positive : 1 ≤ width) : (wrapHard visibleWidth value width).flatten = value := by
  obtain ⟨lines, same, parts, -⟩ := @wrapHard_runs visibleWidth width value positive
  rw [same, ← (textOf_segments takeCodePoint_pos value).1, parts, textOf, List.flatMap_def, List.map_flatten,
    List.flatten_flatten, List.map_map]
  rfl

theorem wrapHard_le_iff (positive : 1 ≤ width)
    (additive : ∀ part, part <:+: value → Additive takeCodePoint visibleWidth part) :
    (∀ line ∈ wrapHard visibleWidth value width, visibleWidth line ≤ width) ↔
      ∀ segment ∈ segments takeCodePoint value, segment.width visibleWidth ≤ width := by
  obtain ⟨lines, same, parts, narrow⟩ := @wrapHard_runs visibleWidth width value positive
  have measured : ∀ line ∈ lines, visibleWidth (textOf line) = cost visibleWidth line := by
    intro line within
    obtain ⟨before, later, rfl⟩ := List.append_of_mem within
    rw [List.flatten_append, List.flatten_cons] at parts
    have whole : value = textOf before.flatten ++ (textOf line ++ textOf later.flatten) := by
      rw [← textOf_append, ← textOf_append, ← parts, (textOf_segments takeCodePoint_pos value).1]
    have infixed : textOf line <:+: value := ⟨_, _, by rw [whole, List.append_assoc]⟩
    rw [additive _ infixed, segments_run takes_takeCodePoint stable_takeCodePoint parts]
  rw [same, List.forall_mem_map, parts]
  constructor
  · intro all segment within
    obtain ⟨line, member, here⟩ := List.mem_flatten.mp within
    calc segment.width visibleWidth ≤ cost visibleWidth line := width_le_cost here
      _ = visibleWidth (textOf line) := (measured line member).symm
      _ ≤ width := all line member
  · intro all line member
    rw [measured line member]
    exact narrow line member fun segment within => all segment (List.mem_flatten.mpr ⟨line, member, within⟩)

end

section

variable {α : Type*} {wrap : Text → List Text} {limit : Nat}

theorem rtake_append {front back : List α} (enough : limit ≤ back.length) :
    (front ++ back).rtake limit = back.rtake limit := by
  rw [List.rtake, List.rtake, List.length_append, List.drop_append, List.drop_eq_nil_of_le (by omega),
    List.nil_append]
  congr 1
  omega

theorem rtake_of_length_le {items : List α} (short : items.length ≤ limit) : items.rtake limit = items := by
  rw [List.rtake, Nat.sub_eq_zero_of_le short, List.drop_zero]

theorem length_flatMap_reverse (lines : List Text) :
    (lines.reverse.flatMap wrap).length = (lines.flatMap wrap).length :=
  ((List.reverse_perm lines).flatMap_right wrap).length_eq

/-- **What the loop reads**: the last lines, and of these as few as are enough. -/
theorem tailLoop_spec (before : List Text) {wrapped : List (List Text)} {collected : Nat} :
    ∃ read left, before = read ++ left ∧
      tailLoop wrap limit wrapped collected before = (wrapped ++ read.map wrap, left.length) ∧
      (left = [] ∨ limit ≤ collected + (read.flatMap wrap).length) ∧
      ∀ fewer more, read = fewer ++ more → more ≠ [] → collected + (fewer.flatMap wrap).length < limit := by
  induction before generalizing wrapped collected with
  | nil =>
    refine ⟨[], [], rfl, by rw [tailLoop]; simp, .inl rfl, fun fewer more parts some => ?_⟩
    exact absurd (List.append_eq_nil_iff.mp parts.symm).2 some
  | cons line before ih =>
    by_cases short : collected < limit
    · obtain ⟨read, left, rfl, same, enough, few⟩ :=
        @ih (wrapped ++ [wrap line]) (collected + (wrap line).length)
      refine ⟨line :: read, left, rfl, ?_, ?_, ?_⟩
      · rw [tailLoop, if_pos short, same]
        simp
      · rw [List.flatMap_cons, List.length_append, ← Nat.add_assoc]
        exact enough
      · intro fewer more parts some
        cases fewer with
        | nil => exact short
        | cons first fewer =>
          obtain ⟨same, behind⟩ := List.cons.inj parts
          rw [← same, List.flatMap_cons, List.length_append, ← Nat.add_assoc]
          exact few fewer more behind some
    · refine ⟨[], line :: before, rfl, ?_, .inr ?_, fun fewer more parts some => ?_⟩
      · rw [tailLoop, if_neg short]
        simp
      · exact Nat.le_of_not_lt short
      · exact absurd (List.append_eq_nil_iff.mp parts.symm).2 some

variable (visibleWidth : Text → Nat) (text : Text) (maxVisualLines width paddingX : Int)

def linesFrom (skipped : Nat) : List Text :=
  ((text.splitOn 0x0A).drop skipped).flatMap (visualLinesOf visibleWidth (effectiveWidth width paddingX))

/-- **The tail has the visual lines of the whole**, and was read from as few lines as hold them. -/
theorem truncateToVisualLinesTail_eq :
    (truncateToVisualLinesTail visibleWidth text maxVisualLines width paddingX).visualLines =
        (truncateToVisualLines visibleWidth text maxVisualLines width paddingX).visualLines ∧
      (text ≠ [] → (truncateToVisualLinesTail visibleWidth text maxVisualLines width paddingX).visualLines =
          (linesFrom visibleWidth text width paddingX (truncateToVisualLinesTail visibleWidth text
            maxVisualLines width paddingX).skippedCount).rtake (limitOf maxVisualLines)) ∧
      ∀ more, (truncateToVisualLinesTail visibleWidth text maxVisualLines width paddingX).skippedCount < more →
        more ≤ (text.splitOn 0x0A).length →
          (linesFrom visibleWidth text width paddingX more).length < limitOf maxVisualLines := by
  by_cases empty : text = []
  · subst empty
    simp only [truncateToVisualLinesTail, truncateToVisualLines, if_true]
    refine ⟨trivial, fun some => absurd rfl some, fun more skipped within => ?_⟩
    have one : List.splitOn 0x0A ([] : Text) = [[]] := rfl
    rw [one, List.length_singleton] at within
    obtain rfl : more = 1 := Nat.le_antisymm within skipped
    rw [linesFrom, one]
    exact Int.pos_iff_toNat_pos.mp (by omega)
  · rw [truncateToVisualLinesTail, truncateToVisualLines, if_neg empty, if_neg empty]
    dsimp only
    obtain ⟨read, left, parts, same, enough, few⟩ :=
      @tailLoop_spec (visualLinesOf visibleWidth (effectiveWidth width paddingX)) (limitOf maxVisualLines)
        (text.splitOn 0x0A).reverse [] 0
    have lines : text.splitOn 0x0A = left.reverse ++ read.reverse := by
      rw [← List.reverse_append, ← parts, List.reverse_reverse]
    rw [same, List.nil_append]
    have joined : (read.map (visualLinesOf visibleWidth (effectiveWidth width paddingX))).reverse.flatten =
        read.reverse.flatMap (visualLinesOf visibleWidth (effectiveWidth width paddingX)) := by
      rw [← List.map_reverse, List.flatMap_def]
    have behind : linesFrom visibleWidth text width paddingX left.length =
        read.reverse.flatMap (visualLinesOf visibleWidth (effectiveWidth width paddingX)) := by
      rw [linesFrom, lines, List.drop_left' (List.length_reverse)]
    refine ⟨?_, fun _ => ?_, fun more skipped within => ?_⟩
    · have whole : ∀ items : List Text, (if items.length ≤ limitOf maxVisualLines then
          (⟨items, 0⟩ : VisualTruncateResult)
          else ⟨items.rtake (limitOf maxVisualLines), items.length - limitOf maxVisualLines⟩).visualLines =
            items.rtake (limitOf maxVisualLines) := by
        intro items
        split
        · next short => exact (rtake_of_length_le short).symm
        · rfl
      rw [joined, whole, lines, List.flatMap_append]
      rcases enough with rfl | enough
      · rfl
      · rw [Nat.zero_add, ← length_flatMap_reverse] at enough
        exact (rtake_append enough).symm
    · rw [joined, behind]
    · have total : (text.splitOn 0x0A).length = left.length + read.length := by
        rw [lines, List.length_append, List.length_reverse, List.length_reverse]
      have fewer := few (read.take (read.length - (more - left.length)))
        (read.drop (read.length - (more - left.length))) (List.take_append_drop _ _).symm
        (by rw [Ne, List.drop_eq_nil_iff]; omega)
      rw [Nat.zero_add, ← length_flatMap_reverse] at fewer
      rw [linesFrom, lines, List.drop_append, List.length_reverse,
        List.drop_eq_nil_of_le (by rw [List.length_reverse]; omega), List.nil_append, List.drop_reverse]
      exact fewer

end

/-- **Truncated and wrapped texts fit the terminal.** With the widths of the renderer additive on what is
measured, a text is cut to the width with any narrow ellipsis, the lines that it is wrapped into are the
text, and they fit the width just if every segment alone does. The tail has the visual lines of the whole,
and is read from as few lines of the source as hold them. -/
theorem visualWidth_bounds (visibleWidth : Text → Nat) :
    (∀ value width ellipsis, 1 ≤ width → Measured visibleWidth value ellipsis → Narrow visibleWidth ellipsis →
      visibleWidth (truncateToWidth visibleWidth value width ellipsis) ≤ width) ∧
    (∀ value width, 1 ≤ width → (wrapHard visibleWidth value width).flatten = value) ∧
    (∀ value width, 1 ≤ width → (∀ part, part <:+: value → Additive takeCodePoint visibleWidth part) →
      ((∀ line ∈ wrapHard visibleWidth value width, visibleWidth line ≤ width) ↔
        ∀ segment ∈ segments takeCodePoint value, segment.width visibleWidth ≤ width)) ∧
    ∀ text maxVisualLines width paddingX,
      (truncateToVisualLinesTail visibleWidth text maxVisualLines width paddingX).visualLines =
          (truncateToVisualLines visibleWidth text maxVisualLines width paddingX).visualLines ∧
        (text ≠ [] → (truncateToVisualLinesTail visibleWidth text maxVisualLines width paddingX).visualLines =
          (linesFrom visibleWidth text width paddingX (truncateToVisualLinesTail visibleWidth text
            maxVisualLines width paddingX).skippedCount).rtake (limitOf maxVisualLines)) ∧
        ∀ more, (truncateToVisualLinesTail visibleWidth text maxVisualLines width paddingX).skippedCount < more →
          more ≤ (text.splitOn 0x0A).length →
            (linesFrom visibleWidth text width paddingX more).length < limitOf maxVisualLines :=
  ⟨fun _ _ _ positive measured narrow => truncateToWidth_le positive measured narrow,
    fun _ _ positive => flatten_wrapHard positive,
    fun _ _ positive additive => wrapHard_le_iff positive additive,
    truncateToVisualLinesTail_eq visibleWidth⟩

/-- The columns of a character: two for an ideograph and for a pair, and none for a control character. -/
def charColumns : Text → Nat
  | [unit] => if 0x4E00 ≤ unit ∧ unit ≤ 0x9FFF then 2 else if unit < 0x20 then 0 else 1
  | _ => 2

def columns (take : Text → Nat) (text : Text) : Nat := cost charColumns (segments take text)

theorem additive_columns {take : Text → Nat} (takes : Takes take) (stable : Stable take []) (text : Text) :
    Additive take (columns take) text := by
  have same : ∀ run later before, segments take text = before ++ (run ++ later) →
      cost charColumns run = cost (columns take) run := by
    intro run
    induction run with
    | nil => exact fun _ _ _ => rfl
    | cons segment run ih =>
      intro later before parts
      have behind := ih later (before ++ [segment]) (by rw [parts]; simp)
      rw [cost_cons, cost_cons, behind]
      cases segment with
      | sequence code => rfl
      | chunk chunk =>
        have alone : segments take chunk = [.chunk chunk] := by
          have run := @segments_run take text takes stable before [.chunk chunk] (run ++ later)
            (by rw [parts]; rfl)
          simpa [textOf, Segment.text] using run
        rw [Segment.width, Segment.width, columns, alone]
        rfl
  exact same (segments take text) [] [] (by simp)

theorem additive_whole (text : Text) : Additive wholeCodePoint (columns wholeCodePoint) text :=
  additive_columns takes_wholeCodePoint (stable_wholeCodePoint nofun) text

theorem additive_taken (text : Text) : Additive takeCodePoint (columns takeCodePoint) text :=
  additive_columns takes_takeCodePoint stable_takeCodePoint text

theorem visualWidth_bounds_ideograph :
    columns wholeCodePoint
        (truncateToWidth (columns wholeCodePoint) [0x61, 0x62, 0x754C, 0x63] 3 [0x2026]) ≤ 3 ∧
      (wrapHard (columns takeCodePoint) [0x61, 0x754C, 0x62] 2).flatten = [0x61, 0x754C, 0x62] ∧
      (∀ line ∈ wrapHard (columns takeCodePoint) [0x61, 0x754C, 0x62] 2, columns takeCodePoint line ≤ 2) ∧
      (truncateToVisualLinesTail (columns takeCodePoint) [0x61, 0x0A, 0x62] 1 2 0).visualLines =
        (truncateToVisualLines (columns takeCodePoint) [0x61, 0x0A, 0x62] 1 2 0).visualLines := by
  refine ⟨(visualWidth_bounds _).1 _ _ _ (by decide) ⟨additive_whole _, fun _ _ => additive_whole _,
    fun _ _ => additive_whole _⟩ ?_, (visualWidth_bounds _).2.1 _ _ (by decide),
    ((visualWidth_bounds _).2.2.1 _ _ (by decide) fun _ _ => additive_taken _).mpr ?_,
    ((visualWidth_bounds _).2.2.2 _ _ _ _).1⟩
  · exact List.forall_mem_singleton.mpr ⟨by decide, by decide, by decide⟩
  · have read : segments takeCodePoint [0x61, 0x754C, 0x62] =
        [.chunk [0x61], .chunk [0x754C], .chunk [0x62]] := by
      decide
    rw [read]
    decide

/-- **A character wider than the width** stands on a line that is too wide, and an ellipsis is as wide as
it is: with columns that are additive, an ideograph takes two where there is one. -/
theorem wrapHard_wide_character :
    (∀ text, Additive takeCodePoint (columns takeCodePoint) text) ∧
      wrapHard (columns takeCodePoint) [0x754C] 1 = [[0x754C]] ∧ columns takeCodePoint [0x754C] = 2 ∧
      (∀ text, Additive wholeCodePoint (columns wholeCodePoint) text) ∧
      truncateToWidth (columns wholeCodePoint) [0x61, 0x62] 1 [0x754C] = [0x754C] ∧
      columns wholeCodePoint [0x754C] = 2 :=
  ⟨additive_taken, by decide, by decide, additive_whole, by decide, by decide⟩

end PiCrew.Terminal.VisualWidth
