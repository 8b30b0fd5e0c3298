/-
**The captured tail of a worker's output.**

`runtime/compaction/compact-stages/bounded-tail.ts` keeps the last chunks of an output and bounds them when
they are read; `tail-capture-stage.ts` bounds the joined text. They are to give the same, and they do not:
the first one drops whole chunks and cuts what is left at its front, the second one takes the last units and
cuts them at their end.

* `apply_of_gt` — the stage has the longest run of units that fits at the front of the last ones;
* `boundedTail_agrees_iff` — where the two agree.
-/

import Mathlib.Algebra.BigOperators.Group.List.Basic
import Mathlib.Algebra.GroupWithZero.Nat
import PiCrew.Library.Utf8Chars

namespace PiCrew.Compaction

open JsonText Utf8

def newline : UInt16 := 0x0A

/-- `DEFAULT_CHILD_PI.maxCaptureBytes`. -/
def maxCaptureBytes : Nat := 512 * 1024

/-- `defaultMarker`: the cap is rounded to whole KiB. -/
def defaultMarker (maxBytes : Nat) : Text :=
  units "[pi-crew captured output truncated to last " ++ units (toString ((maxBytes + 512) / 1024)) ++
    units " KiB]"

structure BoundedTail where
  maxBytes : Nat
  marker : Text
  segs : List Text
  bytes : Nat
  dropped : Bool
  cached : Option Text
  dirty : Bool
  deriving DecidableEq, Repr

namespace BoundedTail

def create (maxBytes : Option Nat) (marker : Option Text) : Except Text BoundedTail :=
  let maxBytes := maxBytes.getD maxCaptureBytes
  if 0 < maxBytes then
    .ok ⟨maxBytes, marker.getD (defaultMarker maxBytes), [], 0, false, none, false⟩
  else .error (units "BoundedTail: maxBytes must be > 0, got " ++ units (toString maxBytes))

/-- The loop of `push`: whole leading segments go while the bytes are more than the cap, up to the last one. -/
def dropLeading (maxBytes : Nat) : List Text → Nat → Bool → List Text × Nat × Bool
  | first :: second :: rest, bytes, dropped =>
    if maxBytes < bytes then dropLeading maxBytes (second :: rest) (bytes - byteLength first) true
    else (first :: second :: rest, bytes, dropped)
  | segs, bytes, dropped => (segs, bytes, dropped)

def push (tail : BoundedTail) (chunk : Text) : BoundedTail :=
  if chunk = [] then tail
  else
    let (segs, bytes, dropped) :=
      dropLeading tail.maxBytes (tail.segs ++ [chunk]) (tail.bytes + byteLength chunk) tail.dropped
    { tail with segs, bytes, dropped, dirty := true }

/-- `#bound`. -/
def bound (tail : BoundedTail) (body : Text) : Text :=
  if byteLength body ≤ tail.maxBytes then
    if tail.dropped then tail.marker ++ newline :: body else body
  else
    let buf := encode body
    tail.marker ++ newline :: decode ((buf.drop (buf.length - tail.maxBytes)).dropWhile isContinuation)

/-- `value`: what is read, and the accumulator that has it cached. -/
def value (tail : BoundedTail) : Text × BoundedTail :=
  match tail.dirty, tail.cached with
  | false, some cached => (cached, tail)
  | _, _ =>
    let result := tail.bound tail.segs.flatten
    (result, { tail with cached := some result, dirty := false })

end BoundedTail

/-- The reference: a cap in characters or in bytes, and a marker (none if it is empty). -/
structure TailCaptureStage where
  maxChars : Option Nat
  maxBytes : Option Nat
  marker : Text
  deriving DecidableEq, Repr

namespace TailCaptureStage

def shown (number : Option Nat) : Text := units ((number.map toString).getD "undefined")

def create (maxChars maxBytes : Option Nat) (marker : Option Text) : Except Text TailCaptureStage :=
  if maxChars.isSome = maxBytes.isSome then
    .error (units "TailCaptureStage requires exactly one of maxChars or maxBytes (got chars=" ++
      shown maxChars ++ units " bytes=" ++ shown maxBytes ++ units ")")
  else if maxChars = some 0 then
    .error (units "TailCaptureStage: maxChars must be > 0, got " ++ shown maxChars)
  else if maxBytes = some 0 then
    .error (units "TailCaptureStage: maxBytes must be > 0, got " ++ shown maxBytes)
  else .ok ⟨maxChars, maxBytes, marker.getD []⟩

/-- The loop of `apply`: units go at the end while the rest takes more than the cap. A text of so many units
is trimmed at most so many times. -/
def trimEnd (maxBytes : Nat) : Nat → Text → Text
  | 0, tail => tail
  | more + 1, tail => if maxBytes < byteLength tail then trimEnd maxBytes more tail.dropLast else tail

def marked (stage : TailCaptureStage) (tail : Text) : Text :=
  if stage.marker = [] then tail else stage.marker ++ newline :: tail

def apply (stage : TailCaptureStage) (text : Text) : Text :=
  match stage.maxBytes with
  | some maxBytes =>
    if byteLength text ≤ maxBytes then text
    else
      let tail := text.drop (text.length - maxBytes)
      stage.marked (trimEnd maxBytes tail.length tail)
  | none =>
    let max := stage.maxChars.getD 0
    if text.length ≤ max then text
    else stage.marked (text.drop (text.length - max))

end TailCaptureStage

/-! ## What is kept -/

section

def size (chunks : List Text) : Nat := (chunks.map byteLength).sum

def kept (cap : Nat) : List Text → List Text
  | [] => []
  | chunk :: rest => if rest = [] ∨ size (chunk :: rest) ≤ cap then chunk :: rest else kept cap rest

variable {cap : Nat} {chunks : List Text}

theorem size_cons (chunk : Text) (rest : List Text) : size (chunk :: rest) = byteLength chunk + size rest := by
  rw [size, List.map_cons, List.sum_cons, size]

theorem size_concat (chunks : List Text) (chunk : Text) :
    size (chunks ++ [chunk]) = size chunks + byteLength chunk := by
  rw [size, size, List.map_append, List.sum_append]
  rfl

theorem kept_suffix (cap : Nat) (chunks : List Text) : kept cap chunks <:+ chunks := by
  induction chunks with
  | nil => exact List.suffix_rfl
  | cons chunk rest ih =>
    rw [kept]
    split
    · exact List.suffix_rfl
    · exact ih.trans (List.suffix_cons _ _)

theorem dropLeading_eq (cap : Nat) (chunks : List Text) (dropped : Bool) :
    BoundedTail.dropLeading cap chunks (size chunks) dropped =
      (kept cap chunks, size (kept cap chunks), dropped || decide (kept cap chunks ≠ chunks)) := by
  induction chunks generalizing dropped with
  | nil => simp [BoundedTail.dropLeading, kept]
  | cons first rest ih =>
    cases rest with
    | nil => simp [BoundedTail.dropLeading, kept]
    | cons second rest =>
      have shorter : kept cap (second :: rest) ≠ first :: second :: rest := fun same => by
        have := (kept_suffix cap (second :: rest)).length_le
        rw [same, List.length_cons] at this
        omega
      rw [BoundedTail.dropLeading, kept]
      by_cases fits : size (first :: second :: rest) ≤ cap
      · simp [fits, Nat.not_lt.mpr fits]
      · have behind : size (first :: second :: rest) - byteLength first = size (second :: rest) := by
          rw [size_cons]
          omega
        simp [fits, Nat.lt_of_not_le fits, behind, ih, shorter]

theorem kept_concat (cap : Nat) (chunks : List Text) (chunk : Text) :
    kept cap (kept cap chunks ++ [chunk]) = kept cap (chunks ++ [chunk]) := by
  induction chunks with
  | nil => rfl
  | cons first rest ih =>
    rw [kept]
    split
    · rfl
    · next out =>
        obtain ⟨more, out⟩ := not_or.mp out
        rw [ih, List.cons_append, kept, if_neg]
        rw [← List.cons_append, size_concat]
        simp only [List.append_eq_nil_iff, reduceCtorEq, and_false, false_or]
        omega

end

/-! ## Runs -/

section

inductive Call where
  | push (chunk : Text)
  | value
  deriving DecidableEq, Repr

def call (tail : BoundedTail) : Call → BoundedTail
  | .push chunk => tail.push chunk
  | .value => tail.value.2

def run (tail : BoundedTail) (calls : List Call) : BoundedTail := calls.foldl call tail

def Call.chunk? : Call → Option Text
  | .push chunk => some chunk
  | .value => none

def pushed (calls : List Call) : List Text := calls.filterMap Call.chunk?

def filled (chunks : List Text) : List Text := chunks.filter fun chunk => !chunk.isEmpty

variable {cap : Nat} {marker : Text} {tail : BoundedTail} {chunks : List Text}

theorem flatten_filled (chunks : List Text) : (filled chunks).flatten = chunks.flatten := by
  induction chunks with
  | nil => rfl
  | cons chunk rest ih =>
    cases chunk with
    | nil => exact ih
    | cons unit more => exact congrArg ((unit :: more) ++ ·) ih

/-- **What an accumulator is** that has been given some chunks. -/
structure Bookkeeping (cap : Nat) (marker : Text) (chunks : List Text) (tail : BoundedTail) : Prop where
  maxBytes : tail.maxBytes = cap
  marker : tail.marker = marker
  segs : tail.segs = kept cap (filled chunks)
  bytes : tail.bytes = size tail.segs
  dropped : tail.dropped = decide (kept cap (filled chunks) ≠ filled chunks)
  cached : tail.dirty = false → ∀ text ∈ tail.cached, text = tail.bound tail.segs.flatten

theorem Bookkeeping.push (book : Bookkeeping cap marker chunks tail) (chunk : Text) :
    Bookkeeping cap marker (chunks ++ [chunk]) (tail.push chunk) := by
  rw [BoundedTail.push]
  split
  · next empty =>
      have same : filled (chunks ++ [chunk]) = filled chunks := by simp [filled, empty]
      exact ⟨book.maxBytes, book.marker, same ▸ book.segs, book.bytes, same ▸ book.dropped, book.cached⟩
  · next full =>
      have more : filled (chunks ++ [chunk]) = filled chunks ++ [chunk] := by simp [filled, full]
      have loop := dropLeading_eq cap (kept cap (filled chunks) ++ [chunk]) tail.dropped
      rw [kept_concat, size_concat] at loop
      rw [book.bytes, book.segs, book.maxBytes, loop]
      refine ⟨rfl, book.marker, congrArg _ more.symm, rfl, ?_, nofun⟩
      dsimp only
      rw [more, book.dropped]
      -- the rest of the chunks is dropped now, or was before
      by_cases all : kept cap (filled chunks) = filled chunks
      · simp [all]
      · have shorter : kept cap (filled chunks ++ [chunk]) ≠ filled chunks ++ [chunk] := fun same => by
          have short := (kept_suffix cap (kept cap (filled chunks) ++ [chunk])).length_le
          rw [kept_concat, same, List.length_append, List.length_append] at short
          exact all ((kept_suffix cap (filled chunks)).eq_of_length_le (by omega))
        simp [all, shorter]

theorem Bookkeeping.value (book : Bookkeeping cap marker chunks tail) :
    tail.value.1 = tail.bound tail.segs.flatten ∧ Bookkeeping cap marker chunks tail.value.2 := by
  have fresh : Bookkeeping cap marker chunks
      { tail with cached := some (tail.bound tail.segs.flatten), dirty := false } :=
    ⟨book.maxBytes, book.marker, book.segs, book.bytes, book.dropped,
      fun _ text same => (Option.some.inj same).symm⟩
  rw [BoundedTail.value]
  split
  · next text clean known => exact ⟨book.cached clean text known, book⟩
  · exact ⟨rfl, fresh⟩

theorem run_bookkeeping (book : Bookkeeping cap marker chunks tail) (calls : List Call) :
    Bookkeeping cap marker (chunks ++ pushed calls) (run tail calls) := by
  induction calls generalizing tail chunks with
  | nil => rwa [pushed, List.filterMap_nil, List.append_nil]
  | cons first calls ih =>
    cases first with
    | push chunk =>
      have next := ih (book.push chunk)
      rwa [List.append_assoc] at next
    | value => exact ih book.value.2

theorem create_bookkeeping (created : BoundedTail.create (some cap) (some marker) = .ok tail) :
    Bookkeeping cap marker [] tail := by
  rw [BoundedTail.create] at created
  dsimp only [Option.getD_some] at created
  split at created
  · cases created
    exact ⟨rfl, rfl, rfl, rfl, rfl, nofun⟩
  · cases created

theorem kept_fits (cap : Nat) (chunks : List Text) :
    size (kept cap chunks) ≤ cap ∨ (kept cap chunks).length = 1 := by
  induction chunks with
  | nil => exact Or.inl (Nat.zero_le _)
  | cons chunk rest ih =>
    rw [kept]
    split
    · next goes => exact goes.symm.imp_right fun none => by rw [none, List.length_singleton]
    · exact ih

theorem kept_longest {longer : List Text} (suffix : longer <:+ chunks) (fits : size longer ≤ cap) :
    longer.length ≤ (kept cap chunks).length := by
  induction chunks with
  | nil => exact suffix.length_le
  | cons chunk rest ih =>
    rw [kept]
    split
    · exact suffix.length_le
    · next more =>
        rcases List.suffix_cons_iff.mp suffix with rfl | later
        · exact absurd (Or.inr fits) more
        · exact ih later

/-- **The accumulator is bounded** after any pushes and reads: it holds the last of the filled chunks, as
many as fit within the cap, or the last one alone. -/
theorem tail_bounded (cap : Nat) (marker : Text) (calls : List Call) :
    let tail := run ⟨cap, marker, [], 0, false, none, false⟩ calls
    tail.segs <:+ filled (pushed calls) ∧ tail.bytes = size tail.segs ∧
      (tail.bytes ≤ cap ∨ tail.segs.length = 1) ∧
        ∀ longer, longer <:+ filled (pushed calls) → size longer ≤ cap →
          longer.length ≤ tail.segs.length := by
  intro tail
  have start : Bookkeeping cap marker [] ⟨cap, marker, [], 0, false, none, false⟩ :=
    ⟨rfl, rfl, rfl, rfl, rfl, nofun⟩
  have book : Bookkeeping cap marker (pushed calls) tail := run_bookkeeping start calls
  rw [book.bytes, book.segs]
  exact ⟨kept_suffix _ _, rfl, kept_fits _ _, fun longer => kept_longest⟩

end

/-! ## Where the two agree -/

section

variable {cap : Nat} {marker : Text} {tail : BoundedTail} {stage : TailCaptureStage} {chunks : List Text}

theorem bound_of_gt {body : Text} (large : tail.maxBytes < byteLength body) :
    tail.bound body = tail.marker ++ newline :: toWellFormed (longestFit tail.maxBytes body) := by
  rw [BoundedTail.bound, if_neg (Nat.not_le_of_lt large)]
  dsimp only
  rw [dropWhile_continuation, decode_encode_eq]

/-- The longest run of units at the front of a text that fits. -/
structure IsFront (cap : Nat) (text front : Text) : Prop where
  start : front <+: text
  fits : byteLength front ≤ cap
  longest : ∀ longer, longer <+: text → byteLength longer ≤ cap → longer.length ≤ front.length

theorem IsFront.unique {text front other : Text} (is : IsFront cap text front)
    (also : IsFront cap text other) : front = other := by
  have less := also.longest front is.start is.fits
  have more := is.longest other also.start also.fits
  exact (List.prefix_of_prefix_length_le is.start also.start less).eq_of_length (by omega)

theorem trimEnd_isFront (cap more : Nat) (text : Text) (long : text.length ≤ more) :
    IsFront cap text (TailCaptureStage.trimEnd cap more text) := by
  induction more generalizing text with
  | zero =>
    cases List.eq_nil_of_length_eq_zero (Nat.le_zero.mp long)
    exact ⟨List.prefix_rfl, Nat.zero_le _, fun _ short _ => short.length_le⟩
  | succ more ih =>
    rw [TailCaptureStage.trimEnd]
    split
    · next large =>
        have shorter := ih text.dropLast (by rw [List.length_dropLast]; omega)
        refine ⟨shorter.start.trans (List.dropLast_prefix _), shorter.fits, fun longer short fits => ?_⟩
        -- what fits is not the whole text
        have less : longer.length ≤ text.dropLast.length := by
          by_contra whole
          rw [List.length_dropLast] at whole
          rw [short.eq_of_length_le (by omega)] at fits
          omega
        exact shorter.longest longer
          (List.prefix_of_prefix_length_le short (List.dropLast_prefix _) less) fits
    · exact ⟨List.prefix_rfl, Nat.le_of_not_lt ‹_›, fun _ short _ => short.length_le⟩

def lastUnits (cap : Nat) (text : Text) : Text := text.drop (text.length - cap)

/-- **A text that does not fit** is captured as what fits at the front of its last units. -/
theorem apply_of_gt {text : Text} (bytes : stage.maxBytes = some cap) (large : cap < byteLength text) :
    ∃ front, IsFront cap (lastUnits cap text) front ∧ stage.apply text = stage.marked front := by
  refine ⟨_, trimEnd_isFront cap _ _ (Nat.le_refl _), ?_⟩
  rw [TailCaptureStage.apply, bytes]
  exact if_neg (Nat.not_le_of_lt large)

theorem apply_of_le {text : Text} (bytes : stage.maxBytes = some cap) (small : byteLength text ≤ cap) :
    stage.apply text = text := by
  rw [TailCaptureStage.apply, bytes]
  exact if_pos small

def withMarker (marker tail : Text) : Text := if marker = [] then tail else marker ++ newline :: tail

theorem withMarker_inj {one other : Text} : withMarker marker one = withMarker marker other ↔ one = other := by
  unfold withMarker
  split
  · exact Iff.rfl
  · rw [List.append_cancel_left_eq, List.cons.injEq, and_iff_right rfl]

theorem line_eq_withMarker {body rest : Text} : marker ++ newline :: body = withMarker marker rest ↔
      marker ≠ [] ∧ body = rest ∨ marker = [] ∧ newline :: body = rest := by
  by_cases none : marker = []
  · simp [withMarker, none]
  · simp [withMarker, none]

/-- **What is to hold of a read**: it is what the reference gives for the joined text, and where the text does
not fit, it is the text's longest end of whole characters that does, behind the marker. -/
def Agrees (cap : Nat) (marker text read reference : Text) : Prop := read = reference ∧
    (cap < byteLength text → ∃ tail, read = withMarker marker tail ∧ IsTail cap text tail)

/-- **Where it holds**, for the chunks that are not empty and their text:

* a text that fits has lost no chunk, or just the marker's line;
* of a text that does not fit, the last units start with the longest end that fits, and no more of them
  fits;
* where the last chunks fit, they are that end;
* where the last chunk alone does not fit, there is a marker, and the end has no half of a pair. -/
structure Meets (cap : Nat) (marker : Text) (chunks : List Text) : Prop where
  fitting : byteLength chunks.flatten ≤ cap →
    kept cap chunks = chunks ∨ chunks.flatten = marker ++ newline :: (kept cap chunks).flatten
  front : cap < byteLength chunks.flatten →
    IsFront cap (lastUnits cap chunks.flatten) (longestFit cap chunks.flatten)
  segments : cap < byteLength chunks.flatten → byteLength (kept cap chunks).flatten ≤ cap →
    marker ≠ [] ∧ (kept cap chunks).flatten = longestFit cap chunks.flatten ∨
      marker = [] ∧ newline :: (kept cap chunks).flatten = longestFit cap chunks.flatten
  halves : cap < byteLength (kept cap chunks).flatten →
    marker ≠ [] ∧ Paired (longestFit cap chunks.flatten)

theorem byteLength_kept_le (cap : Nat) (chunks : List Text) :
    byteLength (kept cap chunks).flatten ≤ byteLength chunks.flatten := by
  obtain ⟨front, split⟩ := kept_suffix cap chunks
  rw [show chunks.flatten = front.flatten ++ (kept cap chunks).flatten by rw [← List.flatten_append, split]]
  exact byteLength_append_ge _ _

theorem longestFit_kept (large : cap < byteLength (kept cap chunks).flatten) :
    longestFit cap (kept cap chunks).flatten = longestFit cap chunks.flatten := by
  obtain ⟨front, split⟩ := kept_suffix cap chunks
  rw [show chunks.flatten = front.flatten ++ (kept cap chunks).flatten by rw [← List.flatten_append, split]]
  exact (longestFit_append large).symm

theorem value_run (book : Bookkeeping cap marker chunks tail) : tail.value.1 =
      if byteLength (kept cap (filled chunks)).flatten ≤ cap then
        if kept cap (filled chunks) = filled chunks then chunks.flatten
        else marker ++ newline :: (kept cap (filled chunks)).flatten
      else marker ++ newline :: toWellFormed (longestFit cap chunks.flatten) := by
  rw [book.value.1, book.segs]
  split
  · next fits =>
      rw [BoundedTail.bound, book.maxBytes, if_pos fits, book.dropped, book.marker]
      by_cases all : kept cap (filled chunks) = filled chunks
      · simp [all, flatten_filled]
      · simp [all]
  · next large =>
      have large := Nat.lt_of_not_le large
      rw [bound_of_gt (book.maxBytes.symm ▸ large), book.marker, book.maxBytes, longestFit_kept large,
        flatten_filled]

theorem create_stage (created : TailCaptureStage.create none (some cap) (some marker) = .ok stage) :
    stage.maxBytes = some cap ∧ stage.marker = marker := by
  simp only [TailCaptureStage.create, Option.isSome_none, Option.isSome_some, reduceCtorEq, if_false,
    Option.getD_some] at created
  split at created
  · cases created
  · cases created
    exact ⟨rfl, rfl⟩

theorem agrees_of_gt {text front read : Text} (large : cap < byteLength text)
    (is : IsFront cap (lastUnits cap text) front) :
    Agrees cap marker text read (withMarker marker front) ↔
      IsFront cap (lastUnits cap text) (longestFit cap text) ∧
        read = withMarker marker (longestFit cap text) := by
  refine ⟨fun ⟨same, behind⟩ => ?_, fun ⟨isEnd, same⟩ => ⟨?_, fun _ => ⟨_, same, isTail_iff.mpr rfl⟩⟩⟩
  · obtain ⟨tail, line, isTail⟩ := behind large
    cases isTail_iff.mp isTail
    exact ⟨withMarker_inj.mp (same.symm.trans line) ▸ is, line⟩
  · rw [same, is.unique isEnd]

theorem value_of_gt (book : Bookkeeping cap marker chunks tail) (large : cap < byteLength chunks.flatten) :
    tail.value.1 = withMarker marker (longestFit cap chunks.flatten) ↔
      (byteLength (kept cap (filled chunks)).flatten ≤ cap →
        marker ≠ [] ∧ (kept cap (filled chunks)).flatten = longestFit cap chunks.flatten ∨
          marker = [] ∧ newline :: (kept cap (filled chunks)).flatten = longestFit cap chunks.flatten) ∧
      (cap < byteLength (kept cap (filled chunks)).flatten →
        marker ≠ [] ∧ Paired (longestFit cap chunks.flatten)) := by
  rw [value_run book]
  split
  · next fits =>
      have some : kept cap (filled chunks) ≠ filled chunks := fun all => by
        rw [all, flatten_filled] at fits
        omega
      rw [if_neg some, line_eq_withMarker]
      exact ⟨fun line => ⟨fun _ => line, fun less => by omega⟩, fun both => both.1 fits⟩
  · next none =>
      rw [line_eq_withMarker]
      refine ⟨fun line => ⟨fun fits => absurd fits none, fun _ => ?_⟩, fun both => ?_⟩
      · rcases line with ⟨marked, same⟩ | ⟨-, same⟩
        · exact ⟨marked, paired_of_toWellFormed same⟩
        · have lengths := congrArg List.length same
          rw [List.length_cons, length_toWellFormed] at lengths
          omega
      · obtain ⟨marked, paired⟩ := both.2 (Nat.lt_of_not_le none)
        exact .inl ⟨marked, toWellFormed_of_paired paired⟩

/-- **The accumulator and the reference agree exactly there**, after any pushes and reads. -/
theorem boundedTail_agrees_iff (made : BoundedTail.create (some cap) (some marker) = .ok tail)
    (reference : TailCaptureStage.create none (some cap) (some marker) = .ok stage) (calls : List Call) :
    Agrees cap marker (pushed calls).flatten (run tail calls).value.1
        (stage.apply (pushed calls).flatten) ↔
      Meets cap marker (filled (pushed calls)) := by
  have book : Bookkeeping cap marker (pushed calls) (run tail calls) :=
    run_bookkeeping (create_bookkeeping made) calls
  obtain ⟨bytes, same⟩ := create_stage reference
  have text : (filled (pushed calls)).flatten = (pushed calls).flatten := flatten_filled _
  have less := byteLength_kept_le cap (filled (pushed calls))
  rw [text] at less
  by_cases small : byteLength (pushed calls).flatten ≤ cap
  · rw [apply_of_le bytes small, Agrees, value_run book, if_pos (less.trans small)]
    refine ⟨fun ⟨same, _⟩ => ?_, fun meets => ⟨?_, fun large => by omega⟩⟩
    · refine ⟨fun _ => ?_, fun large => by rw [text] at large; omega,
        fun large => by rw [text] at large; omega, fun large => by omega⟩
      split at same
      · next all => exact .inl all
      · exact .inr (text.trans same.symm)
    · split
      · rfl
      · next none =>
          rcases meets.fitting (text.symm ▸ small) with all | line
          · exact absurd all none
          · exact line.symm.trans text
  · have large := Nat.lt_of_not_le small
    obtain ⟨front, isFront, captured⟩ := apply_of_gt bytes large
    rw [captured, TailCaptureStage.marked, same, ← withMarker, agrees_of_gt large isFront,
      value_of_gt book large]
    constructor
    · rintro ⟨isEnd, segments, halves⟩
      exact ⟨fun fits => absurd (text ▸ fits) small, fun _ => text.symm ▸ isEnd,
        fun _ => text.symm ▸ segments, text.symm ▸ halves⟩
    · intro meets
      have whole := text.symm ▸ large
      exact ⟨text ▸ meets.front whole, text ▸ meets.segments whole, text ▸ meets.halves⟩

theorem boundedTail_agrees_two :
    BoundedTail.create (some 4) (some (units "m")) = .ok ⟨4, units "m", [], 0, false, none, false⟩ ∧
    TailCaptureStage.create none (some 4) (some (units "m")) = .ok ⟨none, some 4, units "m"⟩ ∧
    (Agrees 4 (units "m") (units "aabbb")
        (run ⟨4, units "m", [], 0, false, none, false⟩ [.push (units "aa"), .value, .push (units "bbb")]).value.1
        (TailCaptureStage.apply ⟨none, some 4, units "m"⟩ (units "aabbb")) ↔
      Meets 4 (units "m") [units "aa", units "bbb"]) :=
  ⟨rfl, rfl, boundedTail_agrees_iff rfl rfl [.push (units "aa"), .value, .push (units "bbb")]⟩

theorem boundedTail_chunk_dropped :
    BoundedTail.create (some 4) (some (units "m")) = .ok ⟨4, units "m", [], 0, false, none, false⟩ ∧
    TailCaptureStage.create none (some 4) (some (units "m")) = .ok ⟨none, some 4, units "m"⟩ ∧
    (run ⟨4, units "m", [], 0, false, none, false⟩ [.push (units "aaa"), .push (units "bbb")]).value.1 =
      units "m\nbbb" ∧
    TailCaptureStage.apply ⟨none, some 4, units "m"⟩ (units "aaabbb") = units "m\nabbb" ∧
    ¬ Agrees 4 (units "m") (units "aaabbb") (units "m\nbbb") (units "m\nabbb") ∧
    -- and the reference cuts a text with longer characters at its end
    (run ⟨2, units "m", [], 0, false, none, false⟩ [.push (units "aé")]).value.1 = units "m\né" ∧
    TailCaptureStage.apply ⟨none, some 2, units "m"⟩ (units "aé") = units "m\na" :=
  ⟨rfl, rfl, by decide +kernel, by decide +kernel, fun agrees => absurd agrees.1 (by decide +kernel),
    by decide +kernel, by decide +kernel⟩

end

end PiCrew.Compaction
