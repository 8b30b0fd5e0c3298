/-
**The matchers of the edit engine** (`runtime/replace.ts`).

An agent's `oldString` is often slightly wrong, so the engine tries more and more lenient matchers. Each one
gives the texts of the regions that it takes for a match: the exact text, the text without escapes, the
lines without their indentation, a block between two anchor lines, the text with its white space
collapsed, and the text without its boundary white space.

* `lineTrimmed_spec` — what the line matcher takes for a match.

The scores of the block matcher are floating-point numbers. Which block they prefer does not matter here.
-/

import PiCrew.Library.Regions
import PiCrew.EventLog.LogStats

namespace PiCrew.Editing

open JsonText (Text units)
open EventLog.LogStats (isSpace trim slice)

/-! ## Lines -/

def newline : UInt16 := 0x0A

/-- `content.split("\n")`. -/
def linesOf (content : Text) : List Text := content.splitOn newline

/-- `lines.join("\n")`. -/
def joinLines (lines : List Text) : Text := [newline].intercalate lines

/-- `lines.slice(i, i + count)`. -/
def window (lines : List Text) (i count : Nat) : List Text := (lines.drop i).take count

def places (lines : List Text) (count : Nat) : List Nat := List.range (lines.length + 1 - count)

def startPos (lines : List Text) (i : Nat) : Nat := ((lines.take i).map fun line => line.length + 1).sum

def endPos (lines : List Text) (i count : Nat) : Nat :=
  startPos lines i + ((window lines i count).map List.length).sum + (count - 1)

def dropEmptyLast (lines : List Text) : List Text :=
  if lines.getLast? = some [] then lines.dropLast else lines

theorem joinLines_linesOf (content : Text) : joinLines (linesOf content) = content :=
  List.intercalate_splitOn newline

theorem joinLines_append {front back : List Text} (some : front ≠ []) (more : back ≠ []) :
    joinLines (front ++ back) = joinLines front ++ newline :: joinLines back :=
  Substrings.intercalate_append some more

theorem joinLines_take (lines : List Text) (i : Nat) : joinLines (lines.take i) <+: joinLines lines := by
  by_cases none : lines.take i = []
  · rw [none]
    exact List.nil_prefix
  · by_cases all : lines.drop i = []
    · rw [← List.take_append_drop i lines, all, List.append_nil, List.take_take, Nat.min_self]
    · refine ⟨newline :: joinLines (lines.drop i), ?_⟩
      rw [← joinLines_append none all, List.take_append_drop]

theorem joinLines_drop (lines : List Text) (i : Nat) : joinLines (lines.drop i) <:+ joinLines lines := by
  by_cases none : lines.drop i = []
  · rw [none]
    exact List.nil_suffix
  · by_cases all : lines.take i = []
    · have whole := List.take_append_drop i lines
      rw [all, List.nil_append] at whole
      rw [whole]
    · refine ⟨joinLines (lines.take i) ++ [newline], ?_⟩
      rw [List.append_assoc, List.singleton_append, ← joinLines_append all none, List.take_append_drop]

theorem joinLines_window (content : Text) (i count : Nat) :
    joinLines (window (linesOf content) i count) <:+: content := by
  have block := (joinLines_take ((linesOf content).drop i) count).isInfix.trans
    (joinLines_drop (linesOf content) i).isInfix
  rwa [joinLines_linesOf] at block

theorem length_joinLines (lines : List Text) :
    (joinLines lines).length = (lines.map List.length).sum + (lines.length - 1) := by
  rw [joinLines, Substrings.length_intercalate, List.length_singleton, Nat.mul_one]

theorem startPos_eq {lines : List Text} {i : Nat} (some : 0 < i) (within : i ≤ lines.length) :
    startPos lines i = (joinLines (lines.take i)).length + 1 := by
  have front : lines.take i ≠ [] := by
    rw [← List.length_pos_iff, List.length_take]
    omega
  have sum : ∀ texts : List Text,
      (texts.map fun line => line.length + 1).sum = (texts.map List.length).sum + texts.length := by
    intro texts
    induction texts with
    | nil => rfl
    | cons text texts ih =>
      simp only [List.map_cons, List.sum_cons, List.length_cons, ih]
      omega
  rw [startPos, sum, length_joinLines, List.length_take, Nat.min_eq_left within]
  omega

theorem drop_startPos {content : Text} {i : Nat} (within : i < (linesOf content).length) :
    content.drop (startPos (linesOf content) i) = joinLines ((linesOf content).drop i) := by
  cases i with
  | zero => simp [startPos, joinLines_linesOf]
  | succ i =>
    have front : (linesOf content).take (i + 1) ≠ [] := by
      rw [← List.length_pos_iff, List.length_take]
      omega
    have back : (linesOf content).drop (i + 1) ≠ [] := by
      rw [← List.length_pos_iff, List.length_drop]
      omega
    have whole : content = joinLines ((linesOf content).take (i + 1)) ++
        newline :: joinLines ((linesOf content).drop (i + 1)) := by
      rw [← joinLines_append front back, List.take_append_drop, joinLines_linesOf]
    rw [startPos_eq (Nat.zero_lt_succ _) (Nat.le_of_lt within)]
    generalize joinLines ((linesOf content).take (i + 1)) = before at whole ⊢
    generalize joinLines ((linesOf content).drop (i + 1)) = after at whole ⊢
    rw [whole, List.drop_append, List.drop_of_length_le (Nat.le_succ _), List.nil_append,
      Nat.add_sub_cancel_left]
    rfl

theorem slice_block {content : Text} {i count : Nat} (some : 0 < count)
    (within : i + count ≤ (linesOf content).length) :
    slice content (startPos (linesOf content) i) (endPos (linesOf content) i count) =
      joinLines (window (linesOf content) i count) := by
  have length : (window (linesOf content) i count).length = count := by
    rw [window, List.length_take, List.length_drop]
    omega
  have nonempty : window (linesOf content) i count ≠ [] := by
    rw [← List.length_pos_iff, length]
    exact some
  have block := joinLines_take ((linesOf content).drop i) count
  have size := length_joinLines (window (linesOf content) i count)
  rw [length] at size
  have span : endPos (linesOf content) i count - startPos (linesOf content) i =
      (joinLines (window (linesOf content) i count)).length := by
    rw [endPos, size]
    omega
  rw [slice, List.drop_take, drop_startPos (by omega), span]
  exact (List.prefix_iff_eq_take.mp block).symm

/-! ## The matchers -/

def simpleReplacer (content find : Text) : List Text := if find <:+: content then [find] else []

/-- The character that an escape stands for. -/
def unescapeChar (unit : UInt16) : Option UInt16 :=
  if unit = 0x6E then some 0x0A
  else if unit = 0x74 then some 0x09
  else if unit = 0x72 then some 0x0D
  else if unit = 0x27 ∨ unit = 0x22 ∨ unit = 0x60 ∨ unit = 0x5C ∨ unit = 0x24 then some unit
  else none

def unescapeStr : Text → Text
  | [] => []
  | [unit] => [unit]
  | unit :: next :: rest =>
    if unit = 0x5C then
      match unescapeChar next with
      | some char => char :: unescapeStr rest
      | none => unit :: unescapeStr (next :: rest)
    else unit :: unescapeStr (next :: rest)

def firstBlock (content : Text) (count : Nat) (check : Text → Bool) : List Text :=
  (((places (linesOf content) count).map fun i => joinLines (window (linesOf content) i count)).find?
    check).toList

/-- 2. The text without escapes. -/
def escapeNormalizedReplacer (content find : Text) : List Text :=
  let unescaped := unescapeStr find
  if unescaped = find then []
  else if unescaped = [] then []
  else if unescaped <:+: content then [unescaped]
  else firstBlock content (linesOf unescaped).length fun block =>
    block = unescaped || trim block = trim unescaped

def lineMatch (contentLines findLines : List Text) (i : Nat) : Bool :=
  (window contentLines i findLines.length).map trim = findLines.map trim

def searchedLines (find : Text) : List Text :=
  if (linesOf find).length > 1 then dropEmptyLast (linesOf find) else linesOf find

/-- 3. The lines without their boundary white space. -/
def lineTrimmedReplacer (content find : Text) : List Text :=
  let contentLines := linesOf content
  let findLines := searchedLines find
  if findLines.length > contentLines.length then []
  else ((places contentLines findLines.length).filter (lineMatch contentLines findLines)).map fun i =>
    slice content (startPos contentLines i) (endPos contentLines i findLines.length)

/-- One more row of the distances: `left` is the distance at the row's last cell so far, `diagonal` the one
above it. -/
def distanceRow (unit : UInt16) : Text → List Nat → Nat → Nat → List Nat
  | other :: b, above :: row, diagonal, left =>
    let cost := if unit = other then 0 else 1
    let here := min (min (above + 1) (left + 1)) (diagonal + cost)
    here :: distanceRow unit b row above here
  | _, _, _, _ => []

/-- The rows of the distances below the row `row`, the last one's last cell. -/
def distanceRows (b : Text) : Text → Nat → List Nat → Nat
  | [], _, row => row.getLast?.getD 0
  | unit :: a, i, row =>
    distanceRows b a (i + 1) ((i + 1) :: distanceRow unit b row.tail (row.headD 0) (i + 1))

def levenshtein (a b : Text) : Nat :=
  if a = [] ∨ b = [] then max a.length b.length
  else distanceRows b a 0 (List.range (b.length + 1))

/-- Where both anchors match: a first line, and the next last line at least two lines below it. -/
def anchored (contentLines : List Text) (firstAnchor lastAnchor : Text) : List (Nat × Nat) :=
  (List.range contentLines.length).filterMap fun i =>
    if trim (contentLines.getD i []) ≠ firstAnchor then none
    else
      ((List.range' (i + 2) (contentLines.length - (i + 2))).find? fun j =>
        trim (contentLines.getD j []) = lastAnchor).map fun j => (i, j)

def similarity (contentLines findLines : List Text) (block : Nat × Nat) : Float :=
  let actualBlockSize := block.2 - block.1 + 1
  let middleCount := min (findLines.length - 2) (actualBlockSize - 2)
  if middleCount > 0 then
    let total := (List.range' 1 middleCount).foldl (fun (total : Float) j =>
      let originalLine := trim (contentLines.getD (block.1 + j) [])
      let searchLine := trim (findLines.getD j [])
      let maxLen := max originalLine.length searchLine.length
      if maxLen = 0 then total
      else total + (1 - (levenshtein originalLine searchLine).toFloat / maxLen.toFloat)) 0
    total / middleCount.toFloat
  else 1

/-- The block with the best score, the first one among equals. -/
def bestMatch (contentLines findLines : List Text) (blocks : List (Nat × Nat)) :
    Option (Nat × Nat) × Float :=
  blocks.foldl (fun best block =>
    let score := similarity contentLines findLines block
    if score > best.2 then (some block, score) else best) (none, -1)

def singleCandidateThreshold : Float := 0.25

def multipleCandidatesThreshold : Float := 0.4

/-- 4. A block between two anchor lines. -/
def blockAnchorReplacer (content find : Text) : List Text :=
  let contentLines := linesOf content
  let findLines := dropEmptyLast (linesOf find)
  if (linesOf find).length < 3 then []
  else if findLines.length < 3 then []
  else
    let firstAnchor := trim (findLines.headD [])
    let lastAnchor := trim (findLines.getLastD [])
    let sliceOf := fun block : Nat × Nat =>
      slice content (startPos contentLines block.1) (endPos contentLines block.1 (block.2 + 1 - block.1))
    match anchored contentLines firstAnchor lastAnchor with
    | [] => []
    | [block] =>
      if similarity contentLines findLines block ≥ singleCandidateThreshold then [sliceOf block] else []
    | blocks =>
      match bestMatch contentLines findLines blocks with
      | (none, _) => []
      | (some block, score) => if score < multipleCandidatesThreshold then [] else [sliceOf block]

/-- `text.replace(/\s+/g, " ")`, after a white space that was replaced or not. -/
def collapse : Bool → Text → Text
  | _, [] => []
  | inSpace, unit :: rest =>
    if isSpace unit then
      if inSpace then collapse true rest else 0x20 :: collapse true rest
    else unit :: collapse false rest

def normalize (text : Text) : Text := trim (collapse false text)

/-- 5. The text with its white space collapsed. -/
def whitespaceNormalizedReplacer (content find : Text) : List Text :=
  let normalizedFind := normalize find
  let contentLines := linesOf content
  let findLines := linesOf find
  if normalizedFind = [] then []
  else if findLines.length ≤ 1 ∨ (findLines.length = 2 ∧ findLines.getD 1 [] = []) then
    contentLines.filter fun line => normalize line = normalizedFind
  else
    let count := (dropEmptyLast findLines).length
    ((places contentLines count).map fun i => joinLines (window contentLines i count)).filter fun block =>
      normalize block = normalizedFind

/-- 6. The text without its boundary white space. -/
def trimmedBoundaryReplacer (content find : Text) : List Text :=
  let trimmed := trim find
  if trimmed = find ∨ trimmed = [] then []
  else if trimmed <:+: content then [trimmed]
  else firstBlock content (linesOf find).length fun block => trim block = trimmed

/-! ## The cascade -/

inductive Replacer where
  | simple
  | escapeNormalized
  | lineTrimmed
  | blockAnchor
  | whitespaceNormalized
  | trimmedBoundary
  deriving DecidableEq, Repr

def REPLACERS : List Replacer :=
  [.simple, .escapeNormalized, .lineTrimmed, .blockAnchor, .whitespaceNormalized, .trimmedBoundary]

def Replacer.candidates : Replacer → Text → Text → List Text
  | .simple => simpleReplacer
  | .escapeNormalized => escapeNormalizedReplacer
  | .lineTrimmed => lineTrimmedReplacer
  | .blockAnchor => blockAnchorReplacer
  | .whitespaceNormalized => whitespaceNormalizedReplacer
  | .trimmedBoundary => trimmedBoundaryReplacer

/-- `replacer.name`. -/
def Replacer.name : Replacer → List Char
  | .simple => "SimpleReplacer".toList
  | .escapeNormalized => "EscapeNormalizedReplacer".toList
  | .lineTrimmed => "LineTrimmedReplacer".toList
  | .blockAnchor => "BlockAnchorReplacer".toList
  | .whitespaceNormalized => "WhitespaceNormalizedReplacer".toList
  | .trimmedBoundary => "TrimmedBoundaryReplacer".toList

/-- `replace(/([a-z])([A-Z])/g, "$1-$2")`. -/
def hyphenate : List Char → List Char
  | [] => []
  | [char] => [char]
  | char :: next :: rest =>
    if char.isLower && next.isUpper then char :: '-' :: next :: hyphenate rest
    else char :: hyphenate (next :: rest)

def Replacer.strategyName (replacer : Replacer) : List Char :=
  let name := match Substrings.cutFirst "Replacer".toList replacer.name with
    | some (before, after) => before ++ after
    | none => replacer.name
  (hyphenate name).map Char.toLower

theorem strategyName_injective {first second : Replacer}
    (same : first.strategyName = second.strategyName) : first = second := by
  have table : ∀ replacer ∈ REPLACERS, ∀ other ∈ REPLACERS,
      replacer.strategyName = other.strategyName → replacer = other := by decide +kernel
  exact table first (by cases first <;> decide) second (by cases second <;> decide) same

/-! ## What the matchers find -/

theorem searchedLines_pos (find : Text) : 0 < (searchedLines find).length := by
  have some := List.length_pos_iff.mpr (List.splitOn_ne_nil newline find)
  rw [searchedLines, linesOf]
  split
  · next several =>
      rw [dropEmptyLast]
      split
      · rw [List.length_dropLast]
        omega
      · exact some
  · exact some

section

variable {content find candidate : Text}

theorem slice_within (content : Text) (start stop : Nat) : slice content start stop <:+: content :=
  (List.drop_suffix _ _).isInfix.trans (List.take_prefix _ _).isInfix

theorem firstBlock_within {count : Nat} {check : Text → Bool}
    (found : candidate ∈ firstBlock content count check) : candidate <:+: content := by
  rw [firstBlock, Option.mem_toList] at found
  obtain ⟨i, -, rfl⟩ := List.mem_map.mp (List.mem_of_find?_eq_some found)
  exact joinLines_window content i count

theorem escapeNormalized_within (found : candidate ∈ escapeNormalizedReplacer content find) :
    candidate <:+: content := by
  simp only [escapeNormalizedReplacer] at found
  split at found
  · cases found
  · split at found
    · cases found
    · split at found
      · next occurs =>
          rw [List.mem_singleton.mp found]
          exact occurs
      · exact firstBlock_within found

/-- **What the line matcher takes for a match**: a block of whole lines of the content which are those that
are searched, up to their boundary white space. -/
theorem lineTrimmed_spec (found : candidate ∈ lineTrimmedReplacer content find) :
    ∃ i, i + (searchedLines find).length ≤ (linesOf content).length ∧
      (window (linesOf content) i (searchedLines find).length).map trim = (searchedLines find).map trim ∧
      candidate = joinLines (window (linesOf content) i (searchedLines find).length) := by
  simp only [lineTrimmedReplacer] at found
  split at found
  · cases found
  · obtain ⟨i, place, rfl⟩ := List.mem_map.mp found
    obtain ⟨fits, matched⟩ := List.mem_filter.mp place
    have some := searchedLines_pos find
    have bound := List.mem_range.mp fits
    have within : i + (searchedLines find).length ≤ (linesOf content).length := by omega
    exact ⟨i, within, of_decide_eq_true matched, slice_block some within⟩

theorem lineTrimmed_within (found : candidate ∈ lineTrimmedReplacer content find) :
    candidate <:+: content := by
  obtain ⟨i, -, -, rfl⟩ := lineTrimmed_spec found
  exact joinLines_window content i _

theorem blockAnchor_within (found : candidate ∈ blockAnchorReplacer content find) :
    candidate <:+: content := by
  simp only [blockAnchorReplacer] at found
  split at found
  · cases found
  · split at found
    · cases found
    · split at found
      · cases found
      · split at found
        · rw [List.mem_singleton.mp found]
          exact slice_within _ _ _
        · cases found
      · split at found
        · cases found
        · split at found
          · cases found
          · rw [List.mem_singleton.mp found]
            exact slice_within _ _ _

theorem whitespaceNormalized_within (found : candidate ∈ whitespaceNormalizedReplacer content find) :
    candidate <:+: content := by
  simp only [whitespaceNormalizedReplacer] at found
  split at found
  · cases found
  · split at found
    · have line := List.mem_of_mem_filter found
      have whole := @Substrings.infix_of_mem_intercalate _ [newline] _ _ line
      rwa [show [newline].intercalate (linesOf content) = content from joinLines_linesOf content] at whole
    · obtain ⟨i, -, rfl⟩ := List.mem_map.mp (List.mem_of_mem_filter found)
      exact joinLines_window content i _

theorem trimmedBoundary_within (found : candidate ∈ trimmedBoundaryReplacer content find) :
    candidate <:+: content := by
  simp only [trimmedBoundaryReplacer] at found
  split at found
  · cases found
  · split at found
    · next occurs =>
        rw [List.mem_singleton.mp found]
        exact occurs
    · exact firstBlock_within found

theorem candidates_within {replacer : Replacer} (found : candidate ∈ replacer.candidates content find) :
    candidate <:+: content := by
  cases replacer with
  | simple =>
    simp only [Replacer.candidates, simpleReplacer] at found
    split at found
    · next occurs =>
        rw [List.mem_singleton.mp found]
        exact occurs
    · cases found
  | escapeNormalized => exact escapeNormalized_within found
  | lineTrimmed => exact lineTrimmed_within found
  | blockAnchor => exact blockAnchor_within found
  | whitespaceNormalized => exact whitespaceNormalized_within found
  | trimmedBoundary => exact trimmedBoundary_within found

end

end PiCrew.Editing
