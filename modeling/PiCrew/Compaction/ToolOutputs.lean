/-
**What pruning leaves of the results of tools.**

`runtime/compaction/tool-output-pruner.ts` (`pruneToolOutputs`, `buildStalenessIndex`, `createPrunedNotice`) with
`utils/token-counter.ts` (`countTokens`). Results are looked at from the newest one on. A result that a later one of
its target supersedes is replaced by a notice, and one that lies behind the window of recent tokens, if its tool is
not protected. The pruner hands no edits to the index; and it replaces every result that may be replaced, also one
that is shorter than its notice, and counts a saving of zero for it.

* `mem_buildStalenessIndex` — what the index holds stale, without edits;
* `pruneToolOutputs_spec`, `total_replaced` — the results are replaced one by one, or not at all;
* `prunedFaithfully_iff` — when the pruner does what it is for;
* `edited_read_kept` — a read that an edit has touched, and an empty result that grows.
-/

import PiCrew.Compaction.Truncation
import PiCrew.EventLog.LogStats
import PiCrew.Library.Bindings
import Mathlib.Data.Rat.Floor

namespace PiCrew.Compaction.ToolOutputs

open JsonText FlatRegex
open PiCrew.EventLog.LogStats (isSpace trim)

def isMultiCharOp (first next : UInt16) : Bool :=
  (["=>", "==", "!=", "<=", ">=", "&&", "||", "?.", "??", "++", "+=", "--", "-=", "*=", "/="].map units).contains
    [first, next]

/-- The variables of the loop of `countTokens`. -/
structure Count where
  alphaChars : Nat := 0
  alphaRuns : Nat := 0
  punctChars : Nat := 0
  codePunct : Nat := 0
  multiCharOps : Nat := 0
  inAlphaRun : Bool := false
  skipOpCheck : Bool := false

def isBlank (unit : UInt16) : Bool := unit = 0x20 || unit = 0x09 || unit = 0x0A || unit = 0x0D

def isAlpha (unit : UInt16) : Bool :=
  (0x30 ≤ unit && unit ≤ 0x39) || (0x41 ≤ unit && unit ≤ 0x5A) || (0x61 ≤ unit && unit ≤ 0x7A) || unit = 0x5F

def Count.step (count : Count) (unit : UInt16) (next : Option UInt16) : Count :=
  if isBlank unit then { count with inAlphaRun := false, skipOpCheck := false }
  else if isAlpha unit then
    { count with
      alphaChars := count.alphaChars + 1
      alphaRuns := if count.inAlphaRun then count.alphaRuns else count.alphaRuns + 1
      inAlphaRun := true
      skipOpCheck := false }
  else
    let operator := !count.skipOpCheck && next.any (isMultiCharOp unit)
    { count with
      inAlphaRun := false
      punctChars := count.punctChars + 1
      codePunct := if (units "{}[]();:").contains unit then count.codePunct + 1 else count.codePunct
      multiCharOps := if operator then count.multiCharOps + 1 else count.multiCharOps
      skipOpCheck := operator }

def Count.over (count : Count) : Text → Count
  | [] => count
  | unit :: rest => (count.step unit rest.head?).over rest

/-- **The tokens of a text**, as code or as prose. The shares are compared as whole numbers. -/
def countTokens (text : Text) : Nat :=
  let count := ({} : Count).over text
  let total := count.alphaChars + count.punctChars
  if total = 0 then 0
  else if total ≤ 10 * (count.codePunct + count.multiCharOps) then
    max ((2 * count.alphaChars + 6) / 7) count.alphaRuns + count.punctChars - count.multiCharOps
  else (count.alphaChars + 3) / 4 + count.punctChars

/-- The result of a tool. The exit code is what is printed of a finite one. -/
structure ToolResultEntry where
  id : Text
  toolName : Text
  target : Option Text := none
  content : Text
  isError : Bool := false
  exitCode : Option Text := none
  deriving DecidableEq

def chars (text : Text) : List Char := text.map fun unit => Char.ofNat unit.toNat

/-- Whether a name is that of a tool, in any case of its letters. -/
def named (name : Text) (tool : String) : Bool := (chars name).map Char.toLower = tool.toList

/-- `/word/i` -/
def anyCase (word : String) : List Item :=
  word.toList.map fun wanted => .chars (·.toLower = wanted) 1 (some 1) false none

/-- `split(/\r?\n/)` -/
def linesOf (text : Text) : List Text := (piecesFrom [] [] text).map (·.line)

def filled (lines : List Text) : List Text := lines.filter (· ≠ [])

def join (separator : String) (parts : List Text) : Text := (units separator).intercalate parts

def firstErrorLine (text : Text) (isError : Bool) : Option Text :=
  let lines := linesOf text
  match lines.find? fun line =>
    ["error", "failed", "exception", "panic"].any fun word => FlatRegex.test (anyCase word) (chars line) with
  | some matched => some (trim matched)
  | none =>
    let head := (filled (lines.map trim)).take 3
    if isError && !head.isEmpty then some (join " | " head) else none

def truncateField (value : Text) (maxLength : Nat) : Text :=
  if value.length ≤ maxLength then value
  else if maxLength ≤ 1 then units "…"
  else value.take (maxLength - 1) ++ units "…"

/-- What a pattern takes in its group, at its first match. -/
def firstGroup (items : List Item) (text : Text) : Option Text :=
  (searchFrom items none 0 (chars text)).map fun hit =>
    (hit.found.group 1).map fun char => char.toNat.toUInt16

def digits : Item := .chars Char.isDigit 1 none false (some 1)

def spaces (least : Nat) : Item := repeated (fun char => isSpace char.toNat.toUInt16) least none

/-- `/(\d+)\s+words?/i`, or else `/field["']?:\s*(\d+)/i` -/
def countOf (word field : String) (text : Text) : Option Text :=
  firstGroup ([digits, spaces 1] ++ anyCase word ++ [repeated (·.toLower = 's') 0 (some 1)]) text <|>
    firstGroup (anyCase field ++ [repeated (fun char => char = '"' || char = '\'') 0 (some 1),
      repeated (· = ':') 1 (some 1), spaces 0, digits]) text

def field (name : String) (value : Option Text) : List Text := (value.map (units name ++ ·)).toList

def resultDigest (entry : ToolResultEntry) : Option Text :=
  let text := entry.content
  let error := field "error=" (firstErrorLine text entry.isError)
  if named entry.toolName "bash" then
    let exitCode := entry.exitCode.getD (units (if entry.isError then "1" else "0"))
    let tail := (filled (linesOf (trim text))).getLast?
    some (join "; " (field "exit=" (some exitCode) ++ field "tail=" tail ++ error))
  else if named entry.toolName "search" || named entry.toolName "grep" then
    let parts := field "matches=" (countOf "matche" "totalmatches" text) ++
      field "files=" (countOf "file" "fileswithmatches" text) ++ error
    some (if parts.isEmpty then units "search digest unavailable" else join "; " parts)
  else none

def genericLineDigest (content : Text) : Text :=
  let lines := filled ((linesOf content).map trim)
  if lines.isEmpty then units "empty output"
  else if lines.length ≤ 4 then units (toString lines.length ++ " line(s): ") ++ join " ⏎ " lines
  else units "head=" ++ join " ⏎ " (lines.take 2) ++ units "; tail=" ++
    join " ⏎ " (lines.drop (lines.length - 2))

def createPrunedNotice (tokens : Nat) (entry : ToolResultEntry) : Text :=
  let generic := units ("[Output pruned — " ++ toString tokens ++ " tokens]")
  let digest := (resultDigest entry).getD (genericLineDigest entry.content)
  if digest = [] then generic
  else
    let genericTokens := countTokens generic
    let maxTokens := max genericTokens (genericTokens * 5 / 4)
    let before := units ("[Output pruned — " ++ toString tokens ++ " tokens; ")
    before ++ truncateField digest (maxTokens * 4 - before.length - 1) ++ units "]"

/-- `\d+(?:[-+]\d+)?` -/
def isRange (part : Text) : Bool :=
  match (chars part).span Char.isDigit with
  | ([], _) => false
  | (_, []) => true
  | (_, sign :: more) => (sign = '-' || sign = '+') && !more.isEmpty && more.all Char.isDigit

/-- What `READ_SELECTOR_SUFFIX` takes behind the colon. -/
def isSelector (text : Text) : Bool :=
  text = units "raw" || text = units "conflicts" || (text.splitOn 0x2C).all isRange

/-- `readBasePath`: a turn takes a unit at least, so that there are turns enough. -/
def readBasePathFrom : Nat → Text → Text
  | 0, base => base
  | turns + 1, base =>
    let selector := (base.reverse.takeWhile (· ≠ 0x3A)).reverse
    if selector.length < base.length && isSelector selector then
      readBasePathFrom turns (base.take (base.length - selector.length - 1))
    else base

def readBasePath (filePath : Text) : Text := readBasePathFrom filePath.length filePath

/-- The pair that the key is the text of. -/
def toolTargetKey (entry : ToolResultEntry) : Option (Text × Text) :=
  (entry.target.filter (· ≠ [])).map (entry.toolName, ·)

structure FileEditEvent where
  target : Text
  index : Nat

def keyedIndices (toolResults : List (ToolResultEntry × Nat)) : List ((Text × Text) × Nat) :=
  toolResults.filterMap fun (entry, index) =>
    if entry.isError then none else (toolTargetKey entry).map (·, index)

def buildStalenessIndex (toolResults : List ToolResultEntry) (fileEdits : List FileEditEvent) : List Nat :=
  let lastResultIndexByKey := Bindings.ofEntries (keyedIndices toolResults.zipIdx)
  let lastEditIndexByPath := Bindings.ofEntries (fileEdits.map fun edit => (edit.target, edit.index))
  (toolResults.zipIdx.filter fun (entry, index) =>
    ((toolTargetKey entry).bind lastResultIndexByKey.get).any (index < ·) ||
      named entry.toolName "read" && ((entry.target.filter (· ≠ [])).bind fun target =>
        lastEditIndexByPath.get (readBasePath target)).any (index < ·)).map (·.2)

/-- The bounds are numbers; one that is not finite acts as a large one, and `NaN` as zero. -/
structure PruneConfig where
  protectTokens : ℚ
  minimumSavings : ℚ
  protectedTools : List Text
  staleOverridableTools : List Text := []

def defaultPruneConfig : PruneConfig :=
  { protectTokens := 40000, minimumSavings := 20000, protectedTools := [units "read"]
    staleOverridableTools := [units "read"] }

structure PruneResult where
  prunedCount : Nat := 0
  tokensSaved : Nat := 0
  results : List ToolResultEntry
  prunedIds : List Text := []

structure Candidate where
  index : Nat
  entry : ToolResultEntry
  tokens : Nat
  notice : Text
  savings : Nat

def candidateOf (index : Nat) (entry : ToolResultEntry) : Candidate :=
  let tokens := countTokens entry.content
  let notice := createPrunedNotice tokens entry
  { index := index, entry := entry, tokens := tokens, notice := notice, savings := tokens - countTokens notice }

def Candidate.pruned (candidate : Candidate) : ToolResultEntry :=
  { candidate.entry with content := candidate.notice }

/-- Whether a result is passed over, behind so many tokens. -/
def spares (config : PruneConfig) (isStale : Bool) (accumulatedTokens : Nat) (entry : ToolResultEntry) : Bool :=
  let isProtected := config.protectedTools.contains entry.toolName &&
    !(isStale && config.staleOverridableTools.contains entry.toolName)
  let insideProtectWindow := decide ((accumulatedTokens : ℚ) < config.protectTokens)
  insideProtectWindow && !isStale || isProtected

/-- A turn of the loop, from the newest result on. -/
def sweep (config : PruneConfig) (stale : List Nat) (item : ToolResultEntry × Nat)
    (state : Nat × List Candidate) : Nat × List Candidate :=
  (state.1 + countTokens item.1.content,
    if spares config (stale.contains item.2) state.1 item.1 then state.2
    else state.2 ++ [candidateOf item.2 item.1])

/-- **The results with notices** for those that may go, if that saves enough. -/
def pruneToolOutputs (results : List ToolResultEntry) (config : PruneConfig := defaultPruneConfig) :
    PruneResult :=
  let candidates := (results.zipIdx.foldr (sweep config (buildStalenessIndex results [])) (0, [])).2
  let tokensSaved : Nat := (candidates.map (·.savings)).sum
  if (tokensSaved : ℚ) < config.minimumSavings ∨ candidates.isEmpty then { results := results }
  else
    { prunedCount := candidates.length
      tokensSaved := tokensSaved
      results := candidates.foldl (fun results candidate => results.set candidate.index candidate.pruned) results
      prunedIds := candidates.map (·.entry.id) }

/-! ### One result after the other -/

section

variable {config : PruneConfig} {front rest results : List ToolResultEntry} {entry : ToolResultEntry}

def total (results : List ToolResultEntry) : Nat := (results.map (countTokens ·.content)).sum

def noticeOf (entry : ToolResultEntry) : Text := createPrunedNotice (countTokens entry.content) entry

/-- A later result of the same target that succeeded. -/
def superseded (rest : List ToolResultEntry) (entry : ToolResultEntry) : Bool :=
  (toolTargetKey entry).any fun key => rest.any fun later => !later.isError && toolTargetKey later = some key

/-- A result stays, before the ones that follow it. -/
def stays (config : PruneConfig) (rest : List ToolResultEntry) (entry : ToolResultEntry) : Bool :=
  spares config (superseded rest entry) (total rest) entry

def offers (config : PruneConfig) : Nat → List ToolResultEntry → List Candidate
  | _, [] => []
  | index, entry :: rest =>
    offers config (index + 1) rest ++ if stays config rest entry then [] else [candidateOf index entry]

/-- The results with a notice for each that does not stay. -/
def replaced (config : PruneConfig) : List ToolResultEntry → List ToolResultEntry
  | [] => []
  | entry :: rest =>
    (if stays config rest entry then entry else { entry with content := noticeOf entry }) :: replaced config rest

/-- What the notices save, none of them less than nothing. -/
def reduction (config : PruneConfig) : List ToolResultEntry → Nat
  | [] => 0
  | entry :: rest => reduction config rest +
      if stays config rest entry then 0 else countTokens entry.content - countTokens (noticeOf entry)

theorem mem_keyedIndices {items : List (ToolResultEntry × Nat)} {key : Text × Text} {index : Nat} :
    (key, index) ∈ keyedIndices items ↔
      ∃ entry, (entry, index) ∈ items ∧ entry.isError = false ∧ toolTargetKey entry = some key := by
  rw [keyedIndices, List.mem_filterMap]
  constructor
  · rintro ⟨⟨entry, place⟩, member, found⟩
    dsimp only at found
    split_ifs at found with failed
    obtain ⟨other, same, equal⟩ := Option.map_eq_some_iff.mp found
    cases equal
    exact ⟨entry, member, by simpa using failed, same⟩
  · rintro ⟨entry, member, succeeded, same⟩
    exact ⟨(entry, index), member, by simp [succeeded, same]⟩

/-- **The last result of a target** is behind a place if there is one behind it. -/
theorem last_behind_iff {key : Text × Text} :
    ((Bindings.ofEntries (keyedIndices (front ++ entry :: rest).zipIdx)).get key).any (front.length < ·) = true ↔
      rest.any (fun later => !later.isError && toolTargetKey later = some key) = true := by
  have split : keyedIndices (front ++ entry :: rest).zipIdx =
      keyedIndices ((front ++ [entry]).zipIdx) ++ keyedIndices (rest.zipIdx (front.length + 1)) := by
    rw [List.append_cons, List.zipIdx_append, keyedIndices, List.filterMap_append]
    simp [keyedIndices]
  rw [split, Bindings.get_ofEntries_append]
  cases behind : (Bindings.ofEntries (keyedIndices (rest.zipIdx (front.length + 1)))).get key with
  | some index =>
    obtain ⟨later, member, succeeded, same⟩ := mem_keyedIndices.mp (Bindings.get_ofEntries_mem behind)
    have listed : later ∈ rest := List.fst_mem_of_mem_zipIdx member
    simp only [Option.some_or, Option.any_some, decide_eq_true_eq, List.any_eq_true]
    exact ⟨fun _ => ⟨later, listed, by simp [succeeded, same]⟩, fun _ => List.le_snd_of_mem_zipIdx member⟩
  | none =>
    have absent := Bindings.get_ofEntries_eq_none.mp behind
    rw [Option.none_or, Option.any_eq_true, List.any_eq_true]
    constructor
    · rintro ⟨index, last, after⟩
      obtain ⟨other, member, -⟩ := mem_keyedIndices.mp (Bindings.get_ofEntries_mem last)
      have before := List.snd_lt_of_mem_zipIdx member
      simp at before after
      omega
    · rintro ⟨later, listed, counts⟩
      obtain ⟨place, inside, rfl⟩ := List.mem_iff_getElem.mp listed
      have member : (rest[place], front.length + 1 + place) ∈ rest.zipIdx (front.length + 1) := by
        simp [List.mk_mem_zipIdx_iff_le_and_getElem?_sub]
      exact absurd rfl (absent _ (mem_keyedIndices.mpr ⟨_, member, by simpa using counts⟩))

/-- **The index holds a result stale** that a later one supersedes, and no other without edits. -/
theorem mem_buildStalenessIndex :
    front.length ∈ buildStalenessIndex (front ++ entry :: rest) [] ↔ superseded rest entry = true := by
  have unedited (path : Text) : (Bindings.ofEntries ([] : List (Text × Nat))).get path = none := rfl
  have placed (other : ToolResultEntry) :
      (other, front.length) ∈ (front ++ entry :: rest).zipIdx ↔ other = entry := by
    simp [List.mk_mem_zipIdx_iff_getElem?, eq_comm]
  simp only [buildStalenessIndex, List.map_nil, unedited, Option.bind_fun_none, Option.any_none, Bool.and_false,
    Bool.or_false, List.mem_map, List.mem_filter, Prod.exists, exists_eq_right, placed, superseded]
  rw [exists_eq_left]
  cases toolTargetKey entry with
  | none => simp
  | some key => exact last_behind_iff

theorem sweep_eq (front results : List ToolResultEntry) :
    (results.zipIdx front.length).foldr (sweep config (buildStalenessIndex (front ++ results) [])) (0, []) =
      (total results, offers config front.length results) := by
  induction results generalizing front with
  | nil => rfl
  | cons entry rest ih =>
    have later := ih (front ++ [entry])
    rw [List.length_append, List.length_singleton, ← List.append_cons] at later
    have stale : (buildStalenessIndex (front ++ entry :: rest) []).contains front.length = superseded rest entry :=
      Bool.eq_iff_iff.mpr (List.contains_iff_mem.trans mem_buildStalenessIndex)
    rw [List.zipIdx_cons, List.foldr_cons, later, sweep, stale]
    refine Prod.ext (Nat.add_comm _ _) ?_
    rw [offers, stays]
    split_ifs <;> simp

/-- **The notices go to their places**, whatever stands before them. -/
theorem foldl_offers (front results : List ToolResultEntry) :
    (offers config front.length results).foldl
        (fun results candidate => results.set candidate.index candidate.pruned) (front ++ results) =
      front ++ replaced config results := by
  induction results generalizing front with
  | nil => rfl
  | cons entry rest ih =>
    have later := ih (front ++ [entry])
    rw [List.length_append, List.length_singleton, ← List.append_cons, ← List.append_cons] at later
    rw [offers, List.foldl_append, later, replaced]
    split_ifs
    · rfl
    · simp [candidateOf, Candidate.pruned, noticeOf]

theorem savings_offers (index : Nat) (results : List ToolResultEntry) :
    ((offers config index results).map (·.savings)).sum = reduction config results := by
  induction results generalizing index with
  | nil => rfl
  | cons entry rest ih =>
    rw [offers, List.map_append, List.sum_append, ih, reduction]
    split_ifs <;> simp [candidateOf, noticeOf]

/-- **The results are replaced** one by one, or not at all. -/
theorem pruneToolOutputs_spec (config : PruneConfig) (results : List ToolResultEntry) :
    if config.minimumSavings ≤ reduction config results then
      (pruneToolOutputs results config).results = replaced config results ∧
        (pruneToolOutputs results config).tokensSaved = reduction config results
    else (pruneToolOutputs results config).results = results ∧ (pruneToolOutputs results config).tokensSaved = 0 := by
  have swept := @sweep_eq config [] results
  have put := @foldl_offers config [] results
  rw [List.length_nil, List.nil_append] at swept
  rw [List.length_nil, List.nil_append, List.nil_append] at put
  rw [pruneToolOutputs, swept]
  dsimp only
  rw [← put, ← savings_offers 0]
  cases offers config 0 results with
  | nil => simp
  | cons candidate more =>
    by_cases enough : config.minimumSavings ≤ (((candidate :: more).map (·.savings)).sum : Nat)
    · rw [if_pos enough, if_neg (by simpa using enough)]
      exact ⟨rfl, rfl⟩
    · rw [if_neg enough, if_pos (.inl (not_le.mp enough))]
      exact ⟨rfl, rfl⟩

theorem getElem?_replaced : (replaced config (front ++ entry :: rest))[front.length]? =
    some (if stays config rest entry then entry else { entry with content := noticeOf entry }) := by
  induction front with
  | nil => rfl
  | cons other front ih => simpa [replaced] using ih

theorem map_replaced (results : List ToolResultEntry) :
    (replaced config results).map ({ · with content := [] }) = results.map ({ · with content := [] }) := by
  induction results with
  | nil => rfl
  | cons entry rest ih =>
    rw [replaced, List.map_cons, ih]
    split_ifs <;> rfl

/-- **The sum is kept** but where a notice is longer than what it stands for. -/
theorem total_replaced (results : List ToolResultEntry) :
    total results ≤ total (replaced config results) + reduction config results ∧
      (total (replaced config results) + reduction config results = total results ↔
        ∀ entry rest, entry :: rest <:+ results → stays config rest entry = false →
          countTokens (noticeOf entry) ≤ countTokens entry.content) := by
  induction results with
  | nil => simp [replaced, reduction]
  | cons first later ih =>
    obtain ⟨least, exact_iff⟩ := ih
    have places (holds : ToolResultEntry → List ToolResultEntry → Prop) :
        (∀ entry rest, entry :: rest <:+ first :: later → holds entry rest) ↔
          holds first later ∧ ∀ entry rest, entry :: rest <:+ later → holds entry rest := by
      simp [List.suffix_cons_iff, or_imp, forall_and]
    rw [places, ← exact_iff, replaced, reduction]
    simp only [total, List.map_cons, List.sum_cons] at least ⊢
    split_ifs with kept
    · simp only [kept, Bool.true_eq_false, false_implies, true_and]
      omega
    · simp only [kept, forall_const]
      omega

end

/-! ### What the pruner is for -/

section

variable {config : PruneConfig} {results : List ToolResultEntry}

/-- A later edit or write that succeeded touches the file of a read. -/
def touched (rest : List ToolResultEntry) (entry : ToolResultEntry) : Bool :=
  named entry.toolName "read" && (entry.target.filter (· ≠ [])).any fun target =>
    rest.any fun later => !later.isError && (named later.toolName "edit" || named later.toolName "write") &&
      later.target = some (readBasePath target)

/-- What is asked of the results after pruning, with the index the pruner works by. -/
structure PrunedFaithfully (results : List ToolResultEntry) (config : PruneConfig) (after : PruneResult) : Prop where
  kept : after.results.map ({ · with content := [] }) = results.map ({ · with content := [] })
  changed : ∀ front entry rest, results = front ++ entry :: rest → after.results[front.length]? ≠ some entry →
    (superseded rest entry = true ∨ config.protectTokens ≤ total rest) ∧
      (entry.toolName ∈ config.protectedTools →
        superseded rest entry = true ∧ entry.toolName ∈ config.staleOverridableTools)
  newest : ∀ front entry rest, results = front ++ entry :: rest → entry.toolName ∈ config.protectedTools →
    superseded rest entry = false → after.results[front.length]? = some entry
  stale : ∀ front entry rest, results = front ++ entry :: rest → touched rest entry = true →
    front.length ∈ buildStalenessIndex results []
  saved : total after.results + after.tokensSaved = total results

theorem of_not_stays {entry : ToolResultEntry} {rest : List ToolResultEntry}
    (goes : stays config rest entry = false) :
    (superseded rest entry = true ∨ config.protectTokens ≤ total rest) ∧
      (entry.toolName ∈ config.protectedTools →
        superseded rest entry = true ∧ entry.toolName ∈ config.staleOverridableTools) := by
  rw [stays, spares, Bool.or_eq_false_iff] at goes
  obtain ⟨behind, exposed⟩ := goes
  simp only [Bool.and_eq_false_iff, decide_eq_false_iff_not, not_lt, Bool.not_eq_false'] at behind
  exact ⟨behind.symm, fun shielded => by simpa [shielded] using exposed⟩

/-- A result is as it was, or it is one that may go. -/
theorem unchanged_or {front rest : List ToolResultEntry} {entry : ToolResultEntry}
    (split : results = front ++ entry :: rest) :
    (pruneToolOutputs results config).results[front.length]? = some entry ∨ stays config rest entry = false := by
  have pruned := pruneToolOutputs_spec config results
  split_ifs at pruned with enough
  · rw [pruned.1, split, getElem?_replaced]
    cases stays config rest entry <;> simp
  · rw [pruned.1, split]
    simp

/-- **The pruner does what it is for** if every read that an edit touches is read again, and no notice that it puts in
is longer than what it stands for. -/
theorem prunedFaithfully_iff :
    PrunedFaithfully results config (pruneToolOutputs results config) ↔
      (∀ entry rest, entry :: rest <:+ results → touched rest entry = true → superseded rest entry = true) ∧
        (config.minimumSavings ≤ reduction config results →
          ∀ entry rest, entry :: rest <:+ results → stays config rest entry = false →
            countTokens (noticeOf entry) ≤ countTokens entry.content) := by
  have pruned := pruneToolOutputs_spec config results
  constructor
  · intro faithful
    refine ⟨fun entry rest ⟨front, split⟩ edited => ?_, fun enough => ?_⟩
    · have listed := faithful.stale front entry rest split.symm edited
      rw [← split] at listed
      exact mem_buildStalenessIndex.mp listed
    · rw [if_pos enough] at pruned
      have saved := faithful.saved
      rw [pruned.1, pruned.2] at saved
      exact (total_replaced results).2.mp saved
  · rintro ⟨again, short⟩
    refine ⟨?_, fun front entry rest split apart => of_not_stays ((unchanged_or split).resolve_left apart),
      fun front entry rest split shielded current => ?_, fun front entry rest split edited => ?_, ?_⟩
    · split_ifs at pruned with enough
      · rw [pruned.1, map_replaced]
      · rw [pruned.1]
    · refine (unchanged_or split).resolve_right fun goes => ?_
      exact Bool.false_ne_true (current.symm.trans ((of_not_stays goes).2 shielded).1)
    · rw [split]
      exact mem_buildStalenessIndex.mpr (again entry rest ⟨front, split.symm⟩ edited)
    · split_ifs at pruned with enough
      · rw [pruned.1, pruned.2]
        exact (total_replaced results).2.mpr (short enough)
      · rw [pruned.1, pruned.2, Nat.add_zero]

def readOf (content : String) : ToolResultEntry :=
  { id := units "r", toolName := units "read", target := units "a.ts", content := units content }

def editedRead : List ToolResultEntry := [readOf "one", { readOf "done" with toolName := units "edit" }]

def emptyOutput : List ToolResultEntry := [{ readOf "" with toolName := units "bash" }]

def withoutBounds : PruneConfig := { protectTokens := 0, minimumSavings := 0, protectedTools := [] }

/-- **An edit comes behind a read**, which is not stale for it; and an output without tokens becomes a notice that
has some. -/
theorem edited_read_kept :
    ¬ PrunedFaithfully editedRead defaultPruneConfig (pruneToolOutputs editedRead) ∧
      ¬ PrunedFaithfully emptyOutput withoutBounds (pruneToolOutputs emptyOutput withoutBounds) := by
  refine ⟨fun faithful => ?_, fun faithful => absurd faithful.saved (by decide +kernel)⟩
  have listed := faithful.stale [] _ _ rfl (by decide +kernel)
  exact absurd listed (by decide +kernel)

end

end PiCrew.Compaction.ToolOutputs
