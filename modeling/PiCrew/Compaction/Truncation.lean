/-
**Truncation around the important lines.**

`compact-stages/truncation-stage.ts` keeps the head and the tail of a text, and the important lines of the
middle that fit (`important-line-classifier.ts`). The middle is cut at its boundaries before it is split, so
its first and last line may be parts of lines.

* `length_composed` — the length of what is put together;
* `truncation_whole_iff` — when the kept lines are lines of the text. The rest always holds.
-/

import PiCrew.Compaction.BoundedTail
import PiCrew.Library.FlatRegex

namespace PiCrew.Compaction

open JsonText FlatRegex

def carriageReturn : UInt16 := 0x0D

structure Piece where
  before : Text
  line : Text
  after : Text
  deriving DecidableEq, Repr

def Piece.within (head tail : Text) (piece : Piece) : Piece := ⟨head ++ piece.before, piece.line, piece.after ++ tail⟩

def isWord (char : Char) : Bool := char.isAlphanum || char = '_'

/-- `\b`. -/
def wordBoundary : Item := .anchor fun before after => before.any isWord != after.any isWord

def keyword (word : String) : List Item :=
  wordBoundary :: word.toList.map (fun wanted => .chars (·.toLower = wanted) 1 (some 1) false none) ++
    [wordBoundary]

def repeated (test : Char → Bool) (least : Nat) (most : Option Nat) : Item := .chars test least most false none

/-- `IMPORTANT_LINE_PATTERNS`, the first one as its alternatives. -/
def importantLinePatterns : List (List Item) :=
  ["error", "failed", "exception", "fatal", "panic"].map keyword ++
    [[repeated isWord 1 none, .char '.', repeated isWord 1 none, .char ':', repeated Char.isDigit 1 none, .char ':'],
      [wordBoundary, repeated (fun char => char = '4' || char = '5') 1 (some 1),
        repeated Char.isDigit 2 (some 2), wordBoundary],
      wordBoundary :: literal "Warning".toList ++ [wordBoundary],
      [wordBoundary, repeated Char.isUpper 2 (some 4), repeated Char.isDigit 3 (some 5), wordBoundary]]

/-- `isImportantLine`. No pattern tells a half of a pair from another unit that is no word. -/
def isImportantLine (line : Text) : Bool := !line.isEmpty &&
    importantLinePatterns.any fun items => FlatRegex.test items (line.map fun unit => Char.ofNat unit.toNat)

/-- `split(/\r?\n/)`, from within a line on. -/
def piecesFrom (before line : Text) : Text → List Piece
  | [] => [⟨before, line, []⟩]
  | unit :: rest =>
    if unit = newline then
      let ended := if line.getLast? = some carriageReturn then line.dropLast else line
      ⟨before, ended, line.drop ended.length ++ newline :: rest⟩ ::
        piecesFrom (before ++ line ++ [newline]) [] rest
    else piecesFrom before (line ++ [unit]) rest

/-- `extractImportantLines`, with the places of the lines. -/
def extractImportantLines (text : Text) (maxLines : Nat) : List Piece :=
  if text = [] then [] else ((piecesFrom [] [] text).filter (isImportantLine ·.line)).take maxLines

/-- The loop of the two boundaries: a boundary moves while the unit at it is half of a pair that it splits. -/
def backOff (splits : Nat → Bool) : Nat → Nat
  | 0 => 0
  | boundary + 1 => if splits boundary then backOff splits boundary else boundary + 1

def safeHeadBoundary (value : Text) (stop : Nat) : Nat :=
  backOff (fun place => isLead (value.getD place 0)) (min stop value.length)

/-- `safeTailBoundary`, counted from the end. -/
def safeTailBoundary (value : Text) (start : Nat) : Nat := value.length -
    backOff (fun left => isTrail (value.getD (value.length - (left + 1)) 0)) (value.length - min start value.length)

structure TruncationSplit where
  head : Text
  tail : Text
  importantLines : List Piece
  baseDropped : Nat
  deriving DecidableEq, Repr

def defaultMaxImportantLines : Nat := 30

def slackChars (maxChars : Nat) : Nat := maxChars * 15 / 100

def joinLines (lines : List Piece) : Text := [newline].intercalate (lines.map (·.line))

def addLength (chosen : List Piece) (piece : Piece) : Nat :=
  (if chosen = [] then 0 else 1) + piece.line.length

/-- Lines are picked as long as they fit. -/
def choose (slack : Nat) : List Piece → Nat → List Piece → List Piece
  | chosen, _, [] => chosen
  | chosen, used, piece :: rest =>
    let addLen := addLength chosen piece
    if slack < used + addLen then chosen else choose slack (chosen ++ [piece]) (used + addLen) rest

def boundaries (value : Text) (budget : Nat) : Nat × Nat :=
  let headLen := budget * 3 / 4
  (safeHeadBoundary value headLen, safeTailBoundary value (value.length - (budget - headLen)))

def splitWithImportantLines (value : Text) (maxChars : Nat) (preserveImportant : Bool) (reserveChars : Nat) :
    TruncationSplit :=
  if value.length ≤ maxChars then ⟨value, [], [], 0⟩
  else
    let headTailBudget := max 1 (maxChars - min reserveChars (maxChars - 1))
    let (headEnd, tailStart) := boundaries value headTailBudget
    let head := value.take headEnd
    let tail := value.drop tailStart
    let picked :=
      if preserveImportant then
        choose (slackChars maxChars) [] 0
          (extractImportantLines ((value.take tailStart).drop headEnd) defaultMaxImportantLines)
      else []
    ⟨head, tail, picked.map (·.within head tail), value.length - headTailBudget⟩

inductive MarkerVerb where
  | compacted
  | truncated
  deriving DecidableEq, Repr

inductive MarkerUnit where
  | chars
  | bytes
  deriving DecidableEq, Repr

structure TruncationMarkerConfig where
  verb : MarkerVerb
  unit : MarkerUnit
  headSeparator : Text
  tailSeparator : Text
  deriving DecidableEq, Repr

/-- `DEFAULT_MARKER`. -/
def defaultTruncationMarker : TruncationMarkerConfig := ⟨.compacted, .chars, [newline], [newline]⟩

def MarkerVerb.text : MarkerVerb → Text
  | .compacted => units "compacted"
  | .truncated => units "truncated"

def MarkerUnit.text : MarkerUnit → Text
  | .chars => units "chars"
  | .bytes => units "bytes"

def truncationMarkerAllowance : Nat := 160

structure TruncationStage where
  maxChars : Nat
  preserveImportant : Bool
  marker : TruncationMarkerConfig
  positive : 0 < maxChars

namespace TruncationStage

def create (maxChars : Nat) (preserveImportant : Option Bool) (marker : TruncationMarkerConfig) :
    Except Text TruncationStage :=
  if positive : 0 < maxChars then .ok ⟨maxChars, preserveImportant.getD true, marker, positive⟩
  else .error (units "TruncationStage: maxChars must be a positive finite number, got " ++
    units (toString maxChars))

variable (stage : TruncationStage) (text : Text)

/-- The two passes: the lines of the first one, the head and the tail of the second one. -/
def parts : TruncationSplit :=
  let pass1 := splitWithImportantLines text stage.maxChars stage.preserveImportant 0
  let joined := joinLines pass1.importantLines
  let reserve := if 0 < joined.length then joined.length + 1 else 0
  { splitWithImportantLines text stage.maxChars false reserve with importantLines := pass1.importantLines }

/-- The marker between the head and what follows it. -/
def markerText (parts : TruncationSplit) : Text :=
  let marker := stage.marker
  let opening := marker.headSeparator ++ units "...[pi-crew " ++ marker.verb.text ++ units " " ++
    units (toString parts.baseDropped) ++ units " " ++ marker.unit.text
  if parts.importantLines = [] then opening ++ units ", head+tail preserved]..."
  else
    let remaining := text.length - parts.head.length - parts.tail.length - (joinLines parts.importantLines).length
    opening ++ units ", head+tail + " ++ units (toString parts.importantLines.length) ++
      units " important lines preserved, " ++ units (toString remaining) ++ units " " ++ marker.unit.text ++
      units " remaining dropped]..." ++ [newline]

def composed : Text :=
  let parts := stage.parts text
  parts.head ++ (stage.markerText text parts ++ (joinLines parts.importantLines ++
    (stage.marker.tailSeparator ++ parts.tail)))

def apply : Text :=
  if text.length ≤ stage.maxChars then text
  else if text.length ≤ (stage.composed text).length then text
  else stage.composed text

end TruncationStage

/-! ## The lines of a text -/

def Starts (before : Text) : Prop := before = [] ∨ before.getLast? = some newline

def Stops (line after : Text) : Prop :=
  after = [] ∨ (after.head? = some newline ∧ line.getLast? ≠ some carriageReturn) ∨
    [carriageReturn, newline] <+: after

instance (before : Text) : Decidable (Starts before) := inferInstanceAs (Decidable (_ ∨ _))

namespace Piece

def text (piece : Piece) : Text := piece.before ++ (piece.line ++ piece.after)

structure Whole (piece : Piece) : Prop where
  starts : Starts piece.before
  stops : Stops piece.line piece.after
  inside : newline ∉ piece.line

end Piece

theorem mem_piecesFrom {before line rest : Text} (starts : Starts before) (inside : newline ∉ line) :
    ∀ piece ∈ piecesFrom before line rest, piece.text = before ++ (line ++ rest) ∧ piece.Whole := by
  induction rest generalizing before line with
  | nil =>
    intro piece member
    obtain rfl := List.mem_singleton.mp member
    exact ⟨rfl, starts, .inl rfl, inside⟩
  | cons unit rest ih =>
    rw [piecesFrom]
    split
    case isTrue same =>
      subst same
      intro piece member
      rcases List.mem_cons.mp member with rfl | later
      · by_cases ended : line.getLast? = some carriageReturn
        · have cut : line = line.dropLast ++ [carriageReturn] := (List.dropLast_append_getLast? _ ended).symm
          have behind : line.drop line.dropLast.length = [carriageReturn] := by
            conv_lhs => rw [cut, List.dropLast_concat, List.drop_left]
          simp only [if_pos ended, behind]
          refine ⟨?_, starts, .inr (.inr ⟨rest, rfl⟩), fun member => inside (List.mem_of_mem_dropLast member)⟩
          conv_rhs => rw [cut]
          simp [Piece.text]
        · simp only [if_neg ended, List.drop_length, List.nil_append]
          exact ⟨rfl, starts, .inr (.inl ⟨rfl, ended⟩), inside⟩
      · obtain ⟨whole, line⟩ := ih (.inr List.getLast?_concat) List.not_mem_nil piece later
        exact ⟨by rw [whole]; simp, line⟩
    case isFalse other =>
      intro piece member
      have apart : newline ∉ line ++ [unit] := by
        rw [List.mem_append, List.mem_singleton]
        exact fun either => either.elim inside fun same => other same.symm
      obtain ⟨whole, line⟩ := ih starts apart piece member
      exact ⟨by rw [whole]; simp, line⟩

theorem mem_pieces {text : Text} {piece : Piece} (member : piece ∈ piecesFrom [] [] text) :
    piece.text = text ∧ piece.Whole :=
  mem_piecesFrom (.inl rfl) List.not_mem_nil piece member

def Piece.Precedes (piece later : Piece) : Prop :=
  piece.before.length + piece.line.length < later.before.length

theorem before_le_of_mem {before line rest : Text} :
    ∀ piece ∈ piecesFrom before line rest, before.length ≤ piece.before.length := by
  induction rest generalizing before line with
  | nil => exact fun piece member => by rw [List.mem_singleton.mp member]
  | cons unit rest ih =>
    intro piece member
    rw [piecesFrom] at member
    split at member
    · rcases List.mem_cons.mp member with rfl | later
      · rfl
      · have := ih piece later
        simp only [List.length_append] at this
        omega
    · exact ih piece member

theorem pieces_ordered (before line rest : Text) :
    (piecesFrom before line rest).Pairwise Piece.Precedes := by
  induction rest generalizing before line with
  | nil => exact List.pairwise_singleton _ _
  | cons unit rest ih =>
    rw [piecesFrom]
    split
    · refine List.pairwise_cons.mpr ⟨fun later member => ?_, ih _ _⟩
      have behind := before_le_of_mem later member
      have shorter : (if line.getLast? = some carriageReturn then line.dropLast else line).length ≤ line.length := by
        split
        · rw [List.length_dropLast]; omega
        · rfl
      simp only [List.length_append, List.length_cons, List.length_nil] at behind
      exact Nat.lt_of_lt_of_le (by simp only; omega) behind
    · exact ih _ _

theorem whole_within_iff {piece : Piece} (whole : piece.Whole) (head tail : Text) :
    (piece.within head tail).Whole ↔
      (piece.before = [] → Starts head) ∧ (piece.after = [] → Stops piece.line tail) := by
  obtain ⟨before, line, after⟩ := piece
  obtain ⟨starts, stops, inside⟩ := whole
  constructor
  · rintro ⟨starts, stops, -⟩
    refine ⟨fun empty => ?_, fun empty => ?_⟩
    · rw [Piece.within, empty, List.append_nil] at starts
      exact starts
    · rw [Piece.within, empty, List.nil_append] at stops
      exact stops
  · rintro ⟨front, back⟩
    refine ⟨?_, ?_, inside⟩
    · rcases starts with empty | behind
      · rw [Piece.within, show before = [] from empty, List.append_nil]
        exact front empty
      · refine .inr ?_
        show (head ++ before).getLast? = _
        rw [List.getLast?_append, show before.getLast? = some newline from behind]
        rfl
    · rcases stops with empty | ⟨first, last⟩ | both
      · rw [Piece.within, show after = [] from empty, List.nil_append]
        exact back empty
      · refine .inr (.inl ⟨?_, last⟩)
        show (after ++ tail).head? = _
        rw [List.head?_append, show after.head? = some newline from first]
        rfl
      · exact .inr (.inr (both.trans (List.prefix_append _ _)))

/-! ## What is picked -/

section

theorem joinLines_concat (chosen : List Piece) (piece : Piece) :
    (joinLines (chosen ++ [piece])).length = (joinLines chosen).length + addLength chosen piece := by
  simp only [addLength]
  induction chosen with
  | nil => simp [joinLines]
  | cons first rest ih =>
    cases rest with
    | nil => simp [joinLines]; omega
    | cons second rest =>
      have longer : ∀ lines : List Piece, (joinLines (first :: second :: lines)).length =
          first.line.length + (1 + (joinLines (second :: lines)).length) := by
        intro lines
        simp [joinLines, List.intercalate_cons_cons]
        omega
      rw [List.cons_append] at ih
      rw [List.cons_append, List.cons_append, longer, ih, longer, if_neg (List.cons_ne_nil _ _)]
      simp only [List.cons_ne_nil, if_false]
      omega

theorem joinLines_le (chosen more : List Piece) :
    (joinLines chosen).length ≤ (joinLines (chosen ++ more)).length := by
  induction more using List.reverseRecOn with
  | nil => rw [List.append_nil]
  | append_singleton more piece ih =>
    rw [← List.append_assoc, joinLines_concat]
    omega

variable {slack used : Nat} {chosen : List Piece}

theorem mem_choose (candidates : List Piece) (counted : used = (joinLines chosen).length) {piece : Piece} :
    piece ∈ choose slack chosen used candidates ↔ piece ∈ chosen ∨ ∃ earlier later,
      candidates = earlier ++ piece :: later ∧ (joinLines (chosen ++ earlier ++ [piece])).length ≤ slack := by
  induction candidates generalizing chosen used with
  | nil => simp [choose]
  | cons first rest ih =>
    have size := joinLines_concat chosen first
    rw [← counted] at size
    simp only [choose]
    split
    case isTrue full =>
      refine ⟨.inl, fun either => either.resolve_right ?_⟩
      rintro ⟨earlier, later, same, fits⟩
      rcases earlier with _ | ⟨other, earlier⟩
      · obtain ⟨rfl, -⟩ := List.cons.inj same
        rw [List.append_nil] at fits
        omega
      · obtain ⟨rfl, -⟩ := List.cons.inj same
        have := joinLines_le (chosen ++ [first]) (earlier ++ [piece])
        simp only [List.append_assoc, List.cons_append, List.nil_append] at this fits size
        omega
    case isFalse fits =>
      rw [ih size.symm]
      constructor
      · rintro (old | ⟨earlier, later, rfl, fits⟩)
        · rcases List.mem_append.mp old with old | new
          · exact .inl old
          · obtain rfl := List.mem_singleton.mp new
            exact .inr ⟨[], rest, rfl, by rw [List.append_nil]; omega⟩
        · exact .inr ⟨first :: earlier, later, rfl, by simpa using fits⟩
      · rintro (old | ⟨earlier, later, same, fits⟩)
        · exact .inl (List.mem_append_left _ old)
        · rcases earlier with _ | ⟨other, earlier⟩
          · obtain ⟨rfl, -⟩ := List.cons.inj same
            exact .inl (List.mem_append_right _ (List.mem_singleton_self _))
          · obtain ⟨rfl, rfl⟩ := List.cons.inj same
            exact .inr ⟨earlier, later, rfl, by simpa using fits⟩

theorem choose_le (candidates : List Piece) (counted : used = (joinLines chosen).length)
    (within : used ≤ slack) : (joinLines (choose slack chosen used candidates)).length ≤ slack := by
  induction candidates generalizing chosen used with
  | nil => rw [choose, ← counted]; exact within
  | cons first rest ih =>
    simp only [choose]
    split
    · rw [← counted]; exact within
    · refine ih ?_ (by omega)
      rw [joinLines_concat, counted]

theorem choose_sublist (candidates : List Piece) :
    (choose slack chosen used candidates).Sublist (chosen ++ candidates) := by
  induction candidates generalizing chosen used with
  | nil => rw [choose, List.append_nil]
  | cons first rest ih =>
    simp only [choose]
    split
    · exact List.sublist_append_left _ _
    · simpa using @ih (used + addLength chosen first) (chosen ++ [first])

def picked (slack : Nat) (text : Text) : List Piece :=
  choose slack [] 0 (extractImportantLines text defaultMaxImportantLines)

/-- A line that is important, and fits with the important ones before it. -/
def Fits (slack : Nat) (earlier : List Piece) (piece : Piece) : Prop :=
  let before := earlier.filter (isImportantLine ·.line)
  isImportantLine piece.line = true ∧ before.length < defaultMaxImportantLines ∧
    (joinLines (before ++ [piece])).length ≤ slack

/-- **A line of a text is picked** if it fits. -/
theorem mem_picked {slack : Nat} {text : Text} {piece : Piece} : piece ∈ picked slack text ↔
    ∃ earlier later, piecesFrom [] [] text = earlier ++ piece :: later ∧ Fits slack earlier piece := by
  have candidates : extractImportantLines text defaultMaxImportantLines =
      ((piecesFrom [] [] text).filter (isImportantLine ·.line)).take defaultMaxImportantLines := by
    rw [extractImportantLines]
    split
    case isTrue empty => subst empty; rfl
    case isFalse => rfl
  have empty : 0 = (joinLines []).length := rfl
  rw [picked, mem_choose _ empty, candidates]
  constructor
  · rintro (none | ⟨before, after, same, fits⟩)
    · cases none
    obtain ⟨all, whole⟩ : ∃ all, (piecesFrom [] [] text).filter (isImportantLine ·.line) =
        before ++ piece :: all := by
      obtain ⟨rest, whole⟩ := List.take_prefix defaultMaxImportantLines
        ((piecesFrom [] [] text).filter (isImportantLine ·.line))
      exact ⟨after ++ rest, by rw [← whole, same, List.append_assoc]; rfl⟩
    obtain ⟨earlier, others, split, rfl, second⟩ := List.filter_eq_append_iff.mp whole
    obtain ⟨skipped, later, rfl, none, important, -⟩ := List.filter_eq_cons_iff.mp second
    have skip : (earlier ++ skipped).filter (isImportantLine ·.line) =
        earlier.filter (isImportantLine ·.line) := by
      rw [List.filter_append, List.filter_eq_nil_iff.mpr none, List.append_nil]
    refine ⟨earlier ++ skipped, later, by rw [split, List.append_assoc], important, ?_, ?_⟩
    · have count := congrArg List.length same
      rw [List.length_take, List.length_append, List.length_cons] at count
      rw [skip]
      omega
    · rw [skip]
      exact fits
  · rintro ⟨earlier, later, whole, important, count, fits⟩
    obtain ⟨room, more⟩ := Nat.exists_eq_add_of_lt count
    refine .inr ⟨_, (later.filter (isImportantLine ·.line)).take room, ?_, fits⟩
    have kept : (piece :: later).filter (isImportantLine ·.line) =
        piece :: later.filter (isImportantLine ·.line) := List.filter_cons_of_pos important
    rw [whole, List.filter_append, kept, more, Nat.add_assoc, List.take_length_add_append, List.take_succ_cons]

end

/-! ## The boundaries -/

section

variable {splits : Nat → Bool}

theorem backOff_le (boundary : Nat) : backOff splits boundary ≤ boundary := by
  induction boundary with
  | zero => rfl
  | succ boundary ih =>
    rw [backOff]
    split
    · exact Nat.le_succ_of_le ih
    · rfl

theorem backOff_mono {boundary later : Nat} (le : boundary ≤ later) :
    backOff splits boundary ≤ backOff splits later := by
  induction later with
  | zero => rw [Nat.le_zero.mp le]
  | succ later ih =>
    rcases Nat.le_or_eq_of_le_succ le with before | rfl
    · rw [backOff]
      split
      · exact ih before
      · exact (backOff_le boundary).trans le
    · rfl

theorem backOff_stops {boundary last : Nat} (same : backOff splits boundary = last + 1) :
    splits last = false := by
  induction boundary with
  | zero => cases same
  | succ boundary ih =>
    rw [backOff] at same
    split at same
    case isTrue => exact ih same
    case isFalse none => exact Nat.succ.inj same ▸ Bool.eq_false_iff.mpr none

variable {value : Text} {budget : Nat}

theorem boundaries_spec (within : budget ≤ value.length) :
    (boundaries value budget).1 ≤ (boundaries value budget).2 ∧ (boundaries value budget).2 ≤ value.length ∧
      (boundaries value budget).1 + (value.length - (boundaries value budget).2) ≤ budget := by
  have head := @backOff_le (fun place => isLead (value.getD place 0)) (min (budget * 3 / 4) value.length)
  have tail := @backOff_le (fun left => isTrail (value.getD (value.length - (left + 1)) 0))
    (value.length - min (value.length - (budget - budget * 3 / 4)) value.length)
  simp only [boundaries, safeHeadBoundary, safeTailBoundary]
  omega

theorem boundaries_mono {less : Nat} (le : less ≤ budget) :
    (boundaries value less).1 ≤ (boundaries value budget).1 ∧
      (boundaries value budget).2 ≤ (boundaries value less).2 := by
  have head := @backOff_mono (fun place => isLead (value.getD place 0)) (min (less * 3 / 4) value.length)
    (min (budget * 3 / 4) value.length) (by omega)
  have tail := @backOff_mono (fun left => isTrail (value.getD (value.length - (left + 1)) 0))
    (value.length - min (value.length - (less - less * 3 / 4)) value.length)
    (value.length - min (value.length - (budget - budget * 3 / 4)) value.length) (by omega)
  simp only [boundaries, safeHeadBoundary, safeTailBoundary]
  omega

theorem paired_cut {text front back : Text} (paired : Paired text) (cut : text = front ++ back)
    (apart : (∀ unit ∈ front.getLast?, isLead unit = false) ∨ ∀ unit ∈ back.head?, isTrail unit = false) :
    Paired front ∧ Paired back := by
  induction paired generalizing front with
  | nil =>
    obtain ⟨rfl, rfl⟩ := List.append_eq_nil_iff.mp cut.symm
    exact ⟨.nil, .nil⟩
  | @alone unit rest none paired ih =>
    rcases front with _ | ⟨first, front⟩
    · exact ⟨.nil, by rw [← List.nil_append back, ← cut]; exact .alone none paired⟩
    · obtain ⟨rfl, same⟩ := List.cons.inj cut
      have kept : (∀ unit ∈ front.getLast?, isLead unit = false) ∨ ∀ unit ∈ back.head?, isTrail unit = false := by
        refine apart.imp_left fun last other member => last other ?_
        rw [List.getLast?_cons, Option.mem_def.mp member]
        rfl
      exact ⟨.alone none (ih same kept).1, (ih same kept).2⟩
  | @pair unit next rest lead trail paired ih =>
    rcases front with _ | ⟨first, _ | ⟨second, front⟩⟩
    · exact ⟨.nil, by rw [← List.nil_append back, ← cut]; exact .pair lead trail paired⟩
    · obtain ⟨rfl, rfl⟩ := List.cons.inj cut
      rcases apart with last | first
      · rw [last unit rfl] at lead
        cases lead
      · rw [first next rfl] at trail
        cases trail
    · obtain ⟨rfl, more⟩ := List.cons.inj cut
      obtain ⟨rfl, same⟩ := List.cons.inj more
      have kept : (∀ unit ∈ front.getLast?, isLead unit = false) ∨ ∀ unit ∈ back.head?, isTrail unit = false := by
        refine apart.imp_left fun last other member => last other ?_
        rw [List.getLast?_cons, List.getLast?_cons, Option.mem_def.mp member]
        rfl
      exact ⟨.pair lead trail (ih same kept).1, (ih same kept).2⟩

/-- **No pair is cut at the boundaries.** -/
theorem paired_parts (paired : Paired value) (within : budget ≤ value.length) :
    Paired (value.take (boundaries value budget).1) ∧
      Paired ((value.take (boundaries value budget).2).drop (boundaries value budget).1) ∧
      Paired (value.drop (boundaries value budget).2) := by
  obtain ⟨order, fits, -⟩ := boundaries_spec within
  have head : ∀ unit ∈ (value.take (boundaries value budget).1).getLast?, isLead unit = false := by
    intro unit last
    cases stop : (boundaries value budget).1 with
    | zero =>
      rw [stop] at last
      cases last
    | succ place =>
      have inside : place < value.length := by omega
      have none := backOff_stops (show backOff _ _ = place + 1 from stop)
      rw [stop, List.getLast?_take, if_neg (Nat.succ_ne_zero _), Nat.succ_sub_one,
        List.getElem?_eq_getElem inside] at last
      rw [List.getD_eq_getElem?_getD, List.getElem?_eq_getElem inside] at none
      exact Option.some.inj last ▸ none
  have tail : ∀ unit ∈ (value.drop (boundaries value budget).2).head?, isTrail unit = false := by
    intro unit first
    rw [List.head?_drop] at first
    obtain ⟨inside, rfl⟩ := List.getElem?_eq_some_iff.mp first
    obtain ⟨left, same⟩ : ∃ left, value.length - (boundaries value budget).2 = left + 1 :=
      ⟨_, (Nat.succ_pred_eq_of_pos (Nat.sub_pos_of_lt inside)).symm⟩
    have stop : backOff (fun left => isTrail (value.getD (value.length - (left + 1)) 0))
        (value.length - min (value.length - (budget - budget * 3 / 4)) value.length) = left + 1 := by
      rw [← same, boundaries, safeTailBoundary, Nat.sub_sub_self]
      exact (backOff_le _).trans (Nat.sub_le _ _)
    have none := backOff_stops stop
    rw [← same, Nat.sub_sub_self fits, List.getD_eq_getElem?_getD, first] at none
    exact none
  have back := paired_cut paired (List.take_append_drop _ _).symm (.inr tail)
  have cut : value.take (boundaries value budget).2 = value.take (boundaries value budget).1 ++
      (value.take (boundaries value budget).2).drop (boundaries value budget).1 := by
    conv_lhs => rw [← List.take_append_drop (boundaries value budget).1 (value.take _)]
    rw [List.take_take, Nat.min_eq_left order]
  have front := paired_cut back.1 cut (.inl head)
  exact ⟨front.1, front.2, back.2⟩

end

/-! ## The stage -/

theorem length_units (text : String) : (units text).length = text.length := by
  rw [units, List.length_map, String.length_toList]

theorem length_shown {number digits : Nat} (some : 0 < digits) (small : number < 10 ^ digits) :
    (units (toString number)).length ≤ digits := by
  rw [length_units]
  exact (Nat.length_repr_le_iff some).mpr small

theorem paired_shown (number : Nat) : Paired (units (toString number)) := by
  refine paired_of_low fun unit member => ?_
  obtain ⟨char, digit, rfl⟩ := List.mem_map.mp member
  rw [show (toString number).toList = Nat.toDigits 10 number from Nat.toList_repr] at digit
  have range := Char.isDigit_iff_toNat.mp (Nat.isDigit_of_mem_toDigits (by decide) (by decide) digit)
  have last : '9'.toNat = 57 := rfl
  simp only [UInt16.lt_iff_toNat_lt, UInt16.reduceToNat, UInt16.toNat_ofNat']
  omega

namespace TruncationStage

variable (stage : TruncationStage) (text : Text)

def middle : Text := (text.take (boundaries text stage.maxChars).2).drop (boundaries text stage.maxChars).1

def kept : List Piece :=
  if stage.preserveImportant then picked (slackChars stage.maxChars) (stage.middle text) else []

def budget : Nat :=
  let joined := joinLines (stage.kept text)
  max 1 (stage.maxChars - min (if 0 < joined.length then joined.length + 1 else 0) (stage.maxChars - 1))

variable {stage text}

theorem joinLines_within (head tail : Text) (lines : List Piece) :
    joinLines (lines.map (·.within head tail)) = joinLines lines := by
  rw [joinLines, List.map_map]
  rfl

theorem parts_eq (large : stage.maxChars < text.length) : stage.parts text =
      ⟨text.take (boundaries text (stage.budget text)).1, text.drop (boundaries text (stage.budget text)).2,
        (stage.kept text).map
          (·.within (text.take (boundaries text stage.maxChars).1) (text.drop (boundaries text stage.maxChars).2)),
        text.length - stage.budget text⟩ := by
  have first : max 1 (stage.maxChars - min 0 (stage.maxChars - 1)) = stage.maxChars := by
    have := stage.positive
    omega
  simp only [parts, splitWithImportantLines, if_neg (Nat.not_le.mpr large), first, joinLines_within]
  rfl

theorem budget_le : stage.budget text ≤ stage.maxChars := by
  have := stage.positive
  simp only [budget]
  omega

theorem mem_kept {piece : Piece} (member : piece ∈ stage.kept text) :
    piece.text = stage.middle text ∧ piece.Whole ∧ piece.line ≠ [] := by
  rw [kept] at member
  split at member
  · obtain ⟨earlier, later, whole, important, -⟩ := mem_picked.mp member
    obtain ⟨same, line⟩ := mem_pieces (whole ▸ List.mem_append_right _ List.mem_cons_self)
    refine ⟨same, line, fun empty => ?_⟩
    rw [isImportantLine, empty] at important
    cases important
  · cases member

theorem kept_le : (joinLines (stage.kept text)).length ≤ slackChars stage.maxChars ∧
    (stage.kept text).length ≤ defaultMaxImportantLines ∧ (stage.kept text).Pairwise Piece.Precedes := by
  rw [kept]
  split
  · have sub := @choose_sublist (slackChars stage.maxChars) 0 []
      (extractImportantLines (stage.middle text) defaultMaxImportantLines)
    have count : (extractImportantLines (stage.middle text) defaultMaxImportantLines).length ≤
        defaultMaxImportantLines := by
      rw [extractImportantLines]
      split
      · exact Nat.zero_le _
      · exact List.length_take_le _ _
    have within : (extractImportantLines (stage.middle text) defaultMaxImportantLines).Sublist
        (piecesFrom [] [] (stage.middle text)) := by
      rw [extractImportantLines]
      split
      · exact List.nil_sublist _
      · exact (List.take_sublist _ _).trans List.filter_sublist
    exact ⟨choose_le _ rfl (Nat.zero_le _), sub.length_le.trans count,
      (pieces_ordered [] [] _).sublist (sub.trans within)⟩
  · exact ⟨Nat.zero_le _, Nat.zero_le _, .nil⟩

/-- **What is put together fits**, with the allowance of its marker. -/
theorem length_composed (default : stage.marker = defaultTruncationMarker) (short : text.length < 2 ^ 53)
    (large : stage.maxChars < text.length) :
    (stage.composed text).length ≤ stage.maxChars + truncationMarkerAllowance := by
  obtain ⟨-, -, both⟩ := boundaries_spec (Nat.le_of_lt (Nat.lt_of_le_of_lt (@budget_le stage text) large))
  have allowed : 2 ^ 53 < 10 ^ 16 := by decide
  have shown : ∀ number, number ≤ text.length → (units (toString number)).length ≤ 16 := fun number le =>
    length_shown (by decide) (by omega)
  have dropped := shown (text.length - stage.budget text) (Nat.sub_le _ _)
  have slack := (@kept_le stage text).1
  have count := length_shown (by decide) (show (stage.kept text).length < 10 ^ 2 from
    Nat.lt_of_le_of_lt (@kept_le stage text).2.1 (by decide))
  have size : (units (toString (stage.kept text).length)).length ≤ 2 := count
  have some : stage.kept text ≠ [] → 0 < (joinLines (stage.kept text)).length := by
    intro some
    obtain ⟨first, rest, same⟩ := List.exists_cons_of_ne_nil some
    have line := (mem_kept (same ▸ List.mem_cons_self : first ∈ stage.kept text)).2.2
    have longer := joinLines_le [first] rest
    rw [same, show first :: rest = [first] ++ rest from rfl]
    exact Nat.lt_of_lt_of_le (by simpa [joinLines, List.length_pos_iff] using line) longer
  have opening : (units "...[pi-crew ").length = 12 := by decide
  have compacted : (units "compacted").length = 9 := by decide
  have chars : (units "chars").length = 5 := by decide
  have space : (units " ").length = 1 := by decide
  have frame : ∀ marker : Text, (text.take (boundaries text (stage.budget text)).1 ++ (marker ++
      (joinLines (stage.kept text) ++ ([newline] ++ text.drop (boundaries text (stage.budget text)).2)))).length ≤
        stage.budget text + marker.length + (joinLines (stage.kept text)).length + 1 := by
    intro marker
    simp only [List.length_append, List.length_take, List.length_drop, List.length_singleton]
    omega
  rw [composed, parts_eq large, default]
  simp only [joinLines_within]
  refine (frame _).trans ?_
  by_cases none : stage.kept text = []
  · have plain : (units ", head+tail preserved]...").length = 25 := by decide
    have least := @budget_le stage text
    simp only [markerText, default, none, List.map_nil, if_true, List.length_append, opening, plain,
      defaultTruncationMarker, MarkerVerb.text, MarkerUnit.text, compacted, chars, space,
      truncationMarkerAllowance, List.length_singleton, joinLines, List.intercalate_nil, List.length_nil]
    omega
  · have middle : (units ", head+tail + ").length = 14 := by decide
    have important : (units " important lines preserved, ").length = 28 := by decide
    have closing : (units " remaining dropped]...").length = 22 := by decide
    have rest := shown (text.length - (text.take (boundaries text (stage.budget text)).1).length -
      (text.drop (boundaries text (stage.budget text)).2).length - (joinLines (stage.kept text)).length) (by omega)
    have least : stage.budget text + (joinLines (stage.kept text)).length + 1 ≤ stage.maxChars := by
      have := some none
      simp only [slackChars] at slack
      simp only [budget, if_pos this]
      omega
    have lines : (stage.kept text).map (·.within (text.take (boundaries text stage.maxChars).1)
        (text.drop (boundaries text stage.maxChars).2)) ≠ [] := fun empty => none (List.map_eq_nil_iff.mp empty)
    simp only [markerText, default, if_neg lines, List.length_map, List.length_append, opening, middle,
      important, closing, joinLines_within, defaultTruncationMarker, MarkerVerb.text, MarkerUnit.text, compacted,
      chars, space, truncationMarkerAllowance, List.length_singleton]
    omega

/-- **No pair is split** in what is put together. -/
theorem paired_composed (default : stage.marker = defaultTruncationMarker) (large : stage.maxChars < text.length)
    (paired : Paired text) : Paired (stage.composed text) := by
  obtain ⟨head, -, tail⟩ := paired_parts paired (Nat.le_of_lt (Nat.lt_of_le_of_lt (@budget_le stage text) large))
  obtain ⟨-, middle, -⟩ := paired_parts paired (Nat.le_of_lt large)
  have seam : Paired [newline] := paired_of_all (by decide)
  have lines : ∀ piece ∈ stage.kept text, Paired piece.line := by
    intro piece member
    obtain ⟨same, ⟨starts, stops, -⟩, -⟩ := mem_kept member
    have behind := paired_cut middle same.symm (.inl fun unit last => by
      rcases starts with empty | newline
      · rw [empty] at last
        cases last
      · rw [newline] at last
        exact Option.some.inj last ▸ rfl)
    refine (paired_cut behind.2 rfl (.inr fun unit first => ?_)).1
    rcases stops with empty | ⟨newline, -⟩ | ⟨rest, both⟩
    · rw [empty] at first
      cases first
    · rw [newline] at first
      exact Option.some.inj first ▸ rfl
    · rw [← both] at first
      exact Option.some.inj first ▸ rfl
  have joined : Paired (joinLines (stage.kept text)) := by
    rw [joinLines]
    generalize stage.kept text = kept at lines
    induction kept with
    | nil => exact .nil
    | cons first rest ih =>
      obtain ⟨line, others⟩ := List.forall_mem_cons.mp lines
      cases rest with
      | nil => simpa using line
      | cons second rest =>
        rw [List.map_cons, List.map_cons, List.intercalate_cons_cons]
        exact (line.append seam).append (ih others)
  have marker : ∀ parts, Paired (stage.markerText text parts) := by
    intro parts
    have opening : Paired (stage.marker.headSeparator ++ units "...[pi-crew " ++ stage.marker.verb.text ++
        units " " ++ units (toString parts.baseDropped) ++ units " " ++ stage.marker.unit.text) := by
      rw [default]
      exact ((Paired.append (paired_of_all (by decide)) (paired_shown _)).append
        (paired_of_all (by decide))).append (paired_of_all (by decide))
    rw [markerText]
    split
    · exact opening.append (paired_of_all (by decide))
    · rw [default]
      rw [default] at opening
      exact ((((((opening.append (paired_of_all (by decide))).append (paired_shown _)).append
        (paired_of_all (by decide))).append (paired_shown _)).append (paired_of_all (by decide))).append
        (paired_of_all (by decide))).append (paired_of_all (by decide)) |>.append seam
  have separator : Paired stage.marker.tailSeparator := by
    rw [default]
    exact seam
  rw [composed, parts_eq large]
  simp only [joinLines_within]
  exact head.append ((marker _).append (joined.append (separator.append tail)))

/-- What the stage is to do with a text that it shortens. -/
structure Shortens (stage : TruncationStage) (text : Text) : Prop where
  shorter : (stage.apply text).length < text.length
  bounded : (stage.apply text).length ≤ stage.maxChars + truncationMarkerAllowance
  framed : ∃ marker, stage.apply text = (stage.parts text).head ++ (marker ++
    (joinLines (stage.parts text).importantLines ++ newline :: (stage.parts text).tail))
  head : (stage.parts text).head <+: text
  tail : (stage.parts text).tail <:+ text
  whole : ∀ piece ∈ (stage.parts text).importantLines, piece.text = text ∧ piece.Whole ∧
    (stage.parts text).head <+: piece.before ∧ (stage.parts text).tail <:+ piece.after
  ordered : (stage.parts text).importantLines.Pairwise Piece.Precedes
  unsplit : Paired text → Paired (stage.apply text)

/-- Where a text is shortened, a line that fits and stands at an end of the middle is a line of the text: the
middle is not cut within it. -/
def NoneCut (stage : TruncationStage) (text : Text) : Prop :=
  stage.preserveImportant = true → stage.maxChars < text.length →
    (stage.composed text).length < text.length →
      ∀ earlier piece later, piecesFrom [] [] (stage.middle text) = earlier ++ piece :: later →
        Fits (slackChars stage.maxChars) earlier piece →
          (piece.before = [] → Starts (text.take (boundaries text stage.maxChars).1)) ∧
            (piece.after = [] → Stops piece.line (text.drop (boundaries text stage.maxChars).2))

/-- **The kept lines are lines of the text** unless the middle is cut within one that is kept; all else holds
of every text. A text has less than 2 ^ 53 units. -/
theorem truncation_whole_iff (stage : TruncationStage) (default : stage.marker = defaultTruncationMarker)
    (text : Text) (short : text.length < 2 ^ 53) :
    stage.apply text = text ∨ Shortens stage text ↔ NoneCut stage text := by
  by_cases large : stage.maxChars < text.length
  case neg =>
    have kept : stage.apply text = text := if_pos (Nat.not_lt.mp large)
    exact ⟨fun _ _ more => absurd more large, fun _ => .inl kept⟩
  by_cases shorter : (stage.composed text).length < text.length
  case neg =>
    have kept : stage.apply text = text := by
      rw [apply, if_neg (Nat.not_le.mpr large), if_pos (Nat.not_lt.mp shorter)]
    exact ⟨fun _ _ _ less => absurd less shorter, fun _ => .inl kept⟩
  have result : stage.apply text = stage.composed text := by
    rw [apply, if_neg (Nat.not_le.mpr large), if_neg (Nat.not_le.mpr shorter)]
  have other : stage.apply text ≠ text := by
    intro same
    rw [← result, same] at shorter
    exact Nat.lt_irrefl _ shorter
  obtain ⟨order, fits, -⟩ := boundaries_spec (Nat.le_of_lt large)
  obtain ⟨front, back⟩ := @boundaries_mono text stage.maxChars _ budget_le
  have parts := @parts_eq stage text large
  have text_eq : text.take (boundaries text stage.maxChars).1 ++ (stage.middle text ++
      text.drop (boundaries text stage.maxChars).2) = text := by
    have head : text.take (boundaries text stage.maxChars).1 ++ stage.middle text =
        text.take (boundaries text stage.maxChars).2 := by
      conv_rhs => rw [← List.take_append_drop (boundaries text stage.maxChars).1 (text.take _)]
      rw [List.take_take, Nat.min_eq_left order]
      rfl
    rw [← List.append_assoc, head, List.take_append_drop]
  have whole_iff : (∀ piece ∈ (stage.parts text).importantLines, piece.text = text ∧ piece.Whole ∧
      (stage.parts text).head <+: piece.before ∧ (stage.parts text).tail <:+ piece.after) ↔
        NoneCut stage text := by
    rw [parts]
    simp only [List.forall_mem_map]
    constructor
    · intro whole important _ _ earlier piece later pieces fits
      have member : piece ∈ stage.kept text := by
        rw [kept, if_pos important]
        exact mem_picked.mpr ⟨earlier, later, pieces, fits⟩
      exact (whole_within_iff (mem_kept member).2.1 _ _).mp (whole piece member).2.1
    · intro none piece member
      obtain ⟨same, whole, -⟩ := mem_kept member
      rw [kept] at member
      split at member
      case isFalse => cases member
      obtain ⟨earlier, later, pieces, fits⟩ := mem_picked.mp member
      refine ⟨?_, (whole_within_iff whole _ _).mpr (none ‹_› large shorter earlier piece later pieces fits), ?_, ?_⟩
      · conv_rhs => rw [← text_eq, ← same]
        simp [Piece.text, Piece.within]
      · exact (List.take_prefix_take_left front).trans (List.prefix_append _ _)
      · exact (List.drop_suffix_drop_left _ back).trans (List.suffix_append _ _)
  refine ⟨fun either => whole_iff.mp (either.resolve_left other).whole, fun none => .inr ?_⟩
  refine ⟨result ▸ shorter, result ▸ length_composed default short large, ?_, ?_, ?_, whole_iff.mpr none, ?_,
    fun paired => result ▸ paired_composed default large paired⟩
  · rw [result, composed, default]
    exact ⟨_, rfl⟩
  · rw [parts]
    exact List.take_prefix _ _
  · rw [parts]
    exact List.drop_suffix _ _
  · rw [parts]
    refine List.pairwise_map.mpr ((@kept_le stage text).2.2.imp fun precedes => ?_)
    simp only [Piece.Precedes, Piece.within, List.length_append] at precedes ⊢
    omega

def cutWord : Text := List.replicate 30 0x78 ++ units "error\n" ++ List.replicate 170 0x20

def fortyUnits : TruncationStage := ⟨40, true, defaultTruncationMarker, by decide⟩

theorem truncation_whole_cutWord :
    fortyUnits.apply cutWord = cutWord ∨ Shortens fortyUnits cutWord ↔ NoneCut fortyUnits cutWord :=
  truncation_whole_iff fortyUnits rfl cutWord (by decide +kernel)

theorem not_shortens_of_cut (shorter : (stage.apply text).length < text.length)
    (cut : ((stage.parts text).importantLines.all fun piece => decide (Starts piece.before)) = false) :
    ¬ (stage.apply text = text ∨ Shortens stage text) := by
  rintro (same | shortens)
  · rw [same] at shorter
    exact Nat.lt_irrefl _ shorter
  · have whole : ((stage.parts text).importantLines.all fun piece => decide (Starts piece.before)) = true :=
      List.all_eq_true.mpr fun piece member => decide_eq_true (shortens.whole piece member).2.1.starts
    rw [cut] at whole
    cases whole

theorem truncation_cuts_word :
    (fortyUnits.parts cutWord).importantLines.map (·.line) = [units "error"] ∧
    ¬ (fortyUnits.apply cutWord = cutWord ∨ Shortens fortyUnits cutWord) :=
  ⟨by decide +kernel, @not_shortens_of_cut fortyUnits cutWord (by decide +kernel) (by decide +kernel)⟩

end TruncationStage

end PiCrew.Compaction
