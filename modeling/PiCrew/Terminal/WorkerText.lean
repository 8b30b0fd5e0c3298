/-
**Escape sequences in the text of a worker.**

The strip is a cascade of five expressions. Each erases what it matches in what the ones before it left, so
an escape character of one sequence may find its rest behind another that was erased, and a string without
its end takes what follows up to the next stop.

* `stripWorkerEscapes_sublist`, `stripWorkerEscapes_printed` — of any text, what is kept is in order, with
  no control characters but line feeds and tabs.
-/

import PiCrew.Library.Erasing
import PiCrew.Library.JsonText

namespace PiCrew.Terminal.WorkerText

open JsonText Erasing

def esc : UInt16 := 0x1B

/-- `[0-?]` -/
def isParameter (unit : UInt16) : Bool := 0x30 ≤ unit && unit ≤ 0x3F

/-- `[ -\/]` -/
def isIntermediate (unit : UInt16) : Bool := 0x20 ≤ unit && unit ≤ 0x2F

/-- `[@-~]` -/
def isFinal (unit : UInt16) : Bool := 0x40 ≤ unit && unit ≤ 0x7E

/-- `\u001b\\` at the front of a text. -/
def isTerminator : Text → Bool
  | unit :: next :: _ => unit = esc && next = 0x5C
  | _ => false

/-- `\u001b\][^\u0007\u001b]*(?:\u0007|\u001b\\)?` -/
def oscPattern : Text → Nat
  | unit :: next :: rest =>
    if unit = esc ∧ next = 0x5D then
      let body := rest.takeWhile fun unit => unit ≠ 0x07 && unit ≠ esc
      let after := rest.drop body.length
      2 + body.length + (if after.head? = some 0x07 then 1 else if isTerminator after then 2 else 0)
    else 0
  | _ => 0

/-- `[PX^_]` -/
def isString (unit : UInt16) : Bool := unit = 0x50 || unit = 0x58 || unit = 0x5E || unit = 0x5F

/-- `\u001b[PX^_][^\u001b]*(?:\u001b\\)?` -/
def dcsPattern : Text → Nat
  | unit :: next :: rest =>
    if unit = esc ∧ isString next then
      let body := rest.takeWhile fun unit => unit ≠ esc
      2 + body.length + (if isTerminator (rest.drop body.length) then 2 else 0)
    else 0
  | _ => 0

/-- `[ -\/]*[@-~]` at the front of a text: its length. -/
def finalLength (text : Text) : Option Nat :=
  let intermediates := text.takeWhile isIntermediate
  if ((text.drop intermediates.length).head?.map isFinal).getD false then some (intermediates.length + 1)
  else none

/-- `\u001b\[[0-?]*[ -\/]*[@-~]` -/
def csiPattern : Text → Nat
  | unit :: next :: rest =>
    if unit = esc ∧ next = 0x5B then
      let params := rest.takeWhile isParameter
      ((finalLength (rest.drop params.length)).map (2 + params.length + ·)).getD 0
    else 0
  | _ => 0

/-- `\u001b[ -\/]*[@-~]` -/
def escSeqPattern : Text → Nat
  | unit :: rest => if unit = esc then ((finalLength rest).map (1 + ·)).getD 0 else 0
  | [] => 0

/-- `[\u0000-\u0008\u000b-\u001f\u007f\u0080-\u009f]` -/
def isControl (unit : UInt16) : Bool :=
  unit ≤ 0x08 || (0x0B ≤ unit && unit ≤ 0x1F) || (0x7F ≤ unit && unit ≤ 0x9F)

def stripSequences (text : Text) : Text :=
  erase escSeqPattern (erase csiPattern (erase dcsPattern (erase oscPattern text)))

def stripWorkerEscapes (text : Text) : Text := (stripSequences text).filter fun unit => !isControl unit

section

/-- **Text that is made of complete sequences and other text**, and what stands outside the sequences. An
escape character may stand before text that no sequence begins with. -/
inductive Composed : Text → Text → Prop where
  | done : Composed [] []
  | unit {unit rest outside} : unit ≠ esc → Composed rest outside → Composed (unit :: rest) (unit :: outside)
  | osc {body ending rest outside} : (∀ unit ∈ body, unit ≠ 0x07 ∧ unit ≠ esc) →
      ending = [0x07] ∨ ending = [esc, 0x5C] → Composed rest outside →
      Composed (esc :: 0x5D :: (body ++ (ending ++ rest))) outside
  | string {introducer body rest outside} : isString introducer = true → (∀ unit ∈ body, unit ≠ esc) →
      Composed rest outside →
      Composed (esc :: introducer :: (body ++ (esc :: 0x5C :: rest))) outside
  | control {params intermediates final rest outside} : (∀ unit ∈ params, isParameter unit = true) →
      (∀ unit ∈ intermediates, isIntermediate unit = true) → isFinal final = true → Composed rest outside →
      Composed (esc :: 0x5B :: (params ++ (intermediates ++ final :: rest))) outside
  | short {intermediates final rest outside} : (∀ unit ∈ intermediates, isIntermediate unit = true) →
      isFinal final = true →
      (intermediates = [] → final ≠ 0x5B ∧ final ≠ 0x5D ∧ isString final = false) → Composed rest outside →
      Composed (esc :: (intermediates ++ final :: rest)) outside
  | lone {intermediates unit rest outside} : (∀ unit ∈ intermediates, isIntermediate unit = true) →
      isIntermediate unit = false → isFinal unit = false → unit ≠ esc → Composed rest outside →
      Composed (esc :: (intermediates ++ unit :: rest)) (intermediates ++ unit :: outside)
  | broken {params intermediates unit rest outside} : (∀ unit ∈ params, isParameter unit = true) →
      (∀ unit ∈ intermediates, isIntermediate unit = true) → isIntermediate unit = false →
      isFinal unit = false → (intermediates = [] → isParameter unit = false) → unit ≠ esc →
      Composed rest outside →
      Composed (esc :: 0x5B :: (params ++ (intermediates ++ unit :: rest)))
        (params ++ (intermediates ++ unit :: outside))
  | lastLone {intermediates} : (∀ unit ∈ intermediates, isIntermediate unit = true) →
      Composed (esc :: intermediates) intermediates
  | lastBroken {params intermediates} : (∀ unit ∈ params, isParameter unit = true) →
      (∀ unit ∈ intermediates, isIntermediate unit = true) →
      Composed (esc :: 0x5B :: (params ++ intermediates)) (params ++ intermediates)

variable {body rest front : Text} {unit : UInt16}

theorem takeWhile_run {p : UInt16 → Bool} (all : ∀ unit ∈ body, p unit = true)
    (stops : ∀ unit ∈ rest.head?, p unit = false) : (body ++ rest).takeWhile p = body := by
  rw [List.takeWhile_append_of_pos all]
  cases rest with
  | nil => exact List.append_nil _
  | cons unit rest => rw [List.takeWhile_cons_of_neg (Bool.eq_false_iff.mp (stops unit rfl)), List.append_nil]

theorem classes_apart :
    (isFinal unit = true → isIntermediate unit = false ∧ isParameter unit = false ∧ unit ≠ esc) ∧
    (isIntermediate unit = true → isParameter unit = false ∧ isFinal unit = false ∧ unit ≠ esc) ∧
    (isParameter unit = true → unit ≠ esc) := by
  simp only [isFinal, isIntermediate, isParameter, esc, Bool.and_eq_true, Bool.and_eq_false_iff,
    decide_eq_true_eq, decide_eq_false_iff_not, ne_eq, ← UInt16.toNat_inj, UInt16.le_iff_toNat_le,
    UInt16.reduceToNat]
  omega

theorem finalLength_final {final : UInt16} (all : ∀ unit ∈ front, isIntermediate unit = true)
    (last : isFinal final = true) : finalLength (front ++ final :: rest) = some (front.length + 1) := by
  have taken := @takeWhile_run front (final :: rest) isIntermediate all fun unit first =>
    Option.some.inj first ▸ (classes_apart.1 last).1
  rw [finalLength, taken, List.drop_left, List.head?_cons, Option.map_some, last]
  rfl

theorem finalLength_none (all : ∀ unit ∈ front, isIntermediate unit = true)
    (ends : ∀ unit ∈ rest.head?, isIntermediate unit = false ∧ isFinal unit = false) :
    finalLength (front ++ rest) = none := by
  rw [finalLength, takeWhile_run all fun unit first => (ends unit first).1, List.drop_left]
  cases rest with
  | nil => rfl
  | cons unit rest =>
    rw [List.head?_cons, Option.map_some, (ends unit rfl).2]
    rfl

theorem intermediate_apart (middle : isIntermediate unit = true) :
    unit ≠ 0x5B ∧ unit ≠ 0x5D ∧ isString unit = false := by
  simp only [isIntermediate, isString, Bool.and_eq_true, Bool.or_eq_false_iff, decide_eq_true_eq,
    decide_eq_false_iff_not, ne_eq, ← UInt16.toNat_inj, UInt16.le_iff_toNat_le, UInt16.reduceToNat] at middle ⊢
  omega

theorem patterns_other (other : unit ≠ esc) (rest : Text) : oscPattern (unit :: rest) = 0 ∧
    dcsPattern (unit :: rest) = 0 ∧ csiPattern (unit :: rest) = 0 ∧ escSeqPattern (unit :: rest) = 0 := by
  refine ⟨?_, ?_, ?_, if_neg other⟩ <;> cases rest with
  | nil => rfl
  | cons next rest => exact if_neg fun both => other both.1

theorem patterns_introducer (unit : UInt16) (rest : Text) :
    (unit ≠ 0x5D → oscPattern (esc :: unit :: rest) = 0) ∧
      (isString unit = false → dcsPattern (esc :: unit :: rest) = 0) ∧
      (unit ≠ 0x5B → csiPattern (esc :: unit :: rest) = 0) :=
  ⟨fun other => if_neg fun both => other both.2,
    fun other => if_neg fun both => Bool.eq_false_iff.mp other both.2,
    fun other => if_neg fun both => other both.2⟩

theorem stripSequences_plain (plain : ∀ unit ∈ front, unit ≠ esc) :
    stripSequences (front ++ rest) = front ++ stripSequences rest := by
  rw [stripSequences, erase_keep fun unit within => fun rest => (patterns_other (plain unit within) rest).1,
    erase_keep fun unit within => fun rest => (patterns_other (plain unit within) rest).2.1,
    erase_keep fun unit within => fun rest => (patterns_other (plain unit within) rest).2.2.1,
    erase_keep fun unit within => fun rest => (patterns_other (plain unit within) rest).2.2.2]
  rfl

theorem oscPattern_complete {ending : Text} (plain : ∀ unit ∈ body, unit ≠ 0x07 ∧ unit ≠ esc)
    (ends : ending = [0x07] ∨ ending = [esc, 0x5C]) :
    oscPattern (esc :: 0x5D :: (body ++ (ending ++ rest))) = 2 + body.length + ending.length := by
  have taken : (body ++ (ending ++ rest)).takeWhile (fun unit => unit ≠ 0x07 && unit ≠ esc) = body := by
    refine takeWhile_run (fun unit within => ?_) fun unit first => ?_
    · simpa using plain unit within
    · rcases ends with rfl | rfl <;> cases first <;> rfl
  rw [oscPattern, if_pos ⟨rfl, rfl⟩]
  dsimp only
  rw [taken, List.drop_left]
  rcases ends with rfl | rfl <;> rfl

theorem dcsPattern_complete {introducer : UInt16} (valid : isString introducer = true)
    (plain : ∀ unit ∈ body, unit ≠ esc) :
    dcsPattern (esc :: introducer :: (body ++ (esc :: 0x5C :: rest))) = 2 + body.length + 2 := by
  have taken : (body ++ (esc :: 0x5C :: rest)).takeWhile (fun unit => unit ≠ esc) = body := by
    refine takeWhile_run (fun unit within => ?_) fun unit first => ?_
    · simpa using plain unit within
    · cases first
      rfl
  rw [dcsPattern, if_pos ⟨rfl, valid⟩]
  dsimp only
  rw [taken, List.drop_left]
  rfl

end

section

variable {text outside body rest : Text}

theorem csiPattern_params {params intermediates : Text} (all : ∀ unit ∈ params, isParameter unit = true)
    (middle : ∀ unit ∈ intermediates, isIntermediate unit = true)
    (alone : ∀ unit ∈ rest.head?, intermediates = [] → isParameter unit = false) :
    csiPattern (esc :: 0x5B :: (params ++ (intermediates ++ rest))) =
      ((finalLength (intermediates ++ rest)).map (2 + params.length + ·)).getD 0 := by
  have stops : ∀ unit ∈ (intermediates ++ rest).head?, isParameter unit = false := by
    intro unit first
    cases intermediates with
    | nil => exact alone unit first rfl
    | cons head tail => exact Option.some.inj first ▸ (classes_apart.2.1 (middle head List.mem_cons_self)).1
  rw [csiPattern, if_pos ⟨rfl, rfl⟩]
  dsimp only
  rw [takeWhile_run all stops, List.drop_left]

theorem strip_osc {ending : Text} (plain : ∀ unit ∈ body, unit ≠ 0x07 ∧ unit ≠ esc)
    (ends : ending = [0x07] ∨ ending = [esc, 0x5C]) :
    stripSequences (esc :: 0x5D :: (body ++ (ending ++ rest))) = stripSequences rest := by
  have found := @oscPattern_complete body rest ending plain ends
  have split : esc :: 0x5D :: (body ++ (ending ++ rest)) = (esc :: 0x5D :: (body ++ ending)) ++ rest := by simp
  rw [split] at found ⊢
  have length : (esc :: 0x5D :: (body ++ ending)).length = 2 + body.length + ending.length := by
    simp only [List.length_cons, List.length_append]
    omega
  rw [stripSequences, erase_match (List.cons_ne_nil _ _) (found.trans length.symm)]
  rfl

theorem strip_string {introducer : UInt16} (valid : isString introducer = true)
    (plain : ∀ unit ∈ body, unit ≠ esc) :
    stripSequences (esc :: introducer :: (body ++ (esc :: 0x5C :: rest))) = stripSequences rest := by
  have bracket : introducer ≠ 0x5D ∧ introducer ≠ esc := by
    constructor <;> rintro rfl <;> revert valid <;> decide
  have kept : erase oscPattern (esc :: introducer :: (body ++ (esc :: 0x5C :: rest))) =
      esc :: introducer :: (body ++ (esc :: 0x5C :: erase oscPattern rest)) := by
    rw [erase_skip ((patterns_introducer _ _).1 bracket.1), erase_skip (patterns_other bracket.2 _).1,
      erase_keep fun unit within => fun rest => (patterns_other (plain unit within) rest).1,
      erase_skip ((patterns_introducer 0x5C _).1 (by decide)), erase_skip (patterns_other (by decide) _).1]
  have found := @dcsPattern_complete body (erase oscPattern rest) introducer valid plain
  have split : esc :: introducer :: (body ++ (esc :: 0x5C :: erase oscPattern rest)) =
      (esc :: introducer :: (body ++ [esc, 0x5C])) ++ erase oscPattern rest := by simp
  rw [split] at found kept
  have length : (esc :: introducer :: (body ++ [esc, 0x5C])).length = 2 + body.length + 2 := by
    simp only [List.length_cons, List.length_append, List.length_nil]
    omega
  rw [stripSequences, kept, erase_match (List.cons_ne_nil _ _) (found.trans length.symm)]
  rfl

theorem erase_strings {unit : UInt16} {front : Text} (bracket : unit ≠ 0x5D) (string : isString unit = false)
    (plain : ∀ other ∈ unit :: front, other ≠ esc) :
    erase dcsPattern (erase oscPattern (esc :: (unit :: front ++ rest))) =
      esc :: (unit :: front ++ erase dcsPattern (erase oscPattern rest)) := by
  rw [List.cons_append, erase_skip ((patterns_introducer _ _).1 bracket), ← List.cons_append,
    erase_keep fun other within => fun rest => (patterns_other (plain other within) rest).1, List.cons_append,
    erase_skip ((patterns_introducer _ _).2.1 string), ← List.cons_append,
    erase_keep fun other within => fun rest => (patterns_other (plain other within) rest).2.1]

theorem strip_control {params intermediates : Text} {final : UInt16}
    (parameters : ∀ unit ∈ params, isParameter unit = true)
    (middle : ∀ unit ∈ intermediates, isIntermediate unit = true) (last : isFinal final = true) :
    stripSequences (esc :: 0x5B :: (params ++ (intermediates ++ final :: rest))) = stripSequences rest := by
  have plain : ∀ unit ∈ 0x5B :: (params ++ (intermediates ++ [final])), unit ≠ esc := by
    refine List.forall_mem_cons.mpr ⟨by decide, List.forall_mem_append.mpr ⟨fun unit within => ?_,
      List.forall_mem_append.mpr ⟨fun unit within => ?_, List.forall_mem_singleton.mpr ?_⟩⟩⟩
    · exact classes_apart.2.2 (parameters unit within)
    · exact (classes_apart.2.1 (middle unit within)).2.2
    · exact (classes_apart.1 last).2.2
  have split : ∀ rest, esc :: 0x5B :: (params ++ (intermediates ++ final :: rest)) =
      esc :: (0x5B :: (params ++ (intermediates ++ [final])) ++ rest) := by
    intro rest
    simp
  have kept := @erase_strings rest 0x5B _ (by decide) (by decide) plain
  have found := @csiPattern_params (final :: erase dcsPattern (erase oscPattern rest)) _ _ parameters middle
    fun unit first _ => Option.some.inj first ▸ (classes_apart.1 last).2.1
  rw [finalLength_final middle last, split, ← List.cons_append] at found
  have length : (esc :: 0x5B :: (params ++ (intermediates ++ [final]))).length =
      2 + params.length + (intermediates.length + 1) := by
    simp only [List.length_cons, List.length_append, List.length_nil]
    omega
  rw [stripSequences, split, kept, ← List.cons_append,
    erase_match (List.cons_ne_nil _ _) (found.trans length.symm)]
  rfl

theorem erase_controls {unit : UInt16} {front : Text}
    (apart : unit ≠ 0x5B ∧ unit ≠ 0x5D ∧ isString unit = false) (plain : ∀ other ∈ unit :: front, other ≠ esc) :
    erase csiPattern (erase dcsPattern (erase oscPattern (esc :: (unit :: front ++ rest)))) =
      esc :: (unit :: front ++ erase csiPattern (erase dcsPattern (erase oscPattern rest))) := by
  rw [erase_strings apart.2.1 apart.2.2 plain, List.cons_append,
    erase_skip ((patterns_introducer _ _).2.2 apart.1), ← List.cons_append,
    erase_keep fun other within => fun rest => (patterns_other (plain other within) rest).2.2.1]

end

section

variable {text outside rest intermediates : Text} {unit : UInt16}

section

variable (middle : ∀ unit ∈ intermediates, isIntermediate unit = true)

include middle

theorem plain_intermediates :
    ∀ unit ∈ intermediates, unit ≠ esc := fun unit within => (classes_apart.2.1 (middle unit within)).2.2

theorem word_parts
    (alone : intermediates = [] → unit ≠ 0x5B ∧ unit ≠ 0x5D ∧ isString unit = false) (other : unit ≠ esc) :
    ∃ first front, intermediates ++ [unit] = first :: front ∧
      (first ≠ 0x5B ∧ first ≠ 0x5D ∧ isString first = false) ∧ ∀ other ∈ first :: front, other ≠ esc := by
  have plain : ∀ within ∈ intermediates ++ [unit], within ≠ esc :=
    List.forall_mem_append.mpr ⟨plain_intermediates middle, List.forall_mem_singleton.mpr other⟩
  cases intermediates with
  | nil => exact ⟨unit, [], rfl, alone rfl, plain⟩
  | cons first front =>
    exact ⟨first, front ++ [unit], rfl, intermediate_apart (middle first List.mem_cons_self), plain⟩

theorem erase_word
    (alone : intermediates = [] → unit ≠ 0x5B ∧ unit ≠ 0x5D ∧ isString unit = false) (other : unit ≠ esc) :
    erase csiPattern (erase dcsPattern (erase oscPattern (esc :: (intermediates ++ unit :: rest)))) =
      esc :: (intermediates ++ unit :: erase csiPattern (erase dcsPattern (erase oscPattern rest))) := by
  obtain ⟨first, front, word, apart, plain⟩ := word_parts middle alone other
  rw [List.append_cons, word, erase_controls apart plain, ← word, List.append_assoc]
  rfl

theorem strip_short (last : isFinal unit = true)
    (alone : intermediates = [] → unit ≠ 0x5B ∧ unit ≠ 0x5D ∧ isString unit = false) :
    stripSequences (esc :: (intermediates ++ unit :: rest)) = stripSequences rest := by
  have found : escSeqPattern (esc :: (intermediates ++ unit ::
      erase csiPattern (erase dcsPattern (erase oscPattern rest)))) = 1 + (intermediates.length + 1) := by
    rw [escSeqPattern, if_pos rfl, finalLength_final middle last]
    rfl
  rw [List.append_cons, ← List.cons_append] at found
  have length : (esc :: (intermediates ++ [unit])).length = 1 + (intermediates.length + 1) := by
    simp only [List.length_cons, List.length_append, List.length_nil]
    omega
  rw [stripSequences, erase_word middle alone (classes_apart.1 last).2.2, List.append_cons, ← List.cons_append,
    erase_match (List.cons_ne_nil _ _) (found.trans length.symm)]
  rfl

end

/-- **An escape character that begins no sequence** is kept, with the word behind it. -/
theorem strip_kept {front : Text} (apart : unit ≠ 0x5B ∧ unit ≠ 0x5D ∧ isString unit = false)
    (plain : ∀ other ∈ unit :: front, other ≠ esc)
    (unended : finalLength (unit :: front ++ erase csiPattern (erase dcsPattern (erase oscPattern rest))) = none) :
    stripSequences (esc :: (unit :: front ++ rest)) = esc :: (unit :: front ++ stripSequences rest) := by
  have none : escSeqPattern (esc :: (unit :: front ++
      erase csiPattern (erase dcsPattern (erase oscPattern rest)))) = 0 := by
    rw [escSeqPattern, if_pos rfl, unended]
    rfl
  rw [stripSequences, erase_controls apart plain, erase_skip none,
    erase_keep fun other within => fun rest => (patterns_other (plain other within) rest).2.2.2]
  rfl

theorem strip_lone (middle : ∀ unit ∈ intermediates, isIntermediate unit = true)
    (ends : isIntermediate unit = false) (final : isFinal unit = false) (other : unit ≠ esc) :
    stripSequences (esc :: (intermediates ++ unit :: rest)) =
      esc :: (intermediates ++ unit :: stripSequences rest) := by
  have alone : intermediates = [] → unit ≠ 0x5B ∧ unit ≠ 0x5D ∧ isString unit = false := by
    intro _
    simp only [isFinal, isString, Bool.and_eq_false_iff, Bool.or_eq_false_iff, decide_eq_false_iff_not, ne_eq,
      ← UInt16.toNat_inj, UInt16.le_iff_toNat_le, UInt16.reduceToNat] at final ⊢
    omega
  obtain ⟨first, front, word, apart, plain⟩ := word_parts middle alone other
  have unended := @finalLength_none
    (unit :: erase csiPattern (erase dcsPattern (erase oscPattern rest))) intermediates middle
    fun _ first => Option.some.inj first ▸ ⟨ends, final⟩
  rw [List.append_cons, word] at unended
  rw [List.append_cons, word, strip_kept apart plain unended, ← word, List.append_assoc]
  rfl

/-- **A control sequence without its end** loses the escape character and the bracket. -/
theorem strip_unended {word : Text} (plain : ∀ other ∈ word, other ≠ esc)
    (unended : csiPattern (esc :: 0x5B :: (word ++ erase dcsPattern (erase oscPattern rest))) = 0) :
    stripSequences (esc :: 0x5B :: (word ++ rest)) = word ++ stripSequences rest := by
  have bracketed : ∀ other ∈ 0x5B :: word, other ≠ esc := List.forall_mem_cons.mpr ⟨by decide, plain⟩
  have found (rest : Text) : escSeqPattern ([esc, 0x5B] ++ rest) = [esc, 0x5B].length := by
    have short := @finalLength_final rest [] 0x5B (List.forall_mem_nil _) (by decide)
    rw [List.nil_append] at short
    rw [List.cons_append, escSeqPattern, if_pos rfl, List.singleton_append, short]
    rfl
  rw [← List.cons_append] at unended
  rw [← List.cons_append, stripSequences, erase_strings (by decide) (by decide) bracketed, erase_skip unended,
    erase_keep fun other within => fun rest => (patterns_other (bracketed other within) rest).2.2.1,
    show ∀ rest : Text, esc :: (0x5B :: word ++ rest) = [esc, 0x5B] ++ (word ++ rest) from fun _ => rfl,
    erase_match (List.cons_ne_nil _ _) (found _),
    erase_keep fun other within => fun rest => (patterns_other (plain other within) rest).2.2.2]
  rfl

theorem strip_broken {params : Text} (parameters : ∀ unit ∈ params, isParameter unit = true)
    (middle : ∀ unit ∈ intermediates, isIntermediate unit = true) (ends : isIntermediate unit = false)
    (final : isFinal unit = false) (alone : intermediates = [] → isParameter unit = false)
    (other : unit ≠ esc) : stripSequences (esc :: 0x5B :: (params ++ (intermediates ++ unit :: rest))) =
      params ++ (intermediates ++ unit :: stripSequences rest) := by
  have plain : ∀ within ∈ params ++ (intermediates ++ [unit]), within ≠ esc :=
    List.forall_mem_append.mpr ⟨fun unit within => classes_apart.2.2 (parameters unit within),
      List.forall_mem_append.mpr ⟨plain_intermediates middle, List.forall_mem_singleton.mpr other⟩⟩
  have split (rest : Text) : params ++ (intermediates ++ unit :: rest) =
      params ++ (intermediates ++ [unit]) ++ rest := by simp
  have unended := @csiPattern_params (unit :: erase dcsPattern (erase oscPattern rest)) _ _ parameters middle
    fun _ first => Option.some.inj first ▸ alone
  rw [@finalLength_none (unit :: _) _ middle fun _ first => Option.some.inj first ▸ ⟨ends, final⟩, split] at unended
  rw [split rest, split (stripSequences rest), strip_unended plain unended]

/-- **At the end of a text** nothing stands behind the word. -/
theorem strip_lastLone (middle : ∀ unit ∈ intermediates, isIntermediate unit = true) :
    stripSequences (esc :: intermediates) = esc :: intermediates := by
  cases intermediates with
  | nil => rfl
  | cons first front =>
    have kept := @strip_kept [] first front (intermediate_apart (middle first List.mem_cons_self))
      (plain_intermediates middle) (@finalLength_none [] _ middle fun _ => nofun)
    simpa only [stripSequences, erase_nil, List.append_nil] using kept

theorem strip_lastBroken {params : Text} (parameters : ∀ unit ∈ params, isParameter unit = true)
    (middle : ∀ unit ∈ intermediates, isIntermediate unit = true) :
    stripSequences (esc :: 0x5B :: (params ++ intermediates)) = params ++ intermediates := by
  have unended := @csiPattern_params [] _ _ parameters middle fun _ => nofun
  rw [@finalLength_none [] _ middle fun _ => nofun, ← List.append_assoc] at unended
  have kept := @strip_unended [] (params ++ intermediates) (List.forall_mem_append.mpr
    ⟨fun unit within => classes_apart.2.2 (parameters unit within), plain_intermediates middle⟩) unended
  simpa only [stripSequences, erase_nil, List.append_nil] using kept

theorem stripWorkerEscapes_composed (composed : Composed text outside) :
    stripWorkerEscapes text = outside.filter fun unit => !isControl unit := by
  rw [stripWorkerEscapes]
  induction composed with
  | done => rfl
  | @unit unit rest outside other _ ih =>
    have kept := @stripSequences_plain rest [unit] (List.forall_mem_singleton.mpr other)
    rw [List.singleton_append] at kept
    rw [kept, List.singleton_append, List.filter_cons, List.filter_cons, ih]
  | osc plain ends _ ih => rw [strip_osc plain ends, ih]
  | string valid plain _ ih => rw [strip_string valid plain, ih]
  | control parameters middle last _ ih => rw [strip_control parameters middle last, ih]
  | short middle last alone _ ih => rw [strip_short middle last alone, ih]
  | lone middle ends final other _ ih =>
    rw [strip_lone middle ends final other, List.filter_cons, if_neg (by decide)]
    simp only [List.filter_append, List.filter_cons, ih]
  | lastLone middle => rw [strip_lastLone middle, List.filter_cons, if_neg (by decide)]
  | lastBroken parameters middle => rw [strip_lastBroken parameters middle]
  | broken parameters middle ends final alone other _ ih =>
    rw [strip_broken parameters middle ends final alone other]
    simp only [List.filter_append, List.filter_cons, ih]

/-- **What is kept is in order.** -/
theorem stripWorkerEscapes_sublist (text : Text) : (stripWorkerEscapes text).Sublist text :=
  List.filter_sublist.trans ((erase_sublist _).trans ((erase_sublist _).trans ((erase_sublist _).trans
    (erase_sublist text))))

/-- **No control character is kept** but line feeds and tabs. -/
theorem stripWorkerEscapes_printed (text : Text) :
    ∀ unit ∈ stripWorkerEscapes text, isControl unit = false := by
  intro unit within
  simpa using (List.mem_filter.mp within).2

end

end PiCrew.Terminal.WorkerText
