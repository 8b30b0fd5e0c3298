/-
**What the statistics of a log report.**

`state/event-log/event-log-rotation.ts`. `getEventLogStats` decodes the last 1024 bytes of the log and walks back
through them for a line that is not blank, which is parsed for the newest timestamp. The walk looks for a newline
in front of the last one it found; `lastIndexOf` takes the position −1 for 0, and finds one at the front again:

* `findLastLine_runs_on` — it never ends if the tail is blank and starts with a newline;
* `stats_exact_iff` — when the newest event is reported.
-/

import PiCrew.EventLog.LineReader
import Mathlib.Data.List.TakeWhile

namespace PiCrew.EventLog.LogStats

open JsonText Utf8
open PiCrew.EventLog.LineReader (newline parse_blank)

/-- White space and line ends, as `trim` has them. -/
def isSpace (unit : UInt16) : Bool :=
  let code := unit.toNat
  (0x09 ≤ code && code ≤ 0x0D) || code = 0x20 || code = 0xA0 || code = 0x1680
    || (0x2000 ≤ code && code ≤ 0x200A) || code = 0x2028 || code = 0x2029 || code = 0x202F
    || code = 0x205F || code = 0x3000 || code = 0xFEFF

def trim (text : Text) : Text := ((text.dropWhile isSpace).reverse.dropWhile isSpace).reverse

def slice (text : Text) (start stop : Nat) : Text := (text.take stop).drop start

/-- The last place of a unit, from a position down. -/
def lastIndexFrom (unit : UInt16) (text : Text) : Nat → Option Nat
  | 0 => if text[0]? = some unit then some 0 else none
  | position + 1 =>
    if text[position + 1]? = some unit then some (position + 1)
    else lastIndexFrom unit text position

/-- **The last place of a unit**, at a position or before it. A negative position is taken for 0. -/
def lastIndexOf (unit : UInt16) (text : Text) (position : Int) : Option Nat :=
  lastIndexFrom unit text position.toNat

section

/-- **The walk back through the tail**, with fuel for its turns; without a result when they are used up. -/
def findLastLine (tail : Text) : Nat → Nat → Option Text
  | 0, _ => none
  | fuel + 1, searchFrom =>
    match lastIndexOf newline tail ((searchFrom : Int) - 1) with
    | none => some (trim tail)
    | some nl =>
      let candidate := trim (slice tail (nl + 1) searchFrom)
      if candidate ≠ [] then some candidate else findLastLine tail fuel nl

variable (ν : Type) [NumberFormat ν]

structure EventLogStats where
  fileSizeBytes : Nat
  eventCount : Nat
  oldestTimestamp : Option (Value ν) := none
  newestTimestamp : Option (Value ν) := none

variable {ν}

/-- The `time` of a value. `null` has none either: reading it throws, and the error is caught. -/
def timeOf : Value ν → Option (Value ν)
  | .object members => members.reverse.lookup (units "time")
  | _ => none

def timestamp (line : Text) : Option (Value ν) :=
  if line = [] then none else (parse line).bind timeOf

def tailText (bytes : List UInt8) : Text :=
  decode (bytes.drop (bytes.length - min bytes.length 1024))

def firstLineBytes (bytes : List UInt8) : Nat :=
  if (0x0A : UInt8) ∈ bytes then (bytes.takeWhile (· ≠ 0x0A)).length + 1 else 0

def oldestTimestamp (bytes : List UInt8) : Option (Value ν) :=
  if 0 < firstLineBytes bytes then timestamp (trim (decode (bytes.take (firstLineBytes bytes)))) else none

variable (ν) in
/-- **The statistics of a log**, with fuel for the walk; without a result while that goes on. A log that
is not there has none. -/
def getEventLogStats (fuel : Nat) : Option (List UInt8) → Option (Option (EventLogStats ν))
  | none => some none
  | some bytes =>
    if bytes.length = 0 then some (some { fileSizeBytes := 0, eventCount := 0 })
    else
      (findLastLine (tailText bytes) fuel (tailText bytes).length).map fun lastLine =>
        some {
          fileSizeBytes := bytes.length
          eventCount := bytes.count 0x0A
          oldestTimestamp := oldestTimestamp bytes
          newestTimestamp := timestamp lastLine }

end

section

def tailLines (tail : Text) : List Text :=
  (Framing.lines newline tail ++ [Framing.tail newline tail]).map trim

def lastLine (tail : Text) : Text := ((tailLines tail).filter (· ≠ [])).getLast?.getD []

variable (ν : Type) [NumberFormat ν]

def lastEvent (tail : Text) : Option (Value ν) := ((tailLines tail).filterMap parse).getLast?

def Terminates (bytes : List UInt8) : Prop :=
  ∃ fuel, (getEventLogStats ν fuel (some bytes)).isSome = true

def ReportsLast (bytes : List UInt8) : Prop :=
  ∀ fuel stats, getEventLogStats ν fuel (some bytes) = some (some stats) →
    ∀ event, lastEvent ν (tailText bytes) = some event → stats.newestTimestamp = timeOf event

def Stuck (tail : Text) : Prop := tail.head? = some newline ∧ ∀ unit ∈ tail, isSpace unit = true

def EventIsLast (tail : Text) : Prop := ∀ event, lastEvent ν tail = some event →
    timeOf event = none ∨ (parse (lastLine tail) : Option (Value ν)).isSome = true

end

theorem dropWhile_blank {text : Text} (blank : ∀ unit ∈ text, isSpace unit = true) :
    text.dropWhile isSpace = [] := by
  rw [List.dropWhile_eq_nil_iff]
  exact blank

theorem trim_blank {text : Text} (blank : ∀ unit ∈ text, isSpace unit = true) : trim text = [] := by
  rw [trim, dropWhile_blank blank]
  rfl

theorem blank_of_trim {text : Text} (none : trim text = []) : ∀ unit ∈ text, isSpace unit = true := by
  rw [trim, List.reverse_eq_nil_iff, List.dropWhile_eq_nil_iff] at none
  rw [← List.dropWhile_eq_nil_iff]
  by_contra some
  -- the first unit that is kept at the front would be kept at the back, too
  have kept := List.head_dropWhile_not isSpace some
  have space := none _ (List.mem_reverse.mpr (List.head_mem some))
  rw [space] at kept
  exact Bool.noConfusion kept

theorem trim_append_blank (text : Text) {rest : Text} (blank : ∀ unit ∈ rest, isSpace unit = true) :
    trim (text ++ rest) = trim text := by
  unfold trim
  by_cases none : text.dropWhile isSpace = []
  · have all : ∀ unit ∈ text ++ rest, isSpace unit = true := by
      intro unit member
      rcases List.mem_append.mp member with front | back
      · exact List.dropWhile_eq_nil_iff.mp none unit front
      · exact blank unit back
    rw [dropWhile_blank all, none]
  · have front : (text ++ rest).dropWhile isSpace = text.dropWhile isSpace ++ rest := by
      rw [List.dropWhile_append, if_neg (by simpa using none)]
    rw [front, List.reverse_append, List.dropWhile_append_of_pos]
    intro unit member
    exact blank unit (List.mem_reverse.mp member)

theorem tailLines_append (front : Text) {line : Text} (apart : newline ∉ line) :
    tailLines (front ++ newline :: line) = tailLines front ++ [trim line] := by
  have apart' : newline ∉ Framing.tail newline front := Framing.not_mem_tail front
  have cut := Framing.cut_line_append apart' line
  have lines : Framing.lines newline (front ++ newline :: line)
      = Framing.lines newline front ++ [Framing.tail newline front] := by
    rw [Framing.lines_append, show Framing.lines newline (_ ++ newline :: line) = _ from
      congrArg Prod.fst cut, Framing.lines_of_not_mem apart]
  have tail : Framing.tail newline (front ++ newline :: line) = line := by
    rw [Framing.tail_append, show Framing.tail newline (_ ++ newline :: line) = _ from
      congrArg Prod.snd cut, Framing.tail_of_not_mem apart]
  rw [tailLines, lines, tail, List.map_append]
  rfl

theorem tailLines_open {line : Text} (apart : newline ∉ line) : tailLines line = [trim line] := by
  unfold tailLines
  rw [Framing.lines_of_not_mem apart, Framing.tail_of_not_mem apart]
  rfl

theorem lastLine_append (front : Text) {line : Text} (apart : newline ∉ line) :
    lastLine (front ++ newline :: line) = if trim line ≠ [] then trim line else lastLine front := by
  unfold lastLine
  rw [tailLines_append front apart, List.filter_append]
  by_cases blank : trim line = []
  · rw [if_neg (not_not.mpr blank), List.filter_cons_of_neg (by simpa using blank), List.filter_nil,
      List.append_nil]
  · rw [if_pos blank, List.filter_cons_of_pos (by simpa using blank), List.filter_nil,
      List.getLast?_concat]
    rfl

theorem lastLine_open {line : Text} (apart : newline ∉ line) : lastLine line = trim line := by
  unfold lastLine
  rw [tailLines_open apart]
  by_cases blank : trim line = []
  · rw [List.filter_cons_of_neg (by simpa using blank), blank]
    rfl
  · rw [List.filter_cons_of_pos (by simpa using blank)]
    rfl

section

variable {tail : Text}

theorem lastIndexFrom_spec (unit : UInt16) (text : Text) (position : Nat) :
    match lastIndexFrom unit text position with
    | none => ∀ index ≤ position, text[index]? ≠ some unit
    | some place => place ≤ position ∧ text[place]? = some unit ∧
        ∀ index, place < index → index ≤ position → text[index]? ≠ some unit := by
  induction position with
  | zero =>
    rw [lastIndexFrom]
    by_cases here : text[0]? = some unit
    · rw [if_pos here]
      exact ⟨Nat.le_refl _, here, fun index behind within => by omega⟩
    · rw [if_neg here]
      intro index within
      rwa [Nat.le_zero.mp within]
  | succ position ih =>
    rw [lastIndexFrom]
    by_cases here : text[position + 1]? = some unit
    · rw [if_pos here]
      exact ⟨Nat.le_refl _, here, fun index behind within => by omega⟩
    · rw [if_neg here]
      cases found : lastIndexFrom unit text position with
      | none =>
        rw [found] at ih
        intro index within
        rcases Nat.lt_or_eq_of_le within with before | same
        · exact ih index (by omega)
        · rwa [same]
      | some place =>
        rw [found] at ih
        obtain ⟨within, there, others⟩ := ih
        refine ⟨by omega, there, fun index behind bound => ?_⟩
        rcases Nat.lt_or_eq_of_le bound with before | same
        · exact others index behind (by omega)
        · rwa [same]

theorem not_mem_take {unit : UInt16} {text : Text} {count : Nat}
    (apart : ∀ index < count, text[index]? ≠ some unit) : unit ∉ text.take count := by
  intro member
  obtain ⟨index, found⟩ := List.mem_iff_getElem?.mp member
  rw [List.getElem?_take] at found
  split at found
  · exact apart index (by assumption) found
  · cases found

theorem lastIndexOf_none {searchFrom : Nat} (some : 0 < searchFrom)
    (none : lastIndexOf newline tail ((searchFrom : Int) - 1) = none) :
    newline ∉ tail.take searchFrom := by
  have spec := lastIndexFrom_spec newline tail ((searchFrom : Int) - 1).toNat
  rw [lastIndexOf] at none
  rw [none] at spec
  exact not_mem_take fun index before => spec index (by omega)

theorem lastIndexOf_some {searchFrom nl : Nat} (positive : 0 < searchFrom)
    (found : lastIndexOf newline tail ((searchFrom : Int) - 1) = some nl) :
    nl < searchFrom ∧ newline ∉ slice tail (nl + 1) searchFrom ∧
      tail.take searchFrom = tail.take nl ++ newline :: slice tail (nl + 1) searchFrom := by
  have spec := lastIndexFrom_spec newline tail ((searchFrom : Int) - 1).toNat
  rw [lastIndexOf] at found
  rw [found] at spec
  obtain ⟨within, there, others⟩ := spec
  have before : nl < searchFrom := by omega
  refine ⟨before, ?_, ?_⟩
  · intro member
    obtain ⟨index, at'⟩ := List.mem_iff_getElem?.mp member
    rw [slice, List.getElem?_drop, List.getElem?_take] at at'
    split at at'
    · exact others _ (by omega) (by omega) at'
    · cases at'
  · have kept : (tail.take searchFrom)[nl]? = some newline := by
      rw [List.getElem?_take, if_pos before, there]
    obtain ⟨bound, value⟩ := List.getElem?_eq_some_iff.mp kept
    have split := List.take_append_drop nl (tail.take searchFrom)
    rw [List.take_take, Nat.min_eq_left (Nat.le_of_lt before),
      List.drop_eq_getElem_cons bound, value] at split
    exact split.symm

theorem drop_newline {searchFrom nl : Nat}
    (split : tail.take searchFrom = tail.take nl ++ newline :: slice tail (nl + 1) searchFrom) :
    tail.drop nl = newline :: slice tail (nl + 1) searchFrom ++ tail.drop searchFrom := by
  have parts := List.take_append_drop searchFrom tail
  rw [split, List.append_assoc] at parts
  have front : (tail.take nl).length = nl := by
    have length := congrArg List.length split
    rw [List.length_append, List.length_cons, List.length_take, List.length_take, slice,
      List.length_drop, List.length_take] at length
    rw [List.length_take]
    omega
  conv_lhs => rw [← parts]
  exact List.drop_left' front

theorem findLastLine_eq (free : ¬ Stuck tail) (searchFrom : Nat)
    (blank : ∀ unit ∈ tail.drop searchFrom, isSpace unit = true) :
    ∀ fuel, searchFrom < fuel →
      findLastLine tail fuel searchFrom = some (lastLine (tail.take searchFrom)) := by
  induction searchFrom using Nat.strongRecOn with
  | ind searchFrom ih =>
    intro fuel enough
    obtain ⟨fuel, rfl⟩ : ∃ more, fuel = more + 1 := ⟨fuel - 1, by omega⟩
    rw [findLastLine]
    have whole : trim tail = trim (tail.take searchFrom) := by
      conv_lhs => rw [← List.take_append_drop searchFrom tail]
      exact trim_append_blank _ blank
    rcases Nat.eq_zero_or_pos searchFrom with rfl | positive
    · -- the front is reached: a newline there would have been found, and all behind it is blank
      have absent : lastIndexOf newline tail (((0 : Nat) : Int) - 1) = none := by
        refine if_neg fun front => free ⟨?_, blank⟩
        rwa [List.head?_eq_getElem?]
      rw [absent, whole]
      rfl
    · cases found : lastIndexOf newline tail ((searchFrom : Int) - 1) with
      | none => rw [whole, lastLine_open (lastIndexOf_none positive found)]
      | some nl =>
        obtain ⟨before, apart, split⟩ := lastIndexOf_some positive found
        rw [split, lastLine_append _ apart]
        dsimp only
        by_cases nothing : trim (slice tail (nl + 1) searchFrom) = []
        · rw [if_neg (not_not.mpr nothing), if_neg (not_not.mpr nothing)]
          refine ih nl before ?_ fuel (by omega)
          intro unit member
          rw [drop_newline split] at member
          rcases List.mem_append.mp member with line | rest
          · rcases List.mem_cons.mp line with rfl | inside
            · decide
            · exact blank_of_trim nothing unit inside
          · exact blank unit rest
        · rw [if_pos nothing, if_pos nothing]

theorem findLastLine_returns (free : ¬ Stuck tail) :
    findLastLine tail (tail.length + 1) tail.length = some (lastLine tail) := by
  have walk := findLastLine_eq free tail.length (by
    rw [List.drop_length]
    exact fun unit member => nomatch member) (tail.length + 1) (Nat.lt_succ_self _)
  rwa [List.take_length] at walk

theorem findLastLine_more {fuel searchFrom : Nat} {line : Text}
    (returns : findLastLine tail fuel searchFrom = some line) :
    findLastLine tail (fuel + 1) searchFrom = some line := by
  induction fuel generalizing searchFrom with
  | zero => cases returns
  | succ fuel ih =>
    rw [findLastLine] at returns ⊢
    cases found : lastIndexOf newline tail ((searchFrom : Int) - 1) with
    | none =>
      rw [found] at returns
      exact returns
    | some nl =>
      rw [found] at returns
      dsimp only at returns ⊢
      by_cases nothing : trim (slice tail (nl + 1) searchFrom) = []
      · rw [if_neg (not_not.mpr nothing)] at returns ⊢
        exact ih returns
      · rw [if_pos nothing] at returns ⊢
        exact returns

theorem findLastLine_le {fuel more searchFrom : Nat} (enough : fuel ≤ more) {line : Text}
    (returns : findLastLine tail fuel searchFrom = some line) :
    findLastLine tail more searchFrom = some line := by
  induction enough with
  | refl => exact returns
  | step _ ih => exact findLastLine_more ih

theorem findLastLine_unique (free : ¬ Stuck tail) {fuel : Nat} {line : Text}
    (returns : findLastLine tail fuel tail.length = some line) : line = lastLine tail := by
  have here := findLastLine_le (Nat.le_max_left fuel (tail.length + 1)) returns
  have there := findLastLine_le (Nat.le_max_right fuel (tail.length + 1))
    (findLastLine_returns free)
  exact Option.some.inj (here.symm.trans there)

/-- **The walk never ends** where the tail is blank and starts with a newline. -/
theorem findLastLine_runs_on (stuck : Stuck tail) (fuel searchFrom : Nat) :
    findLastLine tail fuel searchFrom = none := by
  obtain ⟨front, blank⟩ := stuck
  induction fuel generalizing searchFrom with
  | zero => rfl
  | succ fuel ih =>
    rw [findLastLine]
    have spec := lastIndexFrom_spec newline tail ((searchFrom : Int) - 1).toNat
    cases found : lastIndexOf newline tail ((searchFrom : Int) - 1) with
    | none =>
      rw [lastIndexOf] at found
      rw [found] at spec
      exact absurd (by rw [← front, List.head?_eq_getElem?]) (spec 0 (Nat.zero_le _))
    | some nl =>
      have nothing : trim (slice tail (nl + 1) searchFrom) = [] := trim_blank fun unit member =>
          blank unit (List.mem_of_mem_take (List.mem_of_mem_drop member))
      dsimp only
      rw [if_neg (not_not.mpr nothing)]
      exact ih nl

end

section

variable {ν : Type} [NumberFormat ν]

theorem timestamp_eq (line : Text) :
    timestamp line = (parse line : Option (Value ν)).bind timeOf := by
  unfold timestamp
  by_cases blank : line = []
  · rw [if_pos blank, blank, parse_blank]
    rfl
  · exact if_neg blank

theorem lastEvent_of_lastLine {tail : Text} {value : Value ν}
    (read : parse (lastLine tail) = some value) : lastEvent ν tail = some value := by
  have skipped : ∀ lines : List Text, (lines.filter (· ≠ [])).filterMap
      (parse : Text → Option (Value ν)) = lines.filterMap parse := by
    intro lines
    rw [List.filterMap_filter]
    refine List.filterMap_congr fun line _ => ?_
    by_cases blank : line = []
    · rw [if_neg (by simpa using blank), blank, parse_blank]
    · rw [if_pos (by simpa using blank)]
  unfold lastEvent
  rw [← skipped]
  unfold lastLine at read
  cases last : ((tailLines tail).filter (· ≠ [])).getLast? with
  | none =>
    rw [last] at read
    exact absurd read (by rw [Option.getD_none, parse_blank]; exact nofun)
  | some line =>
    rw [last, Option.getD_some] at read
    obtain ⟨front, split⟩ := List.getLast?_eq_some_iff.mp last
    rw [split, List.filterMap_append, List.filterMap_cons_some read, List.filterMap_nil,
      List.getLast?_concat]

theorem stats_of_some {bytes : List UInt8} (some : bytes ≠ []) (fuel : Nat) :
    getEventLogStats ν fuel (Option.some bytes)
      = (findLastLine (tailText bytes) fuel (tailText bytes).length).map fun lastLine =>
          Option.some {
            fileSizeBytes := bytes.length
            eventCount := bytes.count 0x0A
            oldestTimestamp := oldestTimestamp bytes
            newestTimestamp := timestamp lastLine } :=
  if_neg fun none => some (List.length_eq_zero_iff.mp none)

/-- **The statistics of a log come, and report its last event, if and only if** its tail is not a run of
blank lines that starts with a newline, and no line that does not parse is the last one behind an event. -/
theorem stats_exact_iff (ν : Type) [NumberFormat ν] (bytes : List UInt8) :
    (Terminates ν bytes ∧ ReportsLast ν bytes)
      ↔ ¬ Stuck (tailText bytes) ∧ EventIsLast ν (tailText bytes) := by
  by_cases empty : bytes = []
  · subst empty
    have none : lastEvent ν (tailText []) = none := rfl
    have absent : ∀ event, lastEvent ν (tailText []) ≠ some event := by
      intro event found
      rw [none] at found
      cases found
    have free : ¬ Stuck (tailText []) := fun stuck => nomatch stuck.1
    refine ⟨fun _ => ⟨free, fun event found => ?_⟩, fun _ => ?_⟩
    · exact absurd found (absent event)
    · exact ⟨⟨0, rfl⟩, fun fuel stats _ event found => absurd found (absent event)⟩
  · constructor
    · rintro ⟨⟨fuel, returns⟩, reports⟩
      have free : ¬ Stuck (tailText bytes) := by
        intro stuck
        rw [stats_of_some empty, findLastLine_runs_on stuck] at returns
        exact Bool.noConfusion returns
      refine ⟨free, fun event last => ?_⟩
      have same := reports ((tailText bytes).length + 1) _
        (by rw [stats_of_some empty, findLastLine_returns free]; rfl) event last
      cases read : (parse (lastLine (tailText bytes)) : Option (Value ν)) with
      | none =>
        refine Or.inl ?_
        rw [← same, timestamp_eq, read]
        rfl
      | some value => exact Or.inr rfl
    · rintro ⟨free, last⟩
      refine ⟨⟨(tailText bytes).length + 1, by
        rw [stats_of_some empty, findLastLine_returns free]
        rfl⟩, fun fuel stats returns event found => ?_⟩
      rw [stats_of_some empty] at returns
      obtain ⟨line, walk, same⟩ := Option.map_eq_some_iff.mp returns
      rw [findLastLine_unique free walk] at same
      rw [← Option.some.inj same, timestamp_eq]
      cases read : (parse (lastLine (tailText bytes)) : Option (Value ν)) with
      | none =>
        rcases last event found with untimed | parses
        · exact untimed.symm
        · rw [read] at parses
          exact Bool.noConfusion parses
      | some value =>
        have event' := lastEvent_of_lastLine read
        rw [found] at event'
        rw [Option.some.inj event']
        rfl

def tornLog : List UInt8 := encode (units "\x7b\"time\":1\x7d\n\x7b")

/-- **A log of one newline**: the walk never ends. Behind a line that is not whole, the last event is not
reported. -/
theorem newline_runs_on :
    ¬ Terminates (Fin 10) [0x0A] ∧
      (getEventLogStats (Fin 10) 2 (some tornLog)).map
          (fun stats => stats.map fun stats => (stats.eventCount, stats.newestTimestamp.isSome))
        = some (some (1, false)) ∧
      ((lastEvent (Fin 10) (tailText tornLog)).bind timeOf).isSome = true := by
  refine ⟨?_, by decide +kernel, by decide +kernel⟩
  rintro ⟨fuel, returns⟩
  have blank : (tailText [0x0A]).all isSpace = true := by decide
  have stuck : Stuck (tailText [0x0A]) := ⟨rfl, List.all_eq_true.mp blank⟩
  rw [stats_of_some (List.cons_ne_nil _ _), findLastLine_runs_on stuck] at returns
  exact Bool.noConfusion returns

end

end PiCrew.EventLog.LogStats
