/-
**The events of an agent, read incrementally.**

`runtime/crew-agent-records.ts` (`readCrewAgentEventsCursor`, `readAgentEventMatches`,
`parseAgentEventLines`) and `readLinesSince` of `utils/incremental-reader.ts`. A process remembers the bytes of an
events file that it has consumed, and its next read begins behind them if nothing in them can be above the anchor.
A line without a number has that of its position, which the two kinds of read count differently.

* `describes_read` — what a process remembers after a read;
* `answers_agree` — every answer in a run is that of a process that remembers nothing, where the ways of
  counting agree, and no new file has the inode of the remembered one;
* `blank_line_miscounts` — a blank line, and behind it an event that is never delivered.

What is done with the bytes of a line is a parameter, and a read is one step.
-/

import PiCrew.Library.Framing
import PiCrew.Library.Paging
import PiCrew.Library.Runs

set_option linter.unusedSectionVars false

namespace PiCrew.AgentRecords

/-- What the language does: the text of some bytes, the object that a text is in JSON, its numeric `seq`, and
the natural number that a number is. -/
structure Language (ε ν : Type*) where
  toText : List UInt8 → String
  parse : String → Option ε
  seq : ε → Option ν
  natural : ν → Option Nat

/-- An event: an object, with its number or the one it was given, or the text of a line that is none. -/
inductive AgentEvent (ε ν : Type*) where
  | parsed (value : ε) (seq : ν)
  | raw (seq : ν) (text : String)
  deriving DecidableEq, Repr

def AgentEvent.seq {ε ν : Type*} : AgentEvent ε ν → ν
  | .parsed _ seq | .raw seq _ => seq

/-- What the path of the events names. -/
structure AgentEventsFile where
  bytes : List UInt8
  mtimeMs : Nat
  ino : Nat
  dev : Nat
  deriving DecidableEq, Repr

structure AgentEventsCursorState (ν : Type*) where
  byteOffset : Nat
  lineCount : Nat
  prefixMaxSeq : ν
  size : Nat
  mtimeMs : Nat
  ino : Nat
  dev : Nat
  deriving DecidableEq, Repr

structure IncrementalReadState where
  byteOffset : Nat
  lineCount : Nat
  deriving DecidableEq, Repr

structure CrewAgentEventCursorOptions (ν : Type*) where
  sinceSeq : Option ν := none
  limit : Option ν := none
  deriving DecidableEq, Repr

structure EventsAnswer (ε ν : Type*) where
  events : List (AgentEvent ε ν)
  nextSeq : ν
  total : Nat
  deriving DecidableEq, Repr

section

variable {ε ν : Type*} [LinearOrder ν] [NatCast ν] (language : Language ε ν)

def newline : UInt8 := 10

def linesOf (bytes : List UInt8) : List String := (Framing.lines newline bytes).map language.toText

/-- The lines that `lineCount` counts. -/
def countLines (lines : List String) : Nat := (lines.filter (· ≠ "")).length

/-- The complete lines from an offset on, and where they end. An unfinished line is held back. -/
def readLinesSince (bytes : List UInt8) (state : IncrementalReadState) : List String × IncrementalReadState :=
  if bytes.length ≤ state.byteOffset then ([], ⟨bytes.length, state.lineCount⟩)
  else
    let content := bytes.drop state.byteOffset
    let lines := linesOf language content
    (lines,
      ⟨state.byteOffset + (content.length - (Framing.tail newline content).length),
        state.lineCount + countLines lines⟩)

def stripReturn (raw : String) : String :=
  if raw.toList.getLast? = some '\r' then String.ofList raw.toList.dropLast else raw

/-- The event of a line, which has the number of its position if it has none of its own. -/
def parseAgentEventLine (raw : String) (lineIndex : Nat) : AgentEvent ε ν :=
  let text := stripReturn raw
  match language.parse text with
  | some value => .parsed value ((language.seq value).getD ((lineIndex + 1 : Nat) : ν))
  | none => .raw ((lineIndex + 1 : Nat) : ν) text

/-- The events of some lines, from the position of the first one on. -/
def parseAgentEventLines : List String → Nat → List (AgentEvent ε ν)
  | [], _ => []
  | raw :: rest, lineIndexBase =>
    parseAgentEventLine language raw lineIndexBase :: parseAgentEventLines rest (lineIndexBase + 1)

def maxSeq (events : List (AgentEvent ε ν)) (least : ν) : ν :=
  events.foldl (fun highest event => max highest event.seq) least

def sameFile (cached : AgentEventsCursorState ν) (file : AgentEventsFile) : Bool :=
  cached.ino = file.ino ∧ cached.dev = file.dev

def canServeDelta (cached : AgentEventsCursorState ν) (file : AgentEventsFile) (sinceSeq : ν) : Bool :=
  sameFile cached file && (cached.byteOffset < file.bytes.length && cached.prefixMaxSeq ≤ sinceSeq)

def canServeIdle (cached : AgentEventsCursorState ν) (file : AgentEventsFile) (sinceSeq : ν) : Bool :=
  sameFile cached file && (file.bytes.length = cached.byteOffset && file.mtimeMs = cached.mtimeMs &&
    cached.prefixMaxSeq ≤ sinceSeq)

/-- The events above an anchor, read from some bytes on, and what is remembered of them. -/
def readFrom (file : AgentEventsFile) (sinceSeq : ν) (base : IncrementalReadState) (baseMaxSeq : ν) :
    List (AgentEvent ε ν) × AgentEventsCursorState ν :=
  let result := readLinesSince language file.bytes base
  let events := parseAgentEventLines language result.1 base.lineCount
  (events.filter fun event => sinceSeq < event.seq,
    { byteOffset := result.2.byteOffset
      lineCount := result.2.lineCount
      prefixMaxSeq := max baseMaxSeq (maxSeq events ((0 : Nat) : ν))
      size := max file.bytes.length result.2.byteOffset
      mtimeMs := file.mtimeMs
      ino := file.ino
      dev := file.dev })

/-- **The events above an anchor**, and what is remembered of the file afterwards. -/
def readAgentEventMatches (cached : Option (AgentEventsCursorState ν)) (file : AgentEventsFile)
    (sinceSeq : ν) : List (AgentEvent ε ν) × Option (AgentEventsCursorState ν) :=
  match cached with
  | none =>
    let read := readFrom language file sinceSeq ⟨0, 0⟩ ((0 : Nat) : ν)
    (read.1, some read.2)
  | some state =>
    if canServeIdle state file sinceSeq then ([], some state)
    else
      let read :=
        if canServeDelta state file sinceSeq then
          readFrom language file sinceSeq ⟨state.byteOffset, state.lineCount⟩ state.prefixMaxSeq
        else readFrom language file sinceSeq ⟨0, 0⟩ ((0 : Nat) : ν)
      (read.1, some read.2)

def anchorOf (options : CrewAgentEventCursorOptions ν) : ν :=
  (options.sinceSeq.filter fun given => (language.natural given).isSome).getD ((0 : Nat) : ν)

/-- The answer of a read that found some events: the lowest ones, if there is a limit. -/
def answerOf (options : CrewAgentEventCursorOptions ν) (filtered : List (AgentEvent ε ν)) :
    EventsAnswer ε ν :=
  let events :=
    match options.limit.bind language.natural with
    | some limit => (Paging.inOrder AgentEvent.seq filtered).take limit
    | none => filtered
  { events := events
    nextSeq := maxSeq events (anchorOf language options)
    total := filtered.length }

def readCrewAgentEventsCursor (cached : Option (AgentEventsCursorState ν)) (live : Option AgentEventsFile)
    (options : CrewAgentEventCursorOptions ν) :
    EventsAnswer ε ν × Option (AgentEventsCursorState ν) :=
  match live with
  | none => ({ events := [], nextSeq := options.sinceSeq.getD ((0 : Nat) : ν), total := 0 }, cached)
  | some file =>
    let found := readAgentEventMatches language cached file (anchorOf language options)
    (answerOf language options found.1, found.2)

end

section

variable {ε ν : Type*} [LinearOrder ν] [NatCast ν] (language : Language ε ν)

/-- The file at the path, if there is one, and what a process remembers of it. -/
structure EventsSystem (ν : Type*) where
  live : Option AgentEventsFile := none
  cached : Option (AgentEventsCursorState ν) := none

/-- What happens next: some bytes are added to the file, another file or none is put in its place, it is read,
or the process forgets what it remembers, as it does when there are too many entries. -/
inductive EventsStep (ν : Type*) where
  | append (bytes : List UInt8) (mtimeMs : Nat)
  | replace (file : Option AgentEventsFile)
  | read (options : CrewAgentEventCursorOptions ν)
  | evict

def EventsSystem.step (system : EventsSystem ν) : EventsStep ν → EventsSystem ν
  | .append bytes mtimeMs =>
    { system with
      live := system.live.map fun file => { file with bytes := file.bytes ++ bytes, mtimeMs := mtimeMs } }
  | .replace file => { system with live := file }
  | .read options =>
    { system with cached := (readCrewAgentEventsCursor language system.cached system.live options).2 }
  | .evict => { system with cached := none }

/-- **A read answers what a process that remembers nothing answers.** -/
def AnswersAgree (system : EventsSystem ν) : EventsStep ν → Prop
  | .read options =>
    (readCrewAgentEventsCursor language system.cached system.live options).1 =
      (readCrewAgentEventsCursor language none system.live options).1
  | _ => True

/-- The two ways of counting agree: what was consumed has no blank line, or no line behind it goes without
a number. -/
def CountsAgree (cached : AgentEventsCursorState ν) (file : AgentEventsFile) : Prop :=
  (∀ line ∈ linesOf language (file.bytes.take cached.byteOffset), line ≠ "") ∨
    ∀ line ∈ linesOf language (file.bytes.drop cached.byteOffset),
      ((language.parse (stripReturn line)).bind language.seq).isSome

/-- **The ways of counting agree** where a read begins behind what was consumed, and no new file has the inode
of the remembered one. -/
def Tells (system : EventsSystem ν) : EventsStep ν → Prop
  | .read options =>
    ∀ cached ∈ system.cached, ∀ file ∈ system.live,
      canServeDelta cached file (anchorOf language options) = true → CountsAgree language cached file
  | .replace file => ∀ cached ∈ system.cached, ∀ new ∈ file, sameFile cached new = false
  | _ => True

instance decidableCountsAgree (cached : AgentEventsCursorState ν) (file : AgentEventsFile) :
    Decidable (CountsAgree language cached file) :=
  inferInstanceAs (Decidable (_ ∨ _))

instance decidableTells (system : EventsSystem ν) : ∀ step, Decidable (Tells language system step)
  | .append _ _ | .evict => inferInstanceAs (Decidable True)
  | .replace file =>
    inferInstanceAs (Decidable (∀ cached ∈ system.cached, ∀ new ∈ file, sameFile cached new = false))
  | .read options =>
    inferInstanceAs (Decidable (∀ cached ∈ system.cached, ∀ file ∈ system.live,
      canServeDelta cached file (anchorOf language options) = true → CountsAgree language cached file))

end

section

variable {ε ν : Type*} [LinearOrder ν] [NatCast ν] {language : Language ε ν}

theorem parseAgentEventLines_append (first second : List String) (base : Nat) :
    parseAgentEventLines language (first ++ second) base =
      parseAgentEventLines language first base ++
        parseAgentEventLines language second (base + first.length) := by
  induction first generalizing base with
  | nil => rfl
  | cons raw rest ih =>
    rw [List.cons_append, parseAgentEventLines, ih, parseAgentEventLines, List.length_cons,
      List.cons_append, Nat.add_right_comm, Nat.add_assoc]

theorem parseAgentEventLine_own {raw : String}
    (own : ((language.parse (stripReturn raw)).bind language.seq).isSome) (base other : Nat) :
    parseAgentEventLine language raw base = parseAgentEventLine language raw other := by
  unfold parseAgentEventLine
  cases parsed : language.parse (stripReturn raw) with
  | none =>
    rw [parsed] at own
    exact nomatch own
  | some value =>
    rw [parsed, Option.bind_some] at own
    obtain ⟨seq, numbered⟩ := Option.isSome_iff_exists.mp own
    simp only [parsed, numbered, Option.getD_some]

theorem parseAgentEventLines_own {lines : List String}
    (own : ∀ line ∈ lines, ((language.parse (stripReturn line)).bind language.seq).isSome) (base other : Nat) :
    parseAgentEventLines language lines base = parseAgentEventLines language lines other := by
  induction lines generalizing base other with
  | nil => rfl
  | cons raw rest ih =>
    obtain ⟨first, others⟩ := List.forall_mem_cons.mp own
    rw [parseAgentEventLines, parseAgentEventLines, parseAgentEventLine_own first base other,
      ih others (base + 1) (other + 1)]

theorem countLines_of_text {lines : List String} (text : ∀ line ∈ lines, line ≠ "") :
    countLines lines = lines.length := by
  rw [countLines, List.filter_eq_self.mpr fun line member => decide_eq_true (text line member)]

theorem countLines_append (first second : List String) :
    countLines (first ++ second) = countLines first + countLines second := by
  rw [countLines, List.filter_append, List.length_append]
  rfl

omit [NatCast ν] in
theorem maxSeq_cons (event : AgentEvent ε ν) (rest : List (AgentEvent ε ν)) (least : ν) :
    maxSeq (event :: rest) least = maxSeq rest (max least event.seq) := rfl

omit [NatCast ν] in
theorem least_le_maxSeq (events : List (AgentEvent ε ν)) (least : ν) : least ≤ maxSeq events least := by
  induction events generalizing least with
  | nil => exact le_rfl
  | cons event rest ih => exact (le_max_left _ _).trans (ih _)

omit [NatCast ν] in
theorem seq_le_maxSeq {events : List (AgentEvent ε ν)} {event : AgentEvent ε ν} (member : event ∈ events)
    (least : ν) : event.seq ≤ maxSeq events least := by
  induction events generalizing least with
  | nil => exact nomatch member
  | cons first rest ih =>
    rw [maxSeq_cons]
    rcases List.mem_cons.mp member with rfl | later
    · exact (le_max_right _ _).trans (least_le_maxSeq rest _)
    · exact ih later _

theorem linesOf_append {front : List UInt8} (whole : Framing.tail newline front = []) (rest : List UInt8) :
    linesOf language (front ++ rest) = linesOf language front ++ linesOf language rest := by
  rw [linesOf, Framing.lines_append, whole, List.nil_append, List.map_append]
  rfl

def complete (bytes : List UInt8) : List UInt8 := Framing.written newline (Framing.lines newline bytes)

theorem complete_append_tail (bytes : List UInt8) : complete bytes ++ Framing.tail newline bytes = bytes :=
  Framing.written_lines newline bytes

theorem length_complete (bytes : List UInt8) :
    (complete bytes).length = bytes.length - (Framing.tail newline bytes).length := by
  have parts := congrArg List.length (complete_append_tail bytes)
  rw [List.length_append] at parts
  omega

theorem tail_complete (bytes : List UInt8) : Framing.tail newline (complete bytes) = [] := by
  have whole := Framing.tail_written (@Framing.not_mem_lines _ _ newline bytes) []
  rwa [List.append_nil] at whole

theorem linesOf_complete (bytes : List UInt8) : linesOf language (complete bytes) = linesOf language bytes := by
  have none : Framing.lines newline [] = [] := rfl
  have whole := Framing.lines_written (@Framing.not_mem_lines _ _ newline bytes) []
  rw [none, List.append_nil, List.append_nil] at whole
  rw [linesOf, complete, whole]
  rfl

end

section

variable {ε ν : Type*} [LinearOrder ν] [NatCast ν] {language : Language ε ν}
  {cached : AgentEventsCursorState ν} {file : AgentEventsFile} {front rest : List UInt8}

/-- **What is remembered of the bytes that were consumed**: where they end, which is with a line; how many of
their lines are not blank; and a number that none of their events exceeds. -/
structure Consumed (language : Language ε ν) (cached : AgentEventsCursorState ν) (front : List UInt8) :
    Prop where
  offset : cached.byteOffset = front.length
  whole : Framing.tail newline front = []
  count : cached.lineCount = countLines (linesOf language front)
  below : ∀ event ∈ parseAgentEventLines language (linesOf language front) 0, event.seq ≤ cached.prefixMaxSeq

theorem events_behind (consumed : Consumed language cached front) (split : file.bytes = front ++ rest)
    (agree : CountsAgree language cached file) :
    parseAgentEventLines language (linesOf language rest) cached.lineCount =
      parseAgentEventLines language (linesOf language rest) (linesOf language front).length := by
  have before : file.bytes.take cached.byteOffset = front := by
    rw [split, consumed.offset, List.take_left]
  have behind : file.bytes.drop cached.byteOffset = rest := by
    rw [split, consumed.offset, List.drop_left]
  rcases agree with text | own
  · rw [before] at text
    rw [consumed.count, countLines_of_text text]
  · rw [behind] at own
    exact parseAgentEventLines_own own _ _

theorem events_split (consumed : Consumed language cached front) (split : file.bytes = front ++ rest) :
    parseAgentEventLines language (linesOf language file.bytes) 0 =
      parseAgentEventLines language (linesOf language front) 0 ++
        parseAgentEventLines language (linesOf language rest) (linesOf language front).length := by
  rw [split, linesOf_append consumed.whole, parseAgentEventLines_append, Nat.zero_add]

theorem none_above (consumed : Consumed language cached front) {sinceSeq : ν}
    (above : cached.prefixMaxSeq ≤ sinceSeq) :
    (parseAgentEventLines language (linesOf language front) 0).filter (fun event => sinceSeq < event.seq) =
      [] := by
  refine List.filter_eq_nil_iff.mpr fun event member higher => ?_
  exact absurd ((consumed.below event member).trans above) (not_le.mpr (of_decide_eq_true higher))

theorem readLinesSince_lines (language : Language ε ν) (front rest : List UInt8) (count : Nat) :
    readLinesSince language (front ++ rest) ⟨front.length, count⟩ =
      (linesOf language rest,
        ⟨front.length + (complete rest).length, count + countLines (linesOf language rest)⟩) := by
  unfold readLinesSince
  split_ifs with short
  · simp only [List.length_append] at short
    have nothing : rest = [] := List.eq_nil_of_length_eq_zero (by omega)
    subst nothing
    rw [List.append_nil]
    rfl
  · simp only [List.drop_left, length_complete]

theorem readFrom_start (file : AgentEventsFile) (sinceSeq least : ν) :
    (readFrom language file sinceSeq ⟨0, 0⟩ least).1 =
      (parseAgentEventLines language (linesOf language file.bytes) 0).filter
        fun event => sinceSeq < event.seq := by
  have all := readLinesSince_lines language [] file.bytes 0
  rw [List.nil_append, List.length_nil] at all
  rw [readFrom, all]

theorem readFrom_behind (consumed : Consumed language cached front) (split : file.bytes = front ++ rest)
    (agree : CountsAgree language cached file) {sinceSeq : ν} (above : cached.prefixMaxSeq ≤ sinceSeq) :
    (readFrom language file sinceSeq ⟨cached.byteOffset, cached.lineCount⟩ cached.prefixMaxSeq).1 =
      (readFrom language file sinceSeq ⟨0, 0⟩ ((0 : Nat) : ν)).1 := by
  have lines := readLinesSince_lines language front rest cached.lineCount
  rw [readFrom_start, events_split consumed split, List.filter_append, none_above consumed above,
    List.nil_append, readFrom, split, consumed.offset, lines, ← events_behind consumed split agree]

theorem consumed_start (file : AgentEventsFile) (sinceSeq : ν) :
    Consumed language (readFrom language file sinceSeq ⟨0, 0⟩ ((0 : Nat) : ν)).2 (complete file.bytes) := by
  have all := readLinesSince_lines language [] file.bytes 0
  rw [List.nil_append, List.length_nil, Nat.zero_add, Nat.zero_add] at all
  rw [readFrom, all]
  refine ⟨rfl, tail_complete _, by rw [linesOf_complete], fun event member => ?_⟩
  rw [linesOf_complete] at member
  exact (seq_le_maxSeq member _).trans (le_max_right _ _)

theorem consumed_behind (consumed : Consumed language cached front) (split : file.bytes = front ++ rest)
    (agree : CountsAgree language cached file) (sinceSeq : ν) :
    Consumed language
      (readFrom language file sinceSeq ⟨cached.byteOffset, cached.lineCount⟩ cached.prefixMaxSeq).2
      (front ++ complete rest) := by
  have lines := readLinesSince_lines language front rest cached.lineCount
  have same : linesOf language (front ++ complete rest) = linesOf language front ++ linesOf language rest := by
    rw [linesOf_append consumed.whole, linesOf_complete]
  rw [readFrom, split, consumed.offset, lines]
  refine ⟨(List.length_append).symm, ?_, ?_, fun event member => ?_⟩
  · rw [Framing.tail_append, consumed.whole, List.nil_append, tail_complete]
  · rw [same, countLines_append, consumed.count]
  · rw [same, parseAgentEventLines_append, Nat.zero_add, ← events_behind consumed split agree] at member
    rcases List.mem_append.mp member with old | new
    · exact (consumed.below event old).trans (le_max_left _ _)
    · exact (seq_le_maxSeq new _).trans (le_max_right _ _)

end

section

variable {ε ν : Type*} [LinearOrder ν] [NatCast ν] {language : Language ε ν}
  {cached : AgentEventsCursorState ν} {file : AgentEventsFile} {system : EventsSystem ν}

/-- **What is remembered is of the file**, if it has the inode. -/
def Describes (language : Language ε ν) (cached : AgentEventsCursorState ν) (file : AgentEventsFile) : Prop :=
  sameFile cached file = true → ∃ front rest, file.bytes = front ++ rest ∧ Consumed language cached front

def Current (language : Language ε ν) (system : EventsSystem ν) : Prop :=
  ∀ cached ∈ system.cached, ∀ file ∈ system.live, Describes language cached file

theorem describes_append {bytes : List UInt8} {mtimeMs : Nat} (describes : Describes language cached file) :
    Describes language cached { file with bytes := file.bytes ++ bytes, mtimeMs := mtimeMs } := by
  intro same
  obtain ⟨front, rest, split, consumed⟩ := describes same
  refine ⟨front, rest ++ bytes, ?_, consumed⟩
  rw [← List.append_assoc, ← split]

theorem describes_start (file : AgentEventsFile) (sinceSeq : ν) :
    Describes language (readFrom language file sinceSeq ⟨0, 0⟩ ((0 : Nat) : ν)).2 file := fun _ =>
  ⟨complete file.bytes, Framing.tail newline file.bytes, (complete_append_tail _).symm,
    consumed_start file sinceSeq⟩

section

variable (describes : Describes language cached file) {sinceSeq : ν}

include describes

theorem idle_finds_nothing (idle : canServeIdle cached file sinceSeq = true) :
    (readFrom language file sinceSeq ⟨0, 0⟩ ((0 : Nat) : ν)).1 = [] := by
  simp only [canServeIdle, Bool.and_eq_true, decide_eq_true_eq] at idle
  obtain ⟨same, ⟨length, -⟩, above⟩ := idle
  obtain ⟨front, rest, split, consumed⟩ := describes same
  have nothing : rest = [] := by
    have parts := congrArg List.length split
    rw [List.length_append, length, consumed.offset] at parts
    exact List.eq_nil_of_length_eq_zero (by omega)
  subst nothing
  rw [List.append_nil] at split
  rw [readFrom_start, split]
  exact none_above consumed above

theorem matches_eq (agree : canServeDelta cached file sinceSeq = true → CountsAgree language cached file) :
    (readAgentEventMatches language (some cached) file sinceSeq).1 =
      (readAgentEventMatches language none file sinceSeq).1 := by
  unfold readAgentEventMatches
  dsimp only
  split_ifs with idle delta
  · exact (idle_finds_nothing describes idle).symm
  · have counts := agree delta
    simp only [canServeDelta, Bool.and_eq_true, decide_eq_true_eq] at delta
    obtain ⟨same, -, above⟩ := delta
    obtain ⟨front, rest, split, consumed⟩ := describes same
    exact readFrom_behind consumed split counts above
  · rfl

/-- **What a read remembers is of the file.** -/
theorem describes_read (agree : canServeDelta cached file sinceSeq = true → CountsAgree language cached file) :
    ∀ next ∈ (readAgentEventMatches language (some cached) file sinceSeq).2, Describes language next file := by
  unfold readAgentEventMatches
  dsimp only
  split_ifs with idle delta
  · rintro next ⟨⟩
    exact describes
  · rintro next ⟨⟩ same
    have counts := agree delta
    simp only [canServeDelta, Bool.and_eq_true] at delta
    obtain ⟨front, rest, split, consumed⟩ := describes delta.1
    refine ⟨front ++ complete rest, Framing.tail newline rest, ?_,
      consumed_behind consumed split counts sinceSeq⟩
    rw [List.append_assoc, complete_append_tail, split]
  · rintro next ⟨⟩
    exact describes_start file sinceSeq

end

theorem current_step (current : Current language system) {step : EventsStep ν}
    (tells : Tells language system step) : Current language (system.step language step) := by
  cases step with
  | append bytes mtimeMs =>
    intro cached remembered file there
    obtain ⟨before, found, rfl⟩ := Option.map_eq_some_iff.mp there
    exact describes_append (current cached remembered before found)
  | replace new =>
    intro cached remembered file there same
    exact absurd same (by simp [tells cached remembered file there])
  | read options =>
    intro next remembered file there
    change file ∈ system.live at there
    have read : next ∈ (readAgentEventMatches language system.cached file (anchorOf language options)).2 := by
      simpa [EventsSystem.step, readCrewAgentEventsCursor, Option.mem_def.mp there] using remembered
    cases before : system.cached with
    | none =>
      rw [before] at read
      obtain rfl := Option.some.inj read
      exact describes_start file _
    | some cached =>
      rw [before] at read
      exact describes_read (current cached before file there) (tells cached before file there) next read
  | evict => exact fun cached remembered => nomatch remembered

theorem answersAgree_of_current (current : Current language system) {step : EventsStep ν}
    (tells : Tells language system step) : AnswersAgree language system step := by
  cases step with
  | read options =>
    change (readCrewAgentEventsCursor language system.cached system.live options).1 = _
    cases there : system.live with
    | none => rfl
    | some file =>
      cases before : system.cached with
      | none => rfl
      | some cached =>
        have same := matches_eq (current cached before file there) (tells cached before file there)
        exact congrArg (answerOf language options) same
  | _ => trivial

/-- **Every answer is that of a process that remembers nothing**, in every run in which the ways of counting
agree at each incremental read and no new file has the inode of the remembered one. -/
theorem answers_agree (language : Language ε ν) (live : Option AgentEventsFile) (steps : List (EventsStep ν))
    (tell : ∀ taken ∈ Runs.transitions (EventsSystem.step language) { live := live } steps,
      Tells language taken.before taken.action) :
    ∀ taken ∈ Runs.transitions (EventsSystem.step language) { live := live } steps,
      AnswersAgree language taken.before taken.action := by
  have initial : Current language { live := live } := fun cached remembered => nomatch remembered
  have keeps : ∀ system step, Current language system → Tells language system step →
      Current language (system.step language step) := fun _ _ current tells => current_step current tells
  intro taken member
  have current := Runs.forall_transitions (EventsSystem.step language) keeps initial tell taken member
  exact answersAgree_of_current current.1 (tell taken member)

def plain : Language (Option Int) Int where
  toText bytes := String.ofList (bytes.map fun byte => Char.ofNat byte.toNat)
  parse text :=
    if text = "\x7b\x7d" then some none
    else if text = "\x7b\"seq\":5\x7d" then some (some 5)
    else none
  seq value := value
  natural number := if 0 ≤ number then some number.toNat else none

def lineBytes (text : String) : List UInt8 := text.toList.map (fun char => UInt8.ofNat char.toNat) ++ [newline]

def oneLine (text : String) : AgentEventsFile := { bytes := lineBytes text, mtimeMs := 1, ino := 1, dev := 1 }

def readTwice (text : String) : List (EventsStep Int) :=
  [.read {}, .append (lineBytes text) 2, .read { sinceSeq := some 1 }]

theorem answers_agree_readTwice :
    let file := oneLine "\x7b\x7d"
    let steps := readTwice "\x7b\"seq\":5\x7d"
    (Runs.finish (EventsSystem.step plain) { live := some file } steps).cached.map (·.lineCount) = some 2 ∧
      ∀ taken ∈ Runs.transitions (EventsSystem.step plain) { live := some file } steps,
        AnswersAgree plain taken.before taken.action :=
  ⟨by decide, answers_agree plain _ _ (by decide)⟩

/-- **A blank line**, and behind it a line whose number is counted without it: the event is not above the
anchor, and is never delivered. -/
theorem blank_line_miscounts :
    let system := Runs.finish (EventsSystem.step plain) { live := some (oneLine "") }
      [.read {}, .append (lineBytes "x") 2]
    let options : CrewAgentEventCursorOptions Int := { sinceSeq := some 1 }
    (readCrewAgentEventsCursor plain system.cached system.live options).1.events = [] ∧
      (readCrewAgentEventsCursor plain none system.live options).1.events = [.raw 2 "x"] := by
  decide

end

end PiCrew.AgentRecords
