/-
**A log is tailed while it grows.**

`EventLogTailSource.readFromOffset` (`runtime/event-log-tail-source.ts`) hands on the events of an agent's log,
and the probe of `runtime/surface/degrade.ts` looks for a completed worker in the run's log. Both keep an offset in
octets and the text of the last line, and decode what a poll reads for itself.

* `live_tail_delivers` — **every run** whose polls do so: the events and the answer are those of the log;
* `live_tail_damages` — a poll in between the octets of a letter, and a line that is `null`.
-/

import PiCrew.EventLog.IncrementalReader

namespace PiCrew.EventLog.LiveTail

open JsonText Utf8
open PiCrew.EventLog.IncrementalReader (readSync readSync_progress)
open PiCrew.EventLog.LogStats (isSpace trim)

variable {ν : Type} [NumberFormat ν]

structure Cursor where
  offset : Nat := 0
  partialLine : Text := []
  deriving DecidableEq, Repr

/-- **Read from the offset on**: the lines that are complete now. A read may fail, and it may come short. -/
def Cursor.read (cursor : Cursor) (file : List UInt8) (outcome : Option (Nat → Nat)) : List Text × Cursor :=
  let cursor := if file.length < cursor.offset then {} else cursor
  if file.length = cursor.offset then ([], cursor)
  else
    match outcome with
    | none => ([], cursor)
    | some short =>
      let bytes := readSync short file cursor.offset (file.length - cursor.offset)
      let text := cursor.partialLine ++ decode bytes
      (Framing.lines newlineUnit text, ⟨cursor.offset + bytes.length, Framing.tail newlineUnit text⟩)

def member (key : String) : Value ν → Option (Value ν)
  | .object members => members.reverse.lookup (units key)
  | _ => none

def lineValue (line : Text) : Option (Value ν) := if trim line = [] then none else parse line

def isObject : Value ν → Bool
  | .object _ => true
  | _ => false

/-- The event of a line: `typeof` an object, which an array is too. -/
def eventOf (parsed : Value ν) : Option (Value ν) := (member "event" parsed).filter fun event =>
    match event with
    | .object _ | .array _ => true
    | _ => false

/-- The loop over the lines. A field of `null` is an error that no one catches, and the lines behind are gone. -/
def deliver : List Text → List (Value ν)
  | [] => []
  | line :: rest =>
    match lineValue line with
    | none => deliver rest
    | some .null => []
    | some parsed => (eventOf parsed).toList ++ deliver rest

structure Wanted where
  taskId : Option Text
  runId : Option Text
  deriving DecidableEq, Repr

def isText (text : Text) : Value ν → Bool
  | .string other => other = text
  | _ => false

/-- The payload of a line that is a completed worker of the asked task and run. -/
def completion (wanted : Wanted) (parsed : Value ν) : Option (Value ν) :=
  if isObject parsed && (member "type" parsed).any (isText (units "worker.completed")) &&
      wanted.taskId.all (fun id => (member "taskId" parsed).any (isText id)) &&
      wanted.runId.all (fun id => (member "runId" parsed).any (isText id)) then
    some (((member "data" parsed).filter isObject).getD (.object []))
  else none

def lineCompletion (wanted : Wanted) (line : Text) : Option (Value ν) :=
  (lineValue line).bind (completion wanted)

/-- The log with both readers: the source and what its callback got, and the probe, which has returned once it
has an answer. -/
structure Tailed (ν : Type) where
  live : Option (List UInt8) := none
  source : Cursor := {}
  delivered : List (Value ν) := []
  probe : Cursor := {}
  answer : Option (Value ν) := none

inductive TailStep where
  | append (bytes : List UInt8)
  | poll (outcome : Option (Nat → Nat))
  | scan (outcome : Option (Nat → Nat))

/-- `readFromOffset`. -/
def Tailed.poll (state : Tailed ν) (outcome : Option (Nat → Nat)) : Tailed ν :=
  match state.live with
  | none => { state with source := {} }
  | some file =>
    let (lines, source) := state.source.read file outcome
    { state with source, delivered := state.delivered ++ deliver lines }

/-- `scanOnce`. -/
def Tailed.scan (wanted : Wanted) (state : Tailed ν) (outcome : Option (Nat → Nat)) : Tailed ν :=
  match state.live, state.answer with
  | some file, none =>
    let (lines, probe) := state.probe.read file outcome
    { state with probe, answer := lines.findSome? (lineCompletion wanted) }
  | _, _ => state

def Tailed.step (wanted : Wanted) (state : Tailed ν) : TailStep → Tailed ν
  | .append bytes => { state with live := some (state.live.getD [] ++ bytes) }
  | .poll outcome => state.poll outcome
  | .scan outcome => state.scan wanted outcome

section

def Cursor.lines (cursor : Cursor) (file : List UInt8) : List Text :=
  Framing.lines newlineUnit (decode (file.take cursor.offset))

/-- What a reader keeps is what it has read of the log. -/
structure Behind (cursor : Cursor) (file : List UInt8) : Prop where
  within : cursor.offset ≤ file.length
  open_line : cursor.partialLine = Framing.tail newlineUnit (decode (file.take cursor.offset))

variable {cursor : Cursor} {file : List UInt8}

theorem Behind.grown (behind : Behind cursor file) (bytes : List UInt8) :
    Behind cursor (file ++ bytes) ∧ cursor.lines (file ++ bytes) = cursor.lines file := by
  have same : (file ++ bytes).take cursor.offset = file.take cursor.offset :=
    List.take_append_of_le_length behind.within
  refine ⟨⟨?_, same.symm ▸ behind.open_line⟩, congrArg (Framing.lines newlineUnit <| decode ·) same⟩
  rw [List.length_append]
  exact Nat.le_add_right_of_le behind.within

theorem read_behind (behind : Behind cursor file) (apart : ¬ StartsInside (file.drop cursor.offset))
    (outcome : Option (Nat → Nat)) :
    Behind (cursor.read file outcome).2 file ∧
      (cursor.read file outcome).2.lines file = cursor.lines file ++ (cursor.read file outcome).1 := by
  obtain ⟨within, partialLine⟩ := behind
  simp only [Cursor.read, if_neg (Nat.not_lt.mpr within)]
  split
  · exact ⟨⟨within, partialLine⟩, (List.append_nil _).symm⟩
  rename_i more
  cases outcome with
  | none => exact ⟨⟨within, partialLine⟩, (List.append_nil _).symm⟩
  | some short =>
    obtain ⟨taken, positive, -, there, read, length⟩ :=
      @readSync_progress short file cursor.offset (file.length - cursor.offset) (by omega) (by omega)
    have front : file.take (cursor.offset + taken) = file.take cursor.offset ++
        readSync short file cursor.offset (file.length - cursor.offset) := by
      rw [read, List.take_add]
    have starts : ¬ StartsInside (readSync short file cursor.offset (file.length - cursor.offset)) := by
      rintro ⟨byte, first, inside⟩
      refine apart ⟨byte, ?_, inside⟩
      rwa [read, List.head?_take, if_neg (by omega)] at first
    have whole : decode (file.take (cursor.offset + taken)) = decode (file.take cursor.offset) ++
        decode (readSync short file cursor.offset (file.length - cursor.offset)) := by
      rw [front]
      exact decodeFrom_apart not_sound_none _ starts
    dsimp only
    rw [length]
    refine ⟨⟨by dsimp only; omega, ?_⟩, ?_⟩
    · dsimp only
      rw [whole, partialLine]
      exact (Framing.tail_append _ _).symm
    · rw [Cursor.lines, Cursor.lines, whole, Framing.lines_append, ← partialLine]

theorem read_all (within : cursor.offset ≤ file.length) {short : Nat → Nat}
    (long : ∀ position, file.length ≤ short position) :
    (cursor.read file (some short)).2.offset = file.length := by
  simp only [Cursor.read, if_neg (Nat.not_lt.mpr within)]
  split
  · exact Eq.symm ‹_›
  · have enough := long cursor.offset
    simp only [readSync, List.length_take, List.length_drop]
    omega

end

def lineEvent (line : Text) : Option (Value ν) := (lineValue line).bind eventOf

theorem lineValue_written (members : List (Text × Value ν)) :
    lineValue (stringify (.object members)) = some (plain (.object members)) := by
  obtain ⟨rest, shape⟩ : ∃ rest, stringify (.object members) = 0x7B :: rest := by
    rcases members with _ | ⟨⟨key, value⟩, rest⟩ <;> exact ⟨_, rfl⟩
  have some : trim (stringify (.object members)) ≠ [] := by
    intro blank
    have front : (0x7B :: rest : Text).dropWhile isSpace = 0x7B :: rest := List.dropWhile_cons_of_neg (by decide)
    rw [shape, trim, front, List.reverse_eq_nil_iff, List.dropWhile_eq_nil_iff] at blank
    exact absurd (blank 0x7B (List.mem_reverse.mpr List.mem_cons_self)) (by decide)
  rw [lineValue, if_neg some, parse_stringify]

section

variable {wanted : Wanted} {state : Tailed ν}

/-- No line of a log is `null`, as far as it may be read. -/
def NoNull (ν : Type) [NumberFormat ν] (file : List UInt8) : Prop :=
  ∀ count, ∀ line ∈ Framing.lines newlineUnit (decode (file.take count)),
    lineValue line ≠ some (.null : Value ν)

/-- A poll does not go on inside a character, and the source meets no line that is `null`. -/
def Guard (before : Tailed ν) : TailStep → Prop
  | .append _ => True
  | .poll _ => ¬ StartsInside ((before.live.getD []).drop before.source.offset) ∧ NoNull ν (before.live.getD [])
  | .scan _ => ¬ StartsInside ((before.live.getD []).drop before.probe.offset)

/-- **What the readers are to give**: the events of the complete lines, once and in order, and the payload of the
first line that is asked for, as far as they have read the log. -/
structure Exact (wanted : Wanted) (state : Tailed ν) : Prop where
  delivered : state.delivered = (state.source.lines (state.live.getD [])).filterMap lineEvent
  answer : state.answer = (state.probe.lines (state.live.getD [])).findSome? (lineCompletion wanted)
  text : ∀ text, Paired text → state.live.getD [] = encode text →
    (state.source.offset = (encode text).length →
      state.source.lines (state.live.getD []) = Framing.lines newlineUnit text) ∧
    (state.probe.offset = (encode text).length →
      state.probe.lines (state.live.getD []) = Framing.lines newlineUnit text)

/-- A poll that does not come short is at the end of the log; so is a scan, if it finds nothing. -/
def CaughtUp (taken : Runs.Transition (Tailed ν) TailStep) : Prop :=
  let length := (taken.after.live.getD []).length
  ∀ short : Nat → Nat, (∀ position, length ≤ short position) →
    (taken.action = .poll (some short) → taken.after.source.offset = length) ∧
      (taken.action = .scan (some short) → taken.after.answer = none → taken.after.probe.offset = length)

theorem deliver_eq {lines : List Text} (none : ∀ line ∈ lines, lineValue line ≠ some (.null : Value ν)) :
    deliver lines = lines.filterMap (lineEvent : Text → Option (Value ν)) := by
  induction lines with
  | nil => rfl
  | cons line rest ih =>
    obtain ⟨here, others⟩ := List.forall_mem_cons.mp none
    rw [deliver]
    cases read : (lineValue line : Option (Value ν)) with
    | none => rw [List.filterMap_cons_none (by rw [lineEvent, read]; rfl)]; exact ih others
    | some parsed =>
      have event : (lineEvent line : Option (Value ν)) = eventOf parsed := by rw [lineEvent, read]; rfl
      have next : (eventOf parsed).toList ++ rest.filterMap lineEvent = (line :: rest).filterMap lineEvent := by
        rw [List.filterMap_cons, event]
        cases eventOf parsed <;> rfl
      cases parsed
      case null => exact absurd read here
      all_goals exact (congrArg _ (ih others)).trans next

structure Sound (wanted : Wanted) (state : Tailed ν) : Prop where
  source : Behind state.source (state.live.getD [])
  probe : Behind state.probe (state.live.getD [])
  delivered : state.delivered = (state.source.lines (state.live.getD [])).filterMap lineEvent
  answer : state.answer = (state.probe.lines (state.live.getD [])).findSome? (lineCompletion wanted)

theorem Sound.exact (sound : Sound wanted state) : Exact wanted state := by
  refine ⟨sound.delivered, sound.answer, fun text paired same => ?_⟩
  have lines : ∀ cursor : Cursor, cursor.offset = (encode text).length →
      cursor.lines (state.live.getD []) = Framing.lines newlineUnit text := by
    intro cursor all
    rw [Cursor.lines, same, all, List.take_length, decode_encode paired]
  exact ⟨lines _, lines _⟩

/-- **The invariant over a guarded step.** -/
theorem step_sound (action : TailStep) (sound : Sound wanted state) (guard : Guard state action) :
    Sound wanted (state.step wanted action) := by
  obtain ⟨source, probe, delivered, answer⟩ := sound
  cases action with
  | append bytes =>
    obtain ⟨source', lines⟩ := source.grown bytes
    obtain ⟨probe', found⟩ := probe.grown bytes
    exact ⟨source', probe', delivered.trans (congrArg _ lines.symm), answer.trans (congrArg _ found.symm)⟩
  | poll outcome =>
    obtain ⟨apart, none⟩ := guard
    cases live : state.live with
    | none =>
      have empty : ∀ cursor : Cursor, cursor.lines (state.live.getD []) = [] := by
        intro cursor
        rw [live, Option.getD_none, Cursor.lines, List.take_nil]
        rfl
      have same : state.step wanted (.poll outcome) = { state with source := {} } := by
        rw [Tailed.step, Tailed.poll, live]
      rw [same]
      refine ⟨⟨Nat.zero_le _, rfl⟩, probe, ?_, answer⟩
      show state.delivered = (Cursor.lines {} (state.live.getD [])).filterMap lineEvent
      rw [delivered, empty, empty]
    | some file =>
      rw [live, Option.getD_some] at source probe delivered answer apart none
      obtain ⟨source', lines⟩ := read_behind source apart outcome
      have clean : ∀ line ∈ (state.source.read file outcome).1, lineValue line ≠ some (.null : Value ν) :=
        fun line member => none _ line (lines ▸ List.mem_append_right _ member)
      rw [Tailed.step, Tailed.poll, live]
      refine ⟨source', probe, ?_, answer⟩
      dsimp only [Option.getD_some]
      rw [lines, List.filterMap_append, ← delivered, deliver_eq clean]
  | scan outcome =>
    cases live : state.live with
    | none =>
      have same : state.step wanted (.scan outcome) = state := by rw [Tailed.step, Tailed.scan, live]
      rw [same]
      exact ⟨source, probe, delivered, answer⟩
    | some file =>
      cases found : state.answer with
      | some payload =>
        have same : state.step wanted (.scan outcome) = state := by rw [Tailed.step, Tailed.scan, live, found]
        rw [same]
        exact ⟨source, probe, delivered, answer⟩
      | none =>
        rw [Guard, live, Option.getD_some] at guard
        rw [live, Option.getD_some] at source probe delivered answer
        obtain ⟨probe', lines⟩ := read_behind probe guard outcome
        rw [Tailed.step, Tailed.scan, live, found]
        refine ⟨source, probe', delivered, ?_⟩
        dsimp only [Option.getD_some]
        rw [lines, List.findSome?_append, ← answer, found]
        rfl

/-- **A log is tailed exactly** in every run whose polls do not go on inside a character and whose source meets no
line that is `null`. -/
theorem live_tail_delivers (ν : Type) [NumberFormat ν] (wanted : Wanted) (steps : List TailStep)
    (guarded : ∀ taken ∈ Runs.transitions (Tailed.step wanted) ({} : Tailed ν) steps,
      Guard taken.before taken.action) :
    ∀ taken ∈ Runs.transitions (Tailed.step wanted) ({} : Tailed ν) steps,
      Exact wanted taken.after ∧ CaughtUp taken := by
  have start : Sound wanted ({} : Tailed ν) := ⟨⟨Nat.le_refl _, rfl⟩, ⟨Nat.le_refl _, rfl⟩, rfl, rfl⟩
  have kept := Runs.forall_transitions (Tailed.step wanted) (fun _ action => step_sound action) start guarded
  intro taken member
  refine ⟨(kept taken member).2.exact, fun short long => ?_⟩
  have after := Runs.transition_after _ member
  have before := (kept taken member).1
  refine ⟨fun action => ?_, fun action found => ?_⟩
  · rw [after, action, Tailed.step, Tailed.poll] at long ⊢
    cases live : taken.before.live with
    | none => simp
    | some file =>
      simp only [live] at long ⊢
      exact read_all (by simpa [live] using before.source.within) long
  · rw [after, action, Tailed.step, Tailed.scan] at long found ⊢
    cases live : taken.before.live with
    | none =>
      have none := before.probe.within
      rw [live] at none
      simpa [live] using none
    | some file =>
      cases given : taken.before.answer with
      | some payload =>
        simp only [live, given] at found
        cases found
      | none =>
        simp only [live, given] at long ⊢
        exact read_all (by simpa [live] using before.probe.within) long

def plainSteps : List TailStep := [.append [0x7B, 0x7D, newlineOctet], .poll (some fun _ => 3), .scan (some fun _ => 3)]

theorem live_tail_plain :
    Exact ⟨none, none⟩ (Runs.finish (Tailed.step ⟨none, none⟩) ({} : Tailed (Fin 10)) plainSteps) := by
  have apart : ¬ StartsInside [0x7B, 0x7D, newlineOctet] := by
    rintro ⟨byte, first, inside⟩
    rw [← Option.some.inj first] at inside
    cases inside
  have clean : NoNull (Fin 10) [0x7B, 0x7D, newlineOctet] := by
    intro count line member null
    have short : ∀ count < 3, Framing.lines newlineUnit (decode ([0x7B, 0x7D, newlineOctet].take count)) = [] := by
      decide
    by_cases few : count < 3
    · rw [short count few] at member
      cases member
    · rw [List.take_of_length_le (Nat.not_lt.mp few)] at member
      have line_eq : line = stringify (.object ([] : List (Text × Value (Fin 10)))) := List.mem_singleton.mp member
      rw [line_eq, lineValue_written] at null
      cases null
  refine (live_tail_delivers (Fin 10) ⟨none, none⟩ plainSteps (fun taken member => ?_) _
    (List.mem_cons_of_mem _ (List.mem_cons_of_mem _ List.mem_cons_self))).1
  rcases List.mem_cons.mp member with rfl | member
  · trivial
  rcases List.mem_cons.mp member with rfl | member
  · exact ⟨apart, clean⟩
  · rw [List.mem_singleton.mp member]
    exact apart

def textEvent (text : Text) : Value (Fin 10) := .object [(units "a", .string text)]

def eventLine (text : Text) : Text := stringify (.object [(units "event", textEvent text)])

theorem lineEvent_eventLine (text : Text) : lineEvent (eventLine text) = some (textEvent text) := by
  rw [lineEvent, eventLine, lineValue_written]
  rfl

theorem deliver_eventLine (text : Text) : deliver [eventLine text] = [textEvent text] := by
  rw [deliver, eventLine, lineValue_written]
  rfl

def writtenLine : List UInt8 := encode (eventLine [0xE9] ++ [newlineUnit])

/-- **A poll between the octets of a letter** damages the event, and **a line that is `null`** takes with it the
lines that are read behind it. -/
theorem live_tail_damages :
    ¬ Exact ⟨none, none⟩ (Runs.finish (Tailed.step ⟨none, none⟩) ({} : Tailed (Fin 10))
      [.append (writtenLine.take 16), .poll (some fun _ => 100), .append (writtenLine.drop 16),
        .poll (some fun _ => 100)]) ∧
    ¬ Exact ⟨none, none⟩ (Runs.finish (Tailed.step ⟨none, none⟩) ({} : Tailed (Fin 10))
      [.append (encode (units "null" ++ [newlineUnit]) ++ writtenLine), .poll (some fun _ => 100)]) := by
  refine ⟨fun exact => ?_, fun exact => ?_⟩
  · have first : Cursor.read {} (writtenLine.take 16) (some fun _ => 100) =
        ([], ⟨16, (eventLine [0xFFFD]).take 16⟩) := by decide +kernel
    have second : Cursor.read ⟨16, (eventLine [0xFFFD]).take 16⟩ (writtenLine.take 16 ++ writtenLine.drop 16)
        (some fun _ => 100) = ([eventLine [0xFFFD, 0xFFFD]], ⟨writtenLine.length, []⟩) := by decide +kernel
    have lines : Cursor.lines ⟨writtenLine.length, []⟩ (writtenLine.take 16 ++ writtenLine.drop 16) =
        [eventLine [0xE9]] := by decide +kernel
    have found : deliver (Cursor.read {} (writtenLine.take 16) (some fun _ => 100)).1 ++
        deliver (Cursor.read (Cursor.read {} (writtenLine.take 16) (some fun _ => 100)).2
          (writtenLine.take 16 ++ writtenLine.drop 16) (some fun _ => 100)).1 =
        (Cursor.lines (Cursor.read (Cursor.read {} (writtenLine.take 16) (some fun _ => 100)).2
          (writtenLine.take 16 ++ writtenLine.drop 16) (some fun _ => 100)).2
          (writtenLine.take 16 ++ writtenLine.drop 16)).filterMap lineEvent := exact.delivered
    rw [first, second, lines, deliver_eventLine, List.filterMap_cons_some (lineEvent_eventLine _)] at found
    cases found
  · have read : Cursor.read {} (encode (units "null" ++ [newlineUnit]) ++ writtenLine) (some fun _ => 100) =
        ([units "null", eventLine [0xE9]], ⟨5 + writtenLine.length, []⟩) := by decide +kernel
    have lines : Cursor.lines ⟨5 + writtenLine.length, []⟩
        (encode (units "null" ++ [newlineUnit]) ++ writtenLine) = [units "null", eventLine [0xE9]] := by
      decide +kernel
    have null : (lineValue (units "null") : Option (Value (Fin 10))) = some .null := by
      rw [lineValue, if_neg (by decide)]
      exact parse_stringify .null
    have event : (lineEvent (units "null") : Option (Value (Fin 10))) = none := by
      rw [lineEvent, null]
      rfl
    have found : deliver (Cursor.read {} (encode (units "null" ++ [newlineUnit]) ++ writtenLine)
        (some fun _ => 100)).1 =
        (Cursor.lines (Cursor.read {} (encode (units "null" ++ [newlineUnit]) ++ writtenLine)
          (some fun _ => 100)).2 (encode (units "null" ++ [newlineUnit]) ++ writtenLine)).filterMap lineEvent :=
      exact.delivered
    rw [read, lines, deliver, null, List.filterMap_cons_none event,
      List.filterMap_cons_some (lineEvent_eventLine _)] at found
    cases found

end

end PiCrew.EventLog.LiveTail
