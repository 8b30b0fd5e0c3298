/-
**Reading a file that grows.**

`utils/incremental-reader.ts`. `readLinesSince` reads what stands behind an offset, up to the size that the file
has when it is opened, looks for newlines among the bytes, decodes each complete line for itself, and gives the
offset behind the last of them. What is unfinished is held back, wherever the file was cut: inside a line or
inside a character.

* `sound_step` — the offset stays behind a complete line, and what was delivered are the lines in front of it;
* `growth_delivers` — over every growth, each complete line is delivered once, in order.
-/

import PiCrew.AgentRecords.EventsCursor
import PiCrew.EventLog.LogStats
import PiCrew.Library.Utf8Lines

namespace PiCrew.EventLog.IncrementalReader

open JsonText Utf8
open PiCrew.AgentRecords (IncrementalReadState complete complete_append_tail length_complete
  tail_complete)
open PiCrew.EventLog.LogStats (trim)

structure TrackedLine where
  text : Text
  byteOffset : Nat
  lineIndex : Nat
  deriving DecidableEq, Repr

structure ReadLinesDetailedResult where
  lines : List TrackedLine
  state : IncrementalReadState
  eof : Bool
  shrank : Bool
  tornTail : Bool
  deriving DecidableEq, Repr

structure IncrementalReadResult where
  lines : List Text
  state : IncrementalReadState
  eof : Bool
  shrank : Bool
  deriving DecidableEq, Repr

def chunkSize : Nat := 64 * 1024

/-- **A read of at most `count` bytes at a position.** It may return fewer, as `short` has it, but none only
where there are none. -/
def readSync (short : Nat → Nat) (file : List UInt8) (position count : Nat) : List UInt8 :=
  (file.drop position).take (min count (max 1 (short position)))

/-- The reads that fill the buffer, with fuel for their number. -/
def readLoop (short : Nat → Nat) (file : List UInt8) (byteOffset bytesToRead : Nat) :
    Nat → Nat → List UInt8
  | 0, _ => []
  | fuel + 1, totalRead =>
    if totalRead < bytesToRead then
      let read := readSync short file (byteOffset + totalRead)
        (min chunkSize (bytesToRead - totalRead))
      if read = [] then []
      else read ++ readLoop short file byteOffset bytesToRead fuel (totalRead + read.length)
    else []

/-- What a scan of the buffer finds: the lines, how many of them are not blank, the offset behind the last of
them, and the bytes that are left. -/
structure Scan where
  lines : List TrackedLine
  lineCount : Nat
  committedOffset : Nat
  rest : List UInt8
  deriving DecidableEq, Repr

/-- **Take the complete lines off the buffer**, from an offset and a position among the lines. -/
def scanLines (content : List UInt8) (byteOffset lineIndex lineCount : Nat) : Scan :=
  match _taken : Framing.takeLine newlineOctet content with
  | none => ⟨[], lineCount, byteOffset, content⟩
  | some (line, rest) =>
    let text := decode line
    let later := scanLines rest (byteOffset + line.length + 1) (lineIndex + 1)
      (if text.length > 0 then lineCount + 1 else lineCount)
    { later with lines := ⟨text, byteOffset, lineIndex⟩ :: later.lines }
termination_by content.length
decreasing_by
  have shorter := congrArg List.length (Framing.takeLine_some _taken).2
  rw [List.length_append, List.length_cons] at shorter
  omega

/-- **One call**, with all that it finds. A file that cannot be opened leaves the state as it is. -/
def readLinesSinceDetailed (short : Nat → Nat) (live : Option (List UInt8))
    (state : IncrementalReadState) : ReadLinesDetailedResult :=
  match live with
  | none => { lines := [], state := state, eof := true, shrank := false, tornTail := false }
  | some file =>
    let fileSize := file.length
    if fileSize ≤ state.byteOffset then
      { lines := []
        state := { byteOffset := fileSize, lineCount := state.lineCount }
        eof := true
        shrank := fileSize < state.byteOffset
        tornTail := false }
    else
      let bytesToRead := fileSize - state.byteOffset
      let content := readLoop short file state.byteOffset bytesToRead bytesToRead 0
      let scan := scanLines content state.byteOffset 0 state.lineCount
      let eof := decide (fileSize ≤ scan.committedOffset)
      { lines := scan.lines
        state := { byteOffset := scan.committedOffset, lineCount := scan.lineCount }
        eof := eof
        shrank := false
        tornTail := !eof && decide ((trim (decode scan.rest)).length > 0) }

def readLinesSince (short : Nat → Nat) (live : Option (List UInt8)) (state : IncrementalReadState) :
    IncrementalReadResult :=
  let detailed := readLinesSinceDetailed short live state
  { lines := detailed.lines.map (·.text)
    state := detailed.state
    eof := detailed.eof
    shrank := detailed.shrank }

section

variable {short : Nat → Nat} {file : List UInt8} {byteOffset bytesToRead : Nat}

theorem readSync_progress {position count : Nat} (some : 0 < count) (inside : position < file.length) :
    ∃ taken, 0 < taken ∧ taken ≤ count ∧ taken ≤ file.length - position ∧
      readSync short file position count = (file.drop position).take taken ∧
      (readSync short file position count).length = taken := by
  refine ⟨min (min count (max 1 (short position))) (file.length - position), by omega, by omega,
    by omega, ?_, ?_⟩
  · rw [readSync, ← List.length_drop, List.take_eq_take_iff]
    omega
  · rw [readSync, List.length_take, List.length_drop]

theorem readLoop_eq (within : byteOffset + bytesToRead ≤ file.length) :
    ∀ fuel totalRead, bytesToRead ≤ totalRead + fuel → totalRead ≤ bytesToRead →
      readLoop short file byteOffset bytesToRead fuel totalRead
        = (file.drop (byteOffset + totalRead)).take (bytesToRead - totalRead) := by
  intro fuel
  induction fuel with
  | zero =>
    intro totalRead enough bound
    rw [show bytesToRead - totalRead = 0 by omega, List.take_zero]
    rfl
  | succ fuel ih =>
    intro totalRead enough bound
    rw [readLoop]
    by_cases more : totalRead < bytesToRead
    · have some : 0 < min chunkSize (bytesToRead - totalRead) := by
        have positive : 0 < chunkSize := by decide
        omega
      obtain ⟨taken, positive, fits, there, read, length⟩ :=
        @readSync_progress short file (byteOffset + totalRead) _ some (by omega)
      have nonempty : readSync short file (byteOffset + totalRead)
          (min chunkSize (bytesToRead - totalRead)) ≠ [] := by
        intro none
        rw [none] at length
        exact absurd length (Nat.ne_of_lt positive)
      dsimp only
      rw [if_pos more, if_neg nonempty, length, read, ih _ (by omega) (by omega)]
      have front : bytesToRead - totalRead = taken + (bytesToRead - (totalRead + taken)) := by omega
      rw [front, List.take_add, List.drop_drop]
      congr 3
      omega
    · rw [if_neg more, show bytesToRead - totalRead = 0 by omega, List.take_zero]

theorem readLoop_all (before : byteOffset ≤ file.length) :
    readLoop short file byteOffset (file.length - byteOffset) (file.length - byteOffset) 0
      = file.drop byteOffset := by
  rw [readLoop_eq (by omega) _ 0 (by omega) (by omega), Nat.add_zero, Nat.sub_zero,
    ← List.length_drop, List.take_length]

end

/-- The lines of some bytes with their offsets and positions. -/
def track : List (List UInt8) → Nat → Nat → List TrackedLine
  | [], _, _ => []
  | line :: rest, byteOffset, lineIndex =>
    ⟨decode line, byteOffset, lineIndex⟩ :: track rest (byteOffset + line.length + 1) (lineIndex + 1)

theorem complete_append (bytes : List UInt8) :
    complete bytes ++ Framing.tail newlineOctet bytes = bytes := complete_append_tail bytes

def countLines (lines : List (List UInt8)) : Nat := (lines.filter fun line => decode line ≠ []).length

/-- **What a scan finds**: the complete lines, and where they end. -/
theorem scanLines_eq (content : List UInt8) (byteOffset lineIndex lineCount : Nat) :
    scanLines content byteOffset lineIndex lineCount =
      { lines := track (Framing.lines newlineOctet content) byteOffset lineIndex
        lineCount := lineCount + countLines (Framing.lines newlineOctet content)
        committedOffset := byteOffset + (complete content).length
        rest := Framing.tail newlineOctet content } := by
  induction content, byteOffset, lineIndex, lineCount using scanLines.induct with
  | case1 content byteOffset lineIndex lineCount taken =>
    have apart := Framing.takeLine_none taken
    rw [scanLines, taken]
    dsimp only
    have whole : complete content = [] := by
      show Framing.written newlineOctet (Framing.lines newlineOctet content) = []
      rw [Framing.lines_of_not_mem apart]
      rfl
    rw [Framing.lines_of_not_mem apart, Framing.tail_of_not_mem apart, whole]
    rfl
  | case2 content byteOffset lineIndex lineCount line rest taken text ih =>
    obtain ⟨apart, split⟩ := Framing.takeLine_some taken
    have cut := Framing.cut_line_append apart rest
    have lines : Framing.lines newlineOctet content = line :: Framing.lines newlineOctet rest := by
      rw [split]
      exact congrArg Prod.fst cut
    have tail : Framing.tail newlineOctet content = Framing.tail newlineOctet rest := by
      rw [split]
      exact (congrArg Prod.snd cut :)
    have whole : (complete content).length = line.length + 1 + (complete rest).length := by
      show (Framing.written newlineOctet (Framing.lines newlineOctet content)).length = _
      rw [lines, Framing.written_cons, List.length_append, List.length_cons, Nat.add_assoc,
        Nat.add_comm 1]
      rfl
    have count : (if text.length > 0 then lineCount + 1 else lineCount)
          + countLines (Framing.lines newlineOctet rest)
        = lineCount + countLines (line :: Framing.lines newlineOctet rest) := by
      unfold countLines
      by_cases blank : decode line = []
      · rw [if_neg (by rw [show text = [] from blank]; exact Nat.lt_irrefl 0),
          List.filter_cons_of_neg (by simpa using blank)]
      · rw [if_pos (List.length_pos_of_ne_nil blank), List.filter_cons_of_pos (by simpa using blank),
          List.length_cons]
        omega
    rw [dite_eq_ite] at ih
    rw [scanLines, taken]
    dsimp only
    rw [ih, lines, tail, whole, ← count, track]
    simp only [Scan.mk.injEq, true_and, and_true]
    omega

theorem map_track (lines : List (List UInt8)) (byteOffset lineIndex : Nat) :
    (track lines byteOffset lineIndex).map (·.text) = lines.map decode := by
  induction lines generalizing byteOffset lineIndex with
  | nil => rfl
  | cons line lines ih => rw [track, List.map_cons, List.map_cons, ih]

theorem readLinesSince_eq (short : Nat → Nat) {file : List UInt8} {state : IncrementalReadState}
    (before : state.byteOffset ≤ file.length) :
    let content := file.drop state.byteOffset
    readLinesSince short (some file) state =
      { lines := (Framing.lines newlineOctet content).map decode
        state :=
          { byteOffset := state.byteOffset + (complete content).length
            lineCount := state.lineCount + countLines (Framing.lines newlineOctet content) }
        eof := decide (Framing.tail newlineOctet content = [])
        shrank := false } := by
  intro content
  unfold readLinesSince readLinesSinceDetailed
  dsimp only
  split
  · rename_i behind
    have same : state.byteOffset = file.length := Nat.le_antisymm before behind
    have none : content = [] := List.drop_eq_nil_of_le behind
    rw [none, same, decide_eq_false (Nat.lt_irrefl _)]
    rfl
  · rename_i more
    rw [readLoop_all before, scanLines_eq]
    dsimp only
    have parts := congrArg List.length (complete_append content)
    rw [List.length_append, show content.length = file.length - state.byteOffset from
      List.length_drop] at parts
    have ends : (file.length ≤ state.byteOffset + (complete content).length)
        ↔ Framing.tail newlineOctet content = [] := by
      rw [← List.length_eq_zero_iff]
      omega
    rw [map_track, decide_eq_decide.mpr ends]

section

/-- **A file that grows, and its reader**: what stands at the path, the state that the last call returned, and
the lines of all calls. -/
structure Growing where
  live : Option (List UInt8)
  state : IncrementalReadState := ⟨0, 0⟩
  delivered : List Text := []

/-- Some bytes are added to the file, which is there from then on; or the reader calls once more. -/
inductive GrowthStep where
  | grow (bytes : List UInt8)
  | read (short : Nat → Nat)

def Growing.bytes (growing : Growing) : List UInt8 := growing.live.getD []

def Growing.step (growing : Growing) : GrowthStep → Growing
  | .grow bytes => { growing with live := some (growing.bytes ++ bytes) }
  | .read short =>
    let result := readLinesSince short growing.live growing.state
    { growing with state := result.state, delivered := growing.delivered ++ result.lines }

def linesOf (bytes : List UInt8) : List Text := (Framing.lines newlineOctet bytes).map decode

/-- **What was delivered are the lines in front of the offset**, which stands behind a complete line. -/
structure Sound (growing : Growing) (front rest : List UInt8) : Prop where
  split : growing.bytes = front ++ rest
  offset : growing.state.byteOffset = front.length
  whole : Framing.tail newlineOctet front = []
  delivered : growing.delivered = linesOf front
  count : growing.state.lineCount = countLines (Framing.lines newlineOctet front)

variable {growing : Growing} {front rest : List UInt8}

theorem linesOf_append (whole : Framing.tail newlineOctet front = []) (rest : List UInt8) :
    linesOf (front ++ rest) = linesOf front ++ linesOf rest := by
  rw [linesOf, Framing.lines_append, whole, List.nil_append, List.map_append]
  rfl

theorem linesOf_complete (bytes : List UInt8) : linesOf (complete bytes) = linesOf bytes := by
  have none : Framing.lines newlineOctet [] = [] := rfl
  have whole := Framing.lines_written (@Framing.not_mem_lines _ _ newlineOctet bytes) []
  rw [none, List.append_nil, List.append_nil] at whole
  exact congrArg (List.map decode) whole

theorem countLines_append (lines others : List (List UInt8)) :
    countLines (lines ++ others) = countLines lines + countLines others := by
  rw [countLines, List.filter_append, List.length_append]
  rfl

/-- **A call takes the complete lines behind the offset.** -/
theorem sound_read (sound : Sound growing front rest) (short : Nat → Nat) :
    Sound (growing.step (.read short)) (front ++ complete rest) (Framing.tail newlineOctet rest) := by
  have split : (growing.step (.read short)).bytes
      = front ++ complete rest ++ Framing.tail newlineOctet rest := by
    rw [List.append_assoc]
    exact sound.split.trans (congrArg _ (complete_append rest).symm)
  have whole : Framing.tail newlineOctet (front ++ complete rest) = [] := by
    rw [Framing.tail_append, sound.whole, List.nil_append]
    exact tail_complete rest
  have lines : Framing.lines newlineOctet (front ++ complete rest)
      = Framing.lines newlineOctet front ++ Framing.lines newlineOctet rest := by
    have none : Framing.lines newlineOctet [] = [] := rfl
    have written := Framing.lines_written (@Framing.not_mem_lines _ _ newlineOctet rest) []
    rw [none, List.append_nil, List.append_nil] at written
    rw [Framing.lines_append, sound.whole, List.nil_append]
    exact congrArg _ written
  cases there : growing.live with
  | none =>
    have nothing : front = [] ∧ rest = [] := by
      have empty := sound.split
      rw [Growing.bytes, there] at empty
      exact List.append_eq_nil_iff.mp empty.symm
    obtain ⟨rfl, rfl⟩ := nothing
    have same : growing.step (.read short) = growing := by
      obtain ⟨live, state, delivered⟩ := growing
      cases there
      exact congrArg (Growing.mk none state) (List.append_nil _)
    rw [same]
    exact sound
  | some file =>
    have bytes : file = front ++ rest := by
      have parts := sound.split
      rwa [Growing.bytes, there] at parts
    have before : growing.state.byteOffset ≤ file.length := by
      rw [bytes, sound.offset, List.length_append]
      exact Nat.le_add_right _ _
    have call := readLinesSince_eq short before
    rw [show file.drop growing.state.byteOffset = rest by
      rw [bytes, sound.offset, List.drop_left]] at call
    refine ⟨split, ?_, whole, ?_, ?_⟩
    · show (readLinesSince short growing.live growing.state).state.byteOffset = _
      rw [there, call, sound.offset, List.length_append]
    · show growing.delivered ++ (readLinesSince short growing.live growing.state).lines = _
      rw [there, call, sound.delivered, linesOf, linesOf, lines, List.map_append]
    · show (readLinesSince short growing.live growing.state).state.lineCount = _
      rw [there, call, sound.count, lines, countLines_append]

/-- **The invariant over every step.** -/
theorem sound_step (sound : ∃ front rest, Sound growing front rest) (step : GrowthStep) :
    ∃ front rest, Sound (growing.step step) front rest := by
  obtain ⟨front, rest, sound⟩ := sound
  cases step with
  | grow bytes =>
    refine ⟨front, rest ++ bytes, ?_, sound.offset, sound.whole, sound.delivered, sound.count⟩
    show growing.bytes ++ bytes = _
    rw [sound.split, List.append_assoc]
  | read short => exact ⟨_, _, sound_read sound short⟩

/-- **Each complete line is delivered once, in order**, however a file grows and whenever it is read: after a
call, what all calls have returned are the complete lines of the file, and of its text, if it is UTF-8. -/
theorem growth_delivers (live : Option (List UInt8)) (steps : List GrowthStep) (short : Nat → Nat) :
    let growing := Runs.finish Growing.step { live := live } (steps ++ [.read short])
    growing.delivered = linesOf growing.bytes ∧
      ∀ text, Paired text → growing.bytes = encode text →
        growing.delivered = Framing.lines newlineUnit text := by
  intro growing
  have start : Sound { live := live } [] (live.getD []) := ⟨rfl, rfl, rfl, rfl, rfl⟩
  have keeps : ∀ growing step, (∃ front rest, Sound growing front rest) →
      ∃ front rest, Sound (growing.step step) front rest := fun _ step sound => sound_step sound step
  obtain ⟨front, rest, sound⟩ := Runs.finish_keeps Growing.step keeps ⟨[], live.getD [], start⟩ steps
  have last : growing = (Runs.finish Growing.step { live := live } steps).step (.read short) :=
    List.foldl_concat _ _ _ _
  have called := sound_read sound short
  have all : growing.delivered = linesOf growing.bytes := by
    have parts := called.split
    rw [List.append_assoc, complete_append] at parts
    rw [last, called.delivered, parts, linesOf_append sound.whole, linesOf_append sound.whole,
      linesOf_complete]
  refine ⟨all, fun text paired encoded => ?_⟩
  rw [all, encoded]
  exact decode_lines paired

theorem growth_delivers_cut :
    (Runs.finish Growing.step { live := none }
        ([.grow [0xC3], .read id, .grow [0xA9, newlineOctet]] ++ [.read id])).delivered
      = Framing.lines newlineUnit [0xE9, newlineUnit] :=
  (growth_delivers none [.grow [0xC3], .read id, .grow [0xA9, newlineOctet]] id).2
    [0xE9, newlineUnit] (paired_of_all (by decide)) rfl

end

end PiCrew.EventLog.IncrementalReader
