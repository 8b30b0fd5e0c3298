/-
**A log is read chunk by chunk.**

`state/event-log/event-log-rotation.ts`. `forEachLineSync` reads the log with a buffer of 8 KiB, decodes each
chunk for itself, and hands the complete lines that are not blank to its callback; compaction reads the events it
keeps so, and writes each of them anew. A character of which a read has only the first octets is lost: the chunk
ends in U+FFFD, and the rest of the character is read as more of them.

* `rewrites_kept` — then a compaction writes the lines it keeps as they stand, if they stand there as
  `JSON.stringify` writes them.
-/

import PiCrew.EventLog.Compaction
import PiCrew.Library.Framing
import PiCrew.Library.Utf8Chunks
import PiCrew.Mailbox.Signature

namespace PiCrew.EventLog.LineReader

open JsonText Utf8

section

def newline : UInt16 := 0x0A

def chunkSize : Nat := 8192

/-- **What the reads of a file returned**, up to the one that returned nothing: a read returns some bytes,
and no more than the buffer has room for. -/
structure Reads (bytes : List UInt8) where
  chunks : List (List UInt8)
  sized : ∀ chunk ∈ chunks, 0 < chunk.length ∧ chunk.length ≤ chunkSize
  whole : chunks.flatten = bytes

def Reads.CutsCharacter {bytes : List UInt8} (reads : Reads bytes) : Prop :=
  ∃ chunk ∈ reads.chunks, StartsInside chunk

/-- **Take the complete lines off**: the lines for the callback, and the line that is left over. -/
def takeLines (leftover : Text) : List Text × Text :=
  ((Framing.lines newline leftover).filter (· ≠ []), Framing.tail newline leftover)

def readFrom (leftover : Text) : List (List UInt8) → List Text
  | [] => if leftover = [] then [] else [leftover]
  | chunk :: rest =>
    let taken := takeLines (leftover ++ decode chunk)
    taken.1 ++ readFrom taken.2 rest

/-- **The lines that the callback gets.** -/
def forEachLineSync {bytes : List UInt8} (reads : Reads bytes) : List Text := readFrom [] reads.chunks

def fileLines (text : Text) : List Text := Framing.lines newline text ++
    if Framing.tail newline text = [] then [] else [Framing.tail newline text]

variable (ν : Type) [NumberFormat ν]

/-- A line as `readLastEvents` takes it. -/
def event (line : Text) : Lines.Line (Value ν) := { value := parse line, bytes := line.length }

def joinLines (lines : List Text) : Text := List.intercalate [newline] lines ++ [newline]

/-- **What a compaction would write**: nothing, if there are no more events than it may keep. -/
def compactedLines {bytes : List UInt8} (reads : Reads bytes) (compactToCount : Nat) : Option Text :=
  let last := readLastEvents ((forEachLineSync reads).map (event ν)) compactToCount
  if last.2 ≤ compactToCount then none else some (joinLines (last.1.map stringify))

end

section

variable {bytes : List UInt8}

/-- **The callback gets the lines of the file**, blank ones apart. -/
def Delivers (reads : Reads bytes) : Prop :=
  forEachLineSync reads = (fileLines (decode bytes)).filter (· ≠ [])

def eventLines (ν : Type) [NumberFormat ν] (text : Text) : List Text :=
  (fileLines text).filter fun line => (parse line : Option (Value ν)).isSome

def Written (ν : Type) [NumberFormat ν] (text : Text) : Prop :=
  ∀ line ∈ fileLines text, ∀ value : Value ν, parse line = some value → stringify value = line

/-- **A compaction writes the lines it keeps byte for byte**: the last of the lines that are events. -/
def RewritesKept (ν : Type) [NumberFormat ν] (reads : Reads bytes) : Prop :=
  Written ν (decode bytes) → ∀ compactToCount, 0 < compactToCount →
    compactToCount < (eventLines ν (decode bytes)).length →
      (compactedLines ν reads compactToCount).map encode = some (encode (Framing.written newline
            (Ring.newest compactToCount (eventLines ν (decode bytes)))))

end

theorem fileLines_append (front rest : Text) : fileLines (front ++ rest)
      = Framing.lines newline front ++ fileLines (Framing.tail newline front ++ rest) := by
  unfold fileLines
  rw [Framing.lines_append, Framing.tail_append, List.append_assoc]

theorem fileLines_open {text : Text} (apart : newline ∉ text) :
    fileLines text = if text = [] then [] else [text] := by
  unfold fileLines
  rw [Framing.lines_of_not_mem apart, Framing.tail_of_not_mem apart, List.nil_append]

theorem readFrom_eq {leftover : Text} (apart : newline ∉ leftover) (chunks : List (List UInt8)) :
    readFrom leftover chunks = (fileLines (leftover ++ chunks.flatMap decode)).filter (· ≠ []) := by
  induction chunks generalizing leftover with
  | nil =>
    rw [List.flatMap_nil, List.append_nil, fileLines_open apart, readFrom]
    by_cases blank : leftover = []
    · rw [if_pos blank]
      rfl
    · rw [if_neg blank, List.filter_singleton, decide_eq_true blank]
      rfl
  | cons chunk rest ih =>
    rw [readFrom, List.flatMap_cons, ← List.append_assoc, fileLines_append, List.filter_append]
    exact congrArg _ (ih (Framing.not_mem_tail _))

theorem forEachLineSync_eq {bytes : List UInt8} (reads : Reads bytes) :
    forEachLineSync reads = (fileLines (reads.chunks.flatMap decode)).filter (· ≠ []) :=
  readFrom_eq List.not_mem_nil _

theorem replacements_written (lines : List Text) :
    replacements (Framing.written newline lines) = replacements lines.flatten := by
  induction lines with
  | nil => rfl
  | cons line lines ih =>
    rw [Framing.written_cons, List.flatten_cons, replacements_append, replacements_append, ← ih]
    exact congrArg _ (List.count_cons_of_ne (by decide))

theorem flatten_filter (lines : List Text) : (lines.filter (· ≠ [])).flatten = lines.flatten := by
  induction lines with
  | nil => rfl
  | cons line lines ih =>
    by_cases blank : line = []
    · rw [List.filter_cons_of_neg (by simpa using blank), ih, blank]
      rfl
    · rw [List.filter_cons_of_pos (by simpa using blank), List.flatten_cons, List.flatten_cons, ih]

theorem replacements_handed (text : Text) :
    replacements ((fileLines text).filter (· ≠ [])).flatten = replacements text := by
  have last : (if Framing.tail newline text = [] then [] else [Framing.tail newline text]).flatten
      = Framing.tail newline text := by
    split
    · rename_i blank
      exact blank.symm
    · exact List.flatten_singleton
  conv_rhs => rw [← Framing.written_lines newline text, replacements_append, replacements_written]
  rw [flatten_filter, fileLines, List.flatten_append, last, replacements_append]

section

variable {bytes : List UInt8}

theorem delivers_iff (valid : WellFormed none bytes) (reads : Reads bytes) :
    Delivers reads ↔ ¬ reads.CutsCharacter := by
  have whole : WellFormed none reads.chunks.flatten := by rwa [reads.whole]
  rw [Delivers, forEachLineSync_eq]
  constructor
  · intro same cut
    have more := replacements_lt whole cut
    have equal := congrArg (fun lines => replacements lines.flatten) same
    simp only [replacements_handed] at equal
    rw [reads.whole] at more
    exact Nat.ne_of_gt more equal
  · intro apart
    have pieces := flatMap_decode whole fun chunk member inside => apart ⟨chunk, member, inside⟩
    rw [pieces, reads.whole]

theorem delivers_all_iff (valid : WellFormed none bytes) (reads : Reads bytes) :
    forEachLineSync reads = fileLines (decode bytes)
      ↔ ¬ reads.CutsCharacter ∧ ∀ line ∈ fileLines (decode bytes), line ≠ [] := by
  rw [← delivers_iff valid reads]
  have filtered : ((fileLines (decode bytes)).filter (· ≠ []) = fileLines (decode bytes))
      ↔ ∀ line ∈ fileLines (decode bytes), line ≠ [] := by
    rw [List.filter_eq_self]
    exact forall₂_congr fun line _ => decide_eq_true_iff
  rw [← filtered]
  constructor
  · intro same
    have handed : (fileLines (decode bytes)).filter (· ≠ []) = fileLines (decode bytes) := by
      rw [← same, forEachLineSync_eq, List.filter_filter]
      exact List.filter_congr fun line _ => Bool.and_self _
    exact ⟨same.trans handed.symm, handed⟩
  · rintro ⟨same, handed⟩
    exact same.trans handed

variable (ν : Type) [NumberFormat ν]

theorem parse_blank : (parse [] : Option (Value ν)) = none := rfl

theorem values_handed (lines : List Text) :
    Lines.values ((lines.filter (· ≠ [])).map (event ν)) = lines.filterMap parse := by
  rw [Lines.values, List.filterMap_map]
  induction lines with
  | nil => rfl
  | cons line lines ih =>
    by_cases blank : line = []
    · rw [List.filter_cons_of_neg (by simpa using blank), ih, blank,
        List.filterMap_cons_none (parse_blank ν)]
    · rw [List.filter_cons_of_pos (by simpa using blank), List.filterMap_cons,
        List.filterMap_cons, ih]
      rfl

theorem stringify_events {lines : List Text}
    (written : ∀ line ∈ lines, ∀ value : Value ν, parse line = some value → stringify value = line) :
    (lines.filterMap (parse : Text → Option (Value ν))).map stringify
      = lines.filter fun line => (parse line : Option (Value ν)).isSome := by
  induction lines with
  | nil => rfl
  | cons line lines ih =>
    obtain ⟨here, others⟩ := List.forall_mem_cons.mp written
    cases read : (parse line : Option (Value ν)) with
    | none =>
      rw [List.filterMap_cons_none read, List.filter_cons_of_neg (by rw [read]; exact Bool.false_ne_true),
        ih others]
    | some value =>
      rw [List.filterMap_cons_some read, List.filter_cons_of_pos (by rw [read]; rfl),
        List.map_cons, here value read, ih others]

theorem joinLines_eq {lines : List Text} (some : lines ≠ []) :
    joinLines lines = Framing.written newline lines := by
  induction lines with
  | nil => exact absurd rfl some
  | cons line lines ih =>
    cases lines with
    | nil =>
      rw [joinLines, List.intercalate_singleton, Framing.written_cons]
      rfl
    | cons next lines =>
      have rest := ih (List.cons_ne_nil _ _)
      rw [joinLines] at rest
      rw [joinLines, List.intercalate_cons_cons, Framing.written_cons, ← rest,
        List.append_assoc, List.append_assoc]
      rfl

theorem newline_not_mem (value : Value ν) : newline ∉ stringify value :=
  fun member => absurd (printed_stringify value newline member) (by decide)

theorem written_appended (events : List (Value ν)) :
    Written ν (Framing.written newline (events.map stringify)) := by
  have apart : ∀ line ∈ events.map stringify, newline ∉ line := by
    intro line member
    obtain ⟨value, -, rfl⟩ := List.mem_map.mp member
    exact newline_not_mem ν value
  have lines : fileLines (Framing.written newline (events.map stringify)) = events.map stringify := by
    have cut := Framing.cut_written apart []
    rw [List.append_nil] at cut
    unfold fileLines Framing.lines Framing.tail
    rw [cut]
    exact (List.append_nil _).trans (List.append_nil _)
  intro line member value read
  rw [lines] at member
  obtain ⟨appended, -, rfl⟩ := List.mem_map.mp member
  rw [parse_stringify] at read
  rw [← Option.some.inj read, stringify_plain]

/-- **A compaction writes the lines it keeps as they stand**, if it read the lines of the file. -/
theorem rewrites_kept {reads : Reads bytes} (delivers : Delivers reads) : RewritesKept ν reads := by
  intro written compactToCount positive fewer
  have events : Lines.values ((forEachLineSync reads).map (event ν))
      = (fileLines (decode bytes)).filterMap parse := by
    rw [delivers, values_handed]
  have lines : ((fileLines (decode bytes)).filterMap (parse : Text → Option (Value ν))).map stringify
      = eventLines ν (decode bytes) := stringify_events ν written
  have count : ((fileLines (decode bytes)).filterMap (parse : Text → Option (Value ν))).length
      = (eventLines ν (decode bytes)).length := by
    rw [← lines, List.length_map]
  have kept : ((Ring.newest compactToCount
      ((fileLines (decode bytes)).filterMap (parse : Text → Option (Value ν)))).map stringify)
        = Ring.newest compactToCount (eventLines ν (decode bytes)) := by
    rw [Ring.newest, List.map_drop, lines, count]
    rfl
  have some : Ring.newest compactToCount (eventLines ν (decode bytes)) ≠ [] := by
    intro none
    have length := congrArg List.length none
    rw [Ring.newest, List.length_drop, List.length_nil] at length
    omega
  unfold compactedLines
  rw [readLastEvents_eq, events]
  dsimp only
  rw [if_neg (by omega), kept, joinLines_eq some]
  rfl

end

def Valid (bytes : List UInt8) : Prop := ∃ text, Paired text ∧ encode text = bytes

theorem Valid.wellFormed {bytes : List UInt8} (valid : Valid bytes) : WellFormed none bytes := by
  obtain ⟨text, paired, rfl⟩ := valid
  exact wellFormed_encode paired

/-- **A log is read exactly if and only if no read begins inside a character.** Its lines are handed on,
blank ones apart, and a compaction writes those it keeps byte for byte. Where the file has blank lines, the
lines that are handed on are never all of them. -/
theorem log_read_exactly_iff (ν : Type) [NumberFormat ν] {bytes : List UInt8} (valid : Valid bytes)
    (reads : Reads bytes) :
    (Delivers reads ∧ RewritesKept ν reads ↔ ¬ reads.CutsCharacter) ∧
      (forEachLineSync reads = fileLines (decode bytes)
        ↔ ¬ reads.CutsCharacter ∧ ∀ line ∈ fileLines (decode bytes), line ≠ []) := by
  refine ⟨?_, delivers_all_iff valid.wellFormed reads⟩
  rw [← delivers_iff valid.wellFormed reads]
  exact ⟨And.left, fun delivers => ⟨delivers, rewrites_kept ν delivers⟩⟩

def oneRead : Reads (encode [0x22, 0xE9, 0x22, newline]) where
  chunks := [[0x22, 0xC3, 0xA9, 0x22, 0x0A]]
  sized := by decide
  whole := by decide

theorem one_read_exact :
    (Delivers oneRead ∧ RewritesKept (Fin 10) oneRead ↔ ¬ oneRead.CutsCharacter) ∧
      (forEachLineSync oneRead = fileLines (decode (encode [0x22, 0xE9, 0x22, newline]))
        ↔ ¬ oneRead.CutsCharacter ∧
          ∀ line ∈ fileLines (decode (encode [0x22, 0xE9, 0x22, newline])), line ≠ []) :=
  log_read_exactly_iff (Fin 10) ⟨_, paired_of_all (by decide), rfl⟩ oneRead

def longLine : Text := List.replicate 8191 0x61 ++ [0xE9, newline]

theorem longLine_low : ∀ unit ∈ longLine, unit < 0xD800 := by
  intro unit member
  rcases List.mem_append.mp member with letter | last
  · rw [List.eq_of_mem_replicate letter]
    decide
  · rcases List.mem_cons.mp last with rfl | last
    · decide
    · rw [List.mem_singleton.mp last]
      decide

theorem encode_letters (count : Nat) (rest : Text) :
    encode (List.replicate count 0x61 ++ rest) = List.replicate count 0x61 ++ encode rest := by
  induction count with
  | zero => rfl
  | succ count ih =>
    rw [List.replicate_succ, List.replicate_succ, List.cons_append, List.cons_append,
      encode_alone (by decide), ih]
    rfl

/-- Its reads: the first one ends between the two octets. -/
def longReads : Reads (encode longLine) where
  chunks := [List.replicate 8191 0x61 ++ [0xC3], [0xA9, 0x0A]]
  sized := by
    intro chunk member
    rcases List.mem_cons.mp member with rfl | last
    · rw [List.length_append, List.length_replicate]
      decide
    · rw [List.mem_singleton.mp last]
      decide
  whole := by
    rw [longLine, encode_letters, List.flatten_cons, List.append_assoc]
    exact congrArg _ (by decide)

/-- **A letter of two octets at the end of the buffer**: the one line of the file is handed on as
another. -/
theorem long_line_read_apart :
    fileLines (decode (encode longLine)) = [List.replicate 8191 0x61 ++ [0xE9]] ∧
      forEachLineSync longReads ≠ [List.replicate 8191 0x61 ++ [0xE9]] := by
  have paired : Paired longLine := paired_of_low longLine_low
  have apart : newline ∉ List.replicate 8191 (0x61 : UInt16) ++ [0xE9] := by
    intro member
    rcases List.mem_append.mp member with letter | last
    · exact absurd (List.eq_of_mem_replicate letter) (by decide)
    · exact absurd last (by decide)
  have split : longLine = (List.replicate 8191 0x61 ++ [0xE9]) ++ newline :: [] := by
    rw [List.append_assoc]
    rfl
  have line : fileLines (decode (encode longLine)) = [List.replicate 8191 0x61 ++ [0xE9]] := by
    rw [decode_encode paired, split, fileLines, Framing.lines, Framing.tail,
      Framing.cut_line_append apart]
    rfl
  refine ⟨line, fun same => ?_⟩
  have delivers := (delivers_all_iff (wellFormed_encode paired) longReads).mp (same.trans line.symm)
  exact delivers.1 ⟨_, List.mem_cons_of_mem _ List.mem_cons_self, 0xA9, rfl, by decide⟩

end PiCrew.EventLog.LineReader
