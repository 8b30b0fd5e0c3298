/-
**Markers of lines that do not parse.**

`state/event-log/poison-marker.ts`, with the readers of `utils/incremental-reader.ts` and `cursor.ts`. A complete
line that does not parse is marked in a sidecar by its byte offset, and passed by from then on. A read parses the
marked lines that it comes by once more: one that parses is delivered, and its marker is taken out. With more than
1000 markers, counted before the healed ones are taken out, the file is put away:

* `quarantined_iff` — the count: the offsets of lines that do not parse, and the markers beside them;
* `quarantine_exact_iff` — so a file is put away for its broken lines alone if and only if at each read the other
  markers do not make the difference;
* `repaired_file_quarantined` — 1000 broken lines that are repaired, and one more.

The sidecar is the list of its markers, and an error of a file operation is left out.
-/

import PiCrew.EventLog.IncrementalReader
import Mathlib.Data.Finset.Card

namespace PiCrew.EventLog.PoisonMarkers

open JsonText Utf8
open PiCrew.AgentRecords (IncrementalReadState)
open PiCrew.EventLog.IncrementalReader
open PiCrew.EventLog.LogStats (trim)

section

structure JsonlParseFailure where
  byteOffset : Nat
  lineIndex : Int
  reason : String
  deriving DecidableEq, Repr

structure Classified (ν : Type) where
  items : List (Value ν) := []
  poisonSkipped : Nat := 0
  failures : List JsonlParseFailure := []
  staleMarkerOffsets : List Nat := []

variable {ν : Type} [NumberFormat ν]

def parseLine (text : Text) : Option (Value ν) :=
  if trim text = [] then none else parse (trim text)

/-- **Go through the lines.** A marked one that parses is healed. -/
def classify (complaint : Text → String) (poisonOffsets : List Nat) (lineIndex : TrackedLine → Int) :
    List TrackedLine → Classified ν
  | [] => {}
  | line :: rest =>
    let later := classify complaint poisonOffsets lineIndex rest
    if line.byteOffset ∈ poisonOffsets then
      match parseLine line.text with
      | some value =>
        { later with
          items := value :: later.items
          staleMarkerOffsets := line.byteOffset :: later.staleMarkerOffsets }
      | none => { later with poisonSkipped := later.poisonSkipped + 1 }
    else if trim line.text = [] then later
    else
      match parseLine line.text with
      | some value => { later with items := value :: later.items }
      | none =>
        { later with
          failures := ⟨line.byteOffset, lineIndex line, complaint (trim line.text)⟩
            :: later.failures }

def parseJsonlWindow (complaint : Text → String) (buf : List UInt8) (baseOffset : Nat)
    (poisonOffsets : List Nat) : Classified ν :=
  classify complaint poisonOffsets (fun line => line.lineIndex) (scanLines buf baseOffset 0 0).lines

/-- What stands behind an offset, and whether the file is shorter. -/
def readJsonlSince (complaint : Text → String) (short : Nat → Nat) (file : List UInt8)
    (state : IncrementalReadState) (poisonOffsets : List Nat) : Classified ν × Bool :=
  let detailed := readLinesSinceDetailed short (some file) state
  (classify complaint poisonOffsets
    (fun line => if state.byteOffset = 0 then (line.lineIndex : Int) else -1) detailed.lines,
    detailed.shrank)

def readJsonlTail (complaint : Text → String) (file : List UInt8) (tailBytes : Nat)
    (poisonOffsets : List Nat) : Classified ν :=
  if file.length = 0 ∨ tailBytes = 0 then {}
  else
    let startOffset := file.length - tailBytes
    let buf := file.drop startOffset
    if 0 < startOffset then
      match Framing.takeLine newlineOctet buf with
      | none => {}
      | some (line, rest) =>
        classify complaint poisonOffsets (fun _ => -1)
          (scanLines rest (startOffset + line.length + 1) 0 0).lines
    else parseJsonlWindow complaint buf startOffset poisonOffsets

end

structure PoisonMarkerEntry where
  lineIndex : Int
  byteOffset : Nat
  reason : String
  firstSeen : String
  deriving DecidableEq, Repr

def poisonMarkerCap : Nat := 1000

def isStalePoisonMarker (entry : PoisonMarkerEntry) (lineCount : Option Nat) (fileSize : Nat) : Bool :=
  (decide (0 ≤ entry.lineIndex) && lineCount.any fun count => decide ((count : Int) ≤ entry.lineIndex))
    || decide (fileSize ≤ entry.byteOffset)

def activeMarkers (sidecar : List PoisonMarkerEntry) (lineCount : Option Nat) (fileSize : Nat) :
    List PoisonMarkerEntry :=
  sidecar.filter fun entry => !isStalePoisonMarker entry lineCount fileSize

def planPoisonSkip (sidecar : List PoisonMarkerEntry) (fileSize : Nat) (lineCount : Option Nat) :
    List Nat :=
  (activeMarkers sidecar lineCount fileSize).map (·.byteOffset)

/-- The failures whose offsets are not marked, each offset once. -/
def freshFailures (activeOffsets : List Nat) :
    List Nat → List JsonlParseFailure → List JsonlParseFailure
  | _, [] => []
  | seenOffsets, failure :: rest =>
    if failure.byteOffset ∈ activeOffsets ∨ failure.byteOffset ∈ seenOffsets then
      freshFailures activeOffsets seenOffsets rest
    else failure :: freshFailures activeOffsets (failure.byteOffset :: seenOffsets) rest

def persistPoisonMarkers (existing kept newEntries : List PoisonMarkerEntry) : List PoisonMarkerEntry :=
  if kept.length = existing.length then existing ++ newEntries else kept ++ newEntries

/-- **Record what a read found**: whether the file is put away, and the sidecar after it. -/
def commitPoisonFindings (sidecar : List PoisonMarkerEntry) (fileSize : Nat) (lineCount : Option Nat)
    (failures : List JsonlParseFailure) (staleMarkerOffsets : List Nat) (now : String) :
    Bool × List PoisonMarkerEntry :=
  let active := activeMarkers sidecar lineCount fileSize
  if active.length > poisonMarkerCap then (true, [])
  else
    let fresh := freshFailures (active.map (·.byteOffset)) [] failures
    if active.length + fresh.length > poisonMarkerCap then (true, [])
    else
      let kept := active.filter fun entry => entry.byteOffset ∉ staleMarkerOffsets
      if fresh.length = 0 ∧ staleMarkerOffsets.length = 0 then (false, sidecar)
      else
        (false, persistPoisonMarkers sidecar kept (fresh.map fun failure =>
          { lineIndex := failure.lineIndex, byteOffset := failure.byteOffset
            reason := failure.reason, firstSeen := now }))

section

variable (ν : Type) [NumberFormat ν] (complaint : Text → String)

structure PoisonedLog where
  live : Option (List UInt8)
  sidecar : List PoisonMarkerEntry := []

/-- The ways to read a log: all of it, its last bytes, or what stands behind an offset. -/
inductive Read where
  | full
  | tail (tailBytes : Nat)
  | since (byteOffset : Nat) (short : Nat → Nat)

/-- What happens next: the log is appended to, rewritten or taken away, others write the sidecar, or the log is
read. -/
inductive LogStep where
  | write (live : Option (List UInt8))
  | mark (sidecar : List PoisonMarkerEntry)
  | read (read : Read) (now : String)

def Read.lineCount (file : List UInt8) : Read → Option Nat
  | .full => some (Framing.lines newlineOctet file).length
  | _ => none

def Read.findings (sidecar : List PoisonMarkerEntry) (file : List UInt8) (read : Read) : Classified ν :=
  let poisonOffsets := planPoisonSkip sidecar file.length (read.lineCount file)
  match read with
  | .full => parseJsonlWindow complaint file 0 poisonOffsets
  | .tail tailBytes => readJsonlTail complaint file tailBytes poisonOffsets
  | .since byteOffset short =>
    let found : Classified ν × Bool :=
      readJsonlSince complaint short file ⟨byteOffset, 0⟩ poisonOffsets
    -- an offset behind the end: the file was rotated, and is read from its front
    if found.2 then (readJsonlSince complaint short file ⟨0, 0⟩ poisonOffsets).1 else found.1

/-- What a read comes to: whether the file is put away, and the sidecar after it. -/
def Read.commit (sidecar : List PoisonMarkerEntry) (file : List UInt8) (read : Read) (now : String) :
    Bool × List PoisonMarkerEntry :=
  let found : Classified ν := read.findings ν complaint sidecar file
  commitPoisonFindings sidecar file.length (read.lineCount file) found.failures
    found.staleMarkerOffsets now

def PoisonedLog.step (log : PoisonedLog) : LogStep → PoisonedLog
  | .write live => { log with live := live }
  | .mark sidecar => { log with sidecar := sidecar }
  | .read read now =>
    match log.live with
    | none => log
    | some file =>
      let committed := read.commit ν complaint log.sidecar file now
      { live := if committed.1 then none else some file, sidecar := committed.2 }

end

section

variable (ν : Type) [NumberFormat ν] (complaint : Text → String)

/-- **An offset points at a line that does not parse.** -/
def PointsAtBroken (file : List UInt8) (offset : Nat) : Prop :=
  ∃ line rest, Framing.takeLine newlineOctet (file.drop offset) = some (line, rest) ∧
    (parseLine (decode line) : Option (Value ν)) = none

open Classical in
/-- Those of some offsets that point at lines that do not parse. -/
noncomputable def brokenOf (file : List UInt8) (offsets : List Nat) : Finset Nat :=
  offsets.toFinset.filter (PointsAtBroken ν file)

def recorded (sidecar : List PoisonMarkerEntry) (file : List UInt8) (read : Read) : List Nat :=
  planPoisonSkip sidecar file.length (read.lineCount file) ++
    (read.findings ν complaint sidecar file).failures.map (·.byteOffset)

/-- How many recorded offsets point at lines that do not parse. -/
noncomputable def brokenCount (sidecar : List PoisonMarkerEntry) (file : List UInt8) (read : Read) : Nat :=
  (brokenOf ν file (recorded ν complaint sidecar file read)).card

/-- How many markers there are beside: healed ones, ones at no line, and ones for an offset that has another. -/
noncomputable def otherMarkers (sidecar : List PoisonMarkerEntry) (file : List UInt8) (read : Read) : Nat :=
  let offsets := planPoisonSkip sidecar file.length (read.lineCount file)
  offsets.length - (brokenOf ν file offsets).card

/-- **A read puts the file away only for more broken lines than the cap.** -/
def QuarantinesBroken (log : PoisonedLog) : LogStep → Prop
  | .read read now => ∀ file ∈ log.live, (read.commit ν complaint log.sidecar file now).1 = true →
      poisonMarkerCap < brokenCount ν complaint log.sidecar file read
  | _ => True

/-- **The other markers make no difference**: with them the broken lines are within the cap, or they are over it
by themselves. -/
def OthersWithin (log : PoisonedLog) : LogStep → Prop
  | .read read _ => ∀ file ∈ log.live,
      brokenCount ν complaint log.sidecar file read + otherMarkers ν log.sidecar file read
          ≤ poisonMarkerCap ∨
        poisonMarkerCap < brokenCount ν complaint log.sidecar file read
  | _ => True

end

section

variable {ν : Type} [NumberFormat ν] {complaint : Text → String}

theorem mem_scanLines (content : List UInt8) (byteOffset lineIndex lineCount : Nat) :
    ∀ tracked ∈ (scanLines content byteOffset lineIndex lineCount).lines,
      byteOffset ≤ tracked.byteOffset ∧ ∃ line rest,
        Framing.takeLine newlineOctet (content.drop (tracked.byteOffset - byteOffset)) = some (line, rest) ∧
          tracked.text = decode line := by
  induction content, byteOffset, lineIndex, lineCount using scanLines.induct with
  | case1 content byteOffset lineIndex lineCount taken =>
    intro tracked member
    rw [scanLines, taken] at member
    cases member
  | case2 content byteOffset lineIndex lineCount line rest taken text ih =>
    intro tracked member
    rw [dite_eq_ite] at ih
    rw [scanLines, taken] at member
    dsimp only at member
    rcases List.mem_cons.mp member with rfl | later
    · refine ⟨Nat.le_refl _, line, rest, ?_, rfl⟩
      rw [Nat.sub_self, List.drop_zero, taken]
    · obtain ⟨behind, found, more, there, same⟩ := ih tracked later
      refine ⟨by omega, found, more, ?_, same⟩
      rw [← there, (Framing.takeLine_some taken).2]
      have past : tracked.byteOffset - byteOffset
          = (line ++ [newlineOctet]).length + (tracked.byteOffset - (byteOffset + line.length + 1)) := by
        rw [List.length_append, List.length_singleton]
        omega
      rw [past, ← List.drop_drop, List.append_cons line newlineOctet rest, List.drop_left]

variable {poisonOffsets : List Nat} {failure : JsonlParseFailure}

theorem mem_failures {lineIndex : TrackedLine → Int} {lines : List TrackedLine}
    (member : failure ∈ (classify complaint poisonOffsets lineIndex lines : Classified ν).failures) :
    ∃ line ∈ lines, line.byteOffset = failure.byteOffset ∧
      (parseLine line.text : Option (Value ν)) = none := by
  induction lines with
  | nil => cases member
  | cons line rest ih =>
    have later : failure ∈ (classify complaint poisonOffsets lineIndex rest : Classified ν).failures →
        ∃ other ∈ line :: rest, other.byteOffset = failure.byteOffset ∧
          (parseLine other.text : Option (Value ν)) = none := by
      intro there
      obtain ⟨other, inside, facts⟩ := ih there
      exact ⟨other, List.mem_cons_of_mem _ inside, facts⟩
    rw [classify] at member
    split at member
    · split at member
      · exact later member
      · exact later member
    · split at member
      · exact later member
      · split at member
        · exact later member
        · rename_i broken
          rcases List.mem_cons.mp member with rfl | there
          · exact ⟨line, List.mem_cons_self, rfl, broken⟩
          · exact later there

theorem window_broken {file content : List UInt8} {byteOffset lineCount : Nat}
    (window : file.drop byteOffset = content) {lineIndex : TrackedLine → Int}
    (member : failure ∈ (classify complaint poisonOffsets lineIndex
      (scanLines content byteOffset 0 lineCount).lines : Classified ν).failures) :
    PointsAtBroken ν file failure.byteOffset := by
  obtain ⟨tracked, inside, same, broken⟩ := mem_failures member
  obtain ⟨behind, line, rest, there, text⟩ := mem_scanLines content byteOffset 0 lineCount tracked inside
  refine ⟨line, rest, ?_, by rwa [← text]⟩
  rw [← there, ← window, List.drop_drop, ← same]
  congr 2
  omega

theorem since_broken {file : List UInt8} {short : Nat → Nat} {state : IncrementalReadState}
    (member : failure ∈ (readJsonlSince complaint short file state poisonOffsets :
      Classified ν × Bool).1.failures) : PointsAtBroken ν file failure.byteOffset := by
  unfold readJsonlSince at member
  dsimp only at member
  by_cases behind : file.length ≤ state.byteOffset
  · have none : (readLinesSinceDetailed short (some file) state).lines = [] := by
      unfold readLinesSinceDetailed
      dsimp only
      rw [if_pos behind]
    rw [none] at member
    cases member
  · have lines : (readLinesSinceDetailed short (some file) state).lines
        = (scanLines (file.drop state.byteOffset) state.byteOffset 0 state.lineCount).lines := by
      unfold readLinesSinceDetailed
      dsimp only
      rw [if_neg behind, readLoop_all (Nat.le_of_lt (Nat.lt_of_not_le behind))]
    rw [lines] at member
    exact window_broken rfl member

theorem tail_broken {file : List UInt8} {tailBytes : Nat}
    (member : failure ∈ (readJsonlTail complaint file tailBytes poisonOffsets : Classified ν).failures) :
    PointsAtBroken ν file failure.byteOffset := by
  unfold readJsonlTail at member
  split at member
  · cases member
  dsimp only at member
  split at member
  · split at member
    · cases member
    · rename_i line rest taken
      refine window_broken ?_ member
      rw [Nat.add_assoc, ← List.drop_drop, (Framing.takeLine_some taken).2, List.append_cons]
      exact List.drop_left' (by rw [List.length_append, List.length_singleton])
  · exact window_broken rfl member

theorem failure_broken {sidecar : List PoisonMarkerEntry} {file : List UInt8} {read : Read}
    (member : failure ∈ (read.findings ν complaint sidecar file).failures) :
    PointsAtBroken ν file failure.byteOffset := by
  cases read with
  | full => exact window_broken (List.drop_zero) member
  | tail tailBytes => exact tail_broken member
  | since byteOffset short =>
    unfold Read.findings at member
    dsimp only at member
    split at member
    · exact since_broken member
    · exact since_broken member

end

section

variable {failures : List JsonlParseFailure}

theorem mem_fresh {activeOffsets : List Nat} : ∀ {seenOffsets : List Nat} {offset : Nat},
      offset ∈ (freshFailures activeOffsets seenOffsets failures).map (·.byteOffset) ↔
        offset ∈ failures.map (·.byteOffset) ∧ offset ∉ activeOffsets ∧ offset ∉ seenOffsets := by
  induction failures with
  | nil =>
    intro seenOffsets offset
    rw [freshFailures, List.map_nil]
    simp
  | cons failure rest ih =>
    intro seenOffsets offset
    rw [freshFailures]
    split
    · rename_i known
      rw [ih, List.map_cons, List.mem_cons]
      constructor
      · rintro ⟨there, apart⟩
        exact ⟨Or.inr there, apart⟩
      · rintro ⟨rfl | there, apart⟩
        · exact absurd known (not_or.mpr apart)
        · exact ⟨there, apart⟩
    · rename_i unknown
      obtain ⟨inactive, unseen⟩ := not_or.mp unknown
      rw [List.map_cons, List.map_cons, List.mem_cons, List.mem_cons, ih, List.mem_cons]
      constructor
      · rintro (rfl | ⟨there, apart, other⟩)
        · exact ⟨Or.inl rfl, inactive, unseen⟩
        · exact ⟨Or.inr there, apart, fun seen => other (Or.inr seen)⟩
      · rintro ⟨there, apart, unseen'⟩
        by_cases same : offset = failure.byteOffset
        · exact Or.inl same
        · refine Or.inr ⟨there.resolve_left same, apart, ?_⟩
          rintro (same' | seen)
          · exact same same'
          · exact unseen' seen

theorem nodup_fresh {activeOffsets : List Nat} : ∀ {seenOffsets : List Nat},
      ((freshFailures activeOffsets seenOffsets failures).map (·.byteOffset)).Nodup := by
  induction failures with
  | nil =>
    intro seenOffsets
    exact List.nodup_nil
  | cons failure rest ih =>
    intro seenOffsets
    rw [freshFailures]
    split
    · exact ih
    · rw [List.map_cons, List.nodup_cons]
      refine ⟨fun member => ?_, ih⟩
      exact (mem_fresh.mp member).2.2 List.mem_cons_self

theorem card_recorded {ν : Type} [NumberFormat ν] {file : List UInt8} {active : List Nat}
    (broken : ∀ failure ∈ failures, PointsAtBroken ν file failure.byteOffset) :
    (brokenOf ν file (active ++ failures.map (·.byteOffset))).card
      = (brokenOf ν file active).card + (freshFailures active [] failures).length := by
  classical
  have parts : brokenOf ν file (active ++ failures.map (·.byteOffset))
      = brokenOf ν file active ∪ ((freshFailures active [] failures).map (·.byteOffset)).toFinset := by
    ext offset
    have fails : offset ∈ failures.map (·.byteOffset) → PointsAtBroken ν file offset := by
      intro member
      obtain ⟨failure, inside, rfl⟩ := List.mem_map.mp member
      exact broken failure inside
    simp only [brokenOf, Finset.mem_filter, List.mem_toFinset, Finset.mem_union, List.mem_append, mem_fresh]
    constructor
    · rintro ⟨marked | fresh, points⟩
      · exact Or.inl ⟨marked, points⟩
      · by_cases marked : offset ∈ active
        · exact Or.inl ⟨marked, points⟩
        · exact Or.inr ⟨fresh, marked, List.not_mem_nil⟩
    · rintro (⟨marked, points⟩ | ⟨fresh, -, -⟩)
      · exact ⟨Or.inl marked, points⟩
      · exact ⟨Or.inr fresh, fails fresh⟩
  have apart : Disjoint (brokenOf ν file active)
      ((freshFailures active [] failures).map (·.byteOffset)).toFinset := by
    rw [Finset.disjoint_left]
    intro offset marked fresh
    have active' : offset ∈ active := List.mem_toFinset.mp (Finset.mem_filter.mp marked).1
    exact (mem_fresh.mp (List.mem_toFinset.mp fresh)).2.1 active'
  rw [parts, Finset.card_union_of_disjoint apart, List.toFinset_card_of_nodup nodup_fresh,
    List.length_map]

theorem commit_quarantined (sidecar : List PoisonMarkerEntry) (fileSize : Nat) (lineCount : Option Nat)
    (failures : List JsonlParseFailure) (stale : List Nat) (now : String) :
    (commitPoisonFindings sidecar fileSize lineCount failures stale now).1 = true ↔
      poisonMarkerCap < (planPoisonSkip sidecar fileSize lineCount).length
        + (freshFailures (planPoisonSkip sidecar fileSize lineCount) [] failures).length := by
  have length : (planPoisonSkip sidecar fileSize lineCount).length
      = (activeMarkers sidecar lineCount fileSize).length := List.length_map _
  rw [length]
  unfold commitPoisonFindings planPoisonSkip
  dsimp only
  split
  · exact ⟨fun _ => by omega, fun _ => rfl⟩
  split
  · exact ⟨fun _ => by omega, fun _ => rfl⟩
  split
  · exact ⟨fun no => Bool.noConfusion no, fun more => by omega⟩
  · exact ⟨fun no => Bool.noConfusion no, fun more => by omega⟩

variable (ν : Type) [NumberFormat ν] (complaint : Text → String)

theorem read_quarantines (sidecar : List PoisonMarkerEntry) (file : List UInt8) (read : Read) (now : String) :
    (read.commit ν complaint sidecar file now).1 = true ↔
      poisonMarkerCap < (planPoisonSkip sidecar file.length (read.lineCount file)).length
        + (freshFailures (planPoisonSkip sidecar file.length (read.lineCount file)) []
            (read.findings ν complaint sidecar file).failures).length :=
  commit_quarantined _ _ _ _ _ _

/-- **The count that is compared with the cap**: the broken lines, and the other markers. -/
theorem quarantined_iff (sidecar : List PoisonMarkerEntry) (file : List UInt8) (read : Read) (now : String) :
    (read.commit ν complaint sidecar file now).1 = true ↔
      poisonMarkerCap
        < brokenCount ν complaint sidecar file read + otherMarkers ν sidecar file read := by
  rw [read_quarantines]
  unfold brokenCount otherMarkers recorded
  dsimp only
  rw [card_recorded fun failure member => failure_broken member]
  have few : (brokenOf ν file (planPoisonSkip sidecar file.length (read.lineCount file))).card
      ≤ (planPoisonSkip sidecar file.length (read.lineCount file)).length := by
    classical
    exact (Finset.card_filter_le _ _).trans (List.toFinset_card_le _)
  omega

/-- **A file is put away for its broken lines alone if and only if the other markers make no difference**, over
every history of a log, its markers and its reads. -/
theorem quarantine_exact_iff (start : PoisonedLog) (steps : List LogStep) :
    (∀ taken ∈ Runs.transitions (PoisonedLog.step ν complaint) start steps,
        QuarantinesBroken ν complaint taken.before taken.action) ↔
      ∀ taken ∈ Runs.transitions (PoisonedLog.step ν complaint) start steps,
        OthersWithin ν complaint taken.before taken.action := by
  refine forall₂_congr fun taken _ => ?_
  cases taken.action with
  | write live | mark sidecar => exact Iff.rfl
  | read read now =>
    refine forall₂_congr fun file _ => ?_
    rw [quarantined_iff]
    omega

end

section

theorem scan_written {lines : List (List UInt8)} (apart : ∀ line ∈ lines, newlineOctet ∉ line) :
    (scanLines (Framing.written newlineOctet lines) 0 0 0).lines = track lines 0 0 := by
  have written := Framing.lines_written apart []
  rw [List.append_nil] at written
  rw [scanLines_eq, written]
  exact congrArg (fun lines => track lines 0 0) (List.append_nil _)

theorem track_places (lines : List (List UInt8)) (byteOffset lineIndex : Nat) :
    (∀ line ∈ track lines byteOffset lineIndex, byteOffset ≤ line.byteOffset ∧
        line.byteOffset < byteOffset + (Framing.written newlineOctet lines).length ∧
        line.lineIndex < lineIndex + lines.length) ∧
      ((track lines byteOffset lineIndex).map (·.byteOffset)).Nodup := by
  induction lines generalizing byteOffset lineIndex with
  | nil => exact ⟨List.forall_mem_nil _, List.nodup_nil⟩
  | cons line lines ih =>
    obtain ⟨places, nodup⟩ := ih (byteOffset + line.length + 1) (lineIndex + 1)
    rw [track, Framing.written_cons, List.length_append, List.length_cons, List.length_cons]
    refine ⟨List.forall_mem_cons.mpr ⟨⟨Nat.le_refl _, ?_, ?_⟩, fun other member => ?_⟩, ?_⟩
    · show byteOffset < _
      omega
    · show lineIndex < _
      omega
    · obtain ⟨behind, inside, place⟩ := places other member
      exact ⟨by omega, by omega, by omega⟩
    · rw [List.map_cons, List.nodup_cons]
      refine ⟨fun member => ?_, nodup⟩
      obtain ⟨other, inside, same⟩ := List.mem_map.mp member
      have behind := (places other inside).1
      have same' : other.byteOffset = byteOffset := same
      omega

theorem length_track (lines : List (List UInt8)) (byteOffset lineIndex : Nat) :
    (track lines byteOffset lineIndex).length = lines.length := by
  induction lines generalizing byteOffset lineIndex with
  | nil => rfl
  | cons line lines ih => rw [track, List.length_cons, List.length_cons, ih]

theorem track_append (lines others : List (List UInt8)) (byteOffset lineIndex : Nat) :
    track (lines ++ others) byteOffset lineIndex = track lines byteOffset lineIndex ++
      track others (byteOffset + (Framing.written newlineOctet lines).length)
        (lineIndex + lines.length) := by
  induction lines generalizing byteOffset lineIndex with
  | nil => rfl
  | cons line lines ih =>
    have place : byteOffset + line.length + 1 + (Framing.written newlineOctet lines).length
        = byteOffset + (Framing.written newlineOctet (line :: lines)).length := by
      rw [Framing.written_cons, List.length_append, List.length_cons]
      omega
    have index : lineIndex + 1 + lines.length = lineIndex + (line :: lines).length := by
      rw [List.length_cons]
      omega
    rw [List.cons_append, track, ih, track, place, index, List.cons_append]

theorem offsets_replicate (count : Nat) {line other : List UInt8} (same : line.length = other.length)
    (byteOffset lineIndex : Nat) :
    (track (List.replicate count line) byteOffset lineIndex).map (·.byteOffset)
      = (track (List.replicate count other) byteOffset lineIndex).map (·.byteOffset) := by
  induction count generalizing byteOffset lineIndex with
  | zero => rfl
  | succ count ih =>
    rw [List.replicate_succ, List.replicate_succ, track, track, List.map_cons, List.map_cons, ih,
      same]

theorem text_replicate {count byteOffset lineIndex : Nat} {line : List UInt8} :
    ∀ tracked ∈ track (List.replicate count line) byteOffset lineIndex, tracked.text = decode line := by
  induction count generalizing byteOffset lineIndex with
  | zero => exact List.forall_mem_nil _
  | succ count ih => exact List.forall_mem_cons.mpr ⟨rfl, ih⟩

variable {ν : Type} [NumberFormat ν] {complaint : Text → String} {poisonOffsets : List Nat}
  {lineIndex : TrackedLine → Int}

theorem classify_broken {lines : List TrackedLine}
    (broken : ∀ line ∈ lines, line.byteOffset ∉ poisonOffsets ∧ trim line.text ≠ [] ∧
      (parseLine line.text : Option (Value ν)) = none) :
    (classify complaint poisonOffsets lineIndex lines : Classified ν)
      = { failures := lines.map fun line =>
            ⟨line.byteOffset, lineIndex line, complaint (trim line.text)⟩ } := by
  induction lines with
  | nil => rfl
  | cons line rest ih =>
    obtain ⟨⟨unmarked, text, none⟩, others⟩ := List.forall_mem_cons.mp broken
    rw [classify, if_neg unmarked, if_neg text, none, ih others]
    rfl

theorem failures_healed {lines rest : List TrackedLine}
    (healed : ∀ line ∈ lines, line.byteOffset ∈ poisonOffsets ∧
      (parseLine line.text : Option (Value ν)).isSome = true) :
    (classify complaint poisonOffsets lineIndex (lines ++ rest) : Classified ν).failures
      = (classify complaint poisonOffsets lineIndex rest : Classified ν).failures := by
  induction lines with
  | nil => rfl
  | cons line lines ih =>
    obtain ⟨⟨marked, parses⟩, others⟩ := List.forall_mem_cons.mp healed
    obtain ⟨value, read⟩ := Option.isSome_iff_exists.mp parses
    rw [List.cons_append, classify, if_pos marked, read]
    exact ih others

theorem fresh_all {activeOffsets : List Nat} {failures : List JsonlParseFailure} :
    ∀ {seenOffsets : List Nat}, (failures.map (·.byteOffset)).Nodup →
      (∀ failure ∈ failures, failure.byteOffset ∉ activeOffsets ∧ failure.byteOffset ∉ seenOffsets) →
      freshFailures activeOffsets seenOffsets failures = failures := by
  induction failures with
  | nil => exact fun _ _ => rfl
  | cons failure rest ih =>
    intro seenOffsets nodup unknown
    obtain ⟨⟨inactive, unseen⟩, others⟩ := List.forall_mem_cons.mp unknown
    rw [List.map_cons, List.nodup_cons] at nodup
    rw [freshFailures, if_neg (not_or.mpr ⟨inactive, unseen⟩), ih nodup.2]
    intro other member
    refine ⟨(others other member).1, fun seen => ?_⟩
    rcases List.mem_cons.mp seen with same | before
    · exact nodup.1 (same ▸ List.mem_map_of_mem member)
    · exact (others other member).2 before

theorem length_written_replicate (count : Nat) (line : List UInt8) :
    (Framing.written newlineOctet (List.replicate count line)).length = count * (line.length + 1) := by
  induction count with
  | zero => exact (Nat.zero_mul _).symm
  | succ count ih =>
    rw [List.replicate_succ, Framing.written_cons, List.length_append, List.length_cons, ih,
      Nat.succ_mul]
    omega

def brokenLine : List UInt8 := [0x78]

def healthyLine : List UInt8 := [0x31]

def brokenFile : List UInt8 :=
  Framing.written newlineOctet (List.replicate poisonMarkerCap brokenLine)

def repairedFile : List UInt8 :=
  Framing.written newlineOctet (List.replicate poisonMarkerCap healthyLine ++ [brokenLine])

def noReason : Text → String := fun _ => ""

def brokenMarkers : List PoisonMarkerEntry :=
  (track (List.replicate poisonMarkerCap brokenLine) 0 0).map fun line =>
    { lineIndex := line.lineIndex, byteOffset := line.byteOffset, reason := "", firstSeen := "1" }

theorem parse_broken : (parseLine (decode brokenLine) : Option (Value (Fin 10))) = none :=
  Option.isNone_iff_eq_none.mp (by decide)

theorem parse_healthy : (parseLine (decode healthyLine) : Option (Value (Fin 10))).isSome = true := by
  decide

theorem first_read :
    Read.full.commit (Fin 10) noReason [] brokenFile "1" = (false, brokenMarkers) := by
  have scan : (scanLines brokenFile 0 0 0).lines = track (List.replicate poisonMarkerCap brokenLine) 0 0 := by
    refine scan_written fun line member => ?_
    rw [List.eq_of_mem_replicate member]
    decide
  have found : (Read.full.findings (Fin 10) noReason [] brokenFile)
      = { failures := (track (List.replicate poisonMarkerCap brokenLine) 0 0).map fun line =>
            ⟨line.byteOffset, line.lineIndex, ""⟩ } := by
    show classify noReason [] _ (scanLines brokenFile 0 0 0).lines = _
    rw [scan]
    refine classify_broken fun line member => ⟨List.not_mem_nil, ?_, ?_⟩
    · rw [text_replicate line member]
      decide
    · rw [text_replicate line member]
      exact parse_broken
  have fresh : freshFailures [] [] ((track (List.replicate poisonMarkerCap brokenLine) 0 0).map fun line =>
        (⟨line.byteOffset, line.lineIndex, ""⟩ : JsonlParseFailure))
      = (track (List.replicate poisonMarkerCap brokenLine) 0 0).map fun line =>
        ⟨line.byteOffset, line.lineIndex, ""⟩ := by
    refine fresh_all ?_ fun failure _ => ⟨List.not_mem_nil, List.not_mem_nil⟩
    rw [List.map_map]
    exact (track_places _ 0 0).2
  have length : ((track (List.replicate poisonMarkerCap brokenLine) 0 0).map fun line =>
      (⟨line.byteOffset, line.lineIndex, ""⟩ : JsonlParseFailure)).length = poisonMarkerCap := by
    rw [List.length_map, length_track, List.length_replicate]
  unfold Read.commit
  dsimp only
  rw [found]
  unfold commitPoisonFindings
  dsimp only
  rw [if_neg (by decide), show (activeMarkers [] _ _).map _ = [] from rfl, fresh, length,
    if_neg (by decide), if_neg (by decide), List.map_map]
  rfl

theorem repaired_apart :
    ∀ line ∈ List.replicate poisonMarkerCap healthyLine ++ [brokenLine], newlineOctet ∉ line := by
  intro line member
  rcases List.mem_append.mp member with healthy | broken
  · rw [List.eq_of_mem_replicate healthy]
    decide
  · rw [List.mem_singleton.mp broken]
    decide

theorem scan_repaired : (scanLines repairedFile 0 0 0).lines
      = track (List.replicate poisonMarkerCap healthyLine ++ [brokenLine]) 0 0 :=
  scan_written repaired_apart

theorem plan_repaired :
    planPoisonSkip brokenMarkers repairedFile.length (Read.full.lineCount repairedFile)
      = (track (List.replicate poisonMarkerCap healthyLine) 0 0).map (·.byteOffset) := by
  have lines : (Framing.lines newlineOctet repairedFile).length = poisonMarkerCap + 1 := by
    have written := Framing.lines_written repaired_apart []
    rw [List.append_nil] at written
    rw [repairedFile, written, List.length_append, List.length_append, List.length_replicate]
    rfl
  have size : repairedFile.length = poisonMarkerCap * 2 + 2 := by
    rw [repairedFile, Framing.written, List.flatMap_append, List.length_append,
      ← Framing.written, length_written_replicate]
    rfl
  have active : activeMarkers brokenMarkers (Read.full.lineCount repairedFile) repairedFile.length
      = brokenMarkers := by
    refine List.filter_eq_self.mpr fun entry member => ?_
    obtain ⟨line, inside, rfl⟩ := List.mem_map.mp member
    obtain ⟨-, place, index⟩ := (track_places (List.replicate poisonMarkerCap brokenLine) 0 0).1 line inside
    rw [length_written_replicate, Nat.zero_add] at place
    rw [List.length_replicate, Nat.zero_add] at index
    have place' : line.byteOffset < poisonMarkerCap * 2 := place
    have kept : isStalePoisonMarker
        { lineIndex := line.lineIndex, byteOffset := line.byteOffset, reason := "", firstSeen := "1" }
        (some (poisonMarkerCap + 1)) (poisonMarkerCap * 2 + 2) = false := by
      unfold isStalePoisonMarker
      rw [Bool.or_eq_false_iff, Bool.and_eq_false_iff]
      refine ⟨Or.inr (decide_eq_false ?_), decide_eq_false ?_⟩
      · show ¬ ((poisonMarkerCap + 1 : Nat) : Int) ≤ (line.lineIndex : Int)
        omega
      · show ¬ poisonMarkerCap * 2 + 2 ≤ line.byteOffset
        omega
    rw [size, Read.lineCount, lines, kept]
    rfl
  rw [planPoisonSkip, active, brokenMarkers, List.map_map,
    ← offsets_replicate poisonMarkerCap (show brokenLine.length = healthyLine.length from rfl)]
  rfl

theorem second_read : (Read.full.findings (Fin 10) noReason brokenMarkers repairedFile).failures
      = [⟨poisonMarkerCap * 2, poisonMarkerCap, ""⟩] := by
  unfold Read.findings
  dsimp only
  rw [plan_repaired, parseJsonlWindow, scan_repaired, track_append, failures_healed]
  · have unmarked : 0 + (Framing.written newlineOctet (List.replicate poisonMarkerCap healthyLine)).length
        ∉ (track (List.replicate poisonMarkerCap healthyLine) 0 0).map (·.byteOffset) := by
      intro member
      obtain ⟨line, inside, same⟩ := List.mem_map.mp member
      have place := ((track_places _ 0 0).1 line inside).2.1
      have same' : line.byteOffset = _ := same
      omega
    rw [track, track, classify_broken]
    · rw [length_written_replicate, List.length_replicate]
      rfl
    · intro line member
      rw [List.mem_singleton.mp member]
      exact ⟨unmarked, by decide, parse_broken⟩
  · intro line member
    refine ⟨List.mem_map_of_mem member, ?_⟩
    rw [text_replicate line member]
    exact parse_healthy

theorem one_broken : brokenCount (Fin 10) noReason brokenMarkers repairedFile .full ≤ 1 := by
  have last : brokenOf (Fin 10) repairedFile (recorded (Fin 10) noReason brokenMarkers repairedFile .full)
      ⊆ {poisonMarkerCap * 2} := by
    classical
    intro offset member
    obtain ⟨inside, line, rest, there, broken⟩ := Finset.mem_filter.mp member
    have inside' := List.mem_toFinset.mp inside
    rw [recorded, plan_repaired, second_read] at inside'
    rcases List.mem_append.mp inside' with marked | fresh
    · exfalso
      obtain ⟨tracked, healthy, rfl⟩ := List.mem_map.mp marked
      have scanned : tracked ∈ (scanLines repairedFile 0 0 0).lines := by
        rw [scan_repaired, track_append]
        exact List.mem_append_left _ healthy
      obtain ⟨-, found, more, here, text⟩ := mem_scanLines repairedFile 0 0 0 tracked scanned
      rw [Nat.sub_zero, there] at here
      have same : line = found := congrArg Prod.fst (Option.some.inj here)
      rw [same, ← text, text_replicate tracked healthy] at broken
      have parses := parse_healthy
      rw [broken] at parses
      cases parses
    · exact Finset.mem_singleton.mpr (List.mem_singleton.mp fresh)
  exact (Finset.card_le_card last).trans (Nat.le_of_eq (Finset.card_singleton _))

/-- **As many broken lines as may be, which are repaired, and one more that is broken**: the file is put away
for one line. -/
theorem repaired_file_quarantined :
    ¬ ∀ taken ∈ Runs.transitions (PoisonedLog.step (Fin 10) noReason) { live := some brokenFile }
        [.read .full "1", .write (some repairedFile), .read .full "2"],
      QuarantinesBroken (Fin 10) noReason taken.before taken.action := by
  intro broken
  have first : PoisonedLog.step (Fin 10) noReason { live := some brokenFile } (.read .full "1")
      = { live := some brokenFile, sidecar := brokenMarkers } := by
    unfold PoisonedLog.step
    dsimp only
    rw [first_read]
    rfl
  have last := broken
    ⟨{ live := some repairedFile, sidecar := brokenMarkers }, .read .full "2", _⟩ (by
      rw [Runs.transitions, first]
      exact List.mem_cons_of_mem _ (List.mem_cons_of_mem _ List.mem_cons_self))
  have quarantined : (Read.full.commit (Fin 10) noReason brokenMarkers repairedFile "2").1 = true := by
    rw [read_quarantines, second_read, plan_repaired, List.length_map, length_track,
      List.length_replicate, fresh_all]
    · exact Nat.lt_succ_self _
    · exact List.nodup_singleton _
    · intro failure member
      rw [List.mem_singleton.mp member]
      refine ⟨fun marked => ?_, List.not_mem_nil⟩
      obtain ⟨line, inside, same⟩ := List.mem_map.mp marked
      have place := ((track_places _ 0 0).1 line inside).2.1
      rw [length_written_replicate] at place
      have same' : line.byteOffset = poisonMarkerCap * 2 := same
      have place' : line.byteOffset < 0 + poisonMarkerCap * 2 := place
      omega
  have many := last repairedFile rfl quarantined
  have few : brokenCount (Fin 10) noReason brokenMarkers repairedFile .full ≤ 1 := one_broken
  exact absurd (Nat.lt_of_lt_of_le many few) (by decide)

end

end PiCrew.EventLog.PoisonMarkers
