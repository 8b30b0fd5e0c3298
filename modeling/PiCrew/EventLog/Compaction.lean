/-
**Compactions beside appends.**

`state/event-log/event-log-rotation.ts`. `prepareCompaction` takes the size of the log and reads it to its end,
without a lock; `compactPreparedEventLog` holds both append locks, adds what lies behind the size to the events
that were kept, and renames the result over the log. So the size may be older than what was read:

* `apply_keeps` — where it is not, a compaction takes out what it chose to drop and nothing else;
* `compaction_keeps_exactly` — so does every run whose compactions all find it so;
* `append_before_read_is_doubled` — an append between the size and the read.

An append writes whole lines with one call. Rotation is not part of these runs.
-/

import PiCrew.Library.Lines
import PiCrew.Library.Ring
import PiCrew.Library.Runs

namespace PiCrew.EventLog

section

variable {ε : Type}

/-- **Keep the last events** of some lines, and count them all. -/
def readLastEvents (lines : List (Lines.Line ε)) (maxKeep : Nat) : List ε × Nat :=
  let events := Lines.values lines
  if maxKeep = 0 then ([], events.length)
  else (Ring.contents maxKeep (events.foldl (Ring.push maxKeep) {}), events.length)

theorem readLastEvents_eq (lines : List (Lines.Line ε)) (maxKeep : Nat) :
    readLastEvents lines maxKeep
      = (Ring.newest maxKeep (Lines.values lines), (Lines.values lines).length) := by
  unfold readLastEvents
  rcases Nat.eq_zero_or_pos maxKeep with rfl | positive
  · rw [Ring.newest, Nat.sub_zero, List.drop_length]
    rfl
  · simp only [if_neg (Nat.pos_iff_ne_zero.mp positive), Ring.contents_foldl positive]

/-- The bytes behind an offset; a file that is shorter aborts the compaction. -/
def readTailSince (lines : List (Lines.Line ε)) (offset : Nat) : Option (List (Lines.Line ε)) :=
  if Lines.size lines < offset then none
  else if Lines.size lines = offset then some []
  else some (Lines.dropBytes offset lines)

end

section

variable {π ε : Type}

/-- What a compaction is about to write: the events it keeps and the size it remembers; and, for the
record, the file it read and what it read there. -/
structure Prepared (ε : Type) where
  kept : List ε
  originalSize : Nat
  originalCount : Nat
  file : Nat
  read : List (Lines.Line ε)

/-- Where a process is in `compactEventLog`. -/
inductive CompactionPhase (ε : Type) where
  | idle
  | statted (compactToCount originalSize : Nat)
  | reading (compactToCount originalSize file taken : Nat)
  | prepared (compaction : Prepared ε)

/-- **A log that is compacted**: its files by inode, the one at the path, the phase of each process,
and the events that the log should hold. -/
structure CompactedLog (π ε : Type) where
  files : Nat → List (Lines.Line ε)
  live : Nat := 0
  unused : Nat := 1
  phase : π → CompactionPhase ε
  expected : List ε

/-- A file-system call of an append or of a compaction. The last is the locked phase: both append
locks are held from the first of its calls to the last. -/
inductive CompactionStep (π ε : Type) where
  | append (lines : List (Lines.Line ε))
  | stat (process : π) (compactToCount : Nat)
  | openFile (process : π)
  | readChunk (process : π) (count : Nat)
  | endOfFile (process : π)
  | apply (process : π)

def CompactedLog.lines (log : CompactedLog π ε) : List (Lines.Line ε) := log.files log.live

variable [DecidableEq π]

def CompactedLog.moveTo (log : CompactedLog π ε) (process : π) (phase : CompactionPhase ε) :
    CompactedLog π ε :=
  { log with phase := Function.update log.phase process phase }

/-- **The end of the read**: with no more events than it may keep, a compaction is over. -/
def prepareCompaction (lines : List (Lines.Line ε)) (compactToCount originalSize file : Nat) :
    CompactionPhase ε :=
  let last := readLastEvents lines compactToCount
  if last.2 ≤ compactToCount then .idle
  else .prepared { kept := last.1, originalSize := originalSize, originalCount := last.2,
                   file := file, read := lines }

variable [DecidableEq ε] (encode : ε → Nat)

def encodeLines (events : List ε) : List (Lines.Line ε) :=
  if events = [] then [{ value := none, bytes := 0 }]
  else events.map fun event => { value := some event, bytes := encode event }

def Prepared.dropped (compaction : Prepared ε) : List ε := (Lines.values compaction.read).take
    ((Lines.values compaction.read).length - compaction.kept.length)

/-- **The locked phase**: kept events and the bytes behind the remembered size, renamed over the
log. -/
def CompactedLog.applyCompaction (log : CompactedLog π ε) (compaction : Prepared ε) :
    CompactedLog π ε :=
  match readTailSince log.lines compaction.originalSize with
  | none => log
  | some tail =>
    { log with
      files := Function.update log.files log.unused (encodeLines encode compaction.kept ++ tail)
      live := log.unused
      unused := log.unused + 1
      expected := log.expected.diff compaction.dropped }

def CompactedLog.step (log : CompactedLog π ε) : CompactionStep π ε → CompactedLog π ε
  | .append lines =>
    { log with
      files := Function.update log.files log.live (log.lines ++ lines)
      expected := log.expected ++ Lines.values lines }
  | .stat process compactToCount =>
    match log.phase process with
    | .idle => log.moveTo process (.statted compactToCount (Lines.size log.lines))
    | _ => log
  | .openFile process =>
    match log.phase process with
    | .statted compactToCount originalSize =>
      log.moveTo process (.reading compactToCount originalSize log.live 0)
    | _ => log
  | .readChunk process count =>
    match log.phase process with
    | .reading compactToCount originalSize file taken =>
      -- a read returns at most what the file holds by now
      log.moveTo process (.reading compactToCount originalSize file
        (min (taken + count) (log.files file).length))
    | _ => log
  | .endOfFile process =>
    match log.phase process with
    | .reading compactToCount originalSize file taken =>
      if taken = (log.files file).length then
        log.moveTo process
          (prepareCompaction ((log.files file).take taken) compactToCount originalSize file)
      else log
    | _ => log
  | .apply process =>
    match log.phase process with
    | .prepared compaction =>
      (log.applyCompaction encode compaction).moveTo process .idle
    | _ => log

def CompactedLog.start (lines : List (Lines.Line ε)) : CompactedLog π ε :=
  { files := fun file => if file = 0 then lines else [], phase := fun _ => .idle
    expected := Lines.values lines }

/-- **The log holds what it should**: every event appended, without those that a compaction chose to
drop. -/
def KeepsExactly (log : CompactedLog π ε) : Prop := Lines.values log.lines = log.expected

/-- **A compaction's snapshot is current**: when it is applied, the log is shorter than the size it
remembers, and it gives up; or the log is still the file it read, and that size is the size of what it
read. -/
def SnapshotCurrent (log : CompactedLog π ε) : CompactionStep π ε → Prop
  | .apply process =>
    ∀ compaction, log.phase process = .prepared compaction →
      Lines.size log.lines < compaction.originalSize ∨
        (compaction.file = log.live ∧ compaction.originalSize = Lines.size compaction.read)
  | _ => True

end

section

variable {ε : Type}

theorem values_encodeLines [DecidableEq ε] (encode : ε → Nat) (events : List ε) :
    Lines.values (encodeLines encode events) = events := by
  unfold encodeLines
  by_cases none : events = []
  · rw [if_pos none, none]
    rfl
  · rw [if_neg none, Lines.values, List.filterMap_map]
    exact List.filterMap_some

theorem tail_of_snapshot (read added : List (Lines.Line ε)) :
    readTailSince (read ++ added) (Lines.size read) = some added := by
  unfold readTailSince
  rw [Lines.size_append, if_neg (by omega)]
  by_cases nothing : Lines.size read + Lines.size added = Lines.size read
  · rw [if_pos nothing, Lines.size_eq_zero (by omega : Lines.size added = 0)]
  · rw [if_neg nothing, Lines.dropBytes_size]

theorem dropped_append_kept {compaction : Prepared ε} {compactToCount : Nat}
    (kept : compaction.kept = Ring.newest compactToCount (Lines.values compaction.read)) :
    compaction.dropped ++ compaction.kept = Lines.values compaction.read := by
  have rest : (Lines.values compaction.read).length - compaction.kept.length
      = (Lines.values compaction.read).length - compactToCount := by
    rw [kept, Ring.newest, List.length_drop]
    omega
  rw [Prepared.dropped, rest, kept]
  exact List.take_append_drop _ _

theorem append_diff [DecidableEq ε] (front rest : List ε) : (front ++ rest).diff front = rest := by
  induction front with
  | nil => exact List.diff_nil rest
  | cons event others ih =>
    rw [List.cons_append, List.diff_cons, List.erase_cons_head]
    exact ih

end

section

variable {π ε : Type}

def PhaseSound (log : CompactedLog π ε) : CompactionPhase ε → Prop
  | .reading _ _ file _ => file < log.unused
  | .prepared compaction =>
    compaction.file < log.unused ∧ compaction.read <+: log.files compaction.file ∧ ∃ compactToCount,
        compaction.kept = Ring.newest compactToCount (Lines.values compaction.read)
  | _ => True

/-- **The invariant**: the log holds what it should, and what a process read is the beginning of a
file. -/
structure CompactionSound (log : CompactedLog π ε) : Prop where
  exact : KeepsExactly log
  live : log.live < log.unused
  phases : ∀ process, PhaseSound log (log.phase process)

/-- The files of a log grew: no inode was used again, and no file lost its beginning. -/
structure FilesGrew (log later : CompactedLog π ε) : Prop where
  unused : log.unused ≤ later.unused
  files : ∀ file < log.unused, log.files file <+: later.files file

theorem PhaseSound.grew {log later : CompactedLog π ε} (grew : FilesGrew log later)
    {phase : CompactionPhase ε} (sound : PhaseSound log phase) : PhaseSound later phase := by
  cases phase with
  | idle | statted compactToCount originalSize => trivial
  | reading compactToCount originalSize file taken => exact Nat.lt_of_lt_of_le sound grew.unused
  | prepared compaction =>
    obtain ⟨known, read, kept⟩ := sound
    exact ⟨Nat.lt_of_lt_of_le known grew.unused, read.trans (grew.files _ known), kept⟩

theorem FilesGrew.refl (log : CompactedLog π ε) : FilesGrew log log :=
  ⟨Nat.le_refl _, fun _ _ => List.prefix_refl _⟩

variable {log : CompactedLog π ε}

theorem prepareCompaction_sound {lines : List (Lines.Line ε)}
    {compactToCount originalSize file : Nat} (known : file < log.unused)
    (read : lines <+: log.files file) :
    PhaseSound log (prepareCompaction lines compactToCount originalSize file) := by
  unfold prepareCompaction
  rw [readLastEvents_eq]
  by_cases few : (Lines.values lines).length ≤ compactToCount
  · rw [if_pos few]
    trivial
  · rw [if_neg few]
    exact ⟨known, read, compactToCount, rfl⟩

variable [DecidableEq ε] (encode : ε → Nat)

/-- **An applied compaction takes out what it chose to drop**, if its snapshot is current. -/
theorem apply_keeps (sound : CompactionSound log)
    {compaction : Prepared ε} (phase : PhaseSound log (.prepared compaction))
    (current : Lines.size log.lines < compaction.originalSize ∨
      (compaction.file = log.live ∧ compaction.originalSize = Lines.size compaction.read)) :
    KeepsExactly (log.applyCompaction encode compaction) := by
  unfold CompactedLog.applyCompaction
  rcases current with short | ⟨same, size⟩
  · rw [readTailSince, if_pos short]
    exact sound.exact
  · obtain ⟨-, ⟨added, whole⟩, compactToCount, kept⟩ := phase
    have lines : log.lines = compaction.read ++ added := by
      rw [whole, same]
      rfl
    rw [lines, size, tail_of_snapshot]
    have before : log.expected = compaction.dropped ++ (compaction.kept ++ Lines.values added) := by
      rw [← List.append_assoc, dropped_append_kept kept, ← Lines.values_append, ← lines]
      exact sound.exact.symm
    show Lines.values (Function.update log.files log.unused _ log.unused) = _
    rw [Function.update_self, Lines.values_append, values_encodeLines, before, append_diff]

theorem apply_grew (compaction : Prepared ε) :
    FilesGrew log (log.applyCompaction encode compaction) := by
  unfold CompactedLog.applyCompaction
  cases readTailSince log.lines compaction.originalSize with
  | none => exact FilesGrew.refl log
  | some tail =>
    refine ⟨Nat.le_succ _, fun file used => ?_⟩
    show log.files file <+: Function.update log.files log.unused _ file
    rw [Function.update_of_ne (Nat.ne_of_lt used)]

theorem apply_live (live : log.live < log.unused) (compaction : Prepared ε) :
    (log.applyCompaction encode compaction).live
      < (log.applyCompaction encode compaction).unused := by
  unfold CompactedLog.applyCompaction
  cases readTailSince log.lines compaction.originalSize with
  | none => exact live
  | some tail => exact Nat.lt_succ_self _

theorem apply_phase (log : CompactedLog π ε) (compaction : Prepared ε) :
    (log.applyCompaction encode compaction).phase = log.phase := by
  unfold CompactedLog.applyCompaction
  cases readTailSince log.lines compaction.originalSize with
  | none => rfl
  | some tail => rfl

variable [DecidableEq π]

omit [DecidableEq ε] in
theorem moveTo_sound (sound : CompactionSound log) (process : π)
    {phase : CompactionPhase ε} (next : PhaseSound log phase) :
    CompactionSound (log.moveTo process phase) := by
  refine ⟨sound.exact, sound.live, fun other => ?_⟩
  have moved : PhaseSound log ((log.moveTo process phase).phase other) := by
    show PhaseSound log (Function.update log.phase process phase other)
    rw [Function.update_apply]
    by_cases same : other = process
    · rwa [if_pos same]
    · rw [if_neg same]
      exact sound.phases other
  exact moved.grew ⟨Nat.le_refl _, fun _ _ => List.prefix_refl _⟩

theorem append_sound (sound : CompactionSound log) (lines : List (Lines.Line ε)) :
    CompactionSound (log.step encode (.append lines)) := by
  have grew : FilesGrew log (log.step encode (.append lines)) := by
    refine ⟨Nat.le_refl _, fun file _ => ?_⟩
    show log.files file <+: Function.update log.files log.live _ file
    rw [Function.update_apply]
    by_cases here : file = log.live
    · rw [if_pos here, here]
      exact List.prefix_append _ _
    · rw [if_neg here]
  refine ⟨?_, sound.live, fun process => (sound.phases process).grew grew⟩
  show Lines.values (Function.update log.files log.live (log.lines ++ lines) log.live) = _
  rw [Function.update_self, Lines.values_append, sound.exact]
  rfl

/-- **Every step keeps the log exact**, where applied compactions have current snapshots. -/
theorem step_sound (log : CompactedLog π ε) (step : CompactionStep π ε)
    (sound : CompactionSound log) (current : SnapshotCurrent log step) :
    CompactionSound (log.step encode step) := by
  cases step with
  | append lines => exact append_sound encode sound lines
  | stat process compactToCount =>
    simp only [CompactedLog.step]
    cases phase : log.phase process with
    | idle => exact moveTo_sound sound process trivial
    | statted _ _ | reading _ _ _ _ | prepared _ => exact sound
  | openFile process =>
    simp only [CompactedLog.step]
    cases phase : log.phase process with
    | statted compactToCount originalSize => exact moveTo_sound sound process sound.live
    | idle | reading _ _ _ _ | prepared _ => exact sound
  | readChunk process count =>
    have known := sound.phases process
    simp only [CompactedLog.step]
    cases phase : log.phase process with
    | reading compactToCount originalSize file taken =>
      rw [phase] at known
      exact moveTo_sound sound process known
    | idle | statted _ _ | prepared _ => exact sound
  | endOfFile process =>
    have known := sound.phases process
    simp only [CompactedLog.step]
    cases phase : log.phase process with
    | reading compactToCount originalSize file taken =>
      rw [phase] at known
      show CompactionSound (if taken = (log.files file).length then _ else log)
      by_cases ended : taken = (log.files file).length
      · rw [if_pos ended]
        exact moveTo_sound sound process (prepareCompaction_sound known (List.take_prefix _ _))
      · rw [if_neg ended]
        exact sound
    | idle | statted _ _ | prepared _ => exact sound
  | apply process =>
    have known := sound.phases process
    simp only [CompactedLog.step]
    cases phase : log.phase process with
    | prepared compaction =>
      rw [phase] at known
      have applied : CompactionSound (log.applyCompaction encode compaction) := by
        refine ⟨apply_keeps encode sound known (current compaction phase),
          apply_live encode sound.live compaction, fun other => ?_⟩
        rw [apply_phase]
        exact (sound.phases other).grew (apply_grew encode compaction)
      exact moveTo_sound applied process trivial
    | idle | statted _ _ | reading _ _ _ _ => exact sound

omit [DecidableEq ε] [DecidableEq π] in
theorem start_sound (lines : List (Lines.Line ε)) :
    CompactionSound (CompactedLog.start lines : CompactedLog π ε) :=
  ⟨rfl, Nat.zero_lt_one, fun _ => trivial⟩

/-- **Compactions keep the log exact.** For every run of appends and compactions by any processes,
each file-system call a step, in which a compaction that is applied has a current snapshot. -/
theorem compaction_keeps_exactly (lines : List (Lines.Line ε))
    (steps : List (CompactionStep π ε))
    (current : ∀ taken ∈ Runs.transitions (CompactedLog.step encode) (CompactedLog.start lines)
      steps, SnapshotCurrent taken.before taken.action) :
    ∀ taken ∈ Runs.transitions (CompactedLog.step encode) (CompactedLog.start lines) steps,
      KeepsExactly taken.after :=
  fun taken member => (Runs.forall_transitions (CompactedLog.step encode)
    (step_sound encode) (start_sound lines) current taken member).2.exact

end

def numberLine (event : Nat) : Lines.Line Nat := { value := some event, bytes := 10 }

def preparing (process : Bool) : List (CompactionStep Bool Nat) :=
  [.stat process 1, .openFile process, .readChunk process 9, .endOfFile process]

theorem compaction_keeps_append :
    let steps := preparing true ++ [.append [numberLine 3], .apply true]
    let log := CompactedLog.start [numberLine 1, numberLine 2]
    Lines.values (Runs.finish (CompactedLog.step fun _ => 10) log steps).lines = [2, 3] ∧
      ∀ taken ∈ Runs.transitions (CompactedLog.step fun _ => 10) log steps,
        KeepsExactly taken.after := by
  intro steps log
  refine ⟨by decide, compaction_keeps_exactly (fun _ => 10) _ _ ?_⟩
  intro taken member
  simp only [steps, preparing, Runs.transitions, List.cons_append, List.nil_append, List.mem_cons,
    List.not_mem_nil, or_false] at member
  rcases member with rfl | rfl | rfl | rfl | rfl | rfl
  · trivial
  · trivial
  · trivial
  · trivial
  · trivial
  · intro compaction phase
    obtain rfl := CompactionPhase.prepared.inj phase.symm
    exact Or.inr ⟨rfl, rfl⟩

/-- **An append between the size and the read is doubled**: it is among the events kept, and behind
the remembered size. -/
theorem append_before_read_is_doubled :
    let log := Runs.finish (CompactedLog.step fun _ => 10)
      (CompactedLog.start [numberLine 1, numberLine 2])
      [.stat true 1, .append [numberLine 3], .openFile true, .readChunk true 9, .endOfFile true,
        .apply true]
    log.expected = [3] ∧ Lines.values log.lines = [3, 3] ∧ ¬ KeepsExactly log := by
  refine ⟨by decide, by decide, fun exact => ?_⟩
  exact absurd (congrArg List.length exact) (by decide)

/-- Another process compacts and the log grows again: what was dropped is back, and event 5 is
gone. -/
example :
    let log := Runs.finish (CompactedLog.step fun _ => 10)
      (CompactedLog.start [numberLine 1, numberLine 2])
      (preparing true ++ preparing false ++ [.apply false,
        .append [numberLine 5], .append [numberLine 6], .apply true])
    log.expected = [2, 5, 6] ∧ Lines.values log.lines = [2, 6] := by
  decide +kernel

end PiCrew.EventLog
