/-
**The verified watermark cache of a cursor.**

`state/event-log/cursor.ts`. A read with an anchor above `0` and a limit is served from a cache: the last events of
the file, the byte offset behind them, and the stamps they were read at. A file that grew under the same inode is
read from the offset on; anything else is read as a whole.

* `read_current` — a read answers as a full read would, if the stamps it trusts belong to the file;
* `cached_reads_agree` — so do all reads of a run in which a replaced file never has the stamps of the cached one;
* `recycled_inode_is_read_as_growth` — two replacements bring the inode back.

A read is one step.
-/

import PiCrew.Library.Runs
import PiCrew.EventLog.Cursor

namespace PiCrew.EventLog

section

variable {β : Type*}

/-- What the path names: a file, with what `stat` says of it. -/
structure LiveFile (β : Type*) where
  content : EventsFile β
  mtimeMs : Nat
  ino : Nat
  dev : Nat
  deriving DecidableEq, Repr

abbrev CursorLineEvent (β : Type*) := Lines.Item (TeamEvent β)

structure CursorTailCacheEntry (β : Type*) where
  size : Nat
  mtimeMs : Nat
  ino : Nat
  dev : Nat
  verifiedOffset : Nat
  lastSeq : Int
  verified : Bool
  ring : List (CursorLineEvent β)
  tornTail : Bool
  deriving DecidableEq, Repr

def sameInode (stat : LiveFile β) (entry : CursorTailCacheEntry β) : Bool :=
  stat.ino == entry.ino && stat.dev == entry.dev

def evictCursorRing (ring : List (CursorLineEvent β)) (bound : Nat) : List (CursorLineEvent β) :=
  if bound < ring.length then ring.drop (ring.length - bound) else ring

/-- One event of a scan: is the watermark unbroken, and where is it. -/
def scanSeq (reached : Bool × Option Int) (event : TeamEvent β) : Bool × Option Int :=
  match event.seq with
  | none => (false, reached.2)
  | some seq => if reached.2.any (seq < ·) then (false, reached.2) else (reached.1, some seq)

structure EventLineScan (β : Type*) where
  lines : List (CursorLineEvent β)
  verifiedBytes : Nat
  ok : Bool

/-- **Parse complete lines**, from the offset they start at. -/
def scanEventLines (lines : List (Lines.Line (TeamEvent β))) (baseOffset : Nat)
    (minSeq : Option Int) : EventLineScan β where
  lines := Lines.itemsFrom baseOffset lines
  verifiedBytes := Lines.size lines
  ok := ((Lines.values lines).foldl scanSeq (true, minSeq)).1

def lastLineSeq (scan : EventLineScan β) : Option Int := scan.lines.getLast?.bind (·.value.seq)

def rebuildCursorTailCache (live : LiveFile β) (bound : Nat) : CursorTailCacheEntry β :=
  let scan := scanEventLines live.content.lines 0 none
  { size := live.content.size, mtimeMs := live.mtimeMs, ino := live.ino, dev := live.dev
    verifiedOffset := scan.verifiedBytes, lastSeq := (lastLineSeq scan).getD 0, verified := scan.ok
    ring := evictCursorRing scan.lines bound, tornTail := decide (0 < live.content.torn) }

/-- Do a ring's events answer a read from this anchor? -/
def cursorRingProvable (entry : CursorTailCacheEntry β) (ring : List (CursorLineEvent β))
    (sinceSeq : Int) : Bool :=
  match ring with
  | [] => entry.verifiedOffset == 0 || (entry.verified && entry.lastSeq ≤ sinceSeq)
  | start :: _ => start.offset == 0 || (entry.verified && seqOf start.value ≤ sinceSeq)

def stampsUnchanged (live : LiveFile β) (previous : CursorTailCacheEntry β) : Bool :=
  live.content.size == previous.size && live.mtimeMs == previous.mtimeMs && sameInode live previous

def stampsGrown (live : LiveFile β) (previous : CursorTailCacheEntry β) : Bool :=
  previous.size < live.content.size && previous.mtimeMs ≤ live.mtimeMs &&
    sameInode live previous && previous.verifiedOffset < live.content.size

/-- The entry after the added lines were read. -/
def extendCursorTailCache (live : LiveFile β) (previous : CursorTailCacheEntry β)
    (preRing : List (CursorLineEvent β)) (scan : EventLineScan β) (bound : Nat) :
    CursorTailCacheEntry β :=
  { size := live.content.size, mtimeMs := live.mtimeMs, ino := live.ino, dev := live.dev
    verifiedOffset := previous.verifiedOffset + scan.verifiedBytes
    lastSeq := (lastLineSeq scan).getD previous.lastSeq, verified := previous.verified
    ring := evictCursorRing (preRing ++ scan.lines) bound
    tornTail := decide (0 < live.content.torn) }

/-- An answer from a ring, where the ring is sound for the anchor. -/
def answerFromRing (entry : CursorTailCacheEntry β) (archives : List (EventsFile β))
    (sinceSeq : Int) (limit : Nat) : Option (EventCursorResult β × CursorTailCacheEntry β) :=
  if cursorRingProvable entry entry.ring sinceSeq then
    some (cursorResultFromEvents (entry.ring.map (·.value)) archives sinceSeq (some limit)
      entry.tornTail, entry)
  else none

/-- **The fast branches**: nothing changed, or the file grew. -/
def readFromCache (previous : CursorTailCacheEntry β) (live : LiveFile β)
    (archives : List (EventsFile β)) (sinceSeq : Int) (limit : Nat) (bound : Nat) :
    Option (EventCursorResult β × CursorTailCacheEntry β) :=
  if stampsUnchanged live previous then
    answerFromRing { previous with ring := evictCursorRing previous.ring bound } archives sinceSeq
      limit
  else if stampsGrown live previous then
    let preRing := evictCursorRing previous.ring bound
    if cursorRingProvable previous preRing sinceSeq then
      let scan := scanEventLines (Lines.dropBytes previous.verifiedOffset live.content.lines)
        previous.verifiedOffset (some previous.lastSeq)
      if scan.ok then
        answerFromRing (extendCursorTailCache live previous preRing scan bound) archives sinceSeq
          limit
      else none
    else none
  else none

def readEventsCursorTailCached (cache : Option (CursorTailCacheEntry β)) (live : LiveFile β)
    (archives : List (EventsFile β)) (sinceSeq : Int) (limit : Nat) :
    EventCursorResult β × CursorTailCacheEntry β :=
  let bound := max tailEventCap limit * 2
  (cache.bind fun previous => readFromCache previous live archives sinceSeq limit bound).getD
    (cursorResultFromEvents (Lines.values live.content.lines) archives sinceSeq (some limit)
      (decide (0 < live.content.torn)), rebuildCursorTailCache live bound)

/-- **`readEventsCursor`**, by sequence number. A read that the cache does not serve drops its
entry. -/
def readEventsCursor (cache : Option (CursorTailCacheEntry β)) (live : Option (LiveFile β))
    (archives : List (EventsFile β)) (options : EventCursorOptions) :
    EventCursorResult β × Option (CursorTailCacheEntry β) :=
  let sinceSeq := (positiveInteger options.sinceSeq).getD 0
  let wide := readWide (live.map (·.content)) archives sinceSeq (positiveInteger options.limit)
  match positiveInteger options.limit, live with
  | some limit, some live =>
    if 0 < sinceSeq then
      let answer := readEventsCursorTailCached cache live archives sinceSeq limit
      (answer.1, some answer.2)
    else (wide, none)
  | _, _ => (wide, none)

end

section

variable {β : Type*}

/-- **Numbers in sequence**: every event has one, none is below the mark, and they do not
decrease. -/
structure InSequence (minSeq : Option Int) (events : List (TeamEvent β)) : Prop where
  numbered : ∀ event ∈ events, event.seq.isSome
  bounded : ∀ mark ∈ minSeq, ∀ event ∈ events, mark ≤ seqOf event
  ordered : events.Pairwise fun earlier later => seqOf earlier ≤ seqOf later

theorem scanSeq_ok {reached : Bool × Option Int} {event : TeamEvent β}
    (unbroken : (scanSeq reached event).1 = true) :
    reached.1 = true ∧ event.seq.isSome ∧ (∀ mark ∈ reached.2, mark ≤ seqOf event) ∧
      (scanSeq reached event).2 = some (seqOf event) := by
  unfold scanSeq at unbroken ⊢
  cases named : event.seq with
  | none => rw [named] at unbroken; exact absurd unbroken Bool.false_ne_true
  | some seq =>
    have number : seqOf event = seq := congrArg (Option.getD · 0) named
    rw [named] at unbroken
    simp only at unbroken ⊢
    by_cases backwards : reached.2.any (seq < ·) = true
    · rw [if_pos backwards] at unbroken
      exact absurd unbroken Bool.false_ne_true
    · rw [if_neg backwards] at unbroken ⊢
      refine ⟨unbroken, rfl, fun mark known => ?_, congrArg some number.symm⟩
      rw [number]
      by_contra above
      refine backwards ?_
      rw [Option.mem_def.mp known]
      exact decide_eq_true (not_le.mp above)

theorem inSequence_of_foldl {reached : Bool × Option Int} {events : List (TeamEvent β)}
    (unbroken : (events.foldl scanSeq reached).1 = true) :
    reached.1 = true ∧ InSequence reached.2 events := by
  induction events generalizing reached with
  | nil =>
    exact ⟨unbroken, fun _ member => absurd member List.not_mem_nil,
      fun _ _ _ member => absurd member List.not_mem_nil, List.Pairwise.nil⟩
  | cons event rest ih =>
    obtain ⟨first, others⟩ := ih unbroken
    obtain ⟨before, numbered, above, mark⟩ := scanSeq_ok first
    have later := others.bounded (seqOf event) mark
    refine ⟨before, ?_, ?_, List.pairwise_cons.mpr ⟨later, others.ordered⟩⟩
    · intro other member
      rcases List.mem_cons.mp member with rfl | there
      · exact numbered
      · exact others.numbered other there
    · intro low known other member
      rcases List.mem_cons.mp member with rfl | there
      · exact above low known
      · exact le_trans (above low known) (later other there)

theorem scan_inSequence {lines : List (Lines.Line (TeamEvent β))} (base : Nat)
    {minSeq : Option Int} (unbroken : (scanEventLines lines base minSeq).ok = true) :
    InSequence minSeq (Lines.values lines) :=
  (inSequence_of_foldl unbroken).2

theorem le_lastLineSeq {lines : List (Lines.Line (TeamEvent β))} {base : Nat}
    {minSeq : Option Int} (sequence : InSequence minSeq (Lines.values lines)) (other : Int)
    {event : TeamEvent β} (member : event ∈ Lines.values lines) :
    seqOf event ≤ (lastLineSeq (scanEventLines lines base minSeq)).getD other := by
  have read : (Lines.itemsFrom base lines).map (·.value) = Lines.values lines :=
    Lines.map_value_itemsFrom base lines
  rcases List.eq_nil_or_concat (Lines.itemsFrom base lines) with none | ⟨before, last, split⟩
  · rw [none] at read
    rw [← read] at member
    cases member
  · have ended : (scanEventLines lines base minSeq).lines.getLast? = some last := by
      show (Lines.itemsFrom base lines).getLast? = some last
      rw [split, List.concat_eq_append, List.getLast?_concat]
    rw [split, List.concat_eq_append, List.map_append] at read
    have inside : last.value ∈ Lines.values lines := by
      rw [← read]
      exact List.mem_append_right _ List.mem_cons_self
    obtain ⟨seq, named⟩ := Option.isSome_iff_exists.mp (sequence.numbered _ inside)
    have value : (lastLineSeq (scanEventLines lines base minSeq)).getD other = seqOf last.value := by
      rw [lastLineSeq, ended, Option.bind_some, named, seqOf, named]
      rfl
    have ordered := sequence.ordered
    rw [← read] at member ordered
    rw [value]
    rcases List.mem_append.mp member with earlier | same
    · exact (List.pairwise_append.mp ordered).2.2 event earlier last.value List.mem_cons_self
    · rw [List.mem_singleton.mp same]

end

section

variable {β : Type*}

/-- **An entry describes a file**: its offset is that of the last complete line, its ring is the end
of the events, and what it verified is true. -/
structure Describes (entry : CursorTailCacheEntry β) (file : EventsFile β) : Prop where
  size : entry.size = file.size
  offset : entry.verifiedOffset = Lines.size file.lines
  ring : entry.ring <:+ Lines.itemsFrom 0 file.lines
  ordered : entry.verified = true →
    (Lines.values file.lines).Pairwise fun earlier later => seqOf earlier ≤ seqOf later
  bounded : entry.verified = true → ∀ event ∈ Lines.values file.lines, seqOf event ≤ entry.lastSeq
  torn : entry.tornTail = decide (0 < file.torn)

theorem evictCursorRing_suffix (ring : List (CursorLineEvent β)) (bound : Nat) :
    evictCursorRing ring bound <:+ ring := by
  unfold evictCursorRing
  split_ifs with full
  · exact List.drop_suffix _ _
  · exact List.suffix_refl ring

theorem provable_sound {entry : CursorTailCacheEntry β} {file : EventsFile β}
    (describes : Describes entry file) {ring : List (CursorLineEvent β)}
    (suffix : ring <:+ Lines.itemsFrom 0 file.lines) {sinceSeq : Int}
    (provable : cursorRingProvable entry ring sinceSeq = true) :
    ∃ before, Lines.values file.lines = before ++ ring.map (·.value) ∧
      ∀ event ∈ before, seqOf event ≤ sinceSeq := by
  obtain ⟨front, split⟩ := suffix
  have read : Lines.values file.lines = front.map (·.value) ++ ring.map (·.value) := by
    rw [← Lines.map_value_itemsFrom 0 file.lines, ← split, List.map_append]
  refine ⟨front.map (·.value), read, fun event member => ?_⟩
  have inside : event ∈ Lines.values file.lines := by
    rw [read]
    exact List.mem_append_left _ member
  cases ring with
  | nil =>
    rcases Bool.or_eq_true_iff.mp provable with empty | passed
    · have none : file.lines = [] :=
        Lines.size_eq_zero (describes.offset.symm.trans (beq_iff_eq.mp empty))
      rw [none] at inside
      cases inside
    · obtain ⟨verified, reached⟩ := Bool.and_eq_true_iff.mp passed
      exact le_trans (describes.bounded verified event inside) (of_decide_eq_true reached)
  | cons start rest =>
    rcases Bool.or_eq_true_iff.mp provable with first | passed
    · rw [Lines.suffix_whole split.symm (beq_iff_eq.mp first)] at member
      cases member
    · obtain ⟨verified, reached⟩ := Bool.and_eq_true_iff.mp passed
      have ordered := describes.ordered verified
      rw [read] at ordered
      exact le_trans
        ((List.pairwise_append.mp ordered).2.2 event member start.value List.mem_cons_self)
        (of_decide_eq_true reached)

theorem describes_rebuild (live : LiveFile β) (bound : Nat) :
    Describes (rebuildCursorTailCache live bound) live.content where
  size := rfl
  offset := rfl
  ring := evictCursorRing_suffix _ _
  ordered := fun unbroken => (scan_inSequence 0 unbroken).ordered
  bounded := fun unbroken _ member => le_lastLineSeq (scan_inSequence 0 unbroken) 0 member
  torn := rfl

/-- **A read of the added lines leaves an entry that describes the file.** -/
theorem describes_extend {previous : CursorTailCacheEntry β} {old : EventsFile β}
    (describes : Describes previous old) {live : LiveFile β}
    {added : List (Lines.Line (TeamEvent β))} (grew : live.content.lines = old.lines ++ added)
    {preRing : List (CursorLineEvent β)} (suffix : preRing <:+ previous.ring) {base : Nat}
    (start : base = Lines.size old.lines)
    (unbroken : (scanEventLines added base (some previous.lastSeq)).ok = true) (bound : Nat) :
    Describes (extendCursorTailCache live previous preRing
      (scanEventLines added base (some previous.lastSeq)) bound) live.content where
  size := rfl
  offset := by
    show previous.verifiedOffset + Lines.size added = _
    rw [grew, Lines.size_append, describes.offset]
  ring := by
    have items : Lines.itemsFrom 0 live.content.lines
        = Lines.itemsFrom 0 old.lines ++ Lines.itemsFrom base added := by
      rw [grew, Lines.itemsFrom_append, Nat.zero_add, start]
    rw [items]
    obtain ⟨front, whole⟩ := suffix.trans describes.ring
    refine (evictCursorRing_suffix _ _).trans ⟨front, ?_⟩
    rw [← whole, List.append_assoc]
    rfl
  ordered := by
    intro verified
    have sequence := scan_inSequence base unbroken
    rw [grew, Lines.values_append]
    refine List.pairwise_append.mpr ⟨describes.ordered verified, sequence.ordered, ?_⟩
    intro earlier early later late
    exact le_trans (describes.bounded verified earlier early)
      (sequence.bounded previous.lastSeq rfl later late)
  bounded := by
    intro verified event member
    have sequence := scan_inSequence base unbroken
    rw [grew, Lines.values_append] at member
    show seqOf event ≤ (lastLineSeq (scanEventLines added base _)).getD previous.lastSeq
    rcases List.mem_append.mp member with early | late
    · have low := describes.bounded verified event early
      cases last : lastLineSeq (scanEventLines added base (some previous.lastSeq)) with
      | none => exact low
      | some seq =>
        obtain ⟨item, there, named⟩ := Option.bind_eq_some_iff.mp last
        have inside : item.value ∈ Lines.values added := by
          rw [← Lines.map_value_itemsFrom base added]
          exact List.mem_map_of_mem (List.mem_of_getLast? there)
        have number : seqOf item.value = seq := congrArg (Option.getD · 0) named
        have high := sequence.bounded previous.lastSeq rfl item.value inside
        rw [number] at high
        exact le_trans low high
    · exact le_lastLineSeq sequence previous.lastSeq late
  torn := rfl

end

section

variable {β : Type*}

/-- **The answer of parsing the whole file from scratch.** -/
def parseFromScratch (live : Option (LiveFile β)) (archives : List (EventsFile β))
    (sinceSeq : Int) (limit : Nat) : EventCursorResult β :=
  match live with
  | some live =>
    cursorResultFromEvents (Lines.values live.content.lines) archives sinceSeq (some limit)
      (decide (0 < live.content.torn))
  | none => cursorResultFromEvents [] archives sinceSeq (some limit) false

/-- **An entry belongs to a file**: it described the file before something was appended. -/
def BelongsTo (entry : CursorTailCacheEntry β) (live : LiveFile β) : Prop :=
  ∃ old lines torn, live.content = old.write lines torn ∧ Describes entry old

variable {live : LiveFile β} {archives : List (EventsFile β)}
  {answer : EventCursorResult β × CursorTailCacheEntry β}

theorem BelongsTo.of_describes {entry : CursorTailCacheEntry β}
    (describes : Describes entry live.content) : BelongsTo entry live :=
  ⟨live.content, [], 0, rfl, describes⟩

def stampsPass (live : LiveFile β) (entry : CursorTailCacheEntry β) : Bool :=
  stampsUnchanged live entry || stampsGrown live entry

theorem answerFromRing_sound {entry : CursorTailCacheEntry β}
    (describes : Describes entry live.content) {sinceSeq : Int} {limit : Nat}
    (answered : answerFromRing entry archives sinceSeq limit = some answer) :
    answer.1 = parseFromScratch (some live) archives sinceSeq limit ∧
      Describes answer.2 live.content := by
  unfold answerFromRing at answered
  by_cases provable : cursorRingProvable entry entry.ring sinceSeq = true
  · rw [if_pos provable] at answered
    obtain rfl := Option.some.inj answered
    obtain ⟨before, read, passed⟩ := provable_sound describes describes.ring provable
    refine ⟨?_, describes⟩
    show cursorResultFromEvents _ archives sinceSeq (some limit) entry.tornTail
      = cursorResultFromEvents (Lines.values live.content.lines) archives sinceSeq (some limit) _
    rw [read, cursorResult_of_suffix passed, describes.torn]
  · rw [if_neg provable] at answered
    cases answered

/-- **A fast branch answers as a full read**, from an entry that belongs to the file. -/
theorem readFromCache_sound {previous : CursorTailCacheEntry β}
    (belongs : BelongsTo previous live) {sinceSeq : Int} {limit bound : Nat}
    (answered : readFromCache previous live archives sinceSeq limit bound = some answer) :
    answer.1 = parseFromScratch (some live) archives sinceSeq limit ∧
      Describes answer.2 live.content := by
  obtain ⟨old, lines, torn, written, describes⟩ := belongs
  unfold readFromCache at answered
  by_cases unchanged : stampsUnchanged live previous = true
  · rw [if_pos unchanged] at answered
    have sized : live.content.size = previous.size :=
      beq_iff_eq.mp (Bool.and_eq_true_iff.mp (Bool.and_eq_true_iff.mp unchanged).1).1
    have still : live.content = old := by
      rw [written] at sized ⊢
      exact Lines.write_eq_of_size (sized.trans describes.size)
    have evicted : Describes { previous with ring := evictCursorRing previous.ring bound }
        live.content := by
      rw [still]
      exact { describes with ring := (evictCursorRing_suffix _ _).trans describes.ring }
    exact answerFromRing_sound evicted answered
  · rw [if_neg unchanged] at answered
    by_cases grown : stampsGrown live previous = true
    · rw [if_pos grown] at answered
      have grew : live.content.lines = old.lines ++ Lines.finishTorn old.torn lines := by
        rw [written, Lines.lines_write]
      have rest : Lines.dropBytes previous.verifiedOffset live.content.lines
          = Lines.finishTorn old.torn lines := by
        rw [grew, describes.offset, Lines.dropBytes_size]
      simp only [rest] at answered
      by_cases provable : cursorRingProvable previous (evictCursorRing previous.ring bound)
          sinceSeq = true
      · rw [if_pos provable] at answered
        by_cases unbroken : (scanEventLines (Lines.finishTorn old.torn lines)
            previous.verifiedOffset (some previous.lastSeq)).ok = true
        · rw [if_pos unbroken] at answered
          exact answerFromRing_sound (describes_extend describes grew
            (evictCursorRing_suffix _ _) describes.offset unbroken bound) answered
        · rw [if_neg unbroken] at answered
          cases answered
      · rw [if_neg provable] at answered
        cases answered
    · rw [if_neg grown] at answered
      cases answered

theorem stampsPass_of_readFromCache {previous : CursorTailCacheEntry β} {sinceSeq : Int} {limit bound : Nat}
    (answered : readFromCache previous live archives sinceSeq limit bound = some answer) :
    stampsPass live previous = true := by
  unfold readFromCache at answered
  by_cases unchanged : stampsUnchanged live previous = true
  · exact Bool.or_eq_true_iff.mpr (Or.inl unchanged)
  · rw [if_neg unchanged] at answered
    by_cases grown : stampsGrown live previous = true
    · exact Bool.or_eq_true_iff.mpr (Or.inr grown)
    · rw [if_neg grown] at answered
      cases answered

/-- **A cached read answers as a full read**, if a trusted entry belongs to the file. -/
theorem read_current {cache : Option (CursorTailCacheEntry β)}
    (trusted : ∀ entry ∈ cache, stampsPass live entry = true → BelongsTo entry live)
    (archives : List (EventsFile β)) (sinceSeq : Int) (limit : Nat) :
    (readEventsCursorTailCached cache live archives sinceSeq limit).1
        = parseFromScratch (some live) archives sinceSeq limit ∧
      Describes (readEventsCursorTailCached cache live archives sinceSeq limit).2
        live.content := by
  unfold readEventsCursorTailCached
  simp only
  cases fast : cache.bind fun previous =>
      readFromCache previous live archives sinceSeq limit (max tailEventCap limit * 2) with
  | none => exact ⟨rfl, describes_rebuild live _⟩
  | some answer =>
    obtain ⟨entry, cached, answered⟩ := Option.bind_eq_some_iff.mp fast
    exact readFromCache_sound (trusted entry cached (stampsPass_of_readFromCache answered))
      answered

end

section

variable {β : Type}

/-- **A cursor's surroundings**: the file at the path, its archives and the cache entry. `replaced`
says whether the file was replaced since the last read. -/
structure CursorSystem (β : Type) where
  live : Option (LiveFile β)
  archives : List (EventsFile β) := []
  cache : Option (CursorTailCacheEntry β) := none
  replaced : Bool := false

inductive CursorStep (β : Type) where
  | append (lines : List (Lines.Line (TeamEvent β))) (torn : Nat) (mtimeMs : Nat)
  | replace (live : Option (LiveFile β))
  | archive (archives : List (EventsFile β))
  | forget
  | read (options : EventCursorOptions)

def CursorSystem.step (system : CursorSystem β) : CursorStep β → CursorSystem β
  | .append lines torn mtimeMs =>
    { system with
      live := system.live.map fun live =>
        { live with content := live.content.write lines torn, mtimeMs := mtimeMs } }
  | .replace live => { system with live := live, replaced := true }
  | .archive archives => { system with archives := archives }
  | .forget => { system with cache := none }
  | .read options =>
    { system with
      cache := (readEventsCursor system.cache system.live system.archives options).2
      replaced := false }

def EventCursorOptions.usesCache (options : EventCursorOptions) : Bool :=
  (positiveInteger options.limit).isSome && 0 < (positiveInteger options.sinceSeq).getD 0

/-- **A cached read answers as a full parse of the file.** -/
def ReadAgrees (system : CursorSystem β) : CursorStep β → Prop
  | .read options =>
    options.usesCache = true → (readEventsCursor system.cache system.live system.archives options).1
        = parseFromScratch system.live system.archives
            ((positiveInteger options.sinceSeq).getD 0) ((positiveInteger options.limit).getD 0)
  | _ => True

/-- **A replaced file is not mistaken for the cached one**: where a cached read finds stamps that
pass, the file was not replaced since the last read. -/
def StampsTell (system : CursorSystem β) : CursorStep β → Prop
  | .read options =>
    options.usesCache = true →
      ∀ live ∈ system.live, ∀ entry ∈ system.cache, stampsPass live entry = true →
        system.replaced = false
  | _ => True

/-- **The invariant**: without a replacement since, the cached entry belongs to the file. -/
def CacheCurrent (system : CursorSystem β) : Prop := system.replaced = false →
    ∀ entry ∈ system.cache, ∃ live ∈ system.live, BelongsTo entry live

variable {options : EventCursorOptions}

theorem trusted_of_current {system : CursorSystem β} (current : CacheCurrent system)
    (cached : options.usesCache = true)
    (tell : StampsTell system (.read options)) {live : LiveFile β} (there : system.live = some live) :
    ∀ entry ∈ system.cache, stampsPass live entry = true → BelongsTo entry live := by
  intro entry member pass
  obtain ⟨other, found, belongs⟩ := current (tell cached live there entry member pass) entry member
  rw [there] at found
  obtain rfl := Option.some.inj found
  exact belongs

theorem readEventsCursor_cached (cached : options.usesCache = true)
    (cache : Option (CursorTailCacheEntry β)) (live : LiveFile β)
    (archives : List (EventsFile β)) :
    let answer := readEventsCursorTailCached cache live archives
      ((positiveInteger options.sinceSeq).getD 0) ((positiveInteger options.limit).getD 0)
    readEventsCursor cache (some live) archives options = (answer.1, some answer.2) := by
  obtain ⟨limited, anchored⟩ := Bool.and_eq_true_iff.mp cached
  obtain ⟨limit, named⟩ := Option.isSome_iff_exists.mp limited
  have high : 0 < (positiveInteger options.sinceSeq).getD 0 := of_decide_eq_true anchored
  simp only [readEventsCursor, named, Option.getD_some, if_pos high]

theorem readEventsCursor_wide (wide : ¬ options.usesCache = true)
    (cache : Option (CursorTailCacheEntry β)) (live : Option (LiveFile β))
    (archives : List (EventsFile β)) :
    readEventsCursor cache live archives options
      = (readWide (live.map (·.content)) archives ((positiveInteger options.sinceSeq).getD 0)
          (positiveInteger options.limit), none) := by
  unfold readEventsCursor
  cases named : positiveInteger options.limit with
  | none => cases live <;> rfl
  | some limit =>
    have low : ¬ 0 < (positiveInteger options.sinceSeq).getD 0 := by
      intro high
      refine wide (Bool.and_eq_true_iff.mpr ⟨?_, decide_eq_true high⟩)
      rw [named]
      rfl
    cases live with
    | none => rfl
    | some live => exact if_neg low

theorem readAgrees_of_current {system : CursorSystem β} (current : CacheCurrent system)
    {step : CursorStep β} (tell : StampsTell system step) : ReadAgrees system step := by
  cases step with
  | read options =>
    intro cached
    cases there : system.live with
    | none =>
      obtain ⟨limited, -⟩ := Bool.and_eq_true_iff.mp cached
      obtain ⟨limit, named⟩ := Option.isSome_iff_exists.mp limited
      simp only [readEventsCursor, named, Option.getD_some]
      rfl
    | some live =>
      rw [readEventsCursor_cached cached]
      exact (read_current (trusted_of_current current cached tell there) _ _ _).1
  | append lines torn mtimeMs | replace live | archive archives | forget => trivial

theorem step_current (system : CursorSystem β) (step : CursorStep β)
    (current : CacheCurrent system) (tell : StampsTell system step) :
    CacheCurrent (system.step step) := by
  cases step with
  | append lines torn mtimeMs =>
    intro kept entry member
    obtain ⟨live, there, old, before, rest, written, describes⟩ := current kept entry member
    refine ⟨_, Option.mem_map_of_mem _ there, ?_⟩
    obtain ⟨all, unfinished, joined⟩ := Lines.write_write old before lines rest torn
    exact ⟨old, all, unfinished, (congrArg (Lines.File.write · lines torn) written).trans joined,
      describes⟩
  | replace live => exact fun kept => absurd kept.symm Bool.false_ne_true
  | archive archives => exact current
  | forget => exact fun _ entry member => absurd member (Option.not_mem_none entry)
  | read options =>
    intro _ entry member
    have left : entry ∈ (readEventsCursor system.cache system.live system.archives options).2 :=
      member
    by_cases cached : options.usesCache = true
    · cases there : system.live with
      | none =>
        obtain ⟨limited, -⟩ := Bool.and_eq_true_iff.mp cached
        obtain ⟨limit, named⟩ := Option.isSome_iff_exists.mp limited
        simp only [readEventsCursor, there, named] at left
        cases left
      | some live =>
        rw [there, readEventsCursor_cached cached] at left
        obtain rfl := Option.some.inj left
        exact ⟨live, there, BelongsTo.of_describes
          (read_current (trusted_of_current current cached tell there) _ _ _).2⟩
    · rw [readEventsCursor_wide cached] at left
      cases left

/-- **Cached reads agree with full reads.** For every run of appends in any order, replacements and
reads, in which no replaced file passes for the cached one. -/
theorem cached_reads_agree (live : Option (LiveFile β)) (archives : List (EventsFile β))
    (steps : List (CursorStep β))
    (tell : ∀ taken ∈ Runs.transitions CursorSystem.step
      { live := live, archives := archives } steps, StampsTell taken.before taken.action) :
    ∀ taken ∈ Runs.transitions CursorSystem.step { live := live, archives := archives } steps,
      ReadAgrees taken.before taken.action := by
  have initial : CacheCurrent { live := live, archives := archives } :=
    fun _ entry member => absurd member (Option.not_mem_none entry)
  intro taken member
  exact readAgrees_of_current
    (Runs.forall_transitions CursorSystem.step step_current initial tell taken member).1
    (tell taken member)

def eventLine (seq : Int) : Lines.Line (TeamEvent Unit) :=
  { value := some { seq := some seq, body := () }, bytes := 10 }

def twoEvents : LiveFile Unit :=
  { content := { lines := [eventLine 1, eventLine 2] }, mtimeMs := 1, ino := 1, dev := 1 }

theorem cached_reads_agree_append :
    let steps : List (CursorStep Unit) :=
      [.read { sinceSeq := some 1, limit := some 10 }, .append [eventLine 3] 0 2,
        .read { sinceSeq := some 2, limit := some 10 }]
    (Runs.finish CursorSystem.step { live := some twoEvents } steps).cache.isSome ∧
      ∀ taken ∈ Runs.transitions CursorSystem.step { live := some twoEvents } steps,
        ReadAgrees taken.before taken.action := by
  intro steps
  refine ⟨by decide, cached_reads_agree (some twoEvents) [] _ ?_⟩
  intro taken member
  simp only [steps, Runs.transitions, List.mem_cons, List.not_mem_nil, or_false] at member
  rcases member with rfl | rfl | rfl
  · exact fun _ _ _ _ cached => absurd cached (Option.not_mem_none _)
  · trivial
  · exact fun _ _ _ _ _ _ => rfl

/-- **A recycled inode is read as growth.** Two replacements bring the inode of the cached file back,
and an append makes the new file longer. The read continues behind the old events: it delivers event
2, which is gone, and not the events 5 and 6. -/
theorem recycled_inode_is_read_as_growth :
    let options : EventCursorOptions := { sinceSeq := some 1, limit := some 10 }
    let system := Runs.finish CursorSystem.step { live := some twoEvents }
      [.read options,
        .replace (some { content := { lines := [eventLine 4] }, mtimeMs := 2, ino := 2, dev := 1 }),
        .replace (some { content := { lines := [eventLine 5, eventLine 6] }, mtimeMs := 3, ino := 1,
                         dev := 1 }),
        .append [eventLine 7] 0 4]
    (readEventsCursor system.cache system.live system.archives options).1.events.map seqOf = [2, 7] ∧
      (parseFromScratch system.live system.archives 1 10).events.map seqOf = [5, 6, 7] ∧
      ¬ ReadAgrees system (.read options) := by
  refine ⟨by decide, by decide, fun agrees => ?_⟩
  exact absurd (congrArg (·.total) (agrees (by decide))) (by decide)

end

end PiCrew.EventLog
