/-
**Paging through an event log.**

`readEventsCursor` of `state/event-log/cursor.ts`, called again and again on a log that does not
change: from `0`, with any limits, and on from the `nextSeq` of each answer. The first call takes the
wide read, and all later ones that follow an event are served by the watermark cache.

* `readPages_eq` — the pages of a reader are those of paging by watermark;
* `paging_delivers_all` — every event is delivered once, in the order of the numbers, and the reader
  comes to an end.
-/

import PiCrew.EventLog.TailCache

namespace PiCrew.EventLog

section

variable {β : Type}

def liveEvents (live : Option (LiveFile β)) : List (TeamEvent β) :=
  live.elim [] fun live => Lines.values live.content.lines

def CursorSystem.events (system : CursorSystem β) : List (TeamEvent β) :=
  archivedEvents system.archives ++ liveEvents system.live

/-- **A log within the read caps**, whose events have unique positive numbers. -/
structure PageableLog (system : CursorSystem β) : Prop where
  archives : ∀ archive ∈ system.archives, archive.size ≤ tailBytes
  live : ∀ live ∈ system.live, live.content.size ≤ tailBytes
  cap : (liveEvents system.live).length ≤ tailEventCap
  numbered : ∀ event ∈ system.events, ∃ seq, event.seq = some seq ∧ 0 < seq
  unique : (system.events.map seqOf).Nodup

def pageOptions (sinceSeq : Int) (limit : Nat) : EventCursorOptions :=
  { sinceSeq := some sinceSeq, limit := some limit }

/-- **Read page after page**, each from the `nextSeq` of the one before. -/
def readPages (system : CursorSystem β) (sinceSeq : Int) : List Nat → List (List (TeamEvent β))
  | [] => []
  | limit :: rest =>
    let options := pageOptions sinceSeq limit
    let answer := (readEventsCursor system.cache system.live system.archives options).1
    answer.events :: readPages (system.step (.read options)) answer.nextSeq rest

/-- **The pages deliver every event of a log once**, in the order of the numbers: with as many pages
as events all were delivered, an empty page comes only when they were, and nothing comes after. -/
structure DeliversAll (events : List (TeamEvent β)) (pages : List (List (TeamEvent β))) : Prop where
  increasing : pages.flatten.Pairwise fun earlier later => seqOf earlier < seqOf later
  once : pages.flatten.Subperm events
  complete : events.length ≤ pages.length → pages.flatten.Perm events
  ends : ∀ before, before ++ [[]] <+: pages → before.flatten.Perm events
  quiet : ∀ page ∈ pages.drop events.length, page = []

end

section

variable {β : Type} {system : CursorSystem β}

theorem answer_of_log (pageable : PageableLog system) (sinceSeq : Int) (limit : Nat) (tornTail : Bool) :
    (cursorResultFromEvents (liveEvents system.live) system.archives sinceSeq (some limit)
        tornTail).events
      = Paging.page seqOf system.events sinceSeq limit := by
  have small : (liveEvents system.live).length - tailEventCap = 0 :=
    Nat.sub_eq_zero_of_le pageable.cap
  have numbered : ∀ event ∈ archivedEvents system.archives, event.seq.isSome := by
    intro event member
    obtain ⟨seq, named, -⟩ := pageable.numbered event (List.mem_append_left _ member)
    rw [named]
    rfl
  have unique := pageable.unique
  have archived : (readArchiveTailEvents system.archives sinceSeq).Perm
      ((archivedEvents system.archives).filter fun event => sinceSeq < seqOf event) :=
    perm_readArchiveTailEvents pageable.archives numbered
      (unique.sublist ((List.sublist_append_left _ _).map seqOf))
  have together : (readArchiveTailEvents system.archives sinceSeq ++
      (liveEvents system.live).filter fun event => sinceSeq < seqOf event).Perm
        (Paging.above seqOf sinceSeq system.events) := by
    have split : Paging.above seqOf sinceSeq system.events
        = (archivedEvents system.archives).filter (fun event => sinceSeq < seqOf event) ++
          (liveEvents system.live).filter fun event => sinceSeq < seqOf event :=
      List.filter_append ..
    rw [split]
    exact archived.append_right _
  have apart : ((Paging.above seqOf sinceSeq system.events).map seqOf).Nodup :=
    unique.sublist (List.filter_sublist.map seqOf)
  have merged := perm_mergeArchiveTailEvents ((together.map seqOf).nodup_iff.mpr apart)
  have sorted := Paging.inOrder_congr (merged.trans together).symm apart
  simp only [cursorResultFromEvents, small, List.drop_zero]
  rw [sortBySeq, ← sorted]
  rfl

/-- A cache that reads may trust. -/
structure CacheValid (system : CursorSystem β) : Prop where
  current : CacheCurrent system
  still : system.replaced = false

theorem CacheValid.tell (valid : CacheValid system) {options : EventCursorOptions} :
    StampsTell system (.read options) := fun _ _ _ _ _ _ => valid.still

/-- A result whose events are a page goes on above the page. -/
def IsPage (system : CursorSystem β) (sinceSeq : Int) (limit : Nat)
    (answer : EventCursorResult β) : Prop :=
  answer.events = Paging.page seqOf system.events sinceSeq limit ∧
    answer.nextSeq = Paging.highest seqOf sinceSeq answer.events

theorem isPage_parseFromScratch (pageable : PageableLog system) (sinceSeq : Int) (limit : Nat) :
    IsPage system sinceSeq limit (parseFromScratch system.live system.archives sinceSeq limit) := by
  have page := answer_of_log pageable sinceSeq limit
  cases there : system.live with
  | none =>
    rw [there] at page
    exact ⟨page false, rfl⟩
  | some live =>
    rw [there] at page
    exact ⟨page _, rfl⟩

theorem isPage_readWide (pageable : PageableLog system) (sinceSeq : Int) (limit : Nat) :
    IsPage system sinceSeq limit
      (readWide (system.live.map (·.content)) system.archives sinceSeq (some limit)) := by
  have page := answer_of_log pageable sinceSeq limit
  cases there : system.live with
  | none =>
    rw [there] at page
    exact ⟨page false, rfl⟩
  | some live =>
    rw [there] at page
    have whole := readJsonlTail_whole (pageable.live live there)
    simp only [Option.map_some, readWide, whole]
    exact ⟨page _, rfl⟩

theorem positiveInteger_nat (number : Nat) : positiveInteger (some (number : Int)) = some number := by
  show (if 0 ≤ (number : Int) then some (number : Int).toNat else none) = some number
  rw [if_pos (Int.natCast_nonneg number), Int.toNat_natCast]

theorem isPage_readEventsCursor (pageable : PageableLog system) {sinceSeq limit : Nat}
    (valid : (pageOptions sinceSeq limit).usesCache = true → CacheValid system) :
    IsPage system sinceSeq limit (readEventsCursor system.cache system.live system.archives
      (pageOptions sinceSeq limit)).1 := by
  have anchor : (positiveInteger (pageOptions sinceSeq limit).sinceSeq).getD 0 = sinceSeq := by
    rw [pageOptions, positiveInteger_nat, Option.getD_some]
  have limited : positiveInteger (pageOptions sinceSeq limit).limit = some limit :=
    positiveInteger_nat limit
  by_cases cached : (pageOptions sinceSeq limit).usesCache = true
  · have agrees := readAgrees_of_current (valid cached).current (valid cached).tell cached
    rw [agrees, anchor, limited, Option.getD_some]
    exact isPage_parseFromScratch pageable sinceSeq limit
  · rw [readEventsCursor_wide cached, anchor, limited]
    exact isPage_readWide pageable sinceSeq limit

theorem cacheValid_read {options : EventCursorOptions}
    (valid : options.usesCache = true → CacheValid system) :
    CacheValid (system.step (.read options)) := by
  refine ⟨?_, rfl⟩
  by_cases cached : options.usesCache = true
  · exact step_current system (.read options) (valid cached).current (valid cached).tell
  · have dropped := congrArg (·.2)
      (readEventsCursor_wide cached system.cache system.live system.archives)
    intro _ entry member
    have left : entry ∈ (readEventsCursor system.cache system.live system.archives options).2 :=
      member
    rw [dropped] at left
    exact absurd left (Option.not_mem_none entry)

end

section

variable {β : Type}

/-- **The pages of a reader are those of paging by watermark.** -/
theorem readPages_eq {system : CursorSystem β} (pageable : PageableLog system) {sinceSeq : Int}
    (nonneg : 0 ≤ sinceSeq)
    (valid : ∀ limit, (pageOptions sinceSeq limit).usesCache = true → CacheValid system)
    (limits : List Nat) :
    readPages system sinceSeq limits = Paging.pages seqOf system.events sinceSeq limits := by
  induction limits generalizing system sinceSeq with
  | nil => rfl
  | cons limit rest ih =>
    obtain ⟨anchor, rfl⟩ := Int.eq_ofNat_of_zero_le nonneg
    obtain ⟨events, next⟩ := isPage_readEventsCursor pageable (valid limit)
    -- a read changes neither the files nor, therefore, the events
    have same : PageableLog (system.step (.read (pageOptions anchor limit))) := {
      archives := pageable.archives, live := pageable.live, cap := pageable.cap
      numbered := pageable.numbered, unique := pageable.unique }
    have higher : (anchor : Int) ≤ (readEventsCursor system.cache system.live system.archives
        (pageOptions anchor limit)).1.nextSeq := by
      rw [next]
      exact Paging.le_highest _ _
    have later := ih same (le_trans nonneg higher) fun _ _ => cacheValid_read (valid limit)
    rw [readPages, Paging.pages, ← events, ← next]
    exact congrArg _ later

/-- **The pages of paging by watermark, from `0`, deliver all events**, when their numbers are unique and
positive and the limits are at least one. -/
theorem deliversAll_pages {events : List (TeamEvent β)}
    (numbered : ∀ event ∈ events, ∃ seq, event.seq = some seq ∧ 0 < seq)
    (unique : (events.map seqOf).Nodup) {limits : List Nat} (positive : ∀ limit ∈ limits, 1 ≤ limit) :
    DeliversAll events (Paging.pages seqOf events 0 limits) := by
  have everything : Paging.above seqOf 0 events = events := by
    refine List.filter_eq_self.mpr fun event member => decide_eq_true ?_
    obtain ⟨seq, named, above⟩ := numbered event member
    rw [seqOf, named]
    exact above
  have ordered := Paging.inOrder_perm seqOf events
  have delivered := Paging.flatten_pages unique 0 limits
  have counted := ordered.length_eq
  rw [everything] at delivered
  refine ⟨?_, ?_, fun enough => ?_, fun before start => ?_, ?_⟩
  · rw [delivered]
    exact (Paging.inOrder_increasing unique).sublist (List.take_sublist _ _)
  · rw [delivered]
    exact (List.take_sublist _ _).subperm.trans ordered.subperm
  · rw [Paging.length_pages] at enough
    have all := Paging.pages_complete unique 0 positive (by rwa [everything, counted])
    rwa [all, everything]
  · have all := Paging.pages_end unique positive start
    rwa [all, everything]
  · have after := Paging.pages_quiet unique 0 positive
    rwa [everything, counted] at after

def unorderedLog : CursorSystem Unit where
  live := some { content := { lines := [eventLine 3, eventLine 1] }, mtimeMs := 1, ino := 1, dev := 1 }
  archives := [{ lines := [eventLine 2] }]

theorem unorderedLog_pageable : PageableLog unorderedLog where
  archives := by decide
  live := by
    intro live there
    obtain rfl := Option.some.inj there
    decide
  cap := by decide
  numbered := by
    have events : unorderedLog.events
        = [{ seq := some 2, body := () }, { seq := some 3, body := () },
            { seq := some 1, body := () }] := rfl
    intro event member
    rw [events] at member
    rcases List.mem_cons.mp member with rfl | later
    · exact ⟨2, rfl, by decide⟩
    · rcases List.mem_cons.mp later with rfl | last
      · exact ⟨3, rfl, by decide⟩
      · rw [List.mem_singleton.mp last]
        exact ⟨1, rfl, by decide⟩
  unique := by decide

end

end PiCrew.EventLog
