/-
**Reading an event log by sequence number.**

`state/event-log/cursor.ts` and `readJsonlTail` of `utils/incremental-reader.ts`. A read takes the end of the live
file, keeps the events above its anchor, adds those that a rotation left in an archive, and delivers the lowest of
them up to its limit. `nextSeq` is the anchor of the next read.

* `perm_mergeArchiveTailEvents` — with unique numbers, live and archived events are delivered once.

A file is a list of lines (`Lines.File`): a broken line is skipped, and the markers are left out. The bytes of an
unfinished line are never blank.
-/

import PiCrew.Library.Lines
import PiCrew.Library.Paging

namespace PiCrew.EventLog

section

variable {β : Type*}

/-- An event: its `metadata.seq`, and everything else. -/
structure TeamEvent (β : Type*) where
  seq : Option Int
  body : β
  deriving DecidableEq, Repr

/-- `event.metadata?.seq ?? 0`. -/
def seqOf (event : TeamEvent β) : Int := event.seq.getD 0

abbrev EventsFile (β : Type*) := Lines.File (TeamEvent β)

def sortBySeq (events : List (TeamEvent β)) : List (TeamEvent β) := Paging.inOrder seqOf events

/-- `TAIL_BYTES` and `ARCHIVE_TAIL_BYTES`: 4 MB. -/
def tailBytes : Nat := 4 * 1024 * 1024

def tailEventCap : Nat := 5000

end

section

variable {β : Type*}

structure EventsFileRead (β : Type*) where
  events : List (TeamEvent β)
  tornTail : Bool
  truncated : Bool
  deriving DecidableEq, Repr

/-- **Read the last `limit` bytes of a file.** When they are not all of it, their first line may be
cut and is dropped. -/
def readJsonlTail (file : EventsFile β) (limit : Nat) : EventsFileRead β :=
  let startOffset := file.size - limit
  if startOffset = 0 then
    { events := Lines.values file.lines, tornTail := decide (0 < file.torn), truncated := false }
  else
    match Lines.dropBytes startOffset file.lines with
    | [] => { events := [], tornTail := false, truncated := true }
    | _ :: whole =>
      { events := Lines.values whole, tornTail := decide (0 < file.torn), truncated := true }

/-- Keep an event if it is the first above the anchor with its number. -/
def keepFirst (sinceSeq : Int) (bySeq : List (TeamEvent β)) (event : TeamEvent β) :
    List (TeamEvent β) :=
  match event.seq with
  | none => bySeq
  | some seq =>
    if seq ≤ sinceSeq ∨ seq ∈ bySeq.map seqOf then bySeq else bySeq ++ [event]

/-- **The events above the anchor in the ends of the archives.** -/
def readArchiveTailEvents (archives : List (EventsFile β)) (sinceSeq : Int) :
    List (TeamEvent β) :=
  sortBySeq ((archives.flatMap fun archive => (readJsonlTail archive tailBytes).events).foldl
    (keepFirst sinceSeq) [])

def putBySeq (bySeq : List (TeamEvent β)) (event : TeamEvent β) : List (TeamEvent β) :=
  if seqOf event ∈ bySeq.map seqOf then
    bySeq.map fun held => if seqOf held = seqOf event then event else held
  else bySeq ++ [event]

/-- Archived and live events; the live one wins where both have a number. -/
def mergeArchiveTailEvents (archiveEvents liveEvents : List (TeamEvent β)) :
    List (TeamEvent β) :=
  if archiveEvents.isEmpty then liveEvents
  else sortBySeq (liveEvents.foldl putBySeq (archiveEvents.foldl putBySeq []))

structure EventCursorOptions where
  sinceSeq : Option Int := none
  limit : Option Int := none
  deriving DecidableEq, Repr

structure EventCursorResult (β : Type*) where
  events : List (TeamEvent β)
  nextSeq : Int
  total : Nat
  tornTail : Bool
  truncated : Bool := false
  deriving DecidableEq, Repr

def positiveInteger (value : Option Int) : Option Nat :=
  value.bind fun number => if 0 ≤ number then some number.toNat else none

/-- **Answer a read from the events of the live file.** -/
def cursorResultFromEvents (all : List (TeamEvent β)) (archives : List (EventsFile β))
    (sinceSeq : Int) (limit : Option Nat) (tornTail : Bool) : EventCursorResult β :=
  let capped := all.drop (all.length - tailEventCap)
  let filtered := capped.filter fun event => sinceSeq < seqOf event
  let merged := mergeArchiveTailEvents (readArchiveTailEvents archives sinceSeq) filtered
  -- without a limit the events stay in file order
  let events := match limit with
    | some limit => (sortBySeq merged).take limit
    | none => merged
  { events := events, nextSeq := Paging.highest seqOf sinceSeq events, total := merged.length,
    tornTail := tornTail }

/-- **The wide read**, of the last bytes of the file. A missing file has no events. -/
def readWide (live : Option (EventsFile β)) (archives : List (EventsFile β)) (sinceSeq : Int)
    (limit : Option Nat) : EventCursorResult β :=
  let tail := match live with
    | some file => readJsonlTail file tailBytes
    | none => { events := [], tornTail := false, truncated := false }
  { cursorResultFromEvents tail.events archives sinceSeq limit tail.tornTail with
    truncated := tail.truncated }

end

section

variable {β : Type*}

theorem drop_append_cap (before kept : List (TeamEvent β)) (cap : Nat) :
    ∃ rest, rest <:+ before ∧ (before ++ kept).drop ((before ++ kept).length - cap)
      = rest ++ kept.drop (kept.length - cap) := by
  refine ⟨before.drop ((before ++ kept).length - cap), List.drop_suffix _ _, ?_⟩
  have rest : (before ++ kept).length - cap - before.length = kept.length - cap := by
    rw [List.length_append]
    omega
  rw [List.drop_append, rest]

theorem cursorResult_of_suffix {before kept : List (TeamEvent β)} {sinceSeq : Int}
    (passed : ∀ event ∈ before, seqOf event ≤ sinceSeq) (archives : List (EventsFile β))
    (limit : Option Nat) (tornTail : Bool) :
    cursorResultFromEvents (before ++ kept) archives sinceSeq limit tornTail
      = cursorResultFromEvents kept archives sinceSeq limit tornTail := by
  have same : ((before ++ kept).drop ((before ++ kept).length - tailEventCap)).filter
        (fun event => sinceSeq < seqOf event)
      = (kept.drop (kept.length - tailEventCap)).filter fun event => sinceSeq < seqOf event := by
    obtain ⟨rest, inside, split⟩ := drop_append_cap before kept tailEventCap
    have nothing : rest.filter (fun event => sinceSeq < seqOf event) = [] :=
      List.filter_eq_nil_iff.mpr fun event member beyond =>
        absurd (of_decide_eq_true beyond) (passed event (inside.subset member)).not_gt
    rw [split, List.filter_append, nothing, List.nil_append]
  simp only [cursorResultFromEvents, same]

theorem readJsonlTail_whole {file : EventsFile β} {limit : Nat} (fits : file.size ≤ limit) :
    readJsonlTail file limit
      = { events := Lines.values file.lines, tornTail := decide (0 < file.torn),
          truncated := false } :=
  if_pos (Nat.sub_eq_zero_of_le fits)

theorem mergeArchiveTailEvents_none (sinceSeq : Int) (events : List (TeamEvent β)) :
    mergeArchiveTailEvents (readArchiveTailEvents [] sinceSeq) events = events := rfl

theorem readJsonlTail_suffix (file : EventsFile β) (limit : Nat) :
    (readJsonlTail file limit).events <:+ Lines.values file.lines := by
  unfold readJsonlTail
  by_cases whole : file.size - limit = 0
  · simp only [if_pos whole, List.suffix_refl]
  · rw [if_neg whole]
    cases cut : Lines.dropBytes (file.size - limit) file.lines with
    | nil => exact List.nil_suffix
    | cons first rest => exact (Lines.suffix_of_dropBytes cut).filterMap _

end

section

variable {β : Type*} {archives : List (EventsFile β)} {sinceSeq : Int}

theorem foldl_fresh {add : List (TeamEvent β) → TeamEvent β → List (TeamEvent β)}
    (adds : ∀ held event, seqOf event ∉ held.map seqOf → add held event = held ++ [event])
    {held events : List (TeamEvent β)} (unique : ((held ++ events).map seqOf).Nodup) :
    events.foldl add held = held ++ events := by
  induction events generalizing held with
  | nil => exact (List.append_nil held).symm
  | cons event rest ih =>
    have fresh : seqOf event ∉ held.map seqOf := by
      intro present
      rw [List.map_append, List.map_cons] at unique
      exact (List.disjoint_of_nodup_append unique) present List.mem_cons_self
    rw [List.foldl_cons, adds held event fresh]
    have regrouped : held ++ event :: rest = held ++ [event] ++ rest := by
      rw [List.append_assoc]
      rfl
    rw [regrouped] at unique ⊢
    exact ih unique

theorem putBySeq_fresh (held : List (TeamEvent β)) (event : TeamEvent β)
    (fresh : seqOf event ∉ held.map seqOf) : putBySeq held event = held ++ [event] :=
  if_neg fresh

theorem foldl_keepFirst {held events : List (TeamEvent β)}
    (numbered : ∀ event ∈ events, event.seq.isSome)
    (unique : ((held ++ events).map seqOf).Nodup) :
    events.foldl (keepFirst sinceSeq) held
      = held ++ events.filter fun event => sinceSeq < seqOf event := by
  induction events generalizing held with
  | nil => exact (List.append_nil held).symm
  | cons event rest ih =>
    obtain ⟨seq, named⟩ := Option.isSome_iff_exists.mp (numbered event List.mem_cons_self)
    have number : seqOf event = seq := congrArg (Option.getD · 0) named
    have others := fun other there => numbered other (List.mem_cons_of_mem event there)
    have fresh : seq ∉ held.map seqOf := by
      intro present
      rw [List.map_append, List.map_cons, number] at unique
      exact (List.disjoint_of_nodup_append unique) present List.mem_cons_self
    by_cases passed : seq ≤ sinceSeq
    · have skipped : keepFirst sinceSeq held event = held := by
        unfold keepFirst
        rw [named]
        exact if_pos (Or.inl passed)
      have shorter : ((held ++ rest).map seqOf).Nodup :=
        unique.sublist (((List.sublist_cons_self event rest).append_left held).map seqOf)
      have low : ¬ sinceSeq < seqOf event := by omega
      rw [List.foldl_cons, skipped, ih others shorter, List.filter_cons_of_neg (by simpa using low)]
    · have kept : keepFirst sinceSeq held event = held ++ [event] := by
        unfold keepFirst
        rw [named]
        exact if_neg (not_or.mpr ⟨passed, fresh⟩)
      have regrouped : held ++ event :: rest = held ++ [event] ++ rest := by
        rw [List.append_assoc]
        rfl
      have high : sinceSeq < seqOf event := by omega
      rw [regrouped] at unique
      rw [List.foldl_cons, kept, ih others unique, List.filter_cons_of_pos (by simpa using high),
        List.append_assoc]
      rfl

def archivedEvents (archives : List (EventsFile β)) : List (TeamEvent β) :=
  archives.flatMap fun archive => Lines.values archive.lines

theorem perm_readArchiveTailEvents (fits : ∀ archive ∈ archives, archive.size ≤ tailBytes)
    (numbered : ∀ event ∈ archivedEvents archives, event.seq.isSome)
    (unique : ((archivedEvents archives).map seqOf).Nodup) :
    (readArchiveTailEvents archives sinceSeq).Perm
      ((archivedEvents archives).filter fun event => sinceSeq < seqOf event) := by
  have read : (archives.flatMap fun archive => (readJsonlTail archive tailBytes).events)
      = archivedEvents archives :=
    List.flatMap_congr fun archive member => by
      rw [readJsonlTail_whole (fits archive member)]
  have kept : (archivedEvents archives).foldl (keepFirst sinceSeq) []
      = [] ++ (archivedEvents archives).filter fun event => sinceSeq < seqOf event :=
    foldl_keepFirst numbered unique
  unfold readArchiveTailEvents
  rw [read, kept]
  exact Paging.inOrder_perm _ _

/-- **With unique numbers every event is merged once.** -/
theorem perm_mergeArchiveTailEvents {archived live : List (TeamEvent β)}
    (unique : ((archived ++ live).map seqOf).Nodup) :
    (mergeArchiveTailEvents archived live).Perm (archived ++ live) := by
  unfold mergeArchiveTailEvents
  cases archived with
  | nil => exact List.Perm.refl _
  | cons event rest =>
    have first : (event :: rest).foldl putBySeq [] = event :: rest :=
      @foldl_fresh β putBySeq putBySeq_fresh [] (event :: rest)
        (unique.sublist ((List.sublist_append_left (event :: rest) live).map seqOf))
    rw [List.isEmpty_cons, if_neg Bool.false_ne_true, first, foldl_fresh putBySeq_fresh unique]
    exact Paging.inOrder_perm _ _

end

end PiCrew.EventLog
