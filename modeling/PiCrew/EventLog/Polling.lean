/-
**A reader that polls while others append.**

`appendEvent`, `appendEventAsync` and the batch append of `state/event-log/event-log.ts`, against a reader that
calls `readEventsCursor` with the `nextSeq` of its last answer. Events are numbered under `.seqlock`, and their
lines are written later, under the lock of their family, so the line with the higher number may come first:

* `poll_delivers` — a poll delivers what was written since the last one, when all of it lies above the
  reader's anchor and within the read window;
* `polling_delivers_once` — in a run whose polls all find it so, every event whose append completed
  was delivered once;
* `late_number_is_missed` — two appends, in the order of the numbers and in that of the lines.

A poll has no limit, so it takes the wide read. The log is not rotated.
-/

import PiCrew.EventLog.Cursor
import PiCrew.EventLog.Reservation

namespace PiCrew.EventLog

section

variable {β : Type}

inductive LockFamily where
  | mkdirlock
  | alock
  deriving DecidableEq, Repr

structure QueuedEvent (β : Type) where
  explicitSeq : Option Nat
  body : β

/-- What an appender brings: an event, or a buffered batch. -/
inductive Appending (β : Type) where
  | event (item : QueuedEvent β)
  | batch (queue : List (QueuedEvent β))

def Appending.items : Appending β → List (QueuedEvent β)
  | .event item => [item]
  | .batch queue => queue

/-- Numbers given to an append, and the number to publish once it is written. -/
structure Numbered where
  assigned : List Assignment
  path : EventPath
  publish : Option Nat

/-- **Number an append**, as each path does before it writes. -/
def numberAppend (path : EventPath) : Appending β → Numbered
  | .event item =>
    match item.explicitSeq with
    | some seq =>
      { assigned := [{ seq := seq, automatic := false }]
        path := advanceSequenceCounter path seq, publish := some seq }
    | none =>
      let reserved := reserveSequenceLocked path 1
      { assigned := [{ seq := reserved.1, automatic := true }], path := reserved.2
        publish := none }
  | .batch queue =>
    if queue.isEmpty then { assigned := [], path := path, publish := none }
    else
      let starting := startingSeq path (queue.map (·.explicitSeq))
      let finalized := numberBatch starting.1 (queue.map (·.explicitSeq))
      { assigned := finalized, path := advanceSequenceCounter starting.2 (lastSeq finalized)
        publish :=
          if reservedSequenceEnd starting.2 < lastSeq finalized then some (lastSeq finalized)
          else none }

/-- An append that is numbered and not written yet. -/
structure PendingAppend (π β : Type) where
  process : π
  events : List (TeamEvent β)
  publish : Option Nat

/-- **A log with its appenders and a reader**: the counters, the sidecar and the lines; the append
that each lock family is at; the reader's anchor and what it was given. `appended` is every event
whose append completed, and `fresh` those since the last poll. -/
structure PolledLog (π β : Type) where
  numbers : SharedPath π
  pending : LockFamily → Option (PendingAppend π β)
  lines : List (Lines.Line (TeamEvent β))
  appended : List (TeamEvent β)
  fresh : List (TeamEvent β)
  sinceSeq : Int := 0
  delivered : List (TeamEvent β) := []

inductive PollStep (π β : Type) where
  | number (family : LockFamily) (process : π) (appending : Appending β)
  | write (family : LockFamily) (bytes : TeamEvent β → Nat)
  | compact (keep : Lines.Line (TeamEvent β) → Bool)
  | forget (process : π)
  | poll

variable {π : Type} [DecidableEq π]

def scanned (lines : List (Lines.Line (TeamEvent β))) : List Nat :=
  (Lines.values lines).map fun event => (seqOf event).toNat

def publishNumber (numbers : SharedPath π) (process : π) : Option Nat → SharedPath π
  | some seq => numbers.commit process (persistSequenceMonotonic (numbers.view process) seq)
  | none => numbers

/-- **Take the lock of a family and number an append.** A family that is at an append waits. -/
def PolledLog.number (log : PolledLog π β) (family : LockFamily) (process : π)
    (appending : Appending β) : PolledLog π β :=
  match log.pending family with
  | some _ => log
  | none =>
    let numbered := numberAppend (log.numbers.view process) appending
    let events := List.zipWith (fun (given : Assignment) item =>
        ({ seq := some (given.seq : Int), body := item.body } : TeamEvent β))
      numbered.assigned appending.items
    { log with
      numbers := log.numbers.commit process numbered.path
      pending := Function.update log.pending family
        (some { process := process, events := events, publish := numbered.publish }) }

/-- **Write the lines of a family's append** and let go of its lock. -/
def PolledLog.write (log : PolledLog π β) (family : LockFamily) (bytes : TeamEvent β → Nat) :
    PolledLog π β :=
  match log.pending family with
  | none => log
  | some pending =>
    let lines := log.lines ++
      pending.events.map fun event => { value := some event, bytes := bytes event }
    { log with
      numbers := publishNumber { log.numbers with log := scanned lines } pending.process
        pending.publish
      pending := Function.update log.pending family none
      lines := lines
      appended := log.appended ++ pending.events
      fresh := log.fresh ++ pending.events }

def PolledLog.answer (log : PolledLog π β) : EventCursorResult β :=
  readWide (some { lines := log.lines }) [] log.sinceSeq none

def PolledLog.step (log : PolledLog π β) : PollStep π β → PolledLog π β
  | .number family process appending => log.number family process appending
  | .write family bytes => log.write family bytes
  | .compact keep =>
    { log with
      numbers := { log.numbers with log := scanned (log.lines.filter keep) }
      lines := log.lines.filter keep }
  | .forget process => { log with numbers := log.numbers.forget process }
  | .poll =>
    { log with
      sinceSeq := log.answer.nextSeq, delivered := log.delivered ++ log.answer.events
      fresh := [] }

/-- A log with these lines, at which no append is under way and nothing was read. -/
def PolledLog.start (numbers : SharedPath π) (lines : List (Lines.Line (TeamEvent β))) :
    PolledLog π β :=
  { numbers := numbers, pending := fun _ => none, lines := lines
    appended := Lines.values lines, fresh := Lines.values lines }

/-- **Delivered once**: no event was delivered twice, and after a poll every event whose append
completed was delivered. -/
structure DeliversOnce (step : PollStep π β) (after : PolledLog π β) : Prop where
  once : after.delivered.Subperm after.appended
  complete : step = .poll → after.delivered.Perm after.appended

end

section

variable {π β : Type}

def PolledLog.window (log : PolledLog π β) : List (TeamEvent β) :=
  let events := (readJsonlTail { lines := log.lines } tailBytes).events
  events.drop (events.length - tailEventCap)

/-- **A poll reaches what is new**: all of it lies above the reader's anchor, and at the end of what
the poll looks at. -/
structure PollReaches (log : PolledLog π β) : Prop where
  above : ∀ event ∈ log.fresh, log.sinceSeq < seqOf event
  window : log.fresh <:+ log.window

def Reaches (log : PolledLog π β) : PollStep π β → Prop
  | .poll => PollReaches log
  | _ => True

/-- **The invariant**: what was delivered and what is new are the events appended; what the lines
hold is at or below the anchor, or new. -/
structure Accounted (log : PolledLog π β) : Prop where
  lines : ∃ old new, Lines.values log.lines = old ++ new ∧ new.Sublist log.fresh ∧
    ∀ event ∈ old, seqOf event ≤ log.sinceSeq
  events : (log.delivered ++ log.fresh).Perm log.appended

theorem window_suffix (log : PolledLog π β) : log.window <:+ Lines.values log.lines :=
  (List.drop_suffix _ _).trans (readJsonlTail_suffix _ _)

theorem answer_events (log : PolledLog π β) :
    log.answer.events = log.window.filter fun event => log.sinceSeq < seqOf event := by
  simp only [PolledLog.answer, readWide, cursorResultFromEvents, mergeArchiveTailEvents_none,
    PolledLog.window]

theorem answer_nextSeq (log : PolledLog π β) :
    log.answer.nextSeq = Paging.highest seqOf log.sinceSeq log.answer.events := by
  simp only [PolledLog.answer, readWide, cursorResultFromEvents]

/-- **A poll delivers what was written since the last one.** -/
theorem poll_delivers {log : PolledLog π β} (accounted : Accounted log)
    (reaches : PollReaches log) : log.answer.events = log.fresh := by
  obtain ⟨old, new, split, sub, low⟩ := accounted.lines
  obtain ⟨before, ended⟩ := reaches.window
  obtain ⟨front, whole⟩ := window_suffix log
  rw [← ended, split, ← List.append_assoc] at whole
  -- the lines hold no more new events than are fresh, so what precedes them in the window is old
  have shorter : (front ++ before).length ≤ old.length := by
    have lengths := congrArg List.length whole
    have fewer := sub.length_le
    simp only [List.length_append] at lengths ⊢
    omega
  have inside : front ++ before <+: old :=
    List.prefix_of_prefix_length_le ⟨log.fresh, whole⟩ (List.prefix_append old new) shorter
  have none : before.filter (fun event => log.sinceSeq < seqOf event) = [] :=
    List.filter_eq_nil_iff.mpr fun event member beyond =>
      absurd (of_decide_eq_true beyond)
        (low event (inside.subset (List.mem_append_right front member))).not_gt
  have all : log.fresh.filter (fun event => log.sinceSeq < seqOf event) = log.fresh :=
    List.filter_eq_self.mpr fun event member => decide_eq_true (reaches.above event member)
  rw [answer_events, ← ended, List.filter_append, none, all, List.nil_append]

end

section

variable {π β : Type} [DecidableEq π]

theorem sinceSeq_poll (log : PolledLog π β) : (log.step .poll).sinceSeq = log.answer.nextSeq := by
  rw [PolledLog.step]

omit [DecidableEq π] in
theorem start_accounted (numbers : SharedPath π) (lines : List (Lines.Line (TeamEvent β))) :
    Accounted (PolledLog.start numbers lines) where
  lines := ⟨[], Lines.values lines, rfl, List.Sublist.refl _,
    fun _ member => absurd member List.not_mem_nil⟩
  events := List.Perm.refl _

/-- **Every step accounts for the events.** -/
theorem step_accounted (log : PolledLog π β) (step : PollStep π β) (accounted : Accounted log)
    (reaches : Reaches log step) : Accounted (log.step step) := by
  cases step with
  | number family process appending =>
    show Accounted (log.number family process appending)
    unfold PolledLog.number
    cases log.pending family with
    | some pending => exact accounted
    | none => exact { lines := accounted.lines, events := accounted.events }
  | write family bytes =>
    show Accounted (log.write family bytes)
    unfold PolledLog.write
    cases log.pending family with
    | none => exact accounted
    | some pending =>
      obtain ⟨old, new, split, sub, low⟩ := accounted.lines
      refine ⟨⟨old, new ++ pending.events, ?_, sub.append_right _, low⟩, ?_⟩
      · have written : Lines.values (pending.events.map fun event =>
            ({ value := some event, bytes := bytes event } : Lines.Line (TeamEvent β)))
              = pending.events := by
          rw [Lines.values, List.filterMap_map]
          exact List.filterMap_some
        show Lines.values (log.lines ++ _) = _
        rw [Lines.values_append, split, written, List.append_assoc]
      · show (log.delivered ++ (log.fresh ++ pending.events)).Perm _
        rw [← List.append_assoc]
        exact accounted.events.append_right _
  | compact keep =>
    obtain ⟨old, new, split, sub, low⟩ := accounted.lines
    have kept : (Lines.values (log.lines.filter keep)).Sublist (old ++ new) := by
      rw [← split]
      exact List.filter_sublist.filterMap _
    obtain ⟨first, second, parts, firstOld, secondNew⟩ := List.sublist_append_iff.mp kept
    exact ⟨⟨first, second, parts, secondNew.trans sub,
      fun event member => low event (firstOld.subset member)⟩, accounted.events⟩
  | forget process => exact { lines := accounted.lines, events := accounted.events }
  | poll =>
    have given := poll_delivers accounted reaches
    obtain ⟨old, new, split, sub, low⟩ := accounted.lines
    refine ⟨⟨old ++ new, [], ?_, List.nil_sublist _, ?_⟩, ?_⟩
    · rw [List.append_nil]
      exact split
    · intro event member
      rw [sinceSeq_poll, answer_nextSeq]
      rcases List.mem_append.mp member with before | late
      · exact le_trans (low event before) (Paging.le_highest _ _)
      · refine Paging.key_le_highest _ ?_
        rw [given]
        exact sub.subset late
    · show ((log.delivered ++ log.answer.events) ++ []).Perm log.appended
      rw [given, List.append_nil]
      exact accounted.events

theorem deliversOnce_of_accounted {log : PolledLog π β} {step : PollStep π β}
    (accounted : Accounted (log.step step)) : DeliversOnce step (log.step step) where
  once := (List.sublist_append_left _ _).subperm.trans accounted.events.subperm
  complete := by
    rintro rfl
    have all := accounted.events
    rwa [show (log.step .poll).fresh = [] from rfl, List.append_nil] at all

/-- **A polling reader is given every event once.** For every run of appends of both families, by any
processes, with compactions and lost counters, whose polls reach what is new. -/
theorem polling_delivers_once (numbers : SharedPath π) (lines : List (Lines.Line (TeamEvent β)))
    (steps : List (PollStep π β))
    (reach : ∀ taken ∈ Runs.transitions PolledLog.step (PolledLog.start numbers lines) steps,
      Reaches taken.before taken.action) :
    ∀ taken ∈ Runs.transitions PolledLog.step (PolledLog.start numbers lines) steps,
      DeliversOnce taken.action taken.after := by
  intro taken member
  have kept := (Runs.forall_transitions PolledLog.step step_accounted
    (start_accounted numbers lines) reach taken member).2
  rw [Runs.transition_after PolledLog.step member] at kept ⊢
  exact deliversOnce_of_accounted kept

def emptyLog : PolledLog Bool Unit := PolledLog.start (SharedPath.start (fun _ => none) none []) []

def unnumbered : Appending Unit := .event { explicitSeq := none, body := () }

theorem polling_delivers_append :
    let steps := [.number .alock true unnumbered, .poll, .write .alock fun _ => 10, .poll]
    (Runs.finish PolledLog.step emptyLog steps).delivered.map seqOf = [1] ∧
      ∀ taken ∈ Runs.transitions PolledLog.step emptyLog steps,
        DeliversOnce taken.action taken.after := by
  intro steps
  refine ⟨by decide, polling_delivers_once _ _ _ ?_⟩
  intro taken member
  simp only [steps, Runs.transitions, List.mem_cons, List.not_mem_nil, or_false] at member
  rcases member with rfl | rfl | rfl | rfl
  · trivial
  · exact ⟨fun _ member => absurd member List.not_mem_nil, List.nil_suffix⟩
  · trivial
  · exact ⟨by decide, by decide⟩

/-- **A number that is written late is missed.** The synchronous append reserves 1, the asynchronous
one reserves 2 and writes first; the reader is given 2 and goes on from there. -/
theorem late_number_is_missed :
    let log := Runs.finish PolledLog.step emptyLog
      [.number .mkdirlock true unnumbered, .number .alock false unnumbered,
        .write .alock fun _ => 10, .poll, .write .mkdirlock fun _ => 10]
    (log.step .poll).appended.map seqOf = [2, 1] ∧
      (log.step .poll).delivered.map seqOf = [2] ∧
      ¬ DeliversOnce (.poll : PollStep Bool Unit) (log.step .poll) := by
  refine ⟨by decide, by decide, fun delivers => ?_⟩
  exact absurd (delivers.complete rfl).length_eq (by decide)

end

end PiCrew.EventLog
