/-
**Sequence numbers of an event log.**

`state/event-log/sequence-cache.ts` and the append paths of `state/event-log/event-log.ts`. Numbers are given from
an in-process counter and a `.seq` sidecar: `reserveSequenceLocked` starts above both and advances both. A batch
reserves one range for all its events and publishes only the number of its last event, so the numbers that its
events bring along decide whether numbers stay unique:

* `appendEvent_keeps` — every append that is `Clear` keeps the numbers unique and published;
* `automatic_numbers_unique` — the same for every run of appends of all paths;
* `explicit_number_is_given_again` — three batches that are not clear.

A log without sidecar and counter is published only when it is empty.
-/

import PiCrew.Library.Runs

namespace PiCrew.EventLog

/-- A number that an event got, and whether the log gave it. -/
structure Assignment where
  seq : Nat
  automatic : Bool
  deriving DecidableEq, Repr

/-- **What numbers are given from**: the in-process counter (`seqCounters`), the `.seq` sidecar and
the numbers of the lines in the log; and the numbers assigned so far, written or not. -/
structure EventPath where
  counter : Option Nat := none
  sidecar : Option Nat := none
  log : List Nat := []
  assigned : List Assignment := []
  deriving DecidableEq, Repr

def scanSequence (log : List Nat) : Nat := log.foldl max 0

def lastReserved (path : EventPath) : Nat :=
  max (path.sidecar.getD (scanSequence path.log)) (path.counter.getD 0)

/-- **Reserve `count` numbers**, and return the first. -/
def reserveSequenceLocked (path : EventPath) (count : Nat) : Nat × EventPath :=
  let start := lastReserved path + 1
  (start, { path with counter := some (start + count - 1), sidecar := some (start + count - 1) })

/-- Write a number to the sidecar that no reservation covered, without ever lowering it. -/
def persistSequenceMonotonic (path : EventPath) (seq : Nat) : EventPath :=
  let stored := path.sidecar.getD 0
  let value := max (max stored (path.counter.getD 0)) seq
  if value ≠ stored then { path with sidecar := some value } else path

def reservedSequenceEnd (path : EventPath) : Nat := path.counter.getD 0

/-- Keep the counter at or above a number that an event brought along. -/
def advanceSequenceCounter (path : EventPath) (seq : Nat) : EventPath :=
  match path.counter with
  | none => { path with counter := some seq }
  | some last => if last < seq then { path with counter := some seq } else path

/-- **What the size checks of an append do**: compaction and rotation rewrite the log, and the log
may still be over the limit afterwards. -/
structure SizeChecks where
  compaction : List Nat → List Nat := id
  overLimit : Bool := false

def compactLog (path : EventPath) (checks : SizeChecks) : EventPath :=
  { path with log := checks.compaction path.log }

/-- The numbers of the events of a batch, given the number each one brings along. -/
def numberBatch : Nat → List (Option Nat) → List Assignment
  | _, [] => []
  | nextSeq, some seq :: rest => { seq := seq, automatic := false } :: numberBatch nextSeq rest
  | nextSeq, none :: rest => { seq := nextSeq, automatic := true } :: numberBatch (nextSeq + 1) rest

def lastSeq (finalized : List Assignment) : Nat := (finalized.getLast?.map (·.seq)).getD 0

/-- Where a batch starts numbering: at the number its first event brings along, else at a range
reserved for the whole batch. -/
def startingSeq (path : EventPath) (queue : List (Option Nat)) : Nat × EventPath :=
  match queue.head?.join with
  | some seq => (seq, path)
  | none => reserveSequenceLocked path queue.length

/-- Publish the last number of a batch and write its lines. -/
def writeBatch (path : EventPath) (finalized : List Assignment) (overLimit : Bool) : EventPath :=
  -- the snapshot is taken before the counter is raised to the last number
  let reservedEnd := reservedSequenceEnd path
  let advanced := advanceSequenceCounter path (lastSeq finalized)
  let numbered := { advanced with assigned := advanced.assigned ++ finalized }
  if overLimit then numbered
  else
    let written := { numbered with log := numbered.log ++ finalized.map (·.seq) }
    if reservedEnd < lastSeq finalized then persistSequenceMonotonic written (lastSeq finalized)
    else written

def appendEventBatchInsideLock (path : EventPath) (queue : List (Option Nat))
    (checks : SizeChecks) : EventPath :=
  if queue.isEmpty then path
  else
    let starting := startingSeq (compactLog path checks) queue
    writeBatch starting.2 (numberBatch starting.1 queue) checks.overLimit

/-- **Append one event.** Its number is settled before the size checks. -/
def appendEventInsideLock (path : EventPath) (explicitSeq : Option Nat) (checks : SizeChecks) :
    EventPath :=
  let numbered : Assignment × EventPath :=
    match explicitSeq with
    | some seq => ({ seq := seq, automatic := false }, advanceSequenceCounter path seq)
    | none =>
      let reserved := reserveSequenceLocked path 1
      ({ seq := reserved.1, automatic := true }, reserved.2)
  let settled :=
    compactLog { numbered.2 with assigned := numbered.2.assigned ++ [numbered.1] } checks
  if checks.overLimit then settled
  else
    let written := { settled with log := settled.log ++ [numbered.1.seq] }
    match explicitSeq with
    | some seq => persistSequenceMonotonic written seq
    | none => written

def appendEventAsync (path : EventPath) (explicitSeq : Option Nat) (checks : SizeChecks) :
    EventPath :=
  appendEventInsideLock path explicitSeq checks

inductive EventAppend where
  | batch (queue : List (Option Nat)) (checks : SizeChecks)
  | sync (explicitSeq : Option Nat) (checks : SizeChecks)
  | async (explicitSeq : Option Nat) (checks : SizeChecks)
  | compact (checks : SizeChecks)

def appendEvent (path : EventPath) : EventAppend → EventPath
  | .batch queue checks => appendEventBatchInsideLock path queue checks
  | .sync explicitSeq checks => appendEventInsideLock path explicitSeq checks
  | .async explicitSeq checks => appendEventAsync path explicitSeq checks
  | .compact checks => compactLog path checks

/-- **No automatic number repeats an earlier one.** -/
def NumbersUnique (assigned : List Assignment) : Prop :=
  assigned.Pairwise fun earlier later => later.automatic = true → later.seq ≠ earlier.seq

instance (assigned : List Assignment) : Decidable (NumbersUnique assigned) :=
  inferInstanceAs (Decidable (assigned.Pairwise _))

theorem numberBatch_append (nextSeq : Nat) (before after : List (Option Nat)) :
    numberBatch nextSeq (before ++ after)
      = numberBatch nextSeq before ++ numberBatch (nextSeq + before.count none) after := by
  induction before generalizing nextSeq with
  | nil => rfl
  | cons event rest ih =>
    cases event with
    | none =>
      have shift : nextSeq + 1 + rest.count none = nextSeq + (none :: rest).count none := by
        rw [List.count_cons_self]
        omega
      simp only [List.cons_append, numberBatch, ih, shift]
    | some seq => simp only [List.cons_append, numberBatch, ih, List.count_cons, beq_iff_eq,
        reduceCtorEq, if_false, Nat.add_zero]

section

variable {nextSeq : Nat} {queue : List (Option Nat)} {given : Assignment}
  (member : given ∈ numberBatch nextSeq queue)

include member

theorem numberBatch_automatic (automatic : given.automatic = true) :
    ∃ before, before ++ [none] <+: queue ∧ given.seq = nextSeq + before.count none := by
  induction queue generalizing nextSeq with
  | nil => cases member
  | cons event rest ih =>
    cases event with
    | none =>
      rcases List.mem_cons.mp member with rfl | later
      · exact ⟨[], ⟨rest, rfl⟩, rfl⟩
      · obtain ⟨before, prefixed, number⟩ := ih later
        refine ⟨none :: before, List.prefix_cons_inj none |>.mpr prefixed, ?_⟩
        rw [number, List.count_cons_self]
        omega
    | some seq =>
      rcases List.mem_cons.mp member with rfl | later
      · exact absurd automatic Bool.false_ne_true
      · obtain ⟨before, prefixed, number⟩ := ih later
        refine ⟨some seq :: before, List.prefix_cons_inj (some seq) |>.mpr prefixed, ?_⟩
        rw [number, List.count_cons_of_ne (by simp)]

theorem numberBatch_explicit (explicit : given.automatic = false) : some given.seq ∈ queue := by
  induction queue generalizing nextSeq with
  | nil => cases member
  | cons event rest ih =>
    cases event with
    | none =>
      rcases List.mem_cons.mp member with rfl | later
      · exact absurd explicit.symm Bool.false_ne_true
      · exact List.mem_cons_of_mem _ (ih later)
    | some seq =>
      rcases List.mem_cons.mp member with rfl | later
      · exact List.mem_cons_self
      · exact List.mem_cons_of_mem _ (ih later)

theorem numberBatch_automatic_range (automatic : given.automatic = true) :
    nextSeq ≤ given.seq ∧ given.seq < nextSeq + queue.length := by
  obtain ⟨before, prefixed, number⟩ := numberBatch_automatic member automatic
  have counted : before.count none ≤ before.length := List.count_le_length
  have fits := prefixed.length_le
  rw [List.length_append, List.length_singleton] at fits
  omega

end

/-- **No event of a batch brings the number that a later one is given.** -/
def NoneRepeated (first : Nat) (queue : List (Option Nat)) : Prop :=
  ∀ before, before ++ [none] <+: queue → some (first + before.count none) ∉ before

theorem numberBatch_unique {first : Nat} {queue : List (Option Nat)}
    (clear : NoneRepeated first queue) : NumbersUnique (numberBatch first queue) := by
  induction queue generalizing first with
  | nil => exact List.Pairwise.nil
  | cons event rest ih =>
    cases event with
    | none =>
      refine List.pairwise_cons.mpr ⟨fun later member automatic => ?_, ih fun before sub => ?_⟩
      · have range := numberBatch_automatic_range member automatic
        show later.seq ≠ first
        omega
      · have whole := clear (none :: before) (List.prefix_cons_inj none |>.mpr sub)
        intro inside
        apply whole
        have shift : first + (none :: before).count none = first + 1 + before.count none := by
          rw [List.count_cons_self]
          omega
        rw [shift]
        exact List.mem_cons_of_mem _ inside
    | some seq =>
      have skip : ∀ before : List (Option Nat),
          (some seq :: before).count none = before.count none :=
        fun before => List.count_cons_of_ne (by simp)
      refine List.pairwise_cons.mpr ⟨fun later member automatic => ?_, ih fun before sub => ?_⟩
      · obtain ⟨before, sub, number⟩ := numberBatch_automatic member automatic
        have whole := clear (some seq :: before) (List.prefix_cons_inj (some seq) |>.mpr sub)
        show later.seq ≠ seq
        rintro rfl
        apply whole
        rw [skip, ← number]
        exact List.mem_cons_self
      · have whole := clear (some seq :: before) (List.prefix_cons_inj (some seq) |>.mpr sub)
        rw [skip] at whole
        exact fun inside => whole (List.mem_cons_of_mem _ inside)

/-- The number that the last event of a batch brings along, and `0` when it brings none. -/
def trailing (queue : List (Option Nat)) : Nat := queue.getLast?.join.getD 0

theorem trailing_le_lastSeq (nextSeq : Nat) (queue : List (Option Nat)) :
    trailing queue ≤ lastSeq (numberBatch nextSeq queue) := by
  rcases List.eq_nil_or_concat queue with rfl | ⟨before, event, rfl⟩
  · exact Nat.le_refl 0
  · cases event with
    | none =>
      have nothing : trailing (before.concat none) = 0 := by simp [trailing]
      rw [nothing]
      exact Nat.zero_le _
    | some seq =>
      have brought : trailing (before.concat (some seq)) = seq := by simp [trailing]
      have ended : lastSeq (numberBatch nextSeq (before.concat (some seq))) = seq := by
        rw [List.concat_eq_append, numberBatch_append]
        simp [lastSeq, numberBatch]
      exact Nat.le_of_eq (brought.trans ended.symm)

def published (path : EventPath) : Nat := max (path.counter.getD 0) (path.sidecar.getD 0)

theorem published_le_lastReserved (path : EventPath) : published path ≤ lastReserved path := by
  unfold published lastReserved
  cases path.sidecar with
  | none => exact Nat.max_le.mpr ⟨Nat.le_max_right _ _, Nat.zero_le _⟩
  | some stored => exact Nat.le_of_eq (Nat.max_comm _ _)

theorem reserveSequenceLocked_published (path : EventPath) (count : Nat) :
    published (reserveSequenceLocked path count).2 = lastReserved path + count := by
  simp only [reserveSequenceLocked, published, Option.getD_some, Nat.max_self]
  omega

theorem advanceSequenceCounter_eq (path : EventPath) (seq : Nat) :
    ∃ counter, advanceSequenceCounter path seq = { path with counter := some counter } ∧
      counter = max (path.counter.getD 0) seq := by
  unfold advanceSequenceCounter
  cases known : path.counter with
  | none => exact ⟨seq, rfl, (Nat.zero_max seq).symm⟩
  | some last =>
    by_cases behind : last < seq
    · exact ⟨seq, if_pos behind, (Nat.max_eq_right (Nat.le_of_lt behind)).symm⟩
    · refine ⟨last, ?_, (Nat.max_eq_left (Nat.le_of_not_lt behind)).symm⟩
      show (if last < seq then { path with counter := some seq } else path) = _
      rw [if_neg behind, ← known]

theorem persistSequenceMonotonic_eq (path : EventPath) (seq : Nat) :
    ∃ sidecar, persistSequenceMonotonic path seq = { path with sidecar := sidecar } ∧
      path.sidecar.getD 0 ≤ sidecar.getD 0 := by
  unfold persistSequenceMonotonic
  by_cases raised : max (max (path.sidecar.getD 0) (path.counter.getD 0)) seq ≠ path.sidecar.getD 0
  · refine ⟨_, if_pos raised, ?_⟩
    rw [Option.getD_some]
    omega
  · exact ⟨path.sidecar, if_neg raised, Nat.le_refl _⟩

/-- **The numbers of an events path are in order**: no automatic number repeats an earlier one, and
every number is published. -/
structure InOrder (path : EventPath) : Prop where
  unique : NumbersUnique path.assigned
  covered : ∀ given ∈ path.assigned, given.seq ≤ published path

theorem InOrder.extend {path after : EventPath} (order : InOrder path) {fresh : List Assignment}
    (assigned : after.assigned = path.assigned ++ fresh)
    (grows : published path ≤ published after) (unique : NumbersUnique fresh)
    (above : ∀ given ∈ fresh, given.automatic = true → published path < given.seq)
    (covered : ∀ given ∈ fresh, given.seq ≤ published after) : InOrder after := by
  constructor
  · rw [NumbersUnique, assigned, List.pairwise_append]
    refine ⟨order.unique, unique, fun earlier old later new automatic => ?_⟩
    have bound := order.covered earlier old
    have beyond := above later new automatic
    omega
  · intro given member
    rw [assigned] at member
    rcases List.mem_append.mp member with old | new
    · exact Nat.le_trans (order.covered given old) grows
    · exact covered given new

/-- **A batch is clear.** When the log numbers its first event, no event brings the number that a
later one is given, and what events bring lies in the reserved range or below the last event's
number. When its first event brings a number, all do, and none is above the last and what is
published. -/
def ClearBatch (path : EventPath) (queue : List (Option Nat)) : Prop :=
  match queue with
  | [] => True
  | none :: _ =>
    NoneRepeated (lastReserved path + 1) queue ∧
      ∀ seq, some seq ∈ queue → seq ≤ max (lastReserved path + queue.length) (trailing queue)
  | some _ :: _ =>
    none ∉ queue ∧ ∀ seq, some seq ∈ queue → seq ≤ max (published path) (trailing queue)

/-- **A call is clear**: only batches can fail to be. -/
def Clear (path : EventPath) : EventAppend → Prop
  | .batch queue checks => ClearBatch (compactLog path checks) queue
  | .sync _ _ => True
  | .async _ _ => True
  | .compact _ => True

theorem writeBatch_spec (path : EventPath) (finalized : List Assignment) (overLimit : Bool) :
    (writeBatch path finalized overLimit).assigned = path.assigned ++ finalized ∧
      max (published path) (lastSeq finalized)
        ≤ published (writeBatch path finalized overLimit) := by
  obtain ⟨counter, advanced, raised⟩ := advanceSequenceCounter_eq path (lastSeq finalized)
  have enough : max (published path) (lastSeq finalized) ≤ max counter (path.sidecar.getD 0) := by
    unfold published
    omega
  unfold writeBatch
  simp only [advanced]
  split
  · exact ⟨rfl, enough⟩
  · split
    · obtain ⟨sidecar, persisted, above⟩ := persistSequenceMonotonic_eq { path with
          counter := some counter, log := path.log ++ finalized.map (·.seq)
          assigned := path.assigned ++ finalized } (lastSeq finalized)
      rw [persisted]
      refine ⟨rfl, Nat.le_trans enough ?_⟩
      show max counter (path.sidecar.getD 0) ≤ max counter (sidecar.getD 0)
      have lifted : path.sidecar.getD 0 ≤ sidecar.getD 0 := above
      omega
    · exact ⟨rfl, enough⟩

/-- **A clear batch keeps the numbers in order.** -/
theorem batch_keeps {path : EventPath} (order : InOrder path) {queue : List (Option Nat)}
    {checks : SizeChecks} (clear : ClearBatch (compactLog path checks) queue) :
    InOrder (appendEventBatchInsideLock path queue checks) := by
  cases queue with
  | nil => exact order
  | cons first rest =>
    have below := published_le_lastReserved (compactLog path checks)
    cases first with
    | none =>
      obtain ⟨apart, low⟩ := clear
      obtain ⟨assigned, grown⟩ := writeBatch_spec
        (reserveSequenceLocked (compactLog path checks) (none :: rest).length).2
        (numberBatch (lastReserved (compactLog path checks) + 1) (none :: rest))
        checks.overLimit
      rw [reserveSequenceLocked_published] at grown
      have last := trailing_le_lastSeq (lastReserved (compactLog path checks) + 1) (none :: rest)
      refine InOrder.extend order assigned ?_ (numberBatch_unique apart) ?_ ?_
      · refine Nat.le_trans (Nat.le_trans below ?_) grown
        omega
      · intro given member automatic
        have range := numberBatch_automatic_range member automatic
        have here : published path = published (compactLog path checks) := rfl
        omega
      · intro given member
        refine Nat.le_trans ?_ grown
        cases automatic : given.automatic with
        | true =>
          have range := numberBatch_automatic_range member automatic
          omega
        | false =>
          have bound := low given.seq (numberBatch_explicit member automatic)
          omega
    | some seq =>
      obtain ⟨brought, low⟩ := clear
      obtain ⟨assigned, grown⟩ := writeBatch_spec (compactLog path checks)
        (numberBatch seq (some seq :: rest)) checks.overLimit
      have last := trailing_le_lastSeq seq (some seq :: rest)
      -- every event of this batch brings its number along
      have explicit : ∀ given ∈ numberBatch seq (some seq :: rest), given.automatic = false := by
        intro given member
        refine Bool.eq_false_iff.mpr fun automatic => brought ?_
        obtain ⟨before, sub, -⟩ := numberBatch_automatic member automatic
        exact sub.subset (List.mem_append_right _ List.mem_cons_self)
      refine InOrder.extend order assigned ?_ ?_ ?_ ?_
      · exact Nat.le_trans (Nat.le_max_left _ _) grown
      · apply numberBatch_unique
        intro before sub
        exact absurd (sub.subset (List.mem_append_right _ List.mem_cons_self)) brought
      · intro given member automatic
        rw [explicit given member] at automatic
        exact absurd automatic Bool.false_ne_true
      · intro given member
        have bound := low given.seq (numberBatch_explicit member (explicit given member))
        refine Nat.le_trans ?_ grown
        omega

/-- **A single append keeps the numbers in order**, whatever number its event brings along. -/
theorem single_keeps {path : EventPath} (order : InOrder path) (explicitSeq : Option Nat)
    (checks : SizeChecks) : InOrder (appendEventInsideLock path explicitSeq checks) := by
  cases explicitSeq with
  | none =>
    have reserved := reserveSequenceLocked_published path 1
    have below := published_le_lastReserved path
    have whole : ∀ log, InOrder { (reserveSequenceLocked path 1).2 with
          log := log
          assigned := path.assigned ++ [{ seq := lastReserved path + 1, automatic := true }] } := by
      intro log
      refine InOrder.extend order rfl ?_ (List.pairwise_singleton _ _) ?_ ?_
      · show published path ≤ published (reserveSequenceLocked path 1).2
        omega
      · intro given member _
        rw [List.mem_singleton.mp member]
        show published path < lastReserved path + 1
        omega
      · intro given member
        rw [List.mem_singleton.mp member]
        show lastReserved path + 1 ≤ published (reserveSequenceLocked path 1).2
        omega
    unfold appendEventInsideLock
    cases checks.overLimit with
    | true | false => exact whole _
  | some seq =>
    obtain ⟨counter, advanced, raised⟩ := advanceSequenceCounter_eq path seq
    have whole : ∀ log sidecar, path.sidecar.getD 0 ≤ sidecar.getD 0 → InOrder { path with
          counter := some counter, log := log, sidecar := sidecar
          assigned := path.assigned ++ [{ seq := seq, automatic := false }] } := by
      intro log sidecar above
      refine InOrder.extend order rfl ?_ (List.pairwise_singleton _ _) ?_ ?_
      · show max (path.counter.getD 0) (path.sidecar.getD 0) ≤ max counter (sidecar.getD 0)
        omega
      · intro given member automatic
        rw [List.mem_singleton.mp member] at automatic
        exact absurd automatic Bool.false_ne_true
      · intro given member
        rw [List.mem_singleton.mp member]
        show seq ≤ max counter (sidecar.getD 0)
        omega
    unfold appendEventInsideLock
    simp only [advanced]
    split
    · exact whole _ _ (Nat.le_refl _)
    · obtain ⟨sidecar, persisted, above⟩ := persistSequenceMonotonic_eq { path with
          counter := some counter, log := checks.compaction path.log ++ [seq]
          assigned := path.assigned ++ [{ seq := seq, automatic := false }] } seq
      simp only [compactLog]
      rw [persisted]
      exact whole _ _ above

/-- **A clear append of any path keeps the numbers in order.** -/
theorem appendEvent_keeps (path : EventPath) (append : EventAppend) (order : InOrder path)
    (clear : Clear path append) : InOrder (appendEvent path append) := by
  cases append with
  | batch queue checks => exact batch_keeps order clear
  | sync explicitSeq checks | async explicitSeq checks => exact single_keeps order explicitSeq checks
  | compact checks => exact ⟨order.unique, order.covered⟩

/-- **Automatic numbers stay unique.** For every run of appends whose batches are clear, from an
events path whose numbers are in order: after every append no automatic number repeats a number
assigned before it. -/
theorem automatic_numbers_unique (start : EventPath) (appends : List EventAppend)
    (order : InOrder start)
    (clear : ∀ taken ∈ Runs.transitions appendEvent start appends,
      Clear taken.before taken.action) :
    ∀ taken ∈ Runs.transitions appendEvent start appends, NumbersUnique taken.after.assigned :=
  fun taken member =>
    (Runs.forall_transitions appendEvent appendEvent_keeps order clear taken member).2.unique

theorem automatic_numbers_unique_fresh :
    NumbersUnique (appendEventInsideLock (appendEventBatchInsideLock
      (appendEventInsideLock {} none {}) [none, some 9] {}) none {}).assigned := by
  have order : InOrder {} := ⟨List.Pairwise.nil, fun given member => by cases member⟩
  refine automatic_numbers_unique {}
    [.sync none {}, .batch [none, some 9] {}, .async none {}] order ?_
    ⟨appendEventBatchInsideLock (appendEventInsideLock {} none {}) [none, some 9] {},
      .async none {}, _⟩ (List.mem_cons_of_mem _ (List.mem_cons_of_mem _ List.mem_cons_self))
  intro taken member
  simp only [Runs.transitions, List.mem_cons, List.not_mem_nil, or_false] at member
  rcases member with rfl | rfl | rfl
  · trivial
  · refine ⟨fun before sub => ?_, fun seq brought => ?_⟩
    · rcases before with _ | ⟨first, rest⟩
      · exact List.not_mem_nil
      · rcases rest with _ | ⟨second, rest⟩ <;> simp at sub
    · have nine : seq = 9 := by simpa using brought
      subst nine
      decide
  · trivial

/-- **A number that an event brings along is given again**: to the next event of its batch when the
batch starts with it, to a later event of the batch when it lies in the reserved range, and by a
later append when it lies beyond the range and below the last number. -/
theorem explicit_number_is_given_again :
    ¬ NumbersUnique (appendEventBatchInsideLock {} [some 5, none] {}).assigned ∧
      ¬ NumbersUnique (appendEventBatchInsideLock {} [none, some 2, none] {}).assigned ∧
      ¬ NumbersUnique (appendEventInsideLock
        (appendEventBatchInsideLock {} [none, some 4, none] {}) none {}).assigned := by
  decide

end PiCrew.EventLog
