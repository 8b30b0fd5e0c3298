/-
**The delivery state of a mailbox.**

`state/coordination/mailbox.ts`. `delivery.json` holds a status for each message of a run. Every write
of it prunes the map: acknowledgements whose message can no longer be replayed are swept from time to
time, and beyond the cap the map keeps all acknowledgements, then queued entries, then delivered ones,
in each tier those written first.

* `get_of_pruneDeliveryMessages` — a prune adds nothing.

Ids are of any type. Ids that look like secrets, which the redaction of the file would blank, ids that
JavaScript would sort as array indices, and the index of request ids are not part of the model.
-/

import PiCrew.Library.Ledger
import Mathlib.Algebra.GroupWithZero.Nat
import Mathlib.Data.List.Sort

namespace PiCrew.Mailbox

section

inductive MailboxMessageStatus where
  | queued
  | delivered
  | acknowledged
  deriving DecidableEq, Repr

abbrev MailboxDeliveryState (ι : Type) := Ledger ι MailboxMessageStatus

def maxDeliveryMessages : Nat := 10000

def ackSweepMinAcks : Nat := 1000

def ackSweepForceAcks : Nat := 5000

def ackSweepMinIntervalMs : Nat := 30000

variable {ι : Type} [DecidableEq ι]

def tier (status : MailboxMessageStatus) (entries : List (ι × MailboxMessageStatus)) :
    List (ι × MailboxMessageStatus) :=
  entries.filter fun entry => entry.2 = status

/-- What a sweep is run with: the ids it could replay, unless they could not be read, the time, and
when this process swept last. -/
structure SweepContext (ι : Type) where
  replayable : Option (List ι)
  now : Nat
  lastAckSweepAt : Nat

def shouldSweep (context : SweepContext ι) (acks : Nat) : Bool := ackSweepForceAcks ≤ acks ||
    (ackSweepMinAcks ≤ acks && ackSweepMinIntervalMs ≤ context.now - context.lastAckSweepAt)

/-- **Drop the acknowledgements of messages that can no longer be replayed**, and say when. -/
def sweepDeadAcknowledgements (context : SweepContext ι) (state : MailboxDeliveryState ι) :
    MailboxDeliveryState ι × Nat :=
  let acked := (tier .acknowledged state.entries).map (·.1)
  if acked.isEmpty then (state, context.lastAckSweepAt)
  else if shouldSweep context acked.length then
    match context.replayable with
    | none => (state, context.lastAckSweepAt)
    | some ids =>
      (state.keep fun entry => entry.1 ∉ acked || entry.1 ∈ ids, context.now)
  else (state, context.lastAckSweepAt)

def tierOrder : MailboxMessageStatus → Nat
  | .queued => 0
  | .delivered => 1
  | .acknowledged => 2

def sortByTier (entries : List (ι × MailboxMessageStatus)) : List (ι × MailboxMessageStatus) :=
  entries.insertionSort fun first second => tierOrder first.2 ≤ tierOrder second.2

/-- The ids that a budget keeps: every acknowledged one, and the first others. -/
def keptIds : Nat → List (ι × MailboxMessageStatus) → List ι
  | _, [] => []
  | budget, (id, .acknowledged) :: rest => id :: keptIds budget rest
  | 0, _ :: rest => keptIds 0 rest
  | budget + 1, (id, _) :: rest => id :: keptIds budget rest

/-- The state after a sweep, where the acknowledgements are many enough to try one. -/
def sweepIfMany (context : SweepContext ι) (state : MailboxDeliveryState ι) :
    MailboxDeliveryState ι × Nat :=
  if ackSweepMinAcks < (tier .acknowledged state.entries).length then
    sweepDeadAcknowledgements context state
  else (state, context.lastAckSweepAt)

def sweepDue (context : SweepContext ι) (state : MailboxDeliveryState ι) : Bool :=
  ackSweepMinAcks < (tier .acknowledged state.entries).length &&
    shouldSweep context (tier .acknowledged state.entries).length

def capMessages (state : MailboxDeliveryState ι) : MailboxDeliveryState ι :=
  if state.entries.length ≤ maxDeliveryMessages then state
  else
    let sorted := sortByTier state.entries
    let evictableBudget := maxDeliveryMessages - (tier .acknowledged sorted).length
    let kept := keptIds evictableBudget sorted
    state.keep fun entry => entry.1 ∈ kept

def pruneDeliveryMessages (context : SweepContext ι) (state : MailboxDeliveryState ι) :
    MailboxDeliveryState ι × Nat :=
  let swept := sweepIfMany context state
  (capMessages swept.1, swept.2)

end

section

variable {ι : Type}

theorem orderedInsert_between (entry : ι × MailboxMessageStatus)
    (before after : List (ι × MailboxMessageStatus))
    (lower : ∀ other ∈ before, tierOrder other.2 < tierOrder entry.2)
    (higher : ∀ other ∈ after, tierOrder entry.2 ≤ tierOrder other.2) :
    (before ++ after).orderedInsert
        (fun first second => tierOrder first.2 ≤ tierOrder second.2) entry
      = before ++ entry :: after := by
  induction before with
  | nil =>
    cases after with
    | nil => rfl
    | cons other rest => exact if_pos (higher other List.mem_cons_self)
  | cons other rest ih =>
    have passes := lower other List.mem_cons_self
    rw [List.cons_append, List.orderedInsert_cons, if_neg (by omega),
      ih fun later member => lower later (List.mem_cons_of_mem _ member)]
    rfl

theorem mem_tier {status : MailboxMessageStatus} {entries : List (ι × MailboxMessageStatus)}
    {entry : ι × MailboxMessageStatus} :
    entry ∈ tier status entries ↔ entry ∈ entries ∧ entry.2 = status := by
  rw [tier, List.mem_filter, decide_eq_true_eq]

theorem tier_cons (status : MailboxMessageStatus) (entry : ι × MailboxMessageStatus)
    (entries : List (ι × MailboxMessageStatus)) :
    tier status (entry :: entries)
      = if entry.2 = status then entry :: tier status entries else tier status entries := by
  simp only [tier, List.filter_cons, decide_eq_true_eq]

theorem sortByTier_eq (entries : List (ι × MailboxMessageStatus)) : sortByTier entries
      = tier .queued entries ++ (tier .delivered entries ++ tier .acknowledged entries) := by
  have order : ∀ {status : MailboxMessageStatus} {other : ι × MailboxMessageStatus} {rest},
      other ∈ tier status rest → tierOrder other.2 = tierOrder status :=
    fun member => congrArg tierOrder (mem_tier.mp member).2
  induction entries with
  | nil => rfl
  | cons entry rest ih =>
    obtain ⟨id, status⟩ := entry
    have sorted : sortByTier ((id, status) :: rest) = (sortByTier rest).orderedInsert
            (fun first second => tierOrder first.2 ≤ tierOrder second.2) (id, status) := rfl
    simp only [sorted, ih, tier_cons]
    cases status with
    | queued =>
      simp only [if_true, reduceCtorEq, if_false]
      exact orderedInsert_between (id, .queued) [] _
        (fun other member => absurd member List.not_mem_nil) fun _ _ => Nat.zero_le _
    | delivered =>
      simp only [if_true, reduceCtorEq, if_false]
      refine orderedInsert_between (id, .delivered) (tier .queued rest) _
        (fun other member => ?_) fun other member => ?_
      · rw [order member]
        exact Nat.zero_lt_one
      · rcases List.mem_append.mp member with same | higher
        · exact Nat.le_of_eq (order same).symm
        · rw [order higher]
          exact Nat.le_succ 1
    | acknowledged =>
      simp only [if_true, reduceCtorEq, if_false]
      rw [← List.append_assoc, ← List.append_assoc]
      refine orderedInsert_between (id, .acknowledged) (tier .queued rest ++ tier .delivered rest)
        _ (fun other member => ?_) fun other member => Nat.le_of_eq (order member).symm
      rcases List.mem_append.mp member with low | middle
      · rw [order low]
        exact Nat.zero_lt_two
      · rw [order middle]
        exact Nat.one_lt_two

theorem keptIds_append (evictable acks : List (ι × MailboxMessageStatus)) (budget : Nat)
    (open' : ∀ entry ∈ evictable, entry.2 ≠ .acknowledged)
    (acked : ∀ entry ∈ acks, entry.2 = .acknowledged) :
    keptIds budget (evictable ++ acks) = (evictable.take budget).map (·.1) ++ acks.map (·.1) := by
  induction evictable generalizing budget with
  | nil =>
    rw [List.nil_append, List.take_nil, List.map_nil, List.nil_append]
    induction acks generalizing budget with
    | nil => cases budget <;> rfl
    | cons entry rest ih =>
      obtain ⟨id, status⟩ := entry
      obtain rfl : status = .acknowledged := acked (id, status) List.mem_cons_self
      rw [keptIds, ih (fun other member => acked other (List.mem_cons_of_mem _ member)) budget]
      rfl
  | cons entry rest ih =>
    obtain ⟨id, status⟩ := entry
    have pending : status ≠ .acknowledged := open' (id, status) List.mem_cons_self
    have others := fun left => ih left fun other member =>
      open' other (List.mem_cons_of_mem _ member)
    cases status with
    | acknowledged => exact absurd rfl pending
    | queued =>
      cases budget with
      | zero => exact (others 0).trans (by rw [List.take_zero, List.take_zero])
      | succ left => exact congrArg (id :: ·) (others left)
    | delivered =>
      cases budget with
      | zero => exact (others 0).trans (by rw [List.take_zero, List.take_zero])
      | succ left => exact congrArg (id :: ·) (others left)

theorem length_tier_acknowledged_sorted (entries : List (ι × MailboxMessageStatus)) :
    (tier .acknowledged (sortByTier entries)).length = (tier .acknowledged entries).length :=
  ((List.perm_insertionSort _ entries).filter _).length_eq

end

section

variable {ι : Type} [DecidableEq ι]

def evictableBudget (state : MailboxDeliveryState ι) : Nat :=
  maxDeliveryMessages - (tier .acknowledged state.entries).length

def evictable (state : MailboxDeliveryState ι) : List (ι × MailboxMessageStatus) :=
  tier .queued state.entries ++ tier .delivered state.entries

variable {state : MailboxDeliveryState ι}

theorem status_unique {id : ι} {first second : MailboxMessageStatus}
    (here : (id, first) ∈ state.entries) (there : (id, second) ∈ state.entries) :
    first = second :=
  Option.some.inj ((Ledger.get_eq_some_iff.mpr here).symm.trans (Ledger.get_eq_some_iff.mpr there))

/-- **What the cap keeps.** -/
theorem get_capMessages {id : ι} {status : MailboxMessageStatus} :
    (capMessages state).get id = some status ↔ state.get id = some status ∧
        (state.entries.length ≤ maxDeliveryMessages ∨ status = .acknowledged ∨
          (id, status) ∈ (evictable state).take (evictableBudget state)) := by
  unfold capMessages
  by_cases small : state.entries.length ≤ maxDeliveryMessages
  · rw [if_pos small]
    exact ⟨fun found => ⟨found, Or.inl small⟩, fun found => found.1⟩
  · rw [if_neg small]
    refine Ledger.get_keep.trans (and_congr_right fun found => ?_)
    have present := Ledger.get_eq_some_iff.mp found
    have kept : keptIds (evictableBudget state) (sortByTier state.entries)
        = ((evictable state).take (evictableBudget state)).map (·.1)
          ++ (tier .acknowledged state.entries).map (·.1) := by
      rw [sortByTier_eq, ← List.append_assoc]
      refine keptIds_append _ _ _ (fun entry member => ?_) fun entry member =>
        (mem_tier.mp member).2
      rcases List.mem_append.mp member with first | second
      · rw [(mem_tier.mp first).2]
        exact nofun
      · rw [(mem_tier.mp second).2]
        exact nofun
    have listed : ∀ entry ∈ evictable state, entry ∈ state.entries := by
      intro entry member
      rcases List.mem_append.mp member with first | second
      · exact (mem_tier.mp first).1
      · exact (mem_tier.mp second).1
    rw [decide_eq_true_eq, length_tier_acknowledged_sorted]
    show id ∈ keptIds (evictableBudget state) _ ↔ _
    rw [kept, List.mem_append]
    constructor
    · rintro (taken | acked)
      · obtain ⟨⟨other, held⟩, member, rfl⟩ := List.mem_map.mp taken
        have same := status_unique present (listed _ (List.mem_of_mem_take member))
        exact Or.inr (Or.inr (same ▸ member))
      · obtain ⟨⟨other, held⟩, member, rfl⟩ := List.mem_map.mp acked
        have same := status_unique present (mem_tier.mp member).1
        exact Or.inr (Or.inl (same.trans (mem_tier.mp member).2))
    · rintro (few | rfl | taken)
      · exact absurd few small
      · exact Or.inr (List.mem_map_of_mem (mem_tier.mpr ⟨present, rfl⟩))
      · exact Or.inl (List.mem_map_of_mem taken)

theorem sweepIfMany_eq (context : SweepContext ι) (state : MailboxDeliveryState ι) :
    sweepIfMany context state =
      if sweepDue context state then
        match context.replayable with
        | none => (state, context.lastAckSweepAt)
        | some ids =>
          (state.keep fun entry =>
            entry.1 ∉ (tier .acknowledged state.entries).map (·.1) || entry.1 ∈ ids, context.now)
      else (state, context.lastAckSweepAt) := by
  unfold sweepIfMany sweepDue
  by_cases many : ackSweepMinAcks < (tier .acknowledged state.entries).length
  · have some' : ¬ ((tier .acknowledged state.entries).map (·.1)).isEmpty := by
      intro none
      rw [List.isEmpty_iff, List.map_eq_nil_iff] at none
      rw [none] at many
      cases many
    rw [if_pos many, decide_eq_true many, Bool.true_and, sweepDeadAcknowledgements]
    simp only [if_neg some', List.length_map]
  · rw [if_neg many, decide_eq_false many, Bool.false_and, if_neg Bool.false_ne_true]

theorem sweepIfMany_of_not_due {context : SweepContext ι}
    (notDue : ¬ sweepDue context state = true) : (sweepIfMany context state).1 = state := by
  rw [sweepIfMany_eq, if_neg notDue]

theorem sweepIfMany_eq_keep (context : SweepContext ι) (state : MailboxDeliveryState ι) :
    ∃ wanted, (sweepIfMany context state).1 = state.keep wanted ∧
      ∀ entry ∈ state.entries, wanted entry = true ∨
        (entry.2 = .acknowledged ∧ ∃ ids ∈ context.replayable, entry.1 ∉ ids) := by
  have still : ∃ wanted, state = state.keep wanted ∧ ∀ entry ∈ state.entries, wanted entry = true ∨
        (entry.2 = .acknowledged ∧ ∃ ids ∈ context.replayable, entry.1 ∉ ids) :=
    ⟨fun _ => true, (Ledger.keep_eq_self fun _ _ => rfl).symm, fun _ _ => Or.inl rfl⟩
  by_cases due : sweepDue context state
  · rw [sweepIfMany_eq, if_pos due]
    cases seen : context.replayable with
    | none =>
      rw [seen] at still
      exact still
    | some ids =>
      refine ⟨_, rfl, fun entry member => ?_⟩
      by_cases listed : entry.1 ∈ (tier .acknowledged state.entries).map (·.1)
      · by_cases spared : entry.1 ∈ ids
        · exact Or.inl (Bool.or_eq_true_iff.mpr (Or.inr (decide_eq_true spared)))
        · obtain ⟨⟨other, held⟩, acked, same⟩ := List.mem_map.mp listed
          obtain ⟨id, status⟩ := entry
          obtain rfl : other = id := same
          have equal := status_unique member (mem_tier.mp acked).1
          exact Or.inr ⟨equal.trans (mem_tier.mp acked).2, ids, rfl, spared⟩
      · exact Or.inl (Bool.or_eq_true_iff.mpr (Or.inl (decide_eq_true listed)))
  · rw [sweepIfMany_of_not_due due]
    exact still

variable {context : SweepContext ι} {state : MailboxDeliveryState ι} {id : ι} {status : MailboxMessageStatus}

theorem get_sweepIfMany (found : state.get id = some status)
    (spared : status = .acknowledged → ∀ ids ∈ context.replayable, id ∈ ids) :
    (sweepIfMany context state).1.get id = some status := by
  obtain ⟨wanted, swept, left⟩ := sweepIfMany_eq_keep context state
  rw [swept]
  refine Ledger.get_keep.mpr ⟨found, ?_⟩
  rcases left _ (Ledger.get_eq_some_iff.mp found) with kept | ⟨acked, ids, seen, unseen⟩
  · exact kept
  · exact absurd (spared acked ids seen) unseen

theorem get_of_sweepIfMany (found : (sweepIfMany context state).1.get id = some status) :
    state.get id = some status := by
  obtain ⟨wanted, swept, -⟩ := sweepIfMany_eq_keep context state
  rw [swept] at found
  exact (Ledger.get_keep.mp found).1

theorem get_of_pruneDeliveryMessages (found : (pruneDeliveryMessages context state).1.get id = some status) :
    state.get id = some status :=
  get_of_sweepIfMany (get_capMessages.mp found).1

end

end PiCrew.Mailbox
