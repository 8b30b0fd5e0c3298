/-
**What becomes of a message that was just appended.**

`appendMailboxMessage` and `acknowledgeMailboxMessage` of `state/coordination/mailbox.ts`. The write
that records a new message prunes the map it records it in. Acknowledgements are never dropped for the
cap, so the new entry is the one that gives way when acknowledged and queued entries fill it:

* `capMessages_queued`, `capMessages_filled` — when an entry that is not acknowledged stays;
* `append_recorded` — when a new message has an entry and can be acknowledged, and what the cap drops;
* `fresh_message_is_forgotten` — a new message behind ten thousand acknowledgements.
-/

import PiCrew.Mailbox.Delivery

namespace PiCrew.Mailbox

section

variable {ι : Type} [DecidableEq ι]

/-- **Record the status of an appended message**, and prune. -/
def recordDeliveryEntry (context : SweepContext ι) (state : MailboxDeliveryState ι) (id : ι)
    (status : MailboxMessageStatus) : MailboxDeliveryState ι × Nat :=
  pruneDeliveryMessages context (state.put id status)

/-- `Mailbox message '<id>' not found.` -/
structure MessageNotFound (ι : Type) where
  messageId : ι

def acknowledgeMailboxMessage (context : SweepContext ι) (state : MailboxDeliveryState ι) (id : ι) :
    Except (MessageNotFound ι) (MailboxDeliveryState ι × Nat) :=
  match state.get id with
  | none => .error { messageId := id }
  | some _ => .ok (pruneDeliveryMessages context (state.put id .acknowledged))

def sweptWith (context : SweepContext ι) (state : MailboxDeliveryState ι) (id : ι)
    (status : MailboxMessageStatus) : MailboxDeliveryState ι :=
  (sweepIfMany context (state.put id status)).1

def countOf (status : MailboxMessageStatus) (state : MailboxDeliveryState ι) : Nat :=
  (tier status state.entries).length

/-- **What the record of a new message keeps.** -/
structure FreshMessageKept (context : SweepContext ι) (state : MailboxDeliveryState ι) (id : ι)
    (status : MailboxMessageStatus) : Prop where
  /-- A message with an entry can be acknowledged, and only that. -/
  acknowledgeable : ∀ later, (∃ held, (recordDeliveryEntry context state id status).1.get id = some held)
    ↔ ∃ next, acknowledgeMailboxMessage later (recordDeliveryEntry context state id status).1 id
        = .ok next
  /-- A queued message keeps its entry while acknowledged and queued ones fit the cap. -/
  queued : status = .queued → countOf .acknowledged (sweptWith context state id status)
      + countOf .queued (sweptWith context state id status) ≤ maxDeliveryMessages →
    (recordDeliveryEntry context state id status).1.get id = some .queued
  /-- A delivered message keeps its entry while all fit the cap. -/
  delivered : status = .delivered →
    (sweptWith context state id status).entries.length ≤ maxDeliveryMessages →
    (recordDeliveryEntry context state id status).1.get id = some .delivered
  /-- An acknowledged message keeps its entry while it can be replayed. -/
  acknowledged : status = .acknowledged → (∀ ids ∈ context.replayable, id ∈ ids) →
    (recordDeliveryEntry context state id status).1.get id = some .acknowledged
  /-- Acknowledgements that fill the cap leave no room for a message that is not acknowledged. -/
  filled : status ≠ .acknowledged →
    maxDeliveryMessages ≤ countOf .acknowledged (sweptWith context state id status) →
    (recordDeliveryEntry context state id status).1.get id = none
  /-- The cap drops no acknowledgement. -/
  capKeepsAcknowledged : ∀ other,
    (sweptWith context state id status).get other = some .acknowledged →
      (recordDeliveryEntry context state id status).1.get other = some .acknowledged
  /-- The cap drops no queued entry while it keeps a delivered one. -/
  capPrefersQueued : ∀ dropped kept,
    (sweptWith context state id status).get dropped = some .queued →
      (recordDeliveryEntry context state id status).1.get dropped = none →
        (recordDeliveryEntry context state id status).1.get kept ≠ some .delivered

end

section

variable {ι : Type} [DecidableEq ι] {state : MailboxDeliveryState ι}

omit [DecidableEq ι] in
theorem length_entries (state : MailboxDeliveryState ι) :
    state.entries.length = (evictable state).length + countOf .acknowledged state := by
  have whole := (List.perm_insertionSort
    (fun first second => tierOrder first.2 ≤ tierOrder second.2) state.entries).length_eq
  have sorted := congrArg List.length (sortByTier_eq state.entries)
  rw [← List.append_assoc, List.length_append] at sorted
  exact whole.symm.trans sorted

theorem mem_evictable {id : ι} {status : MailboxMessageStatus} (present : state.get id = some status)
    (pending : status ≠ .acknowledged) : (id, status) ∈ evictable state := by
  have entry := Ledger.get_eq_some_iff.mp present
  cases status with
  | acknowledged => exact absurd rfl pending
  | queued => exact List.mem_append_left _ (mem_tier.mpr ⟨entry, rfl⟩)
  | delivered => exact List.mem_append_right _ (mem_tier.mpr ⟨entry, rfl⟩)

/-- **A queued entry stays** while acknowledged and queued ones fit the cap. -/
theorem capMessages_queued {id : ι} (present : state.get id = some .queued)
    (fits : countOf .acknowledged state + countOf .queued state ≤ maxDeliveryMessages) :
    (capMessages state).get id = some .queued := by
  refine get_capMessages.mpr ⟨present, Or.inr (Or.inr ?_)⟩
  have all : countOf .queued state ≤ evictableBudget state := by
    unfold evictableBudget
    unfold countOf at fits ⊢
    omega
  rw [evictable, List.take_append, List.take_of_length_le all]
  exact List.mem_append_left _ (mem_tier.mpr ⟨Ledger.get_eq_some_iff.mp present, rfl⟩)

/-- **No entry that is not acknowledged stays** once acknowledgements fill the cap. -/
theorem capMessages_filled {id : ι} {status : MailboxMessageStatus}
    (present : state.get id = some status) (pending : status ≠ .acknowledged)
    (full : maxDeliveryMessages ≤ countOf .acknowledged state) :
    (capMessages state).get id = none := by
  cases held : (capMessages state).get id with
  | none => rfl
  | some kept =>
    obtain ⟨stored, reason⟩ := get_capMessages.mp held
    obtain rfl := Option.some.inj (present.symm.trans stored)
    rcases reason with few | same | taken
    · have listed := List.length_pos_of_mem (mem_evictable present pending)
      have length := length_entries state
      omega
    · exact absurd same pending
    · have spent : evictableBudget state = 0 := Nat.sub_eq_zero_of_le full
      rw [spent, List.take_zero] at taken
      cases taken

theorem capMessages_prefers_queued {dropped kept : ι} (queued : state.get dropped = some .queued)
    (gone : (capMessages state).get dropped = none) :
    (capMessages state).get kept ≠ some .delivered := by
  intro delivered
  have lost : (capMessages state).get dropped ≠ some .queued := by
    rw [gone]
    exact nofun
  obtain ⟨-, few | same | taken⟩ := get_capMessages.mp delivered
  · exact lost (get_capMessages.mpr ⟨queued, Or.inl few⟩)
  · cases same
  · have member := mem_tier.mpr ⟨Ledger.get_eq_some_iff.mp queued, rfl⟩
    rw [evictable, List.take_append] at taken
    rcases List.mem_append.mp taken with early | late
    · exact absurd (mem_tier.mp (List.mem_of_mem_take early)).2 nofun
    · have all : (tier .queued state.entries).length ≤ evictableBudget state := by
        by_contra short
        rw [Nat.sub_eq_zero_of_le (by omega), List.take_zero] at late
        cases late
      refine lost (get_capMessages.mpr ⟨queued, Or.inr (Or.inr ?_)⟩)
      rw [evictable, List.take_append, List.take_of_length_le all]
      exact List.mem_append_left _ member

end

section

variable {ι : Type} [DecidableEq ι] (context : SweepContext ι) (state : MailboxDeliveryState ι)
  (id : ι)

theorem recordDeliveryEntry_eq (status : MailboxMessageStatus) :
    (recordDeliveryEntry context state id status).1
      = capMessages (sweptWith context state id status) := rfl

theorem get_sweptWith {status : MailboxMessageStatus}
    (spared : status = .acknowledged → ∀ ids ∈ context.replayable, id ∈ ids) :
    (sweptWith context state id status).get id = some status :=
  get_sweepIfMany (by rw [Ledger.get_put, if_pos rfl]) spared

/-- **When a new message has an entry, and what the cap drops.** For every delivery state, whatever a
sweep finds. -/
theorem append_recorded (status : MailboxMessageStatus) :
    FreshMessageKept context state id status where
  acknowledgeable := by
    intro later
    unfold acknowledgeMailboxMessage
    cases (recordDeliveryEntry context state id status).1.get id with
    | none =>
      constructor
      · rintro ⟨held, found⟩
        cases found
      · rintro ⟨next, done⟩
        cases done
    | some held => exact ⟨fun _ => ⟨_, rfl⟩, fun _ => ⟨held, rfl⟩⟩
  queued := by
    rintro rfl fits
    exact capMessages_queued (get_sweptWith context state id nofun) fits
  delivered := by
    rintro rfl few
    rw [recordDeliveryEntry_eq]
    have stored : (sweptWith context state id .delivered).get id = some .delivered :=
      get_sweptWith context state id nofun
    exact get_capMessages.mpr ⟨stored, Or.inl few⟩
  acknowledged := by
    rintro rfl spared
    rw [recordDeliveryEntry_eq]
    exact get_capMessages.mpr
      ⟨get_sweptWith context state id fun _ => spared, Or.inr (Or.inl rfl)⟩
  filled := by
    intro pending full
    have stored := get_sweptWith context state id fun same => absurd same pending
    exact capMessages_filled stored pending full
  capKeepsAcknowledged := by
    intro other found
    rw [recordDeliveryEntry_eq]
    exact get_capMessages.mpr ⟨found, Or.inr (Or.inl rfl)⟩
  capPrefersQueued := fun _ _ queued gone => capMessages_prefers_queued queued gone

end

def inboxOf (count : Nat) : SweepContext Nat where
  replayable := some (List.range count)
  now := 0
  lastAckSweepAt := 0

/-- Messages one after the other, each appended and acknowledged. -/
def handled : Nat → MailboxDeliveryState Nat
  | 0 => {}
  | count + 1 =>
    let appended := (recordDeliveryEntry (inboxOf (count + 1)) (handled count) count .queued).1
    match acknowledgeMailboxMessage (inboxOf (count + 1)) appended count with
    | .ok next => next.1
    | .error _ => appended

theorem pruneDeliveryMessages_inboxOf {count : Nat} {state : MailboxDeliveryState Nat}
    (few : state.entries.length ≤ maxDeliveryMessages)
    (inside : ∀ entry ∈ state.entries, entry.1 < count) :
    (pruneDeliveryMessages (inboxOf count) state).1 = state := by
  obtain ⟨wanted, swept, left⟩ := sweepIfMany_eq_keep (inboxOf count) state
  have same : (sweepIfMany (inboxOf count) state).1 = state := by
    rw [swept]
    refine Ledger.keep_eq_self fun entry member => (left entry member).resolve_right ?_
    rintro ⟨-, ids, seen, unseen⟩
    obtain rfl := Option.some.inj seen
    exact unseen (List.mem_range.mpr (inside entry member))
  rw [pruneDeliveryMessages, same]
  exact if_pos few

/-- **All of them stay**, as far as the cap. -/
theorem handled_entries {count : Nat} (room : count ≤ maxDeliveryMessages) :
    (handled count).entries = (List.range count).map fun id => (id, .acknowledged) := by
  induction count with
  | zero => rfl
  | succ count ih =>
    have before := ih (Nat.le_of_succ_le room)
    have missing : (handled count).get count = none := by
      refine Ledger.get_eq_none_iff.mpr fun member => ?_
      rw [before, List.map_map] at member
      obtain ⟨id, inside, same⟩ := List.mem_map.mp member
      exact absurd same (Nat.ne_of_lt (List.mem_range.mp inside))
    have spared : ∀ status, (pruneDeliveryMessages (inboxOf (count + 1))
        ((handled count).put count status)).1 = (handled count).put count status := by
      intro status
      have entries := Ledger.entries_put missing status
      refine pruneDeliveryMessages_inboxOf ?_ fun entry member => ?_
      · rw [entries, before, List.length_append, List.length_map, List.length_range]
        exact room
      · rw [entries, before] at member
        rcases List.mem_append.mp member with old | new
        · obtain ⟨id, inside, rfl⟩ := List.mem_map.mp old
          exact Nat.lt_succ_of_lt (List.mem_range.mp inside)
        · rw [List.mem_singleton.mp new]
          exact Nat.lt_succ_self count
    have appended : (recordDeliveryEntry (inboxOf (count + 1)) (handled count) count .queued).1
        = (handled count).put count .queued := spared .queued
    have present : ((handled count).put count .queued).get count = some .queued := by
      rw [Ledger.get_put, if_pos rfl]
    have overwritten : ((handled count).put count .queued).put count .acknowledged
        = (handled count).put count .acknowledged := Ledger.put_put missing _ _
    have acknowledged : handled (count + 1) = (handled count).put count .acknowledged := by
      rw [handled, appended, acknowledgeMailboxMessage, present]
      show (pruneDeliveryMessages _ _).1 = _
      rw [overwritten]
      exact spared .acknowledged
    rw [acknowledged, Ledger.entries_put missing, before, List.range_succ, List.map_append]
    rfl

theorem forgotten_behind {count : Nat} (full : count = maxDeliveryMessages) :
    let after := (recordDeliveryEntry (inboxOf (count + 1)) (handled count) count .queued).1
    after.get count = none ∧ after.get 0 = some .acknowledged ∧
      acknowledgeMailboxMessage (inboxOf (count + 1)) after count
        = .error { messageId := count } := by
  intro after
  have before := handled_entries (Nat.le_of_eq full)
  have positive : 0 < count := by
    rw [full, maxDeliveryMessages]
    omega
  have stays : ∀ id < count, (sweptWith (inboxOf (count + 1)) (handled count) count .queued).get id
      = some .acknowledged := by
    intro id inside
    refine get_sweepIfMany ?_ fun _ ids seen => ?_
    · rw [Ledger.get_put, if_neg (Nat.ne_of_lt inside)]
      refine Ledger.get_eq_some_iff.mpr ?_
      rw [before]
      exact List.mem_map_of_mem (List.mem_range.mpr inside)
    · obtain rfl := Option.some.inj seen
      exact List.mem_range.mpr (Nat.lt_succ_of_lt inside)
  have acks : maxDeliveryMessages
      ≤ countOf .acknowledged (sweptWith (inboxOf (count + 1)) (handled count) count .queued) := by
    have acked : (handled count).entries ⊆ tier .acknowledged
        (sweptWith (inboxOf (count + 1)) (handled count) count .queued).entries := by
      intro entry member
      rw [before] at member
      obtain ⟨id, inside, rfl⟩ := List.mem_map.mp member
      exact mem_tier.mpr ⟨Ledger.get_eq_some_iff.mp (stays id (List.mem_range.mp inside)), rfl⟩
    have distinct := List.Nodup.of_map _ (handled count).unique
    have fewer := (List.subperm_of_subset distinct acked).length_le
    rw [before, List.length_map, List.length_range, full] at fewer
    rw [full]
    exact fewer
  have added : (sweptWith (inboxOf (count + 1)) (handled count) count .queued).get count
      = some .queued := get_sweptWith _ _ _ nofun
  have gone : after.get count = none := capMessages_filled added nofun acks
  refine ⟨gone, get_capMessages.mpr ⟨stays 0 positive, Or.inr (Or.inl rfl)⟩, ?_⟩
  rw [acknowledgeMailboxMessage, gone]

/-- **A new message is forgotten at once** behind ten thousand that were appended and acknowledged
before it. It has no entry and cannot be acknowledged, while all of theirs stay. -/
theorem fresh_message_is_forgotten :
    let after := (recordDeliveryEntry (inboxOf (maxDeliveryMessages + 1))
      (handled maxDeliveryMessages) maxDeliveryMessages .queued).1
    after.get maxDeliveryMessages = none ∧ after.get 0 = some .acknowledged ∧
      acknowledgeMailboxMessage (inboxOf (maxDeliveryMessages + 1)) after maxDeliveryMessages
        = .error { messageId := maxDeliveryMessages } :=
  forgotten_behind rfl

end PiCrew.Mailbox
