/-
**Acknowledged messages stay acknowledged.**

`state/coordination/mailbox.ts`, run by several processes. `appendMailboxMessage` writes the row under
the lock of the mailbox file and the status under the lock of the delivery state, so the second write
comes when other processes have seen the row:

* `step_stands` — a step that meets `AckOrderly` keeps every acknowledgement, or drops it with the last
  row of its message;
* `acknowledged_stays` — so no run of such steps replays an acknowledged message;
* `late_record_reopens` — a status that is recorded after the acknowledgement.

Every locked section is one step, and reads the files and the delivery state as they are: the caches of
both are taken to be current. Replies, which rewrite rows, are not part of these runs.
-/

import PiCrew.Library.Runs
import PiCrew.Mailbox.Files
import PiCrew.Mailbox.FreshMessages

namespace PiCrew.Mailbox

section

variable {ι κ : Type} [DecidableEq ι]

/-- **Record a pickup**: the messages are acknowledged. -/
def recordMailboxRequestIdDelivery (context : SweepContext ι) (state : MailboxDeliveryState ι)
    (ids : List ι) : MailboxDeliveryState ι × Nat :=
  pruneDeliveryMessages context (ids.foldl (fun state id => state.put id .acknowledged) state)

def pendingMessages (state : MailboxDeliveryState ι) (inbox : List (MailboxRow ι κ)) :
    List (MailboxRow ι κ) :=
  inbox.filter fun message =>
    message.status ≠ .acknowledged && state.get message.id ≠ some .acknowledged

def markDelivered (state : MailboxDeliveryState ι) (messages : List (MailboxRow ι κ)) :
    MailboxDeliveryState ι :=
  messages.foldl (fun state message => state.put message.id .delivered) state

def replayPendingMailboxMessages (context : SweepContext ι) (state : MailboxDeliveryState ι)
    (inbox : List (MailboxRow ι κ)) : List (MailboxRow ι κ) × MailboxDeliveryState ι × Nat :=
  let pending := pendingMessages state inbox
  if pending.isEmpty then ([], state, context.lastAckSweepAt)
  else (pending, pruneDeliveryMessages context (markDelivered state pending))

end

section

variable {π τ ι κ : Type}

/-- **A run's mailbox**: its files, the delivery state, and for each process the keys that it verifies
with and when it swept last. `owed` holds the statuses that appends still have to record, `acked` the
ids for which `acknowledgeMailboxMessage` has returned. -/
structure RunMailbox (π τ ι κ : Type) where
  logs : MailboxFile τ → MailboxLog ι κ
  tasks : List τ
  delivery : MailboxDeliveryState ι
  keys : π → List κ
  lastAckSweepAt : π → Nat := fun _ => 0
  owed : List (π × ι × MailboxMessageStatus) := []
  acked : List ι := []

/-- A write of the delivery state: who writes, when, and whether the history could be read if the write
sweeps. -/
structure DeliveryWrite (π : Type) where
  process : π
  now : Nat
  historyReadable : Bool := true

structure MailboxAppendInput (ι : Type) where
  id : ι
  createdAt : Nat
  status : MailboxMessageStatus := .queued
  bytes : Nat

/-- A locked section. The last step drops a timestamp of a process that keeps those of many runs. -/
inductive MailboxStep (π τ ι : Type) where
  | appendRow (process : π) (file : MailboxFile τ) (message : MailboxAppendInput ι)
  | recordDelivery (write : DeliveryWrite π) (id : ι) (status : MailboxMessageStatus)
  | acknowledge (write : DeliveryWrite π) (id : ι)
  | pickUp (write : DeliveryWrite π) (ids : List ι)
  | replay (write : DeliveryWrite π)
  | forgetSweep (process : π)

variable [DecidableEq ι] [DecidableEq κ]

def RunMailbox.inboxOf (mailbox : RunMailbox π τ ι κ) (process : π) : List (MailboxRow ι κ) :=
  readAllInboxMessages (mailbox.keys process) mailbox.logs mailbox.tasks

def RunMailbox.context (mailbox : RunMailbox π τ ι κ) (write : DeliveryWrite π) : SweepContext ι where
  replayable := if write.historyReadable then some ((mailbox.inboxOf write.process).map (·.id))
    else none
  now := write.now
  lastAckSweepAt := mailbox.lastAckSweepAt write.process

variable [DecidableEq π] [DecidableEq τ]

def RunMailbox.wrote (mailbox : RunMailbox π τ ι κ) (write : DeliveryWrite π)
    (written : MailboxDeliveryState ι × Nat) : RunMailbox π τ ι κ :=
  { mailbox with
    delivery := written.1
    lastAckSweepAt := Function.update mailbox.lastAckSweepAt write.process written.2 }

variable (signingKey : π → κ)

/-- **The first section of an append**: the row, signed with the writer's key, which it then knows. -/
def RunMailbox.appendRow (mailbox : RunMailbox π τ ι κ) (process : π) (file : MailboxFile τ)
    (message : MailboxAppendInput ι) : RunMailbox π τ ι κ :=
  let row := { id := message.id, createdAt := message.createdAt, status := message.status
               bytes := message.bytes, signer := signingKey process }
  { mailbox with
    logs := Function.update mailbox.logs file ((mailbox.logs file).append row)
    tasks := match file.taskId with
      | none => mailbox.tasks
      | some taskId => mailbox.tasks.insert taskId
    keys := Function.update mailbox.keys process
      ((mailbox.keys process).insert (signingKey process))
    owed := mailbox.owed ++ [(process, message.id, message.status)] }

def RunMailbox.step (mailbox : RunMailbox π τ ι κ) : MailboxStep π τ ι → RunMailbox π τ ι κ
  | .appendRow process file message => mailbox.appendRow signingKey process file message
  | .recordDelivery write id status =>
    if (write.process, id, status) ∈ mailbox.owed then
      { mailbox.wrote write
          (recordDeliveryEntry (mailbox.context write) mailbox.delivery id status) with
        owed := mailbox.owed.erase (write.process, id, status) }
    else mailbox
  | .acknowledge write id =>
    match acknowledgeMailboxMessage (mailbox.context write) mailbox.delivery id with
    | .error _ => mailbox
    | .ok written => { mailbox.wrote write written with acked := id :: mailbox.acked }
  | .pickUp write ids =>
    mailbox.wrote write
      (recordMailboxRequestIdDelivery (mailbox.context write) mailbox.delivery ids)
  | .replay write =>
    mailbox.wrote write (replayPendingMailboxMessages (mailbox.context write) mailbox.delivery
      (mailbox.inboxOf write.process)).2
  | .forgetSweep process =>
    { mailbox with lastAckSweepAt := Function.update mailbox.lastAckSweepAt process 0 }

omit [DecidableEq π] [DecidableEq τ] in
/-- The messages that a step returns as pending. -/
def RunMailbox.replayed (mailbox : RunMailbox π τ ι κ) : MailboxStep π τ ι → List (MailboxRow ι κ)
  | .replay write =>
    (replayPendingMailboxMessages (mailbox.context write) mailbox.delivery
      (mailbox.inboxOf write.process)).1
  | _ => []

/-- A mailbox as its processes find it: no append is under way, and none of them has acknowledged
anything. -/
def RunMailbox.opened (logs : MailboxFile τ → MailboxLog ι κ) (tasks : List τ)
    (delivery : MailboxDeliveryState ι) (keys : π → List κ) : RunMailbox π τ ι κ :=
  { logs := logs, tasks := tasks, delivery := delivery, keys := keys }

end

section

variable {π τ ι κ : Type} [DecidableEq ι] [DecidableEq κ]

def InInbox (logs : MailboxFile τ → MailboxLog ι κ) (id : ι) : Prop :=
  ∃ taskId, ∃ row ∈ (logs { direction := .inbox, taskId := taskId }).rows, row.id = id

/-- **Acknowledged messages stay acknowledged** in a step: none of them is replayed, and none of them
is queued or delivered afterwards. -/
def StaysAcknowledged (taken : Runs.Transition (RunMailbox π τ ι κ) (MailboxStep π τ ι)) : Prop :=
  ∀ id ∈ taken.before.acked,
    taken.after.delivery.get id ≠ some .queued ∧ taken.after.delivery.get id ≠ some .delivered ∧
      ∀ message ∈ taken.before.replayed taken.action, message.id ≠ id

instance (taken : Runs.Transition (RunMailbox π τ ι κ) (MailboxStep π τ ι)) :
    Decidable (StaysAcknowledged taken) :=
  inferInstanceAs (Decidable (∀ id ∈ taken.before.acked, _ ∧ _ ∧
    ∀ message ∈ taken.before.replayed taken.action, message.id ≠ id))

/-- A write of a state spares some messages: if its sweep is due, its process can read those of them
that are in an inbox. -/
def RunMailbox.SweepSpares (mailbox : RunMailbox π τ ι κ) (write : DeliveryWrite π)
    (state : MailboxDeliveryState ι) (ids : List ι) : Prop :=
  sweepDue (mailbox.context write) state → write.historyReadable →
    ∀ id ∈ ids, InInbox mailbox.logs id → id ∈ (mailbox.inboxOf write.process).map (·.id)

/-- **The condition on a step.** An append does not use the id of a message whose acknowledgement is
gone; a status is recorded before the message is acknowledged; and a sweep that is due can read every
acknowledged message that is still in an inbox. -/
def AckOrderly (mailbox : RunMailbox π τ ι κ) : MailboxStep π τ ι → Prop
  | .appendRow _ _ message =>
    message.id ∈ mailbox.acked → mailbox.delivery.get message.id = some .acknowledged
  | .recordDelivery write id status =>
    (write.process, id, status) ∈ mailbox.owed → (id ∈ mailbox.acked → status = .acknowledged) ∧
        mailbox.SweepSpares write (mailbox.delivery.put id status) mailbox.acked
  | .acknowledge write id =>
    mailbox.delivery.get id ≠ none →
      mailbox.SweepSpares write (mailbox.delivery.put id .acknowledged) (id :: mailbox.acked)
  | .pickUp write ids =>
    mailbox.SweepSpares write
      (ids.foldl (fun state id => state.put id .acknowledged) mailbox.delivery) mailbox.acked
  | .replay write =>
    let pending := pendingMessages mailbox.delivery (mailbox.inboxOf write.process)
    pending ≠ [] → mailbox.SweepSpares write (markDelivered mailbox.delivery pending) mailbox.acked
  | .forgetSweep _ => True

def Stands (logs : MailboxFile τ → MailboxLog ι κ) (state : MailboxDeliveryState ι) (id : ι) : Prop :=
  state.get id = some .acknowledged ∨ (state.get id = none ∧ ¬ InInbox logs id)

/-- **The invariant**: every acknowledgement stands. -/
def AcksStand (mailbox : RunMailbox π τ ι κ) : Prop :=
  ∀ id ∈ mailbox.acked, Stands mailbox.logs mailbox.delivery id

end

section

variable {ι κ : Type} [DecidableEq ι]

theorem get_acknowledged (ids : List ι) (state : MailboxDeliveryState ι) (id : ι) :
    (ids.foldl (fun state id => state.put id .acknowledged) state).get id
      = if id ∈ ids then some .acknowledged else state.get id := by
  induction ids generalizing state with
  | nil => rfl
  | cons first rest ih =>
    rw [List.foldl_cons, ih, Ledger.get_put]
    by_cases later : id ∈ rest
    · rw [if_pos later, if_pos (List.mem_cons_of_mem _ later)]
    · rw [if_neg later]
      by_cases here : id = first
      · rw [if_pos here, if_pos (here ▸ List.mem_cons_self)]
      · rw [if_neg here, if_neg fun member => (List.mem_cons.mp member).elim here later]

theorem get_markDelivered {messages : List (MailboxRow ι κ)} (state : MailboxDeliveryState ι) {id : ι}
    (others : ∀ message ∈ messages, message.id ≠ id) :
    (markDelivered state messages).get id = state.get id := by
  unfold markDelivered
  induction messages generalizing state with
  | nil => rfl
  | cons first rest ih =>
    rw [List.foldl_cons, ih _ fun message member => others message (List.mem_cons_of_mem _ member),
      Ledger.get_put, if_neg (others first List.mem_cons_self).symm]

end

section

variable {π τ ι κ : Type} [DecidableEq ι] [DecidableEq κ] {mailbox : RunMailbox π τ ι κ}

theorem pruneDeliveryMessages_stands {write : DeliveryWrite π} {state : MailboxDeliveryState ι}
    {ids : List ι} (spares : mailbox.SweepSpares write state ids) {id : ι} (listed : id ∈ ids)
    (stands : Stands mailbox.logs state id) :
    Stands mailbox.logs (pruneDeliveryMessages (mailbox.context write) state).1 id := by
  rcases stands with acked | ⟨missing, gone⟩
  · by_cases inside : InInbox mailbox.logs id
    · refine Or.inl (get_capMessages.mpr ⟨?_, Or.inr (Or.inl rfl)⟩)
      by_cases due : sweepDue (mailbox.context write) state
      · refine get_sweepIfMany acked fun _ seen readable => ?_
        by_cases history : write.historyReadable
        · have known : (mailbox.context write).replayable
              = some ((mailbox.inboxOf write.process).map (·.id)) := if_pos history
          rw [known] at readable
          rw [← Option.some.inj readable]
          exact spares due history id listed inside
        · have unknown : (mailbox.context write).replayable = none := if_neg history
          rw [unknown] at readable
          cases readable
      · rw [sweepIfMany_of_not_due due]
        exact acked
    · cases held : (pruneDeliveryMessages (mailbox.context write) state).1.get id with
      | none => exact Or.inr ⟨held, inside⟩
      | some status =>
        have same := (get_of_pruneDeliveryMessages held).symm.trans acked
        exact Or.inl (held.trans same)
  · refine Or.inr ⟨?_, gone⟩
    cases held : (pruneDeliveryMessages (mailbox.context write) state).1.get id with
    | none => rfl
    | some status =>
      rw [get_of_pruneDeliveryMessages held] at missing
      cases missing

theorem not_pending_of_stands {id : ι} (stands : Stands mailbox.logs mailbox.delivery id) (process : π) :
    ∀ message ∈ pendingMessages mailbox.delivery (mailbox.inboxOf process), message.id ≠ id := by
  rintro message member rfl
  obtain ⟨read, pending⟩ := List.mem_filter.mp member
  rcases stands with acked | ⟨-, gone⟩
  · rw [acked] at pending
    simp at pending
  · obtain ⟨taskId, inside⟩ := mem_readAllInboxMessages read
    exact gone ⟨taskId, message, inside, rfl⟩

omit [DecidableEq κ] in
theorem put_stands {logs : MailboxFile τ → MailboxLog ι κ} {state : MailboxDeliveryState ι}
    {id other : ι} {status : MailboxMessageStatus} (keeps : other = id → status = .acknowledged)
    (stands : other ≠ id → Stands logs state other) : Stands logs (state.put id status) other := by
  unfold Stands
  rw [Ledger.get_put]
  by_cases here : other = id
  · rw [if_pos here, keeps here]
    exact Or.inl rfl
  · rw [if_neg here]
    exact stands here

variable [DecidableEq π] [DecidableEq τ] (signingKey : π → κ)

theorem appendRow_stands {process : π} {file : MailboxFile τ} {message : MailboxAppendInput ι}
    {id : ι} (apart : message.id = id → mailbox.delivery.get id = some .acknowledged)
    (stands : Stands mailbox.logs mailbox.delivery id) :
    Stands (mailbox.appendRow signingKey process file message).logs mailbox.delivery id := by
  rcases stands with acked | ⟨missing, gone⟩
  · exact Or.inl acked
  · refine Or.inr ⟨missing, ?_⟩
    rintro ⟨taskId, row, member, rfl⟩
    by_cases here : { direction := .inbox, taskId := taskId } = file
    · simp only [RunMailbox.appendRow] at member
      rw [here, Function.update_self] at member
      rcases mem_rows_append member with old | rfl
      · exact gone ⟨taskId, row, here ▸ old, rfl⟩
      · rw [apart rfl] at missing
        cases missing
    · simp only [RunMailbox.appendRow] at member
      rw [Function.update_of_ne here] at member
      exact gone ⟨taskId, row, member, rfl⟩

/-- **A step keeps the invariant.** -/
theorem step_stands (mailbox : RunMailbox π τ ι κ) (action : MailboxStep π τ ι)
    (stand : AcksStand mailbox) (orderly : AckOrderly mailbox action) :
    AcksStand (mailbox.step signingKey action) := by
  cases action with
  | appendRow process file message =>
    intro id acked
    refine appendRow_stands signingKey (fun same => ?_) (stand id acked)
    rw [← same]
    exact orderly (same ▸ acked)
  | recordDelivery write id status =>
    simp only [RunMailbox.step]
    by_cases owed : (write.process, id, status) ∈ mailbox.owed
    · rw [if_pos owed]
      obtain ⟨before, spares⟩ := orderly owed
      intro other acked
      refine pruneDeliveryMessages_stands spares acked (put_stands (fun here => ?_) fun _ => ?_)
      · exact before (here ▸ acked)
      · exact stand other acked
    · rw [if_neg owed]
      exact stand
  | acknowledge write id =>
    simp only [RunMailbox.step, acknowledgeMailboxMessage]
    cases found : mailbox.delivery.get id with
    | none => exact stand
    | some held =>
      have spares := orderly (by rw [found]; exact Option.some_ne_none held)
      intro other acked
      refine pruneDeliveryMessages_stands spares acked (put_stands (fun _ => rfl) fun apart => ?_)
      exact stand other ((List.mem_cons.mp acked).resolve_left apart)
  | pickUp write ids =>
    intro other acked
    refine pruneDeliveryMessages_stands orderly acked ?_
    unfold Stands
    rw [get_acknowledged]
    by_cases here : other ∈ ids
    · rw [if_pos here]
      exact Or.inl rfl
    · rw [if_neg here]
      exact stand other acked
  | replay write =>
    intro other acked
    have apart := not_pending_of_stands (stand other acked) write.process
    simp only [RunMailbox.step, RunMailbox.wrote, replayPendingMailboxMessages]
    by_cases none : (pendingMessages mailbox.delivery (mailbox.inboxOf write.process)).isEmpty
    · rw [if_pos none]
      exact stand other acked
    · have spares := orderly fun nothing => none (List.isEmpty_iff.mpr nothing)
      rw [if_neg none]
      refine pruneDeliveryMessages_stands spares acked ?_
      unfold Stands
      rw [get_markDelivered _ apart]
      exact stand other acked
  | forgetSweep process => exact stand

theorem acked_step (mailbox : RunMailbox π τ ι κ) (action : MailboxStep π τ ι) {id : ι}
    (acked : id ∈ mailbox.acked) : id ∈ (mailbox.step signingKey action).acked := by
  cases action with
  | recordDelivery write other status =>
    simp only [RunMailbox.step]
    by_cases owed : (write.process, other, status) ∈ mailbox.owed
    · rw [if_pos owed]
      exact acked
    · rw [if_neg owed]
      exact acked
  | acknowledge write other =>
    simp only [RunMailbox.step]
    cases acknowledgeMailboxMessage (mailbox.context write) mailbox.delivery other with
    | error missing => exact acked
    | ok written => exact List.mem_cons_of_mem _ acked
  | appendRow process file message | pickUp write ids | replay write | forgetSweep process => exact acked

omit [DecidableEq π] [DecidableEq τ] in
theorem replayed_apart (stand : AcksStand mailbox) (action : MailboxStep π τ ι) {id : ι}
    (acked : id ∈ mailbox.acked) : ∀ message ∈ mailbox.replayed action, message.id ≠ id := by
  cases action with
  | replay write =>
    have apart := not_pending_of_stands (stand id acked) write.process
    simp only [RunMailbox.replayed, replayPendingMailboxMessages]
    by_cases none : (pendingMessages mailbox.delivery (mailbox.inboxOf write.process)).isEmpty
    · rw [if_pos none]
      exact fun _ member => absurd member List.not_mem_nil
    · rw [if_neg none]
      exact apart
  | _ => exact fun _ member => absurd member List.not_mem_nil

/-- **Acknowledged messages stay acknowledged** in every run whose steps are orderly: whatever the
mailbox holds when it is opened, none of them is replayed, queued or delivered again. -/
theorem acknowledged_stays (logs : MailboxFile τ → MailboxLog ι κ) (tasks : List τ)
    (delivery : MailboxDeliveryState ι) (keys : π → List κ) (actions : List (MailboxStep π τ ι))
    (orderly : ∀ taken ∈ Runs.transitions (RunMailbox.step signingKey)
      (RunMailbox.opened logs tasks delivery keys) actions, AckOrderly taken.before taken.action) :
    ∀ taken ∈ Runs.transitions (RunMailbox.step signingKey)
      (RunMailbox.opened logs tasks delivery keys) actions, StaysAcknowledged taken := by
  intro taken member id acked
  have opened : AcksStand (RunMailbox.opened logs tasks delivery keys) :=
    fun _ none => absurd none List.not_mem_nil
  obtain ⟨before, after⟩ := Runs.forall_transitions (RunMailbox.step signingKey)
    (step_stands signingKey) opened orderly taken member
  have later : id ∈ taken.after.acked := by
    rw [Runs.transition_after _ member]
    exact acked_step signingKey taken.before taken.action acked
  have apart : ∀ status, status ≠ .acknowledged →
      taken.after.delivery.get id ≠ some status := by
    intro status other found
    rcases after id later with held | ⟨missing, -⟩
    · exact other (Option.some.inj (found.symm.trans held))
    · rw [missing] at found
      cases found
  refine ⟨apart _ ?_, apart _ ?_, replayed_apart before taken.action acked⟩
  · exact nofun
  · exact nofun

end

def emptyMailbox : RunMailbox Bool Unit Nat Bool := .opened (fun _ => {}) [] {} fun _ => []

def writeMessage : MailboxStep Bool Unit Nat :=
  .appendRow true { direction := .inbox, taskId := none } { id := 7, createdAt := 0, bytes := 100 }

def recordMessage : MailboxStep Bool Unit Nat := .recordDelivery { process := true, now := 0 } 7 .queued

def replayMessages : MailboxStep Bool Unit Nat := .replay { process := false, now := 0 }

def acknowledgeMessage : MailboxStep Bool Unit Nat := .acknowledge { process := false, now := 0 } 7

theorem acknowledged_stays_recorded :
    let actions := [writeMessage, recordMessage, replayMessages, acknowledgeMessage, replayMessages]
    (Runs.finish (RunMailbox.step id) emptyMailbox actions).acked = [7] ∧
      ∀ taken ∈ Runs.transitions (RunMailbox.step id) emptyMailbox actions,
        StaysAcknowledged taken := by
  intro actions
  refine ⟨by decide +kernel, acknowledged_stays id _ _ _ _ _ ?_⟩
  intro taken member
  simp only [actions, Runs.transitions, List.mem_cons, List.not_mem_nil, or_false] at member
  rcases member with rfl | rfl | rfl | rfl | rfl
  · exact fun acked => absurd acked List.not_mem_nil
  · exact fun _ => ⟨fun acked => absurd acked List.not_mem_nil,
      fun due => absurd due (by decide +kernel)⟩
  · exact fun _ due => absurd due (by decide +kernel)
  · exact fun _ due => absurd due (by decide +kernel)
  · exact fun _ due => absurd due (by decide +kernel)

/-- **A status that is recorded after the acknowledgement takes it back**: the message is queued again,
and the next replay returns it. -/
theorem late_record_reopens :
    let mailbox := Runs.finish (RunMailbox.step id) emptyMailbox
      [writeMessage, replayMessages, acknowledgeMessage, recordMessage]
    mailbox.acked = [7] ∧ mailbox.delivery.get 7 = some .queued ∧
      (mailbox.replayed replayMessages).map (·.id) = [7] ∧
      ¬ ∀ taken ∈ Runs.transitions (RunMailbox.step id) emptyMailbox
          [writeMessage, replayMessages, acknowledgeMessage, recordMessage, replayMessages],
        StaysAcknowledged taken := by
  decide +kernel

end PiCrew.Mailbox
