/-
**A finished batch is announced once.**

A member of a batch is counted by the barrier when its completion callback runs. The callback returns
early for a member that was stopped, and for one whose result was already read; such a member is never
counted, and the batch waits for it for ever. Otherwise every member is counted once, and the last one
announces the batch.

* `report_sound`, `announce_sound` — a record that ends, and a callback that runs;
* `batch_announced_once` — every run that stops no member and reads no result too early;
* `stop_silences` — a run in which the other member waits for ever.
-/

import PiCrew.Subagents.BatchBarrier
import PiCrew.Subagents.Endings
import PiCrew.Subagents.SlotAccounts

namespace PiCrew.Subagents

open PiCrew.State SubagentManager Runs

variable {session : Session} {batchId : String} {id : Nat}

section

def Member (session : Session) (batchId : String) (id : Nat) : Prop :=
  (session.manager.heap id).options.background ∧
    (session.manager.heap id).options.batchId = some batchId

def Marked (session : Session) (batchId : String) (id : Nat) : Prop :=
  ∃ batch, session.barrier.batches batchId = some batch ∧ hasMember batch.terminal id

/-- **A member is counted**: its callback has run, or the batch was announced. -/
def Counted (session : Session) (batchId : String) (id : Nat) : Prop :=
  session.announced batchId ≠ 0 ∨ Marked session batchId id

def HasEnded (session : Session) (id : Nat) : Prop :=
  ∃ completion ∈ session.manager.completions, completion.id = id ∧ completion.status.ended

def pendingIn (deferrals : List Deferral) (id : Nat) : Nat :=
  deferrals.countP fun deferral => deferral.agentId == id && deferral.status.ended

/-- **Where a member stands that is not counted yet**: it lives, or its callback waits. -/
inductive Awaited (session : Session) (id : Nat) : Prop where
  | lives (unended : Unended session.manager id) (none : pendingIn session.deferrals id = 0)
      (yet : ¬ HasEnded session id)
  | waits (idle : places session.manager id = 0) (one : pendingIn session.deferrals id = 1)
      (ended : HasEnded session id)

structure Finished (session : Session) (id : Nat) : Prop where
  idle : places session.manager id = 0
  none : pendingIn session.deferrals id = 0
  ended : HasEnded session id

structure Before (session : Session) (batchId : String) : Prop where
  unannounced : session.announced batchId = 0
  untold : batchId ∉ session.barrier.notifiedTombstones
  unnotified : ∀ batch, session.barrier.batches batchId = some batch → batch.notified = false
  incomplete : ∀ batch, session.barrier.batches batchId = some batch → batch.allDone = false
  known : ∀ batch, session.barrier.batches batchId = some batch →
    ∀ id, hasMember batch.terminal id → hasMember batch.members id
  registered : ∀ id, (∃ batch, session.barrier.batches batchId = some batch ∧ hasMember batch.members id) ↔
    Member session batchId id
  awaited : ∀ id, Member session batchId id → ¬ Marked session batchId id →
    (session.manager.heap id).resultConsumed = false ∧ Awaited session id
  marked : ∀ id, Member session batchId id → Marked session batchId id → Finished session id

/-- **A batch after its notice.** A late callback of a blocked member may open it again, with nobody in it
that is terminal. -/
structure After (session : Session) (batchId : String) : Prop where
  announced : session.announced batchId = 1
  finished : ∀ id, Member session batchId id → Finished session id
  unmarked : ∀ batch, session.barrier.batches batchId = some batch → batch.terminal = []

structure Owned (session : Session) : Prop where
  sound : Sound session.manager
  present : session.context.cleanedUp = false
  unspawned : ∀ id, session.manager.counter ≤ id → (session.manager.heap id).options.background = false
  owned : ∀ id, (session.manager.heap id).options.background →
    (session.manager.heap id).options.ownerSessionGeneration = some session.context.sessionGeneration ∧
      (session.manager.heap id).options.ownerSessionId = session.context.sessionId
  reported : ∀ completion ∈ session.manager.completions, completion.id < session.manager.counter
  deferred : ∀ deferral ∈ session.deferrals, Member session deferral.batchId deferral.agentId ∧
    deferral.ownerGeneration = some session.context.sessionGeneration ∧ deferral.batchId ≠ ""

structure BatchSound (session : Session) (batchId : String) : Prop extends Owned session where
  phase : Before session batchId ∨ After session batchId

variable {other : Session}

theorem Finished.same (finished : Finished session id) (manager : other.manager = session.manager)
    (pending : pendingIn other.deferrals id = pendingIn session.deferrals id) : Finished other id where
  idle := manager ▸ finished.idle
  none := pending.trans finished.none
  ended := by
    rw [HasEnded, manager]
    exact finished.ended

theorem Awaited.same (awaited : Awaited session id) (manager : other.manager = session.manager)
    (pending : pendingIn other.deferrals id = pendingIn session.deferrals id) : Awaited other id := by
  have ended : HasEnded other id ↔ HasEnded session id := by rw [HasEnded, HasEnded, manager]
  cases awaited with
  | lives unended none yet => exact .lives (manager ▸ unended) (pending.trans none) (mt ended.mp yet)
  | waits idle one past => exact .waits (manager ▸ idle) (pending.trans one) (ended.mpr past)

/-- **What another step leaves of a batch.** Its tombstone may go. -/
theorem BatchSound.carried (sound : BatchSound session batchId) (owned : Owned other)
    (members : ∀ id, Member other batchId id ↔ Member session batchId id)
    (batches : other.barrier.batches batchId = session.barrier.batches batchId)
    (told : batchId ∈ other.barrier.notifiedTombstones → batchId ∈ session.barrier.notifiedTombstones)
    (same : other.announced batchId = session.announced batchId)
    (awaited : ∀ id, Member session batchId id → ¬ Counted session batchId id →
      (session.manager.heap id).resultConsumed = false → Awaited session id →
      (other.manager.heap id).resultConsumed = false ∧ Awaited other id)
    (finished : ∀ id, Member session batchId id → Finished session id → Finished other id) :
    BatchSound other batchId where
  toOwned := owned
  phase := by
    have marked : ∀ id, Marked other batchId id ↔ Marked session batchId id := fun id => by
      rw [Marked, Marked, batches]
    rcases sound.phase with before | after
    · refine Or.inl {
        unannounced := same.trans before.unannounced
        untold := fun there => before.untold (told there)
        unnotified := batches ▸ before.unnotified
        incomplete := batches ▸ before.incomplete
        known := batches ▸ before.known
        registered := fun id => by
          rw [batches, members]
          exact before.registered id
        awaited := fun id member unmarked => ?_
        marked := fun id member there => finished id ((members id).mp member)
          (before.marked id ((members id).mp member) ((marked id).mp there)) }
      have its := (members id).mp member
      have yet := mt (marked id).mpr unmarked
      obtain ⟨unread, stands⟩ := before.awaited id its yet
      exact awaited id its (fun counted => counted.elim (absurd before.unannounced) yet) unread stands
    · exact Or.inr {
        announced := same.trans after.announced
        finished := fun id member => finished id ((members id).mp member) (after.finished id ((members id).mp member))
        unmarked := batches ▸ after.unmarked }

end

@[simp] theorem hasMember_setMember (entries : List BatchMember) (member : BatchMember) (id : Nat) :
    hasMember (setMember entries member) id = (hasMember entries id || member.id == id) := by
  unfold setMember
  by_cases known : hasMember entries member.id = true
  · rw [if_pos known]
    have same : hasMember (entries.map fun entry => if entry.id = member.id then member else entry) id =
        hasMember entries id := by
      rw [hasMember, hasMember, List.any_map]
      congr 1
      funext entry
      by_cases this : entry.id = member.id <;> simp [this]
    rw [same]
    by_cases mine : member.id = id
    · rw [mine] at known
      rw [known, Bool.true_or]
    · rw [beq_eq_false_iff_ne.mpr mine, Bool.or_false]
  · rw [if_neg known]
    simp [hasMember, List.any_append]

theorem hasMember_ensure (batch : Batch) (member : BatchMember) (id : Nat) :
    hasMember (batch.ensure member).members id = (hasMember batch.members id || member.id == id) := by
  unfold Batch.ensure
  by_cases known : hasMember batch.members member.id = true
  · rw [if_pos known]
    by_cases mine : member.id = id
    · rw [mine] at known
      rw [known, Bool.true_or]
    · rw [beq_eq_false_iff_ne.mpr mine, Bool.or_false]
  · rw [if_neg known]
    simp [hasMember, List.any_append]

theorem allDone_iff (batch : Batch) : batch.allDone = true ↔
    batch.members ≠ [] ∧ ∀ id, hasMember batch.members id → hasMember batch.terminal id := by
  rw [Batch.allDone, Bool.and_eq_true, Bool.not_eq_true', List.isEmpty_eq_false_iff, List.all_eq_true]
  refine and_congr_right fun _ => ⟨fun all id there => ?_, fun all member there => ?_⟩
  · obtain ⟨member, mem, same⟩ := List.any_eq_true.mp there
    exact (beq_iff_eq.mp same) ▸ all member mem
  · exact all member.id (List.any_eq_true.mpr ⟨member, there, beq_self_eq_true _⟩)

theorem ensure_terminal (batch : Batch) (member : BatchMember) :
    (batch.ensure member).terminal = batch.terminal ∧ (batch.ensure member).notified = batch.notified := by
  unfold Batch.ensure
  split_ifs <;> exact ⟨rfl, rfl⟩

/-- What the barrier holds of a batch before its notice. -/
structure Held (session : Session) (batchId : String) (batch : Batch) : Prop where
  unnotified : batch.notified = false
  incomplete : batch.allDone = false
  known : ∀ id, hasMember batch.terminal id → hasMember batch.members id
  registered : ∀ id, hasMember batch.members id ↔ Member session batchId id
  awaited : ∀ id, Member session batchId id → ¬ hasMember batch.terminal id →
    (session.manager.heap id).resultConsumed = false ∧ Awaited session id
  marked : ∀ id, Member session batchId id → hasMember batch.terminal id → Finished session id

theorem every_batch (holds : Batch → Prop) (empty : holds {}) :
    (∀ batch, session.barrier.batches batchId = some batch → holds batch) ↔
      holds ((session.barrier.batches batchId).getD {}) := by
  cases session.barrier.batches batchId <;> simp [empty]

theorem some_batch {holds : Batch → Prop} (empty : ¬ holds {}) :
    (∃ batch, session.barrier.batches batchId = some batch ∧ holds batch) ↔
      holds ((session.barrier.batches batchId).getD {}) := by
  cases session.barrier.batches batchId <;> simp [empty]

/-- **A batch that was never opened** stands as an empty one. -/
theorem before_iff : Before session batchId ↔ session.announced batchId = 0 ∧
    batchId ∉ session.barrier.notifiedTombstones ∧
      Held session batchId ((session.barrier.batches batchId).getD {}) := by
  have marked (id : Nat) : Marked session batchId id ↔
      hasMember ((session.barrier.batches batchId).getD {}).terminal id := some_batch nofun
  constructor
  · intro before
    exact ⟨before.unannounced, before.untold, {
      unnotified := (every_batch (·.notified = false) rfl).mp before.unnotified
      incomplete := (every_batch (·.allDone = false) rfl).mp before.incomplete
      known := (every_batch _ nofun).mp before.known
      registered := fun id => (some_batch nofun).symm.trans (before.registered id)
      awaited := fun id member unmarked => before.awaited id member (mt (marked id).mp unmarked)
      marked := fun id member there => before.marked id member ((marked id).mpr there) }⟩
  · rintro ⟨unannounced, untold, standing⟩
    exact {
      unannounced := unannounced
      untold := untold
      unnotified := (every_batch (·.notified = false) rfl).mpr standing.unnotified
      incomplete := (every_batch (·.allDone = false) rfl).mpr standing.incomplete
      known := (every_batch _ nofun).mpr standing.known
      registered := fun id => (some_batch nofun).trans (standing.registered id)
      awaited := fun id member unmarked => standing.awaited id member (mt (marked id).mpr unmarked)
      marked := fun id member there => standing.marked id member ((marked id).mp there) }

theorem Held.before {barrier : BatchBarrier} {batch : Batch} (held : Held session batchId batch)
    (now : session.barrier = barrier.set batchId batch) (unannounced : session.announced batchId = 0)
    (untold : batchId ∉ session.barrier.notifiedTombstones) : Before session batchId := by
  refine before_iff.mpr ⟨unannounced, untold, ?_⟩
  have stored : (barrier.set batchId batch).batches batchId = some batch := Function.update_self _ _ _
  rw [now, stored]
  exact held

section

variable {deferral : Deferral} {deferrals others : List Deferral}

def Session.deferring (session : Session) (deferrals : List Deferral) : Session :=
  { session with deferrals := deferrals }

theorem BatchSound.redeferred (sound : BatchSound (session.deferring deferrals) batchId)
    (same : ∀ id, Member session batchId id → pendingIn others id = pendingIn deferrals id)
    (fewer : ∀ deferral ∈ others, deferral ∈ deferrals) :
    BatchSound (session.deferring others) batchId :=
  sound.carried { sound with deferred := fun other there => sound.deferred other (fewer other there) }
    (fun _ => Iff.rfl) rfl (fun there => there) rfl
    (fun id member _ unread awaited => ⟨unread, awaited.same rfl (same id member)⟩)
    fun id member finished => finished.same rfl (same id member)

theorem pendingIn_cons (deferral : Deferral) (deferrals : List Deferral) (id : Nat) :
    pendingIn (deferral :: deferrals) id =
      pendingIn deferrals id + if deferral.agentId = id ∧ deferral.status.ended then 1 else 0 := by
  rw [pendingIn, List.countP_cons]
  congr 1
  simp

theorem isOwnerSessionCurrent_of {context : SessionContext} (present : context.cleanedUp = false)
    {generation : Option Nat} {owner : Option String}
    (mine : generation = some context.sessionGeneration) (theirs : owner = none ∨ owner = context.sessionId) :
    context.isOwnerSessionCurrent generation owner = true := by
  rw [SessionContext.isOwnerSessionCurrent, present, mine]
  rcases theirs with rfl | rfl <;> simp

/-- **The owner of a deferred callback is current**, so that it goes on, unless the result was read. -/
theorem announce_eq (owned : Owned (session.deferring (deferral :: deferrals))) :
    (session.deferring deferrals).announce deferral =
      if (session.manager.heap deferral.agentId).resultConsumed then session.deferring deferrals
      else
        let marked := session.barrier.markTerminal deferral.batchId
          { id := deferral.agentId, status := deferral.status }
        if marked.1.allDone && !marked.1.notified then
          { session.deferring deferrals with
            barrier := marked.2.markNotified deferral.batchId
            announcements := session.announcements ++
              [{ batchId := deferral.batchId, members := marked.1.terminal }] }
        else { session.deferring deferrals with barrier := marked.2 } := by
  obtain ⟨member, generation, -⟩ := owned.deferred deferral List.mem_cons_self
  obtain ⟨mine, theirs⟩ := owned.owned deferral.agentId member.1
  have present : session.context.cleanedUp = false := owned.present
  have current : ∀ fresh : Option SpawnOptions,
      (fresh = none ∨ fresh = some (session.manager.heap deferral.agentId).options) →
      session.context.isOwnerSessionCurrent
        ((fresh.bind (·.ownerSessionGeneration)) <|> deferral.ownerGeneration)
        (fresh.bind (·.ownerSessionId)) = true := by
    rintro fresh (rfl | rfl)
    · exact isOwnerSessionCurrent_of present generation (Or.inl rfl)
    · refine isOwnerSessionCurrent_of present ?_ (Or.inr theirs)
      rw [Option.bind_some, show (session.manager.heap deferral.agentId).options.ownerSessionGeneration = _ from mine]
      rfl
  have kept := current (session.getRecord deferral.agentId)
    (by unfold Session.getRecord; split_ifs <;> simp)
  have record : (session.deferring deferrals).getRecord deferral.agentId = session.getRecord deferral.agentId := rfl
  have context : (session.deferring deferrals).context = session.context := rfl
  simp only [Session.announce, record, context, present, kept, Bool.false_eq_true, Bool.not_true, if_false]
  rfl

end

section

variable {deferral : Deferral} {deferrals : List Deferral}

/-- **What happens to other batches is nothing to this one.** -/
theorem BatchSound.elsewhere (sound : BatchSound session batchId) {barrier : BatchBarrier}
    {announcements : List Announcement}
    (batches : barrier.batches batchId = session.barrier.batches batchId)
    (told : batchId ∈ barrier.notifiedTombstones → batchId ∈ session.barrier.notifiedTombstones)
    (same : announcements.countP (·.batchId == batchId) = session.announced batchId) :
    BatchSound { session with barrier := barrier, announcements := announcements } batchId :=
  sound.carried { sound with } (fun _ => Iff.rfl) batches told same
    (fun _ _ _ unread awaited => ⟨unread, awaited.same rfl rfl⟩) fun _ _ finished => finished.same rfl rfl

section

variable (barrier : BatchBarrier) {other : String} (ne : batchId ≠ other)

include barrier ne

theorem markTerminal_elsewhere (member : BatchMember) :
    (barrier.markTerminal other member).2.batches batchId = barrier.batches batchId ∧
      (barrier.markTerminal other member).2.notifiedTombstones = barrier.notifiedTombstones := by
  unfold BatchBarrier.markTerminal
  split_ifs
  · exact ⟨rfl, rfl⟩
  · exact ⟨Function.update_of_ne ne _ _, rfl⟩

theorem register_elsewhere (agentId : Nat) :
    (barrier.register other agentId).batches batchId = barrier.batches batchId ∧
      (barrier.register other agentId).notifiedTombstones = barrier.notifiedTombstones := by
  unfold BatchBarrier.register
  split_ifs
  · exact ⟨rfl, rfl⟩
  · exact ⟨Function.update_of_ne ne _ _, rfl⟩

theorem markNotified_elsewhere :
    (barrier.markNotified other).batches batchId = barrier.batches batchId ∧
      (batchId ∈ (barrier.markNotified other).notifiedTombstones →
        batchId ∈ barrier.notifiedTombstones) := by
  refine ⟨Function.update_of_ne ne _ _, fun there => ?_⟩
  have more : batchId ∈ barrier.notifiedTombstones ++ [other] := by
    unfold BatchBarrier.markNotified at there
    dsimp only at there
    split_ifs at there
    · exact List.mem_append_left _ (List.mem_of_mem_tail there)
    · exact List.mem_append_left _ there
    · exact List.mem_of_mem_tail there
    · exact there
  rcases List.mem_append.mp more with old | new
  · exact old
  · exact absurd (List.mem_singleton.mp new) ne

end

variable (sound : BatchSound (session.deferring (deferral :: deferrals)) batchId)

include sound

theorem announce_elsewhere (ne : batchId ≠ deferral.batchId) :
    BatchSound ((session.deferring deferrals).announce deferral) batchId := by
  have dropped : BatchSound (session.deferring deferrals) batchId := by
    refine sound.redeferred (fun id member => ?_) fun other there => List.mem_cons_of_mem _ there
    have theirs := (sound.deferred deferral List.mem_cons_self).1.2
    rw [pendingIn_cons, if_neg, Nat.add_zero]
    rintro ⟨rfl, -⟩
    exact ne (Option.some.inj (member.2.symm.trans theirs))
  rw [announce_eq sound.toOwned]
  dsimp only
  obtain ⟨batches, tombstones⟩ := markTerminal_elsewhere session.barrier ne
    { id := deferral.agentId, status := deferral.status }
  split_ifs
  · exact dropped
  · obtain ⟨freed, told⟩ := markNotified_elsewhere (session.barrier.markTerminal deferral.batchId
      { id := deferral.agentId, status := deferral.status }).2 ne
    refine dropped.elsewhere (freed.trans batches) (fun there => tombstones ▸ told there) ?_
    rw [List.countP_append, List.countP_singleton, if_neg (by simpa using fun same => ne same.symm)]
    rfl
  · exact dropped.elsewhere batches (fun there => tombstones ▸ there) rfl

theorem announce_blocked (same : deferral.batchId = batchId) (blocked : deferral.status.ended = false) :
    BatchSound ((session.deferring deferrals).announce deferral) batchId := by
  subst same
  have member := (sound.deferred deferral List.mem_cons_self).1
  have dropped : BatchSound (session.deferring deferrals) deferral.batchId := by
    refine sound.redeferred (fun id _ => ?_) fun other there => List.mem_cons_of_mem _ there
    rw [pendingIn_cons, blocked, if_neg (fun both => Bool.false_ne_true both.2), Nat.add_zero]
  have unmarked : ∀ batch : Batch, batch.mark { id := deferral.agentId, status := deferral.status } = batch :=
    fun batch => if_neg (by rw [blocked]; exact Bool.false_ne_true)
  rw [announce_eq sound.toOwned]
  dsimp only
  by_cases read : (session.manager.heap deferral.agentId).resultConsumed = true
  · rw [if_pos read]
    exact dropped
  rw [if_neg read]
  by_cases told : deferral.batchId ∈ session.barrier.notifiedTombstones
  · rw [BatchBarrier.markTerminal, if_pos told]
    exact dropped
  rw [BatchBarrier.markTerminal, if_neg told, unmarked]
  have opened : hasMember (((session.barrier.batches deferral.batchId).getD {}).ensure
      { id := deferral.agentId, status := deferral.status }).members deferral.agentId = true := by
    rw [hasMember_ensure, beq_self_eq_true, Bool.or_true]
  obtain ⟨terminal, -⟩ := ensure_terminal ((session.barrier.batches deferral.batchId).getD {})
    { id := deferral.agentId, status := deferral.status }
  rcases sound.phase with before | after
  · -- the batch has the member, so that nothing is put in
    obtain ⟨batch, found, there⟩ := (before.registered deferral.agentId).mpr member
    have found : session.barrier.batches deferral.batchId = some batch := found
    rw [found, Option.getD_some, Batch.ensure, if_pos there]
    dsimp only
    rw [if_neg (by rw [before.incomplete batch found]; exact Bool.false_ne_true)]
    refine dropped.elsewhere ?_ (fun there => there) rfl
    exact (Function.update_self _ _ _).trans found.symm
  · -- the batch is open again, and nobody in it is terminal
    have nobody : ((session.barrier.batches deferral.batchId).getD {}).terminal = [] :=
      (every_batch (·.terminal = []) rfl).mp after.unmarked
    have incomplete : (((session.barrier.batches deferral.batchId).getD {}).ensure
        { id := deferral.agentId, status := deferral.status }).allDone = false := by
      refine Bool.eq_false_iff.mpr fun complete => ?_
      have marked := ((allDone_iff _).mp complete).2 deferral.agentId opened
      rw [terminal, nobody] at marked
      exact Bool.false_ne_true marked
    dsimp only
    rw [if_neg (by rw [incomplete]; exact Bool.false_ne_true)]
    refine { dropped with phase := Or.inr { announced := after.announced, finished := ?_, unmarked := ?_ } }
    · intro id member
      rcases dropped.phase with before | after'
      · exact absurd (before.unannounced.symm.trans after.announced) (by decide)
      · exact (after'.finished id member).same rfl rfl
    · intro batch found
      have same : _ = some batch := (Function.update_self deferral.batchId _ session.barrier.batches).symm.trans found
      rw [← Option.some.inj same, terminal, nobody]

/-- **The callback of a member that has ended** counts it, and the last one announces the batch. -/
theorem announce_ended (same : deferral.batchId = batchId) (ended : deferral.status.ended = true) :
    BatchSound ((session.deferring deferrals).announce deferral) batchId := by
  subst same
  have member := (sound.deferred deferral List.mem_cons_self).1
  have pending : pendingIn (deferral :: deferrals) deferral.agentId =
      pendingIn deferrals deferral.agentId + 1 := by rw [pendingIn_cons, if_pos ⟨rfl, ended⟩]
  have others : ∀ id, id ≠ deferral.agentId →
      pendingIn deferrals id = pendingIn (deferral :: deferrals) id := by
    intro id ne
    rw [pendingIn_cons, if_neg fun both => ne both.1.symm, Nat.add_zero]
  have unfinished : ¬ Finished (session.deferring (deferral :: deferrals)) deferral.agentId := fun finished =>
    absurd (pending.symm.trans finished.none) (Nat.succ_ne_zero _)
  rcases sound.phase with before | after
  swap
  · exact absurd (after.finished _ member) unfinished
  obtain ⟨unannounced, untold, standing⟩ := before_iff.mp before
  have untold : deferral.batchId ∉ session.barrier.notifiedTombstones := untold
  -- the member is not marked yet, and this is its only callback
  obtain ⟨unread, awaited⟩ := standing.awaited _ member (mt (standing.marked _ member) unfinished)
  have unread : (session.manager.heap deferral.agentId).resultConsumed = false := unread
  have mine : Finished (session.deferring deferrals) deferral.agentId := by
    cases awaited with
    | lives unended none yet => exact absurd (pending.symm.trans none) (Nat.succ_ne_zero _)
    | waits idle one ended => exact ⟨idle, Nat.succ.inj (pending.symm.trans one), ended⟩
  let old := (session.barrier.batches deferral.batchId).getD {}
  have there : hasMember old.members deferral.agentId = true := (standing.registered _).mpr member
  have ensured : old.ensure { id := deferral.agentId, status := deferral.status } = old := if_pos there
  rw [announce_eq sound.toOwned, unread, if_neg Bool.false_ne_true, BatchBarrier.markTerminal, if_neg untold, ensured]
  -- what the barrier has of the batch now
  let now := old.mark { id := deferral.agentId, status := deferral.status }
  have mark : now = { old with members := setMember old.members _, terminal := setMember old.terminal _ } :=
    if_pos ended
  have terminal : ∀ id, hasMember now.terminal id = (hasMember old.terminal id || deferral.agentId == id) := by
    intro id
    rw [mark]
    exact hasMember_setMember _ _ _
  have members : ∀ id, hasMember now.members id ↔ hasMember old.members id := by
    intro id
    rw [mark, hasMember_setMember, Bool.or_eq_true, beq_iff_eq]
    exact or_iff_left_of_imp fun same => same ▸ there
  have unnotified : now.notified = false := by
    rw [mark]
    exact standing.unnotified
  have finished : ∀ id, Member session deferral.batchId id → hasMember now.terminal id →
      Finished (session.deferring deferrals) id := by
    intro id its marked
    by_cases this : id = deferral.agentId
    · exact this ▸ mine
    · rw [terminal, show (deferral.agentId == id) = false from beq_eq_false_iff_ne.mpr (Ne.symm this),
        Bool.or_false] at marked
      exact (standing.marked id its marked).same rfl (others id this)
  have deferred := fun other there => sound.deferred other (List.mem_cons_of_mem deferral there)
  dsimp only
  rw [show (Batch.mark _ _).notified = false from unnotified]
  by_cases complete : now.allDone = true
  · rw [show (Batch.mark _ _).allDone = true from complete]
    refine { sound with deferred := deferred, phase := Or.inr { announced := ?_, finished := ?_, unmarked := ?_ } }
    · show (session.announcements ++ [_]).countP (fun announcement : Announcement =>
        announcement.batchId == deferral.batchId) = 1
      rw [List.countP_append, show session.announcements.countP _ = 0 from unannounced,
        List.countP_singleton, if_pos (beq_self_eq_true _)]
    · intro id its
      have marked := ((allDone_iff _).mp complete).2 id ((members id).mpr ((standing.registered id).mpr its))
      exact (finished id its marked).same rfl rfl
    · intro other still
      exact absurd ((Function.update_self _ _ _).symm.trans still) nofun
  · rw [show (Batch.mark _ _).allDone = false from Bool.eq_false_iff.mpr complete]
    -- the batch waits for another member
    refine { sound with deferred := deferred, phase := Or.inl (Held.before ?_ rfl unannounced untold) }
    exact {
      unnotified := unnotified
      incomplete := Bool.eq_false_iff.mpr complete
      known := fun id marked => by
        rw [terminal, Bool.or_eq_true, beq_iff_eq] at marked
        exact (members id).mpr (marked.elim (standing.known id) fun same => same ▸ there)
      registered := fun id => (members id).trans (standing.registered id)
      awaited := fun id its unmarked => by
        rw [terminal, Bool.or_eq_true, beq_iff_eq, not_or] at unmarked
        obtain ⟨unread, stands⟩ := standing.awaited id its unmarked.1
        exact ⟨unread, stands.same rfl (others id (Ne.symm unmarked.2))⟩
      marked := fun id its marked => (finished id its marked).same rfl rfl }

/-- **A deferred callback that runs** keeps the invariant of every batch. -/
theorem announce_sound : BatchSound ((session.deferring deferrals).announce deferral) batchId := by
  by_cases same : deferral.batchId = batchId
  · cases ended : deferral.status.ended with
    | true => exact announce_ended sound same ended
    | false => exact announce_blocked sound same ended
  · exact announce_elsewhere sound (Ne.symm same)

theorem attempt_sound (gate : Gate) :
    BatchSound ((session.deferring deferrals).attempt deferral gate) batchId := by
  have present : (session.deferring deferrals).context.cleanedUp = false := sound.present
  unfold Session.attempt
  rw [present, if_neg Bool.false_ne_true]
  split_ifs
  · exact announce_sound sound
  · have later : ∀ id, pendingIn (deferrals ++ [deferral]) id = pendingIn (deferral :: deferrals) id :=
      fun id => (List.perm_append_singleton deferral deferrals).countP_eq _
    refine sound.redeferred (fun id _ => later id) fun other there => ?_
    exact (List.perm_append_singleton deferral deferrals).mem_iff.mp there

end

section

variable {next : SubagentManager} {deferrals : List Deferral} {event : Event} {told : Option Completion}

def Session.managing (session : Session) (next : SubagentManager) (deferrals : List Deferral) : Session :=
  { session with manager := next, deferrals := deferrals }

theorem BatchSound.managing (sound : BatchSound session batchId)
    (owned : Owned (session.managing next deferrals))
    (members : ∀ id, Member (session.managing next deferrals) batchId id ↔ Member session batchId id)
    (awaited : ∀ id, Member session batchId id → ¬ Counted session batchId id →
      (session.manager.heap id).resultConsumed = false → Awaited session id →
      (next.heap id).resultConsumed = false ∧ Awaited (session.managing next deferrals) id)
    (finished : ∀ id, Member session batchId id → Finished session id →
      Finished (session.managing next deferrals) id) :
    BatchSound (session.managing next deferrals) batchId :=
  sound.carried owned members rfl (fun there => there) rfl awaited finished

/-- The callback that a report comes to, where its record is in a batch. -/
def callbackOf (manager : SubagentManager) (completion : Completion) : Option Deferral :=
  let options := (manager.heap completion.id).options
  if options.background ∧ completion.status ∈ [SubagentStatus.completed, .failed, .cancelled, .blocked, .error] then
    (options.batchId.filter (· ≠ "")).map fun batchId =>
      { agentId := completion.id, ownerGeneration := options.ownerSessionGeneration
        status := completion.status, batchId := batchId }
  else none

theorem onTerminalStatus_eq (owned : Owned session) (leaderTurnActive : Bool) (completion : Completion) :
    Session.onTerminalStatus leaderTurnActive session completion =
      match callbackOf session.manager completion with
      | none => session
      | some deferral => session.attempt deferral { leaderTurnActive := leaderTurnActive } := by
  unfold Session.onTerminalStatus callbackOf
  dsimp only
  cases background : (session.manager.heap completion.id).options.background with
  | false => simp
  | true =>
    obtain ⟨generation, owner⟩ := owned.owned completion.id background
    rw [isOwnerSessionCurrent_of owned.present generation (Or.inr owner)]
    by_cases reported : completion.status ∈
        [SubagentStatus.completed, .failed, .cancelled, .blocked, .error]
    · simp only [reported, Bool.not_true, Bool.false_eq_true, if_false, not_true_eq_false, and_self, if_true]
      cases (session.manager.heap completion.id).options.batchId.filter (· ≠ "") <;> rfl
    · simp only [reported, Bool.not_true, Bool.false_eq_true, if_false, not_false_eq_true, and_false, if_true]

variable {manager : SubagentManager}

theorem callbackOf_about {completion : Completion} {deferral : Deferral}
    (known : callbackOf manager completion = some deferral) :
    deferral.agentId = completion.id ∧ deferral.status = completion.status ∧ deferral.batchId ≠ "" ∧
      (manager.heap completion.id).options.background ∧
      (manager.heap completion.id).options.batchId = some deferral.batchId ∧
      deferral.ownerGeneration = (manager.heap completion.id).options.ownerSessionGeneration := by
  unfold callbackOf at known
  dsimp only at known
  by_cases goes : (manager.heap completion.id).options.background = true ∧
      completion.status ∈ [SubagentStatus.completed, .failed, .cancelled, .blocked, .error]
  · rw [if_pos goes] at known
    obtain ⟨batchId, named, rfl⟩ := Option.map_eq_some_iff.mp known
    obtain ⟨mine, nonempty⟩ := Option.filter_eq_some_iff.mp named
    exact ⟨rfl, rfl, of_decide_eq_true nonempty, goes.1, mine, rfl⟩
  · rw [if_neg goes] at known
    cases known

theorem callbackOf_member (member : Member session batchId id) (named : batchId ≠ "") {status : SubagentStatus}
    (reported : status.reported) : ∃ deferral, callbackOf session.manager ⟨id, status⟩ = some deferral := by
  refine ⟨{ agentId := id, status := status, batchId := batchId
            ownerGeneration := (session.manager.heap id).options.ownerSessionGeneration }, ?_⟩
  unfold callbackOf
  dsimp only
  rw [if_pos ⟨member.1, by revert reported; cases status <;> decide⟩, member.2,
    Option.filter_some_pos (by simpa using named)]
  rfl

def withReport (manager : SubagentManager) (told : Option Completion) (deferrals : List Deferral) :
    List Deferral :=
  (told.bind (callbackOf manager)).toList ++ deferrals

theorem withReport_quiet (quiet : ∀ completion ∈ told, completion.id = id → completion.status.ended = false) :
    pendingIn (withReport manager told deferrals) id = pendingIn deferrals id := by
  rw [withReport, pendingIn, List.countP_append]
  refine Nat.add_eq_right.mpr (List.countP_eq_zero.mpr fun deferral there counts => ?_)
  obtain ⟨completion, mine, known⟩ := Option.bind_eq_some_iff.mp (Option.mem_toList.mp there)
  obtain ⟨agent, status, -⟩ := callbackOf_about known
  rw [Bool.and_eq_true, beq_iff_eq, agent, status] at counts
  exact Bool.noConfusion (counts.2.symm.trans (quiet completion mine counts.1))

theorem withReport_ended {status : SubagentStatus} {deferral : Deferral}
    (known : callbackOf manager ⟨id, status⟩ = some deferral) (ended : status.ended) :
    pendingIn (withReport manager (some ⟨id, status⟩) deferrals) id = pendingIn deferrals id + 1 := by
  obtain ⟨agent, same, -⟩ := callbackOf_about known
  rw [withReport, Option.bind_some, known, Option.toList_some, List.singleton_append, pendingIn_cons,
    if_pos ⟨agent, same ▸ ended⟩]

theorem Sound.unused (sound : Sound manager) (new : manager.counter ≤ id) :
    places manager id = 0 := by
  have queue : manager.queue.countP (·.id == id) = 0 := List.countP_eq_zero.mpr fun entry there same => by
    have known := sound.arrived entry.id (List.mem_append_right _ (List.mem_map_of_mem there))
    exact absurd (beq_iff_eq.mp same ▸ known) (not_lt_of_ge new)
  have bodies : manager.bodies.countP (·.id == id) = 0 := List.countP_eq_zero.mpr fun body there same =>
    absurd (beq_iff_eq.mp same ▸ sound.embodied body there) (not_lt_of_ge new)
  have polls : manager.polls.count id = 0 :=
    List.count_eq_zero_of_not_mem fun there => absurd (sound.polled id there) (not_lt_of_ge new)
  rw [places, placesIn, queue, bodies, polls]

theorem Owned.managing (owned : Owned session) (sound : Sound next)
    (counter : session.manager.counter ≤ next.counter)
    (options : ∀ id, (next.heap id).options = (session.manager.heap id).options)
    (completions : next.completions = session.manager.completions ++ told.toList)
    (gone : ∀ id, places session.manager id = 0 → ∀ completion ∈ told, completion.id ≠ id) :
    Owned (session.managing next (withReport next told session.deferrals)) where
  sound := sound
  present := owned.present
  unspawned id new := by
    show (next.heap id).options.background = false
    rw [options]
    exact owned.unspawned id (counter.trans new)
  owned id background := by
    have background : (next.heap id).options.background = true := background
    show (next.heap id).options.ownerSessionGeneration = _ ∧ (next.heap id).options.ownerSessionId = _
    rw [options] at background ⊢
    exact owned.owned id background
  reported completion there := by
    have there : completion ∈ next.completions := there
    rw [completions] at there
    rcases List.mem_append.mp there with old | new
    · exact (owned.reported completion old).trans_le counter
    · by_contra unknown
      refine gone completion.id (owned.sound.unused ?_) completion (Option.mem_toList.mp new) rfl
      exact counter.trans (le_of_not_gt unknown)
  deferred deferral there := by
    rcases List.mem_append.mp there with new | old
    · obtain ⟨completion, -, known⟩ := Option.bind_eq_some_iff.mp (Option.mem_toList.mp new)
      obtain ⟨agent, -, named, background, mine, generation⟩ := callbackOf_about known
      rw [← agent] at background mine generation
      rw [options] at generation
      have theirs : (session.manager.heap deferral.agentId).options.background = true :=
        options deferral.agentId ▸ background
      exact ⟨⟨background, mine⟩, generation.trans (owned.owned _ theirs).1, named⟩
    · obtain ⟨⟨background, mine⟩, generation, named⟩ := owned.deferred deferral old
      refine ⟨⟨?_, ?_⟩, generation, named⟩
      · show (next.heap _).options.background = true
        rw [options]
        exact background
      · show (next.heap _).options.batchId = _
        rw [options]
        exact mine

/-- **A report of the manager**, before its callback runs. -/
theorem report_sound (sound : BatchSound session batchId) (named : batchId ≠ "") (kept : Sound next)
    (completions : next.completions = session.manager.completions ++ told.toList)
    (reports : ∀ id, Reports event session.manager next told id)
    (spares : ∀ id, Member session batchId id → ¬ HasEnded session id → event.Spares id) :
    BatchSound (session.managing next (withReport next told session.deferrals)) batchId := by
  have options : ∀ id, (next.heap id).options = (session.manager.heap id).options :=
    fun id => congrArg Prod.fst (reports id).fewer.given
  have member : ∀ id, Member (session.managing next (withReport next told session.deferrals)) batchId id ↔
      Member session batchId id := by
    intro id
    show _ = _ ∧ (next.heap id).options.batchId = _ ↔ _
    rw [show ((session.managing next (withReport next told session.deferrals)).manager.heap id).options = _
      from options id, options id]
    rfl
  have onward : ∀ id, HasEnded session id →
      HasEnded (session.managing next (withReport next told session.deferrals)) id := by
    rintro id ⟨completion, there, about⟩
    refine ⟨completion, ?_, about⟩
    show completion ∈ next.completions
    rw [completions]
    exact List.mem_append_left _ there
  have idle : ∀ id, places session.manager id = 0 → places next id = 0 ∧
      pendingIn (withReport next told session.deferrals) id = pendingIn session.deferrals id := by
    intro id none
    refine ⟨Nat.le_zero.mp (none ▸ (reports id).fewer.places), withReport_quiet fun completion mine same => ?_⟩
    exact absurd same ((reports id).gone none completion mine)
  refine sound.managing
    (sound.toOwned.managing kept (reports 0).fewer.counter options completions fun id => (reports id).gone)
    member (fun id its uncounted unread stands => ⟨?_, ?_⟩) fun id its finished => ?_
  · exact (congrArg Prod.snd (reports id).fewer.given).trans unread
  · cases stands with
    | lives unended none yet =>
      rcases (reports id).fate unended (spares id its yet) with ⟨still, quiet⟩ | ⟨out, status, mine, reported⟩
      · refine .lives still ((withReport_quiet quiet).trans none) ?_
        rintro ⟨completion, there, same, ended⟩
        have there : completion ∈ next.completions := there
        rw [completions] at there
        rcases List.mem_append.mp there with old | new
        · exact yet ⟨completion, old, same, ended⟩
        · exact Bool.noConfusion (ended.symm.trans (quiet completion (Option.mem_toList.mp new) same))
      · subst mine
        obtain ⟨deferral, known⟩ := callbackOf_member ((member id).mpr its) named reported
        refine .waits out ?_ ⟨⟨id, status⟩, ?_, rfl, reported_ended reported⟩
        · exact (withReport_ended known (reported_ended reported)).trans (congrArg (· + 1) none)
        · show _ ∈ next.completions
          rw [completions]
          exact List.mem_append_right _ List.mem_cons_self
    | waits none one ended =>
      obtain ⟨out, same⟩ := idle id none
      exact .waits out (same.trans one) (onward id ended)
  · obtain ⟨out, same⟩ := idle id finished.idle
    exact ⟨out, same.trans finished.none, onward id finished.ended⟩

/-- **An event of the manager**, with the callback of what it reports. -/
theorem manage_sound (event : Event) (sound : BatchSound session batchId) (named : batchId ≠ "")
    (quiet : event.Quiet)
    (spares : ∀ id, Member session batchId id → ¬ HasEnded session id → event.Spares id)
    (leaderTurnActive : Bool) : BatchSound (session.manage event leaderTurnActive) batchId := by
  obtain ⟨told, completions, reports⟩ : ∃ told, (session.manager.step event).completions =
      session.manager.completions ++ told.toList ∧
        ∀ id, Reports event session.manager (session.manager.step event) told id := step_reports event quiet
  have reported := report_sound sound named (step_sound _ event sound.sound) completions reports spares
  unfold Session.manage
  dsimp only
  rw [completions, List.drop_left]
  cases told with
  | none => exact reported
  | some completion =>
    have options : ((session.manager.step event).heap completion.id).options =
        (session.manager.heap completion.id).options := congrArg Prod.fst (reports completion.id).fewer.given
    -- the callback looks at the session without its own deferral
    have owned : Owned { session with manager := session.manager.step event } :=
      { reported.toOwned with
        deferred := fun deferral there => reported.deferred deferral (List.mem_append_right _ there) }
    rw [Option.toList_some, List.foldl_cons, List.foldl_nil, onTerminalStatus_eq owned]
    have pending : withReport (session.manager.step event) (some completion) session.deferrals =
        (callbackOf (session.manager.step event) completion).toList ++ session.deferrals := rfl
    rw [pending] at reported
    cases known : callbackOf (session.manager.step event) completion with
    | none =>
      rw [known] at reported
      exact reported
    | some deferral =>
      rw [known] at reported
      have reported : BatchSound (Session.deferring
        { session with manager := session.manager.step event } (deferral :: session.deferrals)) batchId :=
          reported
      exact attempt_sound reported _

end

section

variable {background : Bool} {batch : Option String} {signal : Option Nat}

theorem spawn_counter (manager : SubagentManager) (options : SpawnOptions) (signal : Option Nat) :
    (manager.spawn options signal).counter = manager.counter + 1 := by
  unfold SubagentManager.spawn
  cases options.background && decide (manager.maxConcurrent ≤ manager.runningBackground) <;> rfl

theorem spawn_given (manager : SubagentManager) (options : SpawnOptions) (signal : Option Nat) :
    ((manager.spawn options signal).heap manager.counter).given = (options, false) := by
  unfold SubagentManager.spawn
  cases options.background && decide (manager.maxConcurrent ≤ manager.runningBackground) <;>
    simp [SubagentRecord.given, SubagentManager.start, SubagentManager.setStatus, SubagentManager.update]

def Session.optionsOf (session : Session) (background : Bool) (batch : Option String) : SpawnOptions :=
  { background := background, batchId := batch
    ownerSessionGeneration := some session.context.sessionGeneration
    ownerSessionId := session.context.sessionId }

/-- The session after its manager has spawned a subagent. -/
def Session.spawned (session : Session) (background : Bool) (batch : Option String) (signal : Option Nat) :
    Session :=
  session.managing
    (session.manager.spawn (session.optionsOf background batch) (if background then none else signal))
    session.deferrals

theorem spawned_options (session : Session) (background : Bool) (batch : Option String) (signal : Option Nat) :
    ((session.spawned background batch signal).manager.heap session.manager.counter).options =
      session.optionsOf background batch := congrArg Prod.fst (spawn_given _ _ _)

section

variable (background batch signal)

theorem spawned_others (other : id ≠ session.manager.counter) :
    Kept id session.manager (session.spawned background batch signal).manager := spawn_kept _ _ other

theorem spawned_completions :
    (session.spawned background batch signal).manager.completions = session.manager.completions :=
  call_completions (.spawn (session.optionsOf background batch) (if background then none else signal))

theorem spawned_owned (owned : Owned session) : Owned (session.spawned background batch signal) where
  sound := step_sound session.manager
    (.called (.spawn (session.optionsOf background batch) (if background then none else signal))) owned.sound
  present := owned.present
  unspawned id new := by
    have later : session.manager.counter < id := (spawn_counter _ _ _).symm.trans_le new
    rw [show ((session.spawned background batch signal).manager.heap id).options = _ from
      congrArg Prod.fst (spawned_others background batch signal later.ne').given]
    exact owned.unspawned id later.le
  owned id itsBackground := by
    by_cases new : id = session.manager.counter
    · rw [new, spawned_options]
      exact ⟨rfl, rfl⟩
    · have same : ((session.spawned background batch signal).manager.heap id).options =
          (session.manager.heap id).options :=
        congrArg Prod.fst (spawned_others background batch signal new).given
      rw [same] at itsBackground ⊢
      exact owned.owned id itsBackground
  reported completion there := by
    have there : completion ∈ session.manager.completions :=
      spawned_completions background batch signal ▸ there
    exact (Nat.lt_succ_of_lt (owned.reported completion there)).trans_eq (spawn_counter _ _ _).symm
  deferred deferral there := by
    obtain ⟨member, generation, named⟩ := owned.deferred deferral there
    have other : deferral.agentId ≠ session.manager.counter := fun same =>
      Bool.noConfusion ((owned.unspawned _ same.ge).symm.trans member.1)
    have same : ((session.spawned background batch signal).manager.heap deferral.agentId).options =
        (session.manager.heap deferral.agentId).options :=
      congrArg Prod.fst (spawned_others background batch signal other).given
    refine ⟨⟨?_, ?_⟩, generation, named⟩
    · rw [same]
      exact member.1
    · rw [same]
      exact member.2

theorem spawned_hasEnded (id : Nat) :
    HasEnded (session.spawned background batch signal) id ↔ HasEnded session id := by
  unfold HasEnded
  rw [spawned_completions]

theorem Awaited.spawned (awaited : Awaited session id) (other : id ≠ session.manager.counter) :
    Awaited (session.spawned background batch signal) id := by
  have kept := spawned_others background batch signal other
  cases awaited with
  | lives unended none yet =>
    exact .lives (kept.unended unended) none fun ended => yet ((spawned_hasEnded _ _ _ id).mp ended)
  | waits idle one ended =>
    exact .waits (Nat.le_zero.mp (idle ▸ kept.places)) one ((spawned_hasEnded _ _ _ id).mpr ended)

theorem Finished.spawned (finished : Finished session id) (other : id ≠ session.manager.counter) :
    Finished (session.spawned background batch signal) id :=
  ⟨Nat.le_zero.mp (finished.idle ▸ (spawned_others background batch signal other).places), finished.none,
    (spawned_hasEnded _ _ _ id).mpr finished.ended⟩

end

theorem Owned.known (owned : Owned session) (member : Member session batchId id) :
    id ≠ session.manager.counter := fun same =>
  Bool.noConfusion ((owned.unspawned id same.ge).symm.trans member.1)

theorem spawned_member (other : id ≠ session.manager.counter) :
    Member (session.spawned background batch signal) batchId id ↔ Member session batchId id := by
  have same : ((session.spawned background batch signal).manager.heap id).options =
      (session.manager.heap id).options :=
    congrArg Prod.fst (spawned_others background batch signal other).given
  unfold Member
  rw [same]

theorem spawned_elsewhere (sound : BatchSound session batchId)
    (other : ¬ (background = true ∧ batch = some batchId)) :
    BatchSound (session.spawned background batch signal) batchId := by
  refine sound.managing (spawned_owned _ _ _ sound.toOwned) (fun id => ?_)
    (fun id member _ unread stands => ⟨?_, stands.spawned _ _ _ (sound.known member)⟩)
    fun id member finished => finished.spawned _ _ _ (sound.known member)
  · by_cases new : id = session.manager.counter
    · subst new
      refine ⟨fun member => absurd ?_ other, fun member => absurd rfl (sound.known member)⟩
      have options := spawned_options session background batch signal
      exact ⟨(congrArg SpawnOptions.background options).symm.trans member.1,
        (congrArg SpawnOptions.batchId options).symm.trans member.2⟩
    · exact spawned_member new
  · exact (congrArg Prod.snd (spawned_others background batch signal (sound.known member)).given).trans unread

/-- **A new member** of a batch that was not announced yet. -/
theorem spawned_here (sound : BatchSound session batchId) (unannounced : session.announced batchId = 0) :
    BatchSound { session.spawned true (some batchId) signal with
      barrier := session.barrier.register batchId session.manager.counter } batchId := by
  rcases sound.phase with before | after
  swap
  · exact absurd (unannounced.symm.trans after.announced) Nat.zero_ne_one
  obtain ⟨-, untold, standing⟩ := before_iff.mp before
  let old := (session.barrier.batches batchId).getD {}
  let member : BatchMember := { id := session.manager.counter, status := .running }
  have fresh : ∀ id, hasMember old.members id → id ≠ session.manager.counter :=
    fun id there => sound.known ((standing.registered id).mp there)
  have members : ∀ id, hasMember (old.ensure member).members id ↔
      hasMember old.members id ∨ session.manager.counter = id := fun id => by
    rw [hasMember_ensure, Bool.or_eq_true, beq_iff_eq]
  obtain ⟨terminal, notified⟩ := ensure_terminal old member
  have owned := spawned_owned true (some batchId) signal sound.toOwned
  have options := spawned_options session true (some batchId) signal
  have mine : Member (session.spawned true (some batchId) signal) batchId session.manager.counter :=
    ⟨congrArg SpawnOptions.background options, congrArg SpawnOptions.batchId options⟩
  have registers : session.barrier.register batchId session.manager.counter =
      session.barrier.set batchId (old.ensure member) := if_neg untold
  rw [registers]
  refine { owned with phase := Or.inl (Held.before ?_ rfl unannounced untold) }
  refine {
    unnotified := notified.trans standing.unnotified
    incomplete := Bool.eq_false_iff.mpr fun complete => ?_
    known := fun id there => (members id).mpr (Or.inl (standing.known id (terminal ▸ there)))
    registered := fun id => (members id).trans ?_
    awaited := fun id its unmarked => ?_
    marked := fun id its there => ?_ }
  · have marked := ((allDone_iff _).mp complete).2 session.manager.counter ((members _).mpr (Or.inr rfl))
    exact fresh _ (standing.known _ (terminal ▸ marked)) rfl
  · by_cases new : id = session.manager.counter
    · exact iff_of_true (Or.inr new.symm) (new ▸ mine)
    · rw [or_iff_left (Ne.symm new)]
      exact (standing.registered id).trans (spawned_member new).symm
  · by_cases new : id = session.manager.counter
    · subst new
      refine ⟨congrArg Prod.snd (spawn_given _ _ _), .lives ?_ ?_ fun ⟨completion, there, same, _⟩ => ?_⟩
      · exact spawn_unended _ (sound.sound.unused (le_refl _))
      · exact List.countP_eq_zero.mpr fun deferral there counts =>
          sound.known (sound.deferred deferral there).1 (beq_iff_eq.mp ((Bool.and_eq_true _ _).mp counts).1)
      · have there : completion ∈ session.manager.completions :=
          spawned_completions true (some batchId) signal ▸ there
        exact absurd same (sound.reported completion there).ne
    · obtain ⟨unread, stands⟩ := standing.awaited id ((spawned_member new).mp its) (terminal ▸ unmarked)
      refine ⟨(congrArg Prod.snd (spawned_others true (some batchId) signal new).given).trans unread, ?_⟩
      exact (stands.spawned true (some batchId) signal new).same rfl rfl
  · rw [terminal] at there
    have new := fresh id (standing.known id there)
    exact ((standing.marked id ((spawned_member new).mp its) there).spawned true (some batchId) signal new).same
      rfl rfl

theorem spawn_sound (sound : BatchSound session batchId) (named : batchId ≠ "")
    (early : background = true ∧ batch = some batchId → session.announced batchId = 0) :
    BatchSound (session.spawn background batch signal) batchId := by
  by_cases here : background = true ∧ batch = some batchId
  · obtain ⟨rfl, rfl⟩ := here
    have registers : session.spawn true (some batchId) signal =
        { session.spawned true (some batchId) signal with
          barrier := session.barrier.register batchId session.manager.counter } := by
      unfold Session.spawn
      rw [Option.filter_some_pos (by simpa using named)]
      rfl
    rw [registers]
    exact spawned_here sound (early ⟨rfl, rfl⟩)
  · have elsewhere : BatchSound (session.spawned background batch signal) batchId := spawned_elsewhere sound here
    unfold Session.spawn
    cases told : batch.filter (· ≠ "") with
    | none => exact elsewhere
    | some other =>
      cases background with
      | false => exact elsewhere
      | true =>
        have ne : batchId ≠ other := by
          rintro rfl
          exact here ⟨rfl, (Option.filter_eq_some_iff.mp told).1⟩
        have barrier := register_elsewhere session.barrier ne session.manager.counter
        exact elsewhere.elsewhere barrier.1 (fun there => barrier.2 ▸ there) rfl

end

/-- **An assignment to a record** that keeps its options, and leaves a member that is not counted yet
unread and alive. -/
theorem BatchSound.updated (sound : BatchSound session batchId) (known : id < session.manager.counter)
    {fields : SubagentRecord → SubagentRecord} (options : ∀ record, (fields record).options = record.options)
    (unread : Member session batchId id → ¬ Counted session batchId id →
      (session.manager.heap id).resultConsumed = false → (fields (session.manager.heap id)).resultConsumed = false)
    (live : Member session batchId id → ¬ Counted session batchId id →
      (session.manager.heap id).status.ended = false → (fields (session.manager.heap id)).status.ended = false) :
    BatchSound { session with manager := session.manager.update id fields } batchId := by
  let next := session.manager.update id fields
  have heap : ∀ other, next.heap other =
      if other = id then fields (session.manager.heap id) else session.manager.heap other := by
    intro other
    by_cases same : other = id
    · rw [if_pos same, same]
      exact Function.update_self _ _ _
    · rw [if_neg same]
      exact Function.update_of_ne same _ _
  have same : ∀ other, (next.heap other).options = (session.manager.heap other).options := by
    intro other
    rw [heap]
    split_ifs with mine
    · rw [mine, options]
    · rfl
  have completions : next.completions = session.manager.completions ++ (none : Option Completion).toList :=
    (List.append_nil _).symm
  have owned : Owned (session.managing next session.deferrals) :=
    sound.toOwned.managing (update_sound fields known sound.sound) (le_refl _) same completions fun _ _ => nofun
  refine sound.managing owned
    (fun other => ?_) (fun other member uncounted unreadYet stands => ⟨?_, ?_⟩)
    fun other member finished => ⟨finished.idle, finished.none, finished.ended⟩
  · show (next.heap other).options.background = true ∧ (next.heap other).options.batchId = _ ↔ _
    rw [same]
    rfl
  · show (next.heap other).resultConsumed = false
    rw [heap]
    split_ifs with mine
    · subst mine
      exact unread member uncounted unreadYet
    · exact unreadYet
  · cases stands with
    | lives unended none yet =>
      refine .lives { unended with live := ?_ } none yet
      show (next.heap other).status.ended = false
      rw [heap]
      split_ifs with mine
      · subst mine
        exact live member uncounted unended.live
      · exact unended.live
    | waits idle one ended => exact .waits idle one ended

def Session.new (sessionId : Option String) (sessionGeneration : Nat) (limit : ℚ) : Session :=
  { context := { sessionId := sessionId, sessionGeneration := sessionGeneration }
    manager := .new limit }

/-- **What does not disturb a batch**: it grows before its notice only, no member is stopped that has not
ended, the turns of a member that ends can be looked up, and no result of a member is taken for read before
its callback has run. -/
def Undisturbed (batchId : String) (session : Session) : SessionEvent → Prop
  | .spawned background batch _ =>
    background = true ∧ batch = some batchId → session.announced batchId = 0
  | .aborted id _ => Member session batchId id → HasEnded session id
  | .abortedAll _ => ∀ id, Member session batchId id → HasEnded session id
  | .settled id _ around _ | .polled id around _ =>
    Member session batchId id → HasEnded session id ∨ around.endTurns.failure = none
  | .blockedPolled id around _ =>
    Member session batchId id → HasEnded session id ∨ around.pollTurns.failure = none
  | .resultRead id manifest =>
    Member session batchId id → (Session.refreshed (session.manager.heap id) manifest).ended →
      Counted session batchId id
  | .waitedRead id gaveUp =>
    Member session batchId id → session.manager.status id ≠ .blocked →
      (session.manager.status id).ended ∨ gaveUp = true → Counted session batchId id
  | .signalAborted _ | .retried _ _ => True

theorem new_batchSound (sessionId : Option String) (sessionGeneration : Nat) (limit : ℚ) (batchId : String) :
    BatchSound (.new sessionId sessionGeneration limit) batchId where
  sound := new_sound limit
  present := rfl
  unspawned _ _ := rfl
  owned _ := nofun
  reported _ := nofun
  deferred _ := nofun
  phase := Or.inl {
    unannounced := rfl
    untold := List.not_mem_nil
    unnotified := nofun
    incomplete := nofun
    known := nofun
    registered := fun _ => ⟨nofun, fun member => nomatch member.1⟩
    awaited := fun _ member => nomatch member.1
    marked := fun _ member => nomatch member.1 }

/-- **A step that does not disturb a batch** keeps its invariant. -/
theorem session_step_sound (named : batchId ≠ "") (session : Session) (event : SessionEvent)
    (sound : BatchSound session batchId) (undisturbed : Undisturbed batchId session event) :
    BatchSound (session.step event) batchId := by
  cases event with
  | spawned background batch signal => exact spawn_sound sound named undisturbed
  | aborted id reason =>
    exact manage_sound (.called (.abort id reason)) sound named trivial
      (fun other member yet same => yet (same ▸ undisturbed (same ▸ member))) false
  | abortedAll reason =>
    exact manage_sound (.called (.abortAll reason)) sound named trivial
      (fun other member yet => yet (undisturbed other member)) false
  | signalAborted signal =>
    exact manage_sound (.signalAborted signal) sound named trivial (fun _ _ _ => trivial) false
  | settled id outcome around active =>
    refine manage_sound (.settled id outcome around.told) sound named ⟨rfl, rfl⟩ (fun other member yet same => ?_) active
    exact (undisturbed (same ▸ member)).resolve_left fun ended => yet (same ▸ ended)
  | polled id around active =>
    refine manage_sound (.polled id around.told) sound named ⟨rfl, rfl⟩ (fun other member yet same => ?_) active
    exact (undisturbed (same ▸ member)).resolve_left fun ended => yet (same ▸ ended)
  | blockedPolled id around active =>
    refine manage_sound (.blockedPolled id around.told) sound named ⟨rfl, rfl⟩ (fun other member yet same => ?_) active
    exact (undisturbed (same ▸ member)).resolve_left fun ended => yet (same ▸ ended)
  | retried deferral gate =>
    rw [Session.step]
    split_ifs with there
    · have perm := List.perm_cons_erase there
      have first : BatchSound (session.deferring (deferral :: session.deferrals.erase deferral)) batchId :=
        sound.redeferred (fun id _ => (perm.countP_eq _).symm) fun other its => perm.mem_iff.mpr its
      exact attempt_sound first gate
    · exact sound
  | resultRead id manifest =>
    rw [Session.step, Session.readResult]
    split_ifs with known
    · have unended : Member session batchId id → ¬ Counted session batchId id →
          (Session.refreshed (session.manager.heap id) manifest).ended = false := fun member uncounted =>
        Bool.eq_false_iff.mpr fun ended => uncounted (undisturbed member ended)
      refine sound.updated known (fun _ => rfl) (fun member uncounted unread => ?_) fun member uncounted _ => ?_
      · show (_ || _) = false
        rw [unread, unended member uncounted]
        rfl
      · exact unended member uncounted
    · exact sound
  | waitedRead id gaveUp =>
    rw [Session.step, Session.readAfterWait]
    split_ifs with known
    · refine sound.updated known (fun _ => rfl) (fun member uncounted unread => ?_) fun _ _ live => live
      dsimp only
      split_ifs with blocked
      · rfl
      · have quiet := fun ended => uncounted (undisturbed member blocked ended)
        have live : (session.manager.heap id).status.ended = false :=
          Bool.eq_false_iff.mpr fun ended => quiet (Or.inl ended)
        rw [unread, live, Bool.eq_false_iff.mpr fun gaveUp => quiet (Or.inr gaveUp)]
        rfl
    · exact sound

/-- **A batch is announced as it should be**: once at most, not before all members have ended, and then
for certain, if no callback waits and a result is still unread. -/
structure AnnouncedOnce (session : Session) (batchId : String) : Prop where
  once : session.announced batchId ≤ 1
  after : session.announced batchId ≠ 0 → ∀ id, Member session batchId id → HasEnded session id
  told : (∀ id, Member session batchId id → (session.manager.status id).ended) →
    (∀ deferral ∈ session.deferrals, deferral.batchId ≠ batchId) →
    (∃ id, Member session batchId id ∧ (session.manager.heap id).resultConsumed = false) →
    session.announced batchId = 1

theorem BatchSound.announcedOnce (sound : BatchSound session batchId) : AnnouncedOnce session batchId := by
  rcases sound.phase with before | after
  swap
  · exact ⟨after.announced.le, fun _ id member => (after.finished id member).ended, fun _ _ _ => after.announced⟩
  refine ⟨before.unannounced.le.trans (Nat.zero_le 1), fun announced => absurd before.unannounced announced,
    fun ended idle ⟨someone, member, _⟩ => ?_⟩
  -- a member that is not marked lives, or its callback waits
  have marked : ∀ id, Member session batchId id → Marked session batchId id := by
    intro id its
    by_contra unmarked
    obtain ⟨-, stands⟩ := before.awaited id its unmarked
    cases stands with
    | lives unended none yet => exact Bool.noConfusion (unended.live.symm.trans (ended id its))
    | waits unplaced one _ =>
      obtain ⟨deferral, there, counts⟩ := List.countP_pos_iff.mp (one ▸ Nat.one_pos)
      have mine : deferral.agentId = id := beq_iff_eq.mp ((Bool.and_eq_true _ _).mp counts).1
      refine idle deferral there (Option.some.inj ?_)
      exact (sound.deferred deferral there).1.2.symm.trans (mine ▸ its.2)
  obtain ⟨batch, found, there⟩ := (before.registered someone).mpr member
  have complete : batch.allDone = true := by
    refine (allDone_iff batch).mpr ⟨fun empty => ?_, fun id has => ?_⟩
    · rw [empty] at there
      exact Bool.false_ne_true there
    · obtain ⟨other, same, terminal⟩ := marked id ((before.registered id).mp ⟨batch, found, has⟩)
      exact Option.some.inj (found.symm.trans same) ▸ terminal
  exact absurd (before.incomplete batch found) (by rw [complete]; exact nofun)

/-- **A batch that is not disturbed is announced exactly once**, in every order of the endings, the reads
and the deferrals. -/
theorem batch_announced_once (named : batchId ≠ "") (sessionId : Option String) (sessionGeneration : Nat)
    (limit : ℚ) (events : List SessionEvent)
    (undisturbed : ∀ taken ∈ transitions Session.step (.new sessionId sessionGeneration limit) events,
      Undisturbed batchId taken.before taken.action) :
    AnnouncedOnce (finish Session.step (.new sessionId sessionGeneration limit) events) batchId :=
  (finish_guarded Session.step (session_step_sound named)
    (new_batchSound sessionId sessionGeneration limit batchId) undisturbed).announcedOnce

def stopsOne : List SessionEvent :=
  [.spawned true (some "b") none, .spawned true (some "b") none, .aborted 0 none,
    .settled 0 (.rejected "aborted") {} false, .settled 1 (.result false "done" none) {} false]

/-- **A member that is stopped silences its batch**: all have ended, the result of the other is unread, and
nothing waits any more. -/
theorem stop_silences : ¬ AnnouncedOnce (finish Session.step (.new none 0 4) stopsOne) "b" := by
  have counter : (finish Session.step (.new none 0 4) stopsOne).manager.counter = 2 := by decide +kernel
  intro announced
  refine absurd (announced.told (fun id member => ?_) (by decide +kernel)
    ⟨1, ⟨by decide +kernel, by decide +kernel⟩, by decide +kernel⟩) (by decide +kernel)
  rcases id with _ | _ | id
  · decide +kernel
  · decide +kernel
  · have none : ((finish Session.step (.new none 0 4) stopsOne).manager.heap (id + 1 + 1)).options.background =
        false := rfl
    exact Bool.noConfusion (none.symm.trans member.1)

def endsBoth : List SessionEvent := [.spawned true (some "b") none, .spawned true (some "b") none,
    .settled 0 (.result false "done" none) {} false, .settled 1 (.rejected "broken") {} true,
    .retried ⟨1, some 0, .error, "b"⟩ { leaderTurnActive := false }]

theorem ends_announced : AnnouncedOnce (finish Session.step (.new none 0 4) endsBoth) "b" :=
  batch_announced_once (by decide) none 0 4 endsBoth
    (List.forall_mem_cons.mpr ⟨fun _ => rfl, List.forall_mem_cons.mpr ⟨fun _ => rfl,
      List.forall_mem_cons.mpr ⟨fun _ => Or.inr rfl, List.forall_mem_cons.mpr ⟨fun _ => Or.inr rfl,
        List.forall_mem_cons.mpr ⟨trivial, List.forall_mem_nil _⟩⟩⟩⟩⟩)

end PiCrew.Subagents
