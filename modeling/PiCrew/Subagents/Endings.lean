/-
**How a record ends.**

A record can end from three places only: the queue, its body, and the timer of a blocked poll. It is in
one of them while it lives, and where the completion callback makes no calls, an event reports it at
most once and takes it out of the last place when it ends.

* `step_reports` — what an event does to every record, and what it reports.
-/

import PiCrew.Subagents.Manager
import Mathlib.Data.List.Count

namespace PiCrew.Subagents

open SubagentManager

variable {manager next last : SubagentManager} {id who : Nat}

def placesIn (queue : List QueuedSpawn) (bodies : List Body) (polls : List Nat) (id : Nat) : Nat :=
  queue.countP (·.id == id) + bodies.countP (·.id == id) + polls.count id

/-- **In how many places a record waits for its end.** -/
def places (manager : SubagentManager) (id : Nat) : Nat :=
  placesIn manager.queue manager.bodies manager.polls id

/-- **A record that lives**, in one place at most, and whose signal nobody has aborted. -/
structure Unended (manager : SubagentManager) (id : Nat) : Prop where
  once : places manager id ≤ 1
  live : (manager.status id).ended = false
  queued : ∀ entry ∈ manager.queue, entry.id = id → entry.signal = none
  standing : ∀ body ∈ manager.bodies, body.id = id → body.signal = none ∧ body.aborted = false

def SubagentRecord.given (record : SubagentRecord) : SpawnOptions × Bool :=
  (record.options, record.resultConsumed)

/-- No new place for a record, and no change of what it was given. -/
structure Fewer (id : Nat) (manager next : SubagentManager) : Prop where
  places : places next id ≤ places manager id
  given : (next.heap id).given = (manager.heap id).given
  counter : manager.counter ≤ next.counter

/-- A record that lives goes on living. -/
structure Kept (id : Nat) (manager next : SubagentManager) : Prop extends Fewer id manager next where
  unended : Unended manager id → Unended next id

theorem Fewer.refl (id : Nat) (manager : SubagentManager) : Fewer id manager manager :=
  ⟨le_refl _, rfl, le_refl _⟩

theorem Fewer.trans (early : Fewer id manager next) (late : Fewer id next last) : Fewer id manager last :=
  ⟨late.places.trans early.places, late.given.trans early.given, early.counter.trans late.counter⟩

theorem Kept.refl (id : Nat) (manager : SubagentManager) : Kept id manager manager :=
  ⟨Fewer.refl id manager, fun unended => unended⟩

theorem Kept.trans (early : Kept id manager next) (late : Kept id next last) : Kept id manager last :=
  ⟨early.toFewer.trans late.toFewer, fun unended => late.unended (early.unended unended)⟩

theorem foldl_fewer {α : Type} (turn : SubagentManager → α → SubagentManager)
    (each : ∀ manager entry, Fewer id manager (turn manager entry)) (entries : List α)
    (manager : SubagentManager) : Fewer id manager (entries.foldl turn manager) := by
  induction entries generalizing manager with
  | nil => exact Fewer.refl id manager
  | cons entry rest ih => exact (each manager entry).trans (ih _)

theorem update_fewer (fields : SubagentRecord → SubagentRecord)
    (same : ∀ record, (fields record).given = record.given) :
    Fewer id manager (manager.update who fields) := by
  refine ⟨le_refl _, ?_, le_refl _⟩
  show (Function.update manager.heap who _ id).given = _
  by_cases this : id = who
  · rw [this, Function.update_self]
    exact same _
  · rw [Function.update_of_ne this]

theorem update_kept (fields : SubagentRecord → SubagentRecord)
    (same : ∀ record, (fields record).given = record.given) (other : id ≠ who) :
    Kept id manager (manager.update who fields) :=
  ⟨update_fewer fields same, fun unended => { unended with
    live := by rw [update_status, if_neg other]; exact unended.live }⟩

theorem evictTerminalRecords_kept : Kept id manager manager.evictTerminalRecords :=
  ⟨⟨le_refl _, rfl, le_refl _⟩, fun unended => { unended with }⟩

theorem observe_kept (completions : List Completion) (limit : ℚ) :
    Kept id manager { manager with completions := completions, maxConcurrent := limit } :=
  ⟨⟨le_refl _, rfl, le_refl _⟩, fun unended => { unended with }⟩

theorem markStopped_fewer (reason : String) : Fewer id manager (manager.markStopped who reason) := by
  refine Fewer.trans (update_fewer _ ?_) evictTerminalRecords_kept.toFewer
  exact fun _ => rfl

theorem markStopped_kept (reason : String) (other : id ≠ who) :
    Kept id manager (manager.markStopped who reason) := by
  refine Kept.trans (update_kept _ ?_ other) evictTerminalRecords_kept
  exact fun _ => rfl

theorem mapBodies_fewer (change : Body → Body) (fired : List Nat)
    (same : ∀ body, (change body).id = body.id) :
    Fewer id manager { manager with bodies := manager.bodies.map change, fired := fired } := by
  have ids : (fun body : Body => body.id == id) ∘ change = (·.id == id) := by
    funext body
    exact congrArg (· == id) (same body)
  refine ⟨?_, rfl, le_refl _⟩
  show _ + (manager.bodies.map change).countP (·.id == id) + _ ≤ _
  rw [List.countP_map, ids]
  exact le_refl _

theorem mapBodies_kept (change : Body → Body) (fired : List Nat)
    (same : ∀ body, (change body).id = body.id)
    (spared : ∀ body, body.id = id → body.signal = none ∧ body.aborted = false →
      (change body).signal = none ∧ (change body).aborted = false) :
    Kept id manager { manager with bodies := manager.bodies.map change, fired := fired } :=
  ⟨mapBodies_fewer change fired same, fun unended => { unended with
    once := (mapBodies_fewer change fired same).places.trans unended.once
    standing := fun body there its => by
      obtain ⟨old, member, rfl⟩ := List.mem_map.mp there
      have mine := (same old).symm.trans its
      exact spared old mine (unended.standing old member mine) }⟩

theorem abortBody_fewer : Fewer id manager (manager.abortBody who) :=
  mapBodies_fewer _ manager.fired fun body => by split_ifs <;> rfl

theorem abortBody_kept (other : id ≠ who) : Kept id manager (manager.abortBody who) :=
  mapBodies_kept _ manager.fired (fun body => by split_ifs <;> rfl) fun body mine spared => by
    rw [if_neg (fun same => other (mine.symm.trans same))]
    exact spared

theorem sleep_kept : Kept id manager (manager.sleep who) :=
  mapBodies_kept _ manager.fired (fun body => by split_ifs <;> rfl) fun body _ spared => by
    split_ifs <;> exact spared

theorem signalAborted_kept (signal : Nat) : Kept id manager (manager.signalAborted signal) :=
  mapBodies_kept (fun body => if body.signal = some signal then { body with aborted := true } else body)
    (signal :: manager.fired) (fun body => by split_ifs <;> rfl) fun body _ spared => by
      rw [if_neg (by rw [spared.1]; exact nofun)]
      exact spared

theorem requeue_kept {waiting : List QueuedSpawn} (fewer : waiting.Sublist manager.queue) :
    Kept id manager { manager with queue := waiting } := by
  have places : places { manager with queue := waiting } id ≤ places manager id :=
    Nat.add_le_add_right (Nat.add_le_add_right (fewer.countP_le) _) _
  exact ⟨⟨places, rfl, le_refl _⟩, fun unended => { unended with
    once := places.trans unended.once
    queued := fun entry there => unended.queued entry (fewer.subset there) }⟩

theorem startQueued_kept (entry : QueuedSpawn) (rest : List QueuedSpawn) (starts : List Nat) :
    Kept id { manager with queue := entry :: rest }
      { manager.start entry.id entry.signal with queue := rest, queueStarts := starts } := by
  have moved : ∀ body : Body, body.id = entry.id →
      placesIn rest (manager.bodies ++ [body]) manager.polls id =
        placesIn (entry :: rest) manager.bodies manager.polls id := by
    intro body same
    rw [placesIn, placesIn, List.countP_append, List.countP_singleton, List.countP_cons, same]
    omega
  have places : places { manager.start entry.id entry.signal with queue := rest, queueStarts := starts } id =
      places { manager with queue := entry :: rest } id := moved _ rfl
  have set : Fewer id manager (manager.setStatus entry.id .running) := update_fewer _ (by exact fun _ => rfl)
  have fewer : Fewer id { manager with queue := entry :: rest }
      { manager.start entry.id entry.signal with queue := rest, queueStarts := starts } :=
    ⟨places.le, set.given, le_refl _⟩
  refine ⟨fewer, fun unended => ⟨places.le.trans unended.once, ?_, ?_, ?_⟩⟩
  · show ((manager.setStatus entry.id .running).status id).ended = false
    by_cases mine : id = entry.id
    · subst mine
      show (Function.update manager.heap entry.id _ entry.id).status.ended = false
      rw [Function.update_self]
      rfl
    · rw [SubagentManager.setStatus, update_status, if_neg mine]
      exact unended.live
  · exact fun other there => unended.queued other (List.mem_cons_of_mem _ there)
  · intro body there mine
    rcases List.mem_append.mp there with old | new
    · exact unended.standing body old mine
    · -- the new body listens to the signal of the spawn, which has none
      have spawned := List.mem_singleton.mp new
      have none := unended.queued entry List.mem_cons_self (by rw [← mine, spawned])
      rw [spawned, none]
      exact ⟨rfl, rfl⟩

theorem drainFrom_kept (waiting : List QueuedSpawn) (manager : SubagentManager) :
    Kept id { manager with queue := waiting } (drainFrom waiting manager) := by
  induction waiting generalizing manager with
  | nil => exact Kept.refl _ _
  | cons entry rest ih =>
    rw [drainFrom]
    split_ifs
    · exact (startQueued_kept entry rest _).trans
        (ih { manager.start entry.id entry.signal with queueStarts := manager.queueStarts ++ [entry.id] })
    · exact (requeue_kept (List.sublist_cons_self entry rest)).trans (ih manager)
    · exact Kept.refl _ _

theorem drainQueue_kept : Kept id manager manager.drainQueue := drainFrom_kept manager.queue manager

theorem startOther_kept (signal : Option Nat) (other : id ≠ who) :
    Kept id manager (manager.start who signal) := by
  have added : ∀ body : Body, body.id = who →
      placesIn manager.queue (manager.bodies ++ [body]) manager.polls id = places manager id := by
    intro body same
    rw [placesIn, List.countP_append, List.countP_singleton, same,
      if_neg (by simpa using fun same => other same.symm)]
    rfl
  have places : places (manager.start who signal) id = places manager id := added _ rfl
  have set : Kept id manager (manager.setStatus who .running) :=
    update_kept _ (by exact fun _ => rfl) other
  refine ⟨⟨places.le, set.given, le_refl _⟩, fun unended => ⟨places.le.trans unended.once,
    (set.unended unended).live, unended.queued, fun body there mine => ?_⟩⟩
  rcases List.mem_append.mp there with old | new
  · exact unended.standing body old mine
  · exact absurd (mine.symm.trans (congrArg Body.id (List.mem_singleton.mp new))) other

theorem spawn_kept (options : SpawnOptions) (signal : Option Nat) (other : id ≠ manager.counter) :
    Kept id manager (manager.spawn options signal) := by
  have added : ∀ record : SubagentRecord, Kept id manager { manager with
        counter := manager.counter + 1, records := manager.records ++ [manager.counter]
        heap := Function.update manager.heap manager.counter record } := by
    intro record
    have same : Function.update manager.heap manager.counter record id = manager.heap id :=
      Function.update_of_ne other _ _
    refine ⟨⟨le_refl _, congrArg SubagentRecord.given same, Nat.le_succ _⟩, fun unended => { unended with
      live := ?_ }⟩
    show (Function.update manager.heap manager.counter record id).status.ended = false
    rw [same]
    exact unended.live
  unfold SubagentManager.spawn
  cases options.background && decide (manager.maxConcurrent ≤ manager.runningBackground) with
  | false => exact (added { options := options, status := .running }).trans (startOther_kept signal other)
  | true =>
    refine (added { options := options, status := .queued }).trans ?_
    have elsewhere : ∀ entry : QueuedSpawn, entry.id = manager.counter →
        placesIn (manager.queue ++ [entry]) manager.bodies manager.polls id = places manager id := by
      intro entry new
      rw [placesIn, List.countP_append, List.countP_singleton, new,
        if_neg (by simpa using fun same => other same.symm)]
      rfl
    refine ⟨⟨(elsewhere _ rfl).le, rfl, le_refl _⟩, fun unended => { unended with
      once := (elsewhere _ rfl).le.trans unended.once
      queued := fun entry there mine => ?_ }⟩
    rcases List.mem_append.mp there with old | new
    · exact unended.queued entry old mine
    · exact absurd (mine.symm.trans (congrArg QueuedSpawn.id (List.mem_singleton.mp new))) other

/-- What a call must not do to a record, for it to live on: abort it. -/
def Call.Spares (id : Nat) : Call → Prop
  | .abort who _ => who ≠ id
  | .abortAll _ => False
  | .spawn _ _ | .setMaxConcurrent _ => True

def Call.Spawnless : Call → Prop
  | .spawn _ _ => False
  | .abort _ _ | .abortAll _ | .setMaxConcurrent _ => True

theorem call_fewer (call : Call) (spawnless : call.Spawnless) : Fewer id manager (manager.call call) := by
  cases call with
  | spawn options signal => exact spawnless.elim
  | abort who reason =>
    show Fewer id manager (manager.abort who reason)
    unfold SubagentManager.abort
    split_ifs
    · exact (requeue_kept List.filter_sublist).toFewer.trans (markStopped_fewer _)
    · exact Fewer.refl _ _
    · exact abortBody_fewer.trans (markStopped_fewer _)
    · exact Fewer.refl _ _
  | abortAll reason =>
    refine Fewer.trans (foldl_fewer _ (fun _ _ => markStopped_fewer _) _ _)
      (Fewer.trans (requeue_kept (List.nil_sublist _)).toFewer (foldl_fewer _ (fun state who => ?_) _ _))
    unfold abortActive
    split_ifs
    · exact abortBody_fewer.trans (markStopped_fewer _)
    · exact Fewer.refl _ _
  | setMaxConcurrent value => exact ((observe_kept _ _).trans drainQueue_kept).toFewer

theorem call_kept (call : Call) (spawnless : call.Spawnless) (spares : call.Spares id) :
    Kept id manager (manager.call call) := by
  cases call with
  | spawn options signal => exact spawnless.elim
  | abort who reason =>
    have other : id ≠ who := fun same => spares same.symm
    show Kept id manager (manager.abort who reason)
    unfold SubagentManager.abort
    split_ifs
    · exact (requeue_kept List.filter_sublist).trans (markStopped_kept _ other)
    · exact Kept.refl _ _
    · exact (abortBody_kept other).trans (markStopped_kept _ other)
    · exact Kept.refl _ _
  | abortAll reason => exact spares.elim
  | setMaxConcurrent value => exact (observe_kept _ _).trans drainQueue_kept

theorem drainFrom_completions (waiting : List QueuedSpawn) (manager : SubagentManager) :
    (drainFrom waiting manager).completions = manager.completions := by
  induction waiting generalizing manager with
  | nil => rfl
  | cons entry rest ih =>
    rw [drainFrom]
    split_ifs
    · exact ih _
    · exact ih _
    · rfl

@[simp] theorem drainQueue_completions : manager.drainQueue.completions = manager.completions :=
  drainFrom_completions _ _

theorem call_completions (call : Call) : (manager.call call).completions = manager.completions := by
  cases call with
  | spawn options signal =>
    show (manager.spawn options signal).completions = _
    unfold SubagentManager.spawn
    cases options.background && decide (manager.maxConcurrent ≤ manager.runningBackground) <;> rfl
  | abort who reason =>
    show (manager.abort who reason).completions = _
    unfold SubagentManager.abort
    split_ifs <;> rfl
  | abortAll reason =>
    have marked : ∀ (entries : List QueuedSpawn) (state : SubagentManager) (reason : String),
        (entries.foldl (fun state entry => state.markStopped entry.id reason) state).completions =
          state.completions := by
      intro entries
      induction entries with
      | nil => exact fun _ _ => rfl
      | cons entry rest ih => exact fun state reason => ih _ reason
    have aborted : ∀ (ids : List Nat) (state : SubagentManager) (reason : String),
        (ids.foldl (abortActive reason) state).completions = state.completions := by
      intro ids
      induction ids with
      | nil => exact fun _ _ => rfl
      | cons who rest ih =>
        refine fun state reason => (ih _ reason).trans ?_
        unfold abortActive
        split_ifs <;> rfl
    exact (aborted _ _ _).trans (marked _ _ _)
  | setMaxConcurrent value => exact drainFrom_completions _ _

section

variable {around : Surroundings}

/-- A record whose body has not ended, and that is nowhere else. -/
structure Standing (manager : SubagentManager) (id : Nat) : Prop where
  once : places manager id ≤ 1
  body : (manager.bodyOf id).isSome
  spared : ∀ body ∈ manager.bodies, body.id = id → body.signal = none ∧ body.aborted = false

def SubagentStatus.reported : SubagentStatus → Bool
  | .completed | .failed | .cancelled | .error => true
  | .queued | .running | .blocked | .stopped => false

theorem reported_ended {status : SubagentStatus} (reported : status.reported) : status.ended := by
  cases status <;> first | rfl | exact reported

theorem countP_eraseP {α : Type} (test : α → Bool) (entries : List α) :
    (entries.eraseP test).countP test = entries.countP test - 1 := by
  induction entries with
  | nil => rfl
  | cons entry rest ih =>
    cases holds : test entry with
    | true => rw [List.eraseP_cons_of_pos holds, List.countP_cons_of_pos holds, Nat.add_sub_cancel]
    | false =>
      have skipped : ¬ test entry = true := by rw [holds]; exact Bool.false_ne_true
      rw [List.eraseP_cons_of_neg skipped, List.countP_cons_of_neg skipped,
        List.countP_cons_of_neg skipped, ih]

theorem Standing.only (standing : Standing manager id) :
    manager.queue.countP (·.id == id) = 0 ∧ manager.bodies.countP (·.id == id) = 1 ∧
      manager.polls.count id = 0 := by
  obtain ⟨body, found⟩ := Option.isSome_iff_exists.mp standing.body
  have same : (body.id == id) = true := List.find?_some (p := fun body : Body => body.id == id) found
  have there : 0 < manager.bodies.countP (·.id == id) :=
    List.countP_pos_iff.mpr ⟨body, List.mem_of_find?_eq_some found, same⟩
  have once := standing.once
  rw [places, placesIn] at once
  omega

theorem Standing.unaborted (standing : Standing manager id) :
    (manager.bodyOf id).any (·.aborted) = false := by
  obtain ⟨body, found⟩ := Option.isSome_iff_exists.mp standing.body
  have same : body.id = id := by simpa using List.find?_some found
  rw [found]
  exact (standing.spared body (List.mem_of_find?_eq_some found) same).2

theorem Unended.stands (unended : Unended manager id) (body : (manager.bodyOf id).isSome) :
    Standing manager id := ⟨unended.once, body, unended.standing⟩

theorem releaseBody_kept : Kept id manager (manager.releaseBody who) := by
  have fewer : Fewer id manager (manager.releaseBody who) :=
    ⟨Nat.add_le_add_right (Nat.add_le_add_left (List.eraseP_sublist.countP_le) _) _, rfl, le_refl _⟩
  exact ⟨fewer, fun unended => { unended with
    once := fewer.places.trans unended.once
    standing := fun body there => unended.standing body (List.mem_of_mem_eraseP there) }⟩

/-- **What an event about one record does**, with what it reports: the others live on, and the record
itself is in no new place. -/
structure Effect (who : Nat) (manager next : SubagentManager) (told : Option Completion) : Prop where
  completions : next.completions = manager.completions ++ told.toList
  about : ∀ completion ∈ told, completion.id = who
  others : ∀ id, id ≠ who → Kept id manager next
  self : Fewer who manager next

/-- **What becomes of a record**: it lives on, and is reported at most as blocked, or it has ended, is
reported so, and is nowhere any more. -/
def Fate (who : Nat) (next : SubagentManager) (told : Option Completion) : Prop :=
  (Unended next who ∧ ∀ completion ∈ told, completion.status.ended = false) ∨
    (places next who = 0 ∧ ∃ status, told = some ⟨who, status⟩ ∧ status.reported)

theorem Effect.after {told : Option Completion} (effect : Effect who manager next told)
    (same : manager.completions = last.completions) (others : ∀ id, id ≠ who → Kept id last manager)
    (self : Fewer who last manager) : Effect who last next told where
  completions := same ▸ effect.completions
  about := effect.about
  others id other := (others id other).trans (effect.others id other)
  self := self.trans effect.self

theorem Effect.assigned {told : Option Completion} {fields : SubagentRecord → SubagentRecord}
    (effect : Effect who (manager.update who fields) next told)
    (same : ∀ record, (fields record).given = record.given) : Effect who manager next told :=
  effect.after rfl (fun _ other => update_kept fields same other) (update_fewer fields same)

theorem Standing.assigned (standing : Standing manager who) (fields : SubagentRecord → SubagentRecord) :
    Standing (manager.update who fields) who := ⟨standing.once, standing.body, standing.spared⟩

def Surroundings.Quiet (around : Surroundings) : Prop := around.onEnd = {} ∧ around.onBlocked = {}

/-- **The `finally`** of a body, where the callback is quiet. -/
theorem finishBody_effect (manager : SubagentManager) (who : Nat) (quiet : around.Quiet) :
    ∃ told, Effect who manager (manager.finishBody who around) told ∧
      (Standing manager who → (manager.status who).reported → around.endTurns.failure = none →
        Fate who (manager.finishBody who around) told) := by
  -- no place is left once the body is gone, and the drain makes none
  have gone : Standing manager who → places (manager.releaseBody who) who = 0 := by
    intro standing
    obtain ⟨queue, bodies, polls⟩ := standing.only
    show placesIn manager.queue (manager.bodies.eraseP (·.id == who)) manager.polls who = 0
    rw [placesIn, countP_eraseP, queue, bodies, polls]
  unfold SubagentManager.finishBody
  dsimp only
  by_cases ended : ((manager.releaseBody who).status who).ended = true
  · rw [if_pos ended]
    by_cases failed : ((manager.releaseBody who).turnsFailure who around.endTurns).isSome = true
    · rw [if_pos failed]
      refine ⟨none, ⟨(List.append_nil _).symm, nofun, fun id _ => releaseBody_kept,
        releaseBody_kept.toFewer⟩, fun _ _ returns => ?_⟩
      rw [turnsFailure, returns, ite_self] at failed
      exact absurd failed Bool.false_ne_true
    · rw [if_neg failed, quiet.1]
      have filled : (((manager.releaseBody who).fillTurns who around.endTurns).status who) =
          manager.status who := by rw [fillTurns, update_status, if_pos rfl]; rfl
      have fewer : Fewer who (manager.releaseBody who)
          ((((manager.releaseBody who).fillTurns who around.endTurns).evictTerminalRecords.notify who {}).drainQueue) :=
        (((update_fewer _ (by exact fun _ => rfl)).trans evictTerminalRecords_kept.toFewer).trans
          (observe_kept _ (manager.releaseBody who).maxConcurrent).toFewer).trans drainQueue_kept.toFewer
      refine ⟨some ⟨who, manager.status who⟩, ⟨drainQueue_completions.trans ?_, ?_, fun id other => ?_, ?_⟩, ?_⟩
      · show manager.completions ++ [⟨who, _⟩] = _
        rw [← filled]
        rfl
      · rintro completion ⟨⟩
        rfl
      · exact (((releaseBody_kept.trans (update_kept _ (by exact fun _ => rfl) other)).trans
          evictTerminalRecords_kept).trans
            (observe_kept _ (manager.releaseBody who).maxConcurrent)).trans drainQueue_kept
      · exact releaseBody_kept.toFewer.trans fewer
      · exact fun standing reported _ =>
          Or.inr ⟨Nat.le_zero.mp (gone standing ▸ fewer.places), _, rfl, reported⟩
  · rw [if_neg ended]
    refine ⟨none, ⟨?_, nofun, fun id _ => releaseBody_kept.trans drainQueue_kept,
      (releaseBody_kept.trans drainQueue_kept).toFewer⟩, fun _ reported _ => ?_⟩
    · exact drainQueue_completions.trans (List.append_nil _).symm
    · exact absurd (reported_ended reported) ended

/-- **The `catch`** of a body. -/
theorem failBody_effect (manager : SubagentManager) (who : Nat) (quiet : around.Quiet) (message : String) :
    ∃ told, Effect who manager (manager.failBody who around message) told ∧
      (Standing manager who → manager.status who ≠ .stopped → around.endTurns.failure = none →
        Fate who (manager.failBody who around message) told) := by
  unfold SubagentManager.failBody
  dsimp only
  by_cases halted : manager.status who = .stopped ∨ (manager.bodyOf who).any (·.aborted) = true
  · rw [if_pos halted]
    obtain ⟨told, effect, -⟩ := finishBody_effect (manager.update who fun record =>
        { record with
          status := .stopped
          error := record.errorOr (if (manager.bodyOf who).any (·.aborted) then abortReason else message) })
      who quiet
    refine ⟨told, effect.assigned fun _ => rfl, fun standing unstopped _ => ?_⟩
    rcases halted with stopped | aborted
    · exact absurd stopped unstopped
    · exact absurd (standing.unaborted.symm.trans aborted) Bool.false_ne_true
  · rw [if_neg halted]
    obtain ⟨told, effect, fate⟩ := finishBody_effect
      (manager.update who fun record => { record with status := .error, error := some message }) who quiet
    refine ⟨told, effect.assigned fun _ => rfl, fun standing _ returns => fate (standing.assigned _) ?_ returns⟩
    rw [update_status, if_pos rfl]
    rfl

theorem endRun_effect (manager : SubagentManager) (who : Nat) (quiet : around.Quiet) (status : SubagentStatus)
    (error : Option String) (reported : status.reported) :
    ∃ told, Effect who manager (manager.endRun who around status error) told ∧
      (Standing manager who → around.endTurns.failure = none →
        Fate who (manager.endRun who around status error) told) := by
  have set : (manager.update who fun record => { record with status := status, error := error }).status who =
      status := by rw [update_status, if_pos rfl]
  unfold SubagentManager.endRun
  dsimp only
  split
  · obtain ⟨told, effect, fate⟩ := failBody_effect
      (manager.update who fun record => { record with status := status, error := error }) who quiet _
    refine ⟨told, effect.assigned fun _ => rfl, fun standing returns => fate (standing.assigned _) ?_ returns⟩
    rw [set]
    rintro rfl
    exact absurd reported Bool.false_ne_true
  · obtain ⟨told, effect, fate⟩ := finishBody_effect
      ((manager.update who fun record => { record with status := status, error := error }).fillTurns
        who around.pollTurns) who quiet
    refine ⟨told, (effect.assigned fun _ => rfl).assigned fun _ => rfl,
      fun standing returns => fate ((standing.assigned _).assigned _) ?_ returns⟩
    rw [fillTurns, update_status, if_pos rfl]
    exact (congrArg SubagentStatus.reported set).trans reported

theorem finishBody_of_live (live : (manager.status who).ended = false) :
    manager.finishBody who around = (manager.releaseBody who).drainQueue := by
  have still : ((manager.releaseBody who).status who).ended = false := live
  unfold SubagentManager.finishBody
  dsimp only
  rw [still, if_neg Bool.false_ne_true]

theorem finishBody_live_effect (around : Surroundings) (live : (manager.status who).ended = false) :
    Effect who manager (manager.finishBody who around) none ∧
      (Unended manager who → Fate who (manager.finishBody who around) none) := by
  rw [finishBody_of_live live]
  exact ⟨⟨drainQueue_completions.trans (List.append_nil _).symm, nofun,
    fun id _ => releaseBody_kept.trans drainQueue_kept, (releaseBody_kept.trans drainQueue_kept).toFewer⟩,
    fun unended => Or.inl ⟨drainQueue_kept.unended (releaseBody_kept.unended unended), nofun⟩⟩

/-- **A body that finds its run blocked** leaves its record to the timer of a poll. -/
theorem reportBlocked_effect (quiet : around.Quiet) (body : (manager.bodyOf who).isSome) :
    ∃ told, Effect who manager (manager.reportBlocked who around) told ∧
      (Unended manager who → Fate who (manager.reportBlocked who around) told) := by
  let set := manager.update who fun record =>
    { record with status := .blocked, error := none, blockedAt := true }
  have blocked : set.status who = .blocked := by rw [update_status, if_pos rfl]
  have live : (set.status who).ended = false := by rw [blocked]; rfl
  have others : ∀ id, id ≠ who → Kept id manager set :=
    fun id other => update_kept _ (by exact fun _ => rfl) other
  have self : Fewer who manager set := update_fewer _ (by exact fun _ => rfl)
  unfold SubagentManager.reportBlocked
  dsimp only
  by_cases again : (manager.heap who).blockedAt = true
  · rw [if_pos again]
    obtain ⟨effect, fate⟩ := finishBody_live_effect around live
    exact ⟨none, effect.after rfl others self, fun unended => fate { unended with live := live }⟩
  · rw [if_neg again, quiet.2]
    -- the record leaves its body for the polls
    have there : 0 < manager.bodies.countP (·.id == who) := by
      obtain ⟨standing, found⟩ := Option.isSome_iff_exists.mp body
      exact List.countP_pos_iff.mpr ⟨standing, List.mem_of_find?_eq_some found,
        List.find?_some (p := fun body : Body => body.id == who) found⟩
    have moved : placesIn manager.queue (manager.bodies.eraseP (·.id == who)) (manager.polls ++ [who]) who =
        places manager who := by
      rw [places, placesIn, placesIn, countP_eraseP, List.count_append, List.count_singleton_self]
      omega
    let polled := releaseBody { set.notify who {} with polls := manager.polls ++ [who] } who
    have fewer : Fewer who manager polled := ⟨moved.le, self.given, le_refl _⟩
    rw [show ({} : Callback).throws = none from rfl]
    dsimp only
    rw [show finishBody { set.notify who {} with polls := (set.notify who {}).polls ++ [who] } who around =
      polled.drainQueue from finishBody_of_live live]
    refine ⟨some ⟨who, .blocked⟩, ⟨drainQueue_completions.trans ?_, ?_, fun id other => ?_,
      fewer.trans drainQueue_kept.toFewer⟩, fun unended => Or.inl ⟨drainQueue_kept.unended ?_, ?_⟩⟩
    · show manager.completions ++ [⟨who, set.status who⟩] = _
      rw [blocked]
      rfl
    · rintro completion ⟨⟩
      rfl
    · have elsewhere : Kept id set { set.notify who {} with polls := manager.polls ++ [who] } := by
        have same : placesIn manager.queue manager.bodies (manager.polls ++ [who]) id = places manager id := by
          rw [places, placesIn, placesIn, List.count_append, List.count_singleton,
            if_neg (by simpa using fun same => other same.symm), Nat.add_zero]
        exact ⟨⟨same.le, rfl, le_refl _⟩, fun unended => { unended with once := same.le.trans unended.once }⟩
      exact (((others id other).trans elsewhere).trans releaseBody_kept).trans drainQueue_kept
    · exact {
        once := moved.le.trans unended.once
        live := live
        queued := unended.queued
        standing := fun body there => unended.standing body (List.mem_of_mem_eraseP there) }
    · rintro completion ⟨⟩
      rfl

/-- **One turn of a poll.** -/
theorem pollRun_effect (manager : SubagentManager) (who : Nat) (quiet : around.Quiet)
    (body : (manager.bodyOf who).isSome) :
    ∃ told, Effect who manager (manager.pollRun who around) told ∧
      (Unended manager who → around.endTurns.failure = none →
        Fate who (manager.pollRun who around) told) := by
  unfold SubagentManager.pollRun
  split_ifs with polling late
  · obtain ⟨told, effect, fate⟩ := finishBody_effect
      (manager.update who fun record => { record with status := .error, error := some pollTimeout }) who quiet
    refine ⟨told, effect.assigned fun _ => rfl,
      fun unended returns => fate ((unended.stands body).assigned _) ?_ returns⟩
    rw [update_status, if_pos rfl]
    rfl
  · have ended : ∀ status error, status.reported →
        ∃ told, Effect who manager (manager.endRun who around status error) told ∧
          (Unended manager who → around.endTurns.failure = none →
            Fate who (manager.endRun who around status error) told) := by
      intro status error reported
      obtain ⟨told, effect, fate⟩ := endRun_effect manager who quiet status error reported
      exact ⟨told, effect, fun unended => fate (unended.stands body)⟩
    split
    · obtain ⟨told, effect, fate⟩ := failBody_effect manager who quiet _
      refine ⟨told, effect, fun unended => fate (unended.stands body) fun stopped => ?_⟩
      have live := unended.live
      rw [stopped] at live
      exact absurd live nofun
    · exact ended _ _ rfl
    · exact ended _ _ rfl
    · exact ended _ _ rfl
    · obtain ⟨told, effect, fate⟩ := reportBlocked_effect quiet body
      exact ⟨told, effect, fun unended _ => fate unended⟩
    all_goals exact ⟨none, ⟨(List.append_nil _).symm, nofun, fun _ _ => sleep_kept, sleep_kept.toFewer⟩,
      fun unended _ => Or.inl ⟨sleep_kept.unended unended, nofun⟩⟩
  · obtain ⟨told, effect, -⟩ := finishBody_effect manager who quiet
    by_cases live : (manager.status who).ended = false
    · obtain ⟨quietly, fate⟩ := finishBody_live_effect around live
      exact ⟨none, quietly, fun unended _ => fate unended⟩
    · exact ⟨told, effect, fun unended => absurd unended.live live⟩

/-- **A runner that settles.** -/
theorem settle_effect (quiet : around.Quiet) (body : (manager.bodyOf who).isSome) (outcome : Outcome) :
    ∃ told, Effect who manager (manager.settle who around outcome) told ∧
      (Unended manager who → around.endTurns.failure = none →
        Fate who (manager.settle who around outcome) told) := by
  have unstopped : Unended manager who → manager.status who ≠ .stopped := by
    intro unended stopped
    have live := unended.live
    rw [stopped] at live
    exact absurd live nofun
  cases outcome with
  | rejected message =>
    obtain ⟨told, effect, fate⟩ := failBody_effect manager who quiet message
    exact ⟨told, effect, fun unended => fate (unended.stands body) (unstopped unended)⟩
  | result isError text runId =>
    let noted := manager.update who fun record => { record with runId := runId, result := some text }
    have same : noted.status who = manager.status who := by rw [update_status, if_pos rfl]; rfl
    rw [SubagentManager.settle]
    by_cases stopped : manager.status who = .stopped
    · rw [if_pos stopped]
      obtain ⟨told, effect, -⟩ := finishBody_effect manager who quiet
      exact ⟨told, effect, fun unended => absurd stopped (unstopped unended)⟩
    · rw [if_neg stopped]
      dsimp only
      split_ifs
      · obtain ⟨told, effect, fate⟩ := failBody_effect
          (noted.update who fun record => { record with status := .error, error := some text })
          who quiet text
        refine ⟨told, (effect.assigned fun _ => rfl).assigned fun _ => rfl,
          fun unended => fate (((unended.stands body).assigned _).assigned _) ?_⟩
        rw [update_status, if_pos rfl]
        exact nofun
      · obtain ⟨told, effect, fate⟩ := pollRun_effect noted who quiet body
        refine ⟨told, effect.assigned fun _ => rfl, fun unended => fate { unended with live := ?_ }⟩
        exact (congrArg SubagentStatus.ended same).trans unended.live
      · obtain ⟨told, effect, fate⟩ := finishBody_effect (noted.setStatus who .completed) who quiet
        refine ⟨told, (effect.assigned fun _ => rfl).assigned fun _ => rfl,
          fun unended => fate (((unended.stands body).assigned _).assigned _) ?_⟩
        rw [SubagentManager.setStatus, update_status, if_pos rfl]
        rfl

theorem endBlocked_effect (manager : SubagentManager) (who : Nat) (quiet : around.Quiet) (status : SubagentStatus)
    (error : Option String) (reported : status.reported) :
    ∃ told, Effect who manager (manager.endBlocked who around status error) told ∧
      (places manager who = 0 → around.pollTurns.failure = none →
        Fate who (manager.endBlocked who around status error) told) := by
  let set := manager.update who fun record => { record with status := status, error := error }
  have others : ∀ id, id ≠ who → Kept id manager set :=
    fun id other => update_kept _ (by exact fun _ => rfl) other
  have self : Fewer who manager set := update_fewer _ (by exact fun _ => rfl)
  have now : (set.fillTurns who around.pollTurns).status who = status := by
    rw [fillTurns, update_status, if_pos rfl]
    show set.status who = status
    rw [update_status, if_pos rfl]
  unfold SubagentManager.endBlocked
  dsimp only
  by_cases failed : (set.turnsFailure who around.pollTurns).isSome = true
  · rw [if_pos failed]
    refine ⟨none, ⟨(List.append_nil _).symm, nofun, others, self⟩, fun _ returns => ?_⟩
    rw [turnsFailure, returns, ite_self] at failed
    exact absurd failed Bool.false_ne_true
  · rw [if_neg failed, quiet.1]
    refine ⟨some ⟨who, status⟩, ⟨?_, ?_, fun id other => ?_, ?_⟩, fun gone _ => Or.inr ⟨gone, status, rfl, reported⟩⟩
    · show manager.completions ++ [⟨who, (set.fillTurns who around.pollTurns).status who⟩] = _
      rw [now]
      rfl
    · rintro completion ⟨⟩
      rfl
    · exact ((others id other).trans (update_kept _ (by exact fun _ => rfl) other)).trans
        (observe_kept _ manager.maxConcurrent)
    · exact (self.trans (update_fewer _ (by exact fun _ => rfl))).trans
        (observe_kept _ manager.maxConcurrent).toFewer

/-- **The timer of a blocked poll.** -/
theorem pollBlocked_effect (quiet : around.Quiet) (there : who ∈ manager.polls) :
    ∃ told, Effect who manager (manager.pollBlocked who around) told ∧
      (Unended manager who → around.pollTurns.failure = none →
        Fate who (manager.pollBlocked who around) told) := by
  let fired : SubagentManager := { manager with polls := manager.polls.erase who }
  have some : 0 < manager.polls.count who := List.count_pos_iff.mpr there
  have fewer : ∀ id, Kept id manager fired := by
    intro id
    have less : placesIn manager.queue manager.bodies (manager.polls.erase who) id ≤ places manager id :=
      Nat.add_le_add_left (List.erase_sublist.count_le id) _
    exact ⟨⟨less, rfl, le_refl _⟩, fun unended => { unended with once := less.trans unended.once }⟩
  have gone : Unended manager who → places fired who = 0 := by
    intro unended
    have once := unended.once
    rw [places, placesIn] at once
    show placesIn manager.queue manager.bodies (manager.polls.erase who) who = 0
    rw [placesIn, List.count_erase_self]
    omega
  have again : ∀ id, Kept id manager { fired with polls := fired.polls ++ [who] } := by
    intro id
    have same : placesIn manager.queue manager.bodies (manager.polls.erase who ++ [who]) id = places manager id := by
      rw [places, placesIn, placesIn, (List.perm_append_singleton who _).count_eq,
        (List.perm_cons_erase there).count_eq]
    exact ⟨⟨same.le, rfl, le_refl _⟩, fun unended => { unended with once := same.le.trans unended.once }⟩
  have still : ∀ id, id ≠ who → Kept id manager fired := fun id _ => fewer id
  have ended : ∀ status error, status.reported →
      ∃ told, Effect who manager (fired.endBlocked who around status error) told ∧
        (Unended manager who → around.pollTurns.failure = none →
          Fate who (fired.endBlocked who around status error) told) := by
    intro status error reported
    obtain ⟨told, effect, fate⟩ := endBlocked_effect fired who quiet status error reported
    exact ⟨told, effect.after rfl still (fewer who).toFewer, fun unended => fate (gone unended)⟩
  unfold SubagentManager.pollBlocked
  dsimp only
  split_ifs
  · split
    · exact ⟨none, ⟨(List.append_nil _).symm, nofun, still, (fewer who).toFewer⟩,
        fun unended _ => Or.inl ⟨(fewer who).unended unended, nofun⟩⟩
    · exact ended _ _ rfl
    · exact ended _ _ rfl
    · exact ended _ _ rfl
    all_goals exact ⟨none, ⟨(List.append_nil _).symm, nofun, fun id _ => again id, (again who).toFewer⟩,
      fun unended _ => Or.inl ⟨(again who).unended unended, nofun⟩⟩
  · exact ⟨none, ⟨(List.append_nil _).symm, nofun, still, (fewer who).toFewer⟩,
      fun unended _ => Or.inl ⟨(fewer who).unended unended, nofun⟩⟩

end

/-- An event that spawns nothing, and whose callbacks make no calls and return. -/
def Event.Quiet : Event → Prop
  | .settled _ _ around | .polled _ around | .blockedPolled _ around => around.Quiet
  | .called call => call.Spawnless
  | .signalAborted _ => True

/-- **An event that spares a record**: it does not abort it, and where it ends it, the lookup of its turns
returns. -/
def Event.Spares (id : Nat) : Event → Prop
  | .called call => call.Spares id
  | .signalAborted _ => True
  | .settled who _ around | .polled who around => who = id → around.endTurns.failure = none
  | .blockedPolled who around => who = id → around.pollTurns.failure = none

/-- **What an event does to one record**, with what it reports. -/
structure Reports (event : Event) (manager next : SubagentManager) (told : Option Completion) (id : Nat) :
    Prop where
  fewer : Fewer id manager next
  gone : places manager id = 0 → ∀ completion ∈ told, completion.id ≠ id
  fate : Unended manager id → event.Spares id →
    (Unended next id ∧ ∀ completion ∈ told, completion.id = id → completion.status.ended = false) ∨
      (places next id = 0 ∧ ∃ status, told = some ⟨id, status⟩ ∧ status.reported)

theorem Effect.reports {event : Event} {told : Option Completion} (effect : Effect who manager next told)
    (there : places manager who ≠ 0)
    (fate : Unended manager who → event.Spares who → Fate who next told) :
    Reports event manager next told id where
  fewer := by
    by_cases same : id = who
    · exact same ▸ effect.self
    · exact (effect.others id same).toFewer
  gone none completion told same := there (by rw [← effect.about completion told, same]; exact none)
  fate unended spares := by
    by_cases same : id = who
    · subst same
      rcases fate unended spares with ⟨still, quietly⟩ | halted
      · exact Or.inl ⟨still, fun completion told _ => quietly completion told⟩
      · exact Or.inr halted
    · exact Or.inl ⟨(effect.others id same).unended unended,
        fun completion told mine => absurd (mine.symm.trans (effect.about completion told)) same⟩

theorem Reports.silent {event : Event} (fewer : Fewer id manager next)
    (kept : event.Spares id → Kept id manager next) : Reports event manager next none id where
  fewer := fewer
  gone _ := nofun
  fate unended spares := Or.inl ⟨(kept spares).unended unended, nofun⟩

/-- **What an event does**, where the callback is quiet: it reports one record at most, and that record is
reported as ended only once. -/
theorem step_reports (event : Event) (quiet : event.Quiet) :
    ∃ told, (manager.step event).completions = manager.completions ++ told.toList ∧
      ∀ id, Reports event manager (manager.step event) told id := by
  have nothing : ∀ id, Reports event manager manager none id :=
    fun id => Reports.silent (Fewer.refl _ _) fun _ => Kept.refl _ _
  have standing : ∀ {who : Nat} {test : Body → Bool}, (manager.bodyOf who).any test →
      (manager.bodyOf who).isSome ∧ places manager who ≠ 0 := by
    intro who test holds
    obtain ⟨body, found, -⟩ := (Option.any_eq_true _ _).mp holds
    refine ⟨Option.isSome_iff_exists.mpr ⟨body, found⟩, fun none => ?_⟩
    have there : 0 < manager.bodies.countP (·.id == who) :=
      List.countP_pos_iff.mpr ⟨body, List.mem_of_find?_eq_some found,
        List.find?_some (p := fun body : Body => body.id == who) found⟩
    rw [places, placesIn] at none
    omega
  cases event with
  | called call =>
    exact ⟨none, (call_completions call).trans (List.append_nil _).symm, fun id =>
      Reports.silent (call_fewer call quiet) fun spares => call_kept call quiet spares⟩
  | signalAborted signal =>
    exact ⟨none, (List.append_nil _).symm, fun id =>
      Reports.silent (signalAborted_kept signal).toFewer fun _ => signalAborted_kept signal⟩
  | settled who outcome around =>
    rw [SubagentManager.step]
    split_ifs with waits
    · obtain ⟨told, effect, fate⟩ := settle_effect quiet (standing waits).1 outcome
      exact ⟨told, effect.completions, fun id => effect.reports (standing waits).2
        fun unended spares => fate unended (spares rfl)⟩
    · exact ⟨none, (List.append_nil _).symm, fun id => nothing id⟩
  | polled who around =>
    rw [SubagentManager.step]
    split_ifs with waits
    · obtain ⟨told, effect, fate⟩ := pollRun_effect manager who quiet (standing waits).1
      exact ⟨told, effect.completions, fun id => effect.reports (standing waits).2
        fun unended spares => fate unended (spares rfl)⟩
    · exact ⟨none, (List.append_nil _).symm, fun id => nothing id⟩
  | blockedPolled who around =>
    rw [SubagentManager.step]
    split_ifs with there
    · obtain ⟨told, effect, fate⟩ := pollBlocked_effect quiet there
      have some : places manager who ≠ 0 := by
        have polls := List.count_pos_iff.mpr there
        rw [places, placesIn]
        omega
      exact ⟨told, effect.completions, fun id => effect.reports some
        fun unended spares => fate unended (spares rfl)⟩
    · exact ⟨none, (List.append_nil _).symm, fun id => nothing id⟩

/-- **A record that was just spawned lives**, where its caller gave no signal. -/
theorem spawn_unended (options : SpawnOptions) (unused : places manager manager.counter = 0) :
    Unended (manager.spawn options none) manager.counter := by
  have queue : ∀ entry ∈ manager.queue, entry.id ≠ manager.counter := by
    intro entry there same
    have some : 0 < manager.queue.countP (·.id == manager.counter) :=
      List.countP_pos_iff.mpr ⟨entry, there, by simpa using same⟩
    rw [places, placesIn] at unused
    omega
  have bodies : ∀ body ∈ manager.bodies, body.id ≠ manager.counter := by
    intro body there same
    have some : 0 < manager.bodies.countP (·.id == manager.counter) :=
      List.countP_pos_iff.mpr ⟨body, there, by simpa using same⟩
    rw [places, placesIn] at unused
    omega
  unfold SubagentManager.spawn
  cases options.background && decide (manager.maxConcurrent ≤ manager.runningBackground) with
  | true =>
    have once : ∀ entry : QueuedSpawn, entry.id = manager.counter →
        placesIn (manager.queue ++ [entry]) manager.bodies manager.polls manager.counter = 1 := by
      intro entry new
      rw [places, placesIn] at unused
      rw [placesIn, List.countP_append, List.countP_singleton, new, if_pos (beq_self_eq_true _)]
      omega
    refine ⟨(once _ rfl).le, ?_, fun entry there mine => ?_, fun body there mine => absurd mine (bodies body there)⟩
    · show (Function.update manager.heap manager.counter _ manager.counter).status.ended = false
      rw [Function.update_self]
      rfl
    · rcases List.mem_append.mp there with old | new
      · exact absurd mine (queue entry old)
      · exact congrArg QueuedSpawn.signal (List.mem_singleton.mp new)
  | false =>
    have once : ∀ body : Body, body.id = manager.counter →
        placesIn manager.queue (manager.bodies ++ [body]) manager.polls manager.counter = 1 := by
      intro body new
      rw [places, placesIn] at unused
      rw [placesIn, List.countP_append, List.countP_singleton, new, if_pos (beq_self_eq_true _)]
      omega
    refine ⟨(once _ rfl).le, ?_, fun entry there mine => absurd mine (queue entry there), fun body there mine => ?_⟩
    · show ((SubagentManager.setStatus _ manager.counter .running).status manager.counter).ended = false
      rw [SubagentManager.setStatus, update_status, if_pos rfl]
      rfl
    · rcases List.mem_append.mp there with old | new
      · exact absurd mine (bodies body old)
      · rw [List.mem_singleton.mp new]
        exact ⟨rfl, rfl⟩

end PiCrew.Subagents
