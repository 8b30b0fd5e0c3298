/-
**The slots of background subagents, and the queue for them.**

A body takes a slot before its runner is called and gives it back in its `finally`, whatever ends it.
So the counter is exact after every event. The queue is drained in the same `finally`, after the
completion callback: where that throws, the free slot is left without the spawn that waits for it.

* `finishBody_unstranded` — so it is after a `finally` that runs to its end;
* `slots_accounted` — every state of a run in which they all do;
* `callback_strands` — a run in which a completion callback throws.
-/

import PiCrew.Subagents.Manager

namespace PiCrew.Subagents

open Runs SubagentManager

variable {manager next last : SubagentManager} {id : Nat}

/-- **What holds of the manager between any two of its statements** that matter here: the counter is the
number of background bodies, and the spawns that were queued are started, and wait, in the order of
their arrival. -/
structure Sound (manager : SubagentManager) : Prop where
  counted : manager.runningBackground = manager.bodies.countP (·.background)
  ordered : (manager.queueStarts ++ manager.queue.map (·.id)).Pairwise (· < ·)
  arrived : ∀ id ∈ manager.queueStarts ++ manager.queue.map (·.id), id < manager.counter
  fresh : ∀ id, manager.counter ≤ id → manager.status id ≠ .stopped
  embodied : ∀ body ∈ manager.bodies, body.id < manager.counter
  recorded : ∀ id ∈ manager.records, id < manager.counter
  polled : ∀ id ∈ manager.polls, id < manager.counter

/-- **What is never undone**: a stopped record stays stopped, and its runner is not called again. -/
structure Later (manager next : SubagentManager) : Prop where
  counter : manager.counter ≤ next.counter
  stopped : ∀ id, manager.status id = .stopped →
    next.status id = .stopped ∧ next.runnerCalls.count id = manager.runnerCalls.count id

def Advances (manager next : SubagentManager) : Prop := Sound manager → Sound next ∧ Later manager next

theorem Later.refl (manager : SubagentManager) : Later manager manager :=
  ⟨le_refl _, fun _ stopped => ⟨stopped, rfl⟩⟩

theorem Later.trans (early : Later manager next) (late : Later next last) : Later manager last where
  counter := early.counter.trans late.counter
  stopped id stopped := by
    have first := early.stopped id stopped
    have second := late.stopped id first.1
    exact ⟨second.1, second.2.trans first.2⟩

theorem Advances.refl (manager : SubagentManager) : Advances manager manager :=
  fun sound => ⟨sound, Later.refl _⟩

theorem Advances.trans (early : Advances manager next) (late : Advances next last) :
    Advances manager last := fun sound =>
  ⟨(late (early sound).1).1, (early sound).2.trans (late (early sound).1).2⟩

theorem foldl_advances {α : Type} (turn : SubagentManager → α → SubagentManager) (guard : α → Nat → Prop)
    (later : ∀ {entry low high}, guard entry low → low ≤ high → guard entry high)
    (each : ∀ manager entry, guard entry manager.counter → Advances manager (turn manager entry))
    (entries : List α) (guarded : ∀ entry ∈ entries, guard entry manager.counter) :
    Advances manager (entries.foldl turn manager) := by
  induction entries generalizing manager with
  | nil => exact Advances.refl _
  | cons entry rest ih =>
    intro sound
    have first := each manager entry (guarded entry List.mem_cons_self) sound
    refine Advances.trans (fun _ => first) (ih fun other there => ?_) sound
    exact later (guarded other (List.mem_cons_of_mem _ there)) first.2.counter

theorem update_sound (fields : SubagentRecord → SubagentRecord) (known : id < manager.counter)
    (sound : Sound manager) : Sound (manager.update id fields) := by
  refine { sound with fresh := fun other new => ?_ }
  rw [update_status, if_neg fun same : other = id => absurd new (by rw [same]; exact not_le_of_gt known)]
  exact sound.fresh other new

theorem update_advances (fields : SubagentRecord → SubagentRecord) (known : id < manager.counter)
    (keeps : manager.status id = .stopped → (fields (manager.heap id)).status = .stopped) :
    Advances manager (manager.update id fields) := by
  intro sound
  refine ⟨update_sound fields known sound, le_refl _, fun other stopped => ⟨?_, rfl⟩⟩
  rw [update_status]
  split_ifs with same
  · exact keeps (same ▸ stopped)
  · exact stopped

theorem evictTerminalRecords_advances : Advances manager manager.evictTerminalRecords := fun sound =>
  ⟨{ sound with recorded := fun other there => sound.recorded other (List.mem_filter.mp there).1 },
    le_refl _, fun _ stopped => ⟨stopped, rfl⟩⟩

theorem markStopped_advances (reason : String) (known : id < manager.counter) :
    Advances manager (manager.markStopped id reason) :=
  (update_advances _ known fun _ => rfl).trans evictTerminalRecords_advances

theorem mapBodies_advances (change : Body → Body) (fired : List Nat)
    (same : ∀ body, (change body).id = body.id ∧ (change body).background = body.background) :
    Advances manager { manager with bodies := manager.bodies.map change, fired := fired } := by
  intro sound
  have slots : (fun body : Body => body.background) ∘ change = (·.background) := by
    funext body
    exact (same body).2
  refine ⟨{ sound with counted := ?_, embodied := fun body there => ?_ }, le_refl _,
    fun _ stopped => ⟨stopped, rfl⟩⟩
  · show manager.runningBackground = (manager.bodies.map change).countP (·.background)
    rw [List.countP_map, slots]
    exact sound.counted
  · obtain ⟨old, member, rfl⟩ := List.mem_map.mp there
    rw [(same old).1]
    exact sound.embodied old member

theorem abortBody_advances : Advances manager (manager.abortBody id) :=
  mapBodies_advances (fun body => if body.id = id then { body with aborted := true } else body) manager.fired
    fun body => by split_ifs <;> exact ⟨rfl, rfl⟩

theorem sleep_advances : Advances manager (manager.sleep id) :=
  mapBodies_advances (fun body => if body.id = id then { body with awaits := .poll } else body) manager.fired
    fun body => by split_ifs <;> exact ⟨rfl, rfl⟩

theorem observe_advances (completions : List Completion) (polls : List Nat) (limit : ℚ)
    (known : Sound manager → ∀ id ∈ polls, id < manager.counter) :
    Advances manager
      { manager with completions := completions, polls := polls, maxConcurrent := limit } :=
  fun sound => ⟨{ sound with polled := known sound }, le_refl _, fun _ stopped => ⟨stopped, rfl⟩⟩

theorem requeue_advances {waiting : List QueuedSpawn} (fewer : waiting.Sublist manager.queue) :
    Advances manager { manager with queue := waiting } := by
  intro sound
  have ids : (manager.queueStarts ++ waiting.map (·.id)).Sublist
      (manager.queueStarts ++ manager.queue.map (·.id)) :=
    (List.Sublist.refl _).append (fewer.map _)
  exact ⟨{ sound with
      ordered := sound.ordered.sublist ids
      arrived := fun other there => sound.arrived other (ids.subset there) },
    le_refl _, fun _ stopped => ⟨stopped, rfl⟩⟩

theorem start_advances (signal : Option Nat) (known : id < manager.counter)
    (unstopped : manager.status id ≠ .stopped) : Advances manager (manager.start id signal) := by
  intro sound
  have set : Sound (manager.setStatus id .running) ∧ Later manager (manager.setStatus id .running) :=
    update_advances _ known (fun stopped => absurd stopped unstopped) sound
  refine ⟨{ set.1 with counted := ?_, embodied := fun body there => ?_ }, le_refl _,
    fun other stopped => ⟨(set.2.stopped other stopped).1, ?_⟩⟩
  · show (if (manager.heap id).options.background then manager.runningBackground + 1
        else manager.runningBackground) = (manager.bodies ++ [_]).countP Body.background
    rw [List.countP_append, List.countP_singleton, sound.counted]
    split_ifs <;> rfl
  · rcases List.mem_append.mp there with old | new
    · exact sound.embodied body old
    · rw [List.mem_singleton.mp new]
      exact known
  · have other_ne : id ≠ other := fun same => unstopped (same ▸ stopped)
    show (manager.runnerCalls ++ [id]).count other = manager.runnerCalls.count other
    rw [List.count_append, List.count_singleton, if_neg (by simpa using other_ne)]
    rfl

theorem drainFrom_advances (waiting : List QueuedSpawn) (manager : SubagentManager) :
    Advances { manager with queue := waiting } (drainFrom waiting manager) := by
  induction waiting generalizing manager with
  | nil => exact Advances.refl _
  | cons entry rest ih =>
    rw [drainFrom]
    split_ifs with free queued
    · refine Advances.trans (fun sound => ?_) (ih _)
      have known := sound.arrived entry.id
        (List.mem_append_right _ (List.mem_map_of_mem List.mem_cons_self))
      have starts : Advances { manager with queue := entry :: rest }
          ({ manager with queue := entry :: rest }.start entry.id entry.signal) :=
        start_advances entry.signal known
          fun stopped : manager.status entry.id = .stopped => nomatch queued.symm.trans stopped
      have started := starts sound
      -- the spawn moves from the head of the queue to the end of the starts
      have moved : manager.queueStarts ++ (entry :: rest).map (·.id) =
          (manager.queueStarts ++ [entry.id]) ++ rest.map (·.id) := by simp
      exact ⟨{ started.1 with
          ordered := moved ▸ sound.ordered
          arrived := fun other there => started.1.arrived other (moved.symm ▸ there) },
        started.2.counter, started.2.stopped⟩
    · exact (requeue_advances (List.sublist_cons_self entry rest)).trans (ih manager)
    · exact Advances.refl _

theorem drainQueue_advances : Advances manager manager.drainQueue :=
  drainFrom_advances manager.queue manager

theorem spawn_advances (options : SpawnOptions) (signal : Option Nat) :
    Advances manager (manager.spawn options signal) := by
  intro sound
  have added : ∀ record : SubagentRecord, record.status ≠ .stopped → Advances manager { manager with
        counter := manager.counter + 1, records := manager.records ++ [manager.counter]
        heap := Function.update manager.heap manager.counter record } := by
    intro record unstopped sound
    have status : ∀ other, (Function.update manager.heap manager.counter record other).status =
        if other = manager.counter then record.status else manager.status other := by
      intro other
      by_cases same : other = manager.counter
      · rw [same, Function.update_self, if_pos rfl]
      · rw [Function.update_of_ne same, if_neg same]
        rfl
    refine ⟨{ sound with arrived := ?_, fresh := ?_, embodied := ?_, recorded := ?_, polled := ?_ },
      Nat.le_succ _, fun other stopped => ⟨?_, rfl⟩⟩
    · exact fun other there => Nat.lt_succ_of_lt (sound.arrived other there)
    · intro other new
      show (Function.update manager.heap manager.counter record other).status ≠ .stopped
      rw [status, if_neg (Nat.ne_of_gt new)]
      exact sound.fresh other (Nat.le_of_lt new)
    · exact fun body there => Nat.lt_succ_of_lt (sound.embodied body there)
    · intro other there
      rcases List.mem_append.mp there with old | new
      · exact Nat.lt_succ_of_lt (sound.recorded other old)
      · exact (List.mem_singleton.mp new) ▸ Nat.lt_succ_self _
    · exact fun other there => Nat.lt_succ_of_lt (sound.polled other there)
    · show (Function.update manager.heap manager.counter record other).status = .stopped
      rw [status, if_neg fun same => sound.fresh other (Nat.le_of_eq same.symm) stopped]
      exact stopped
  unfold SubagentManager.spawn
  cases full : options.background && decide (manager.maxConcurrent ≤ manager.runningBackground) with
  | true =>
    have there := added { options := options, status := .queued } nofun sound
    -- the new spawn is the last of the queue, and has the largest number
    have last : manager.queueStarts ++
        (manager.queue ++ [(⟨manager.counter, signal⟩ : QueuedSpawn)]).map QueuedSpawn.id =
          (manager.queueStarts ++ manager.queue.map (·.id)) ++ [manager.counter] := by simp
    refine ⟨{ there.1 with ordered := ?_, arrived := ?_ }, there.2.counter, there.2.stopped⟩
    · show (manager.queueStarts ++ (manager.queue ++ [_]).map QueuedSpawn.id).Pairwise (· < ·)
      rw [last, List.pairwise_append]
      refine ⟨sound.ordered, List.pairwise_singleton _ _, fun early member late there => ?_⟩
      rw [List.mem_singleton.mp there]
      exact sound.arrived early member
    · intro other member
      have cases : other ∈ (manager.queueStarts ++ manager.queue.map (·.id)) ++ [manager.counter] :=
        last ▸ member
      rcases List.mem_append.mp cases with old | new
      · exact Nat.lt_succ_of_lt (sound.arrived other old)
      · exact (List.mem_singleton.mp new) ▸ Nat.lt_succ_self _
  | false =>
    refine (added { options := options, status := .running } nofun).trans
      (start_advances signal (Nat.lt_succ_self _) ?_) sound
    show (Function.update manager.heap manager.counter _ manager.counter).status ≠ .stopped
    rw [Function.update_self]
    exact nofun

theorem abort_advances (reason : Option String) : Advances manager (manager.abort id reason) := by
  intro sound
  unfold SubagentManager.abort
  split_ifs with listed queued unabortable
  · exact (requeue_advances List.filter_sublist).trans
      (markStopped_advances _ (sound.recorded id listed)) sound
  · exact Advances.refl _ sound
  · exact abortBody_advances.trans (markStopped_advances _ (sound.recorded id listed)) sound
  · exact Advances.refl _ sound

theorem abortAll_advances (reason : Option String) : Advances manager (manager.abortAll reason) := by
  intro sound
  have unqueued := foldl_advances (fun state (entry : QueuedSpawn) => state.markStopped entry.id
      (reason.getD "Aborted (session switch or shutdown)."))
    (fun entry counter => entry.id < counter) (fun low up => low.trans_le up)
    (fun _ entry known => markStopped_advances _ known) manager.queue
    (fun entry there => sound.arrived entry.id
      (List.mem_append_right _ (List.mem_map_of_mem there)))
  have emptied := unqueued.trans (requeue_advances (List.nil_sublist _)) sound
  refine Advances.trans (fun _ => emptied) (foldl_advances (abortActive _) (fun id counter => id < counter)
    (fun low up => low.trans_le up) (fun state id known => ?_) _ fun id there =>
      emptied.1.recorded id there) sound
  unfold abortActive
  split_ifs
  · exact abortBody_advances.trans (markStopped_advances _ known)
  · exact Advances.refl _

theorem call_advances (call : Call) : Advances manager (manager.call call) := by
  cases call with
  | spawn options signal => exact spawn_advances options signal
  | abort id reason => exact abort_advances reason
  | abortAll reason => exact abortAll_advances reason
  | setMaxConcurrent value =>
    exact (observe_advances manager.completions manager.polls _ Sound.polled).trans drainQueue_advances

section

variable {around : Surroundings}

theorem notify_advances (id : Nat) (callback : Callback) : Advances manager (manager.notify id callback) :=
  (observe_advances _ manager.polls manager.maxConcurrent Sound.polled).trans
    (foldl_advances SubagentManager.call (fun _ _ => True) (fun _ _ => trivial)
      (fun _ call _ => call_advances call) callback.calls fun _ _ => trivial)

theorem releaseBody_advances : Advances manager (manager.releaseBody id) := by
  intro sound
  refine ⟨{ sound with
      counted := ?_
      embodied := fun body there => sound.embodied body (List.mem_of_mem_eraseP there) },
    le_refl _, fun _ stopped => ⟨stopped, rfl⟩⟩
  show (if (manager.bodyOf id).any (·.background) then manager.runningBackground - 1
    else manager.runningBackground) = (manager.bodies.eraseP (·.id == id)).countP (·.background)
  rw [sound.counted, SubagentManager.bodyOf]
  induction manager.bodies with
  | nil => rfl
  | cons body rest ih =>
    by_cases this : body.id = id
    · rw [List.find?_cons_of_pos (by simpa using this), List.eraseP_cons_of_pos (by simpa using this),
        List.countP_cons]
      cases background : body.background <;> simp [background]
    · rw [List.find?_cons_of_neg (by simpa using this), List.eraseP_cons_of_neg (by simpa using this),
        List.countP_cons, List.countP_cons, ← ih]
      cases holds : (rest.find? (·.id == id)).any (·.background) with
      | false => rfl
      | true =>
        -- the slot given back is one of the rest, so the rest has one
        obtain ⟨found, member, background⟩ := (Option.any_eq_true _ _).mp holds
        have some : 0 < rest.countP (·.background) :=
          List.countP_pos_iff.mpr ⟨found, List.mem_of_find?_eq_some member, background⟩
        exact Nat.sub_add_comm some

theorem fillTurns_advances (turns : TurnsLookup) (known : id < manager.counter) :
    Advances manager (manager.fillTurns id turns) := update_advances _ known fun stopped => stopped

theorem finishBody_advances (known : id < manager.counter) :
    Advances manager (manager.finishBody id around) := by
  have told : Advances manager
      (((manager.releaseBody id).fillTurns id around.endTurns).evictTerminalRecords.notify id around.onEnd) :=
    ((releaseBody_advances.trans (fillTurns_advances _ known)).trans
      evictTerminalRecords_advances).trans (notify_advances _ _)
  unfold SubagentManager.finishBody
  dsimp only
  split_ifs
  · exact releaseBody_advances
  · exact told
  · exact told.trans drainQueue_advances
  · exact releaseBody_advances.trans drainQueue_advances

theorem failBody_advances (message : String) (known : id < manager.counter) :
    Advances manager (manager.failBody id around message) := by
  unfold SubagentManager.failBody
  dsimp only
  by_cases halted : manager.status id = .stopped ∨ (manager.bodyOf id).any (·.aborted) = true
  · rw [if_pos halted]
    exact (update_advances _ known fun _ => rfl).trans (finishBody_advances known)
  · rw [if_neg halted]
    exact (update_advances _ known fun stopped => absurd (Or.inl stopped) halted).trans
      (finishBody_advances known)

theorem endRun_advances (status : SubagentStatus) (error : Option String) (known : id < manager.counter)
    (unstopped : manager.status id ≠ .stopped) : Advances manager (manager.endRun id around status error) := by
  have set : Advances manager
      (manager.update id fun record => { record with status := status, error := error }) :=
    update_advances _ known fun stopped => absurd stopped unstopped
  unfold SubagentManager.endRun
  dsimp only
  split
  · exact set.trans (failBody_advances _ known)
  · refine set.trans ((fillTurns_advances _ ?_).trans (finishBody_advances ?_))
    all_goals exact known

theorem reportBlocked_advances (known : id < manager.counter) (unstopped : manager.status id ≠ .stopped) :
    Advances manager (manager.reportBlocked id around) := by
  have set : Advances manager
      (manager.update id fun record => { record with status := .blocked, error := none, blockedAt := true }) :=
    update_advances _ known fun stopped => absurd stopped unstopped
  have told := set.trans (notify_advances id around.onBlocked)
  intro sound
  -- the callback may spawn, so the counter may have grown
  have known' := known.trans_le (told sound).2.counter
  unfold SubagentManager.reportBlocked
  dsimp only
  split_ifs
  · exact set.trans (finishBody_advances known) sound
  · split
    · exact told.trans (failBody_advances _ known') sound
    · refine (told.trans (observe_advances _ _ _ fun told other there => ?_)).trans
        (finishBody_advances known') sound
      rcases List.mem_append.mp there with old | new
      · exact told.polled other old
      · exact (List.mem_singleton.mp new) ▸ known'

theorem pollRun_advances (known : id < manager.counter) : Advances manager (manager.pollRun id around) := by
  unfold SubagentManager.pollRun
  split_ifs with polling late
  · exact (update_advances _ known fun stopped => by simp_all).trans (finishBody_advances known)
  · have unstopped : manager.status id ≠ .stopped := by
      rcases polling.2 with running | blocked
      · exact fun stopped => nomatch running.symm.trans stopped
      · exact fun stopped => nomatch blocked.symm.trans stopped
    split
    · exact failBody_advances _ known
    · exact endRun_advances _ _ known unstopped
    · exact endRun_advances _ _ known unstopped
    · exact endRun_advances _ _ known unstopped
    · exact reportBlocked_advances known unstopped
    all_goals exact sleep_advances
  · exact finishBody_advances known

theorem settle_advances (outcome : Outcome) (known : id < manager.counter) :
    Advances manager (manager.settle id around outcome) := by
  cases outcome with
  | rejected message => exact failBody_advances message known
  | result isError text runId =>
    have noted : Advances manager
        (manager.update id fun record => { record with runId := runId, result := some text }) :=
      update_advances _ known fun stopped => stopped
    rw [SubagentManager.settle]
    by_cases stopped : manager.status id = .stopped
    · rw [if_pos stopped]
      exact finishBody_advances known
    · rw [if_neg stopped]
      dsimp only
      split_ifs
      · refine noted.trans ((update_advances _ ?_ fun still => ?_).trans (failBody_advances text ?_))
        · exact known
        · exact absurd (by simpa [SubagentManager.status, update] using still) stopped
        · exact known
      · refine noted.trans (pollRun_advances ?_)
        exact known
      · refine noted.trans ((update_advances _ ?_ fun still => ?_).trans (finishBody_advances ?_))
        · exact known
        · exact absurd (by simpa [SubagentManager.status, update] using still) stopped
        · exact known

theorem endBlocked_advances (status : SubagentStatus) (error : Option String) (known : id < manager.counter)
    (unstopped : manager.status id ≠ .stopped) :
    Advances manager (manager.endBlocked id around status error) := by
  have set : Advances manager
      (manager.update id fun record => { record with status := status, error := error }) :=
    update_advances _ known fun stopped => absurd stopped unstopped
  unfold SubagentManager.endBlocked
  dsimp only
  split_ifs
  · exact set
  · refine set.trans ((fillTurns_advances _ ?_).trans (notify_advances _ _))
    exact known

theorem pollBlocked_advances : Advances manager (manager.pollBlocked id around) := by
  intro sound
  have fired : Advances manager { manager with polls := manager.polls.erase id } :=
    observe_advances _ _ _ fun sound other there => sound.polled other (List.mem_of_mem_erase there)
  unfold SubagentManager.pollBlocked
  dsimp only
  split_ifs with blocked
  · have known := sound.recorded id blocked.1
    have unstopped : manager.status id ≠ .stopped := fun stopped => nomatch blocked.2.1.symm.trans stopped
    split
    · exact fired sound
    · exact fired.trans (endBlocked_advances _ _ known unstopped) sound
    · exact fired.trans (endBlocked_advances _ _ known unstopped) sound
    · exact fired.trans (endBlocked_advances _ _ known unstopped) sound
    all_goals
      refine fired.trans (observe_advances _ _ _ fun still other there => ?_) sound
      rcases List.mem_append.mp there with old | new
      · exact still.polled other old
      · exact (List.mem_singleton.mp new) ▸ known
  · exact fired sound

theorem step_advances (event : Event) : Advances manager (manager.step event) := by
  intro sound
  have known : ∀ id, (manager.bodyOf id).isSome → id < manager.counter := by
    intro id alive
    obtain ⟨body, found⟩ := Option.isSome_iff_exists.mp alive
    have same : body.id = id := by simpa using List.find?_some found
    exact same ▸ sound.embodied body (List.mem_of_find?_eq_some found)
  have alive : ∀ {id : Nat} {test : Body → Bool}, (manager.bodyOf id).any test → id < manager.counter := by
    intro id test holds
    obtain ⟨body, found, -⟩ := (Option.any_eq_true _ _).mp holds
    exact known id (Option.isSome_iff_exists.mpr ⟨body, found⟩)
  cases event with
  | called call => exact call_advances call sound
  | signalAborted signal =>
    exact mapBodies_advances
      (fun body => if body.signal = some signal then { body with aborted := true } else body)
      (signal :: manager.fired) (fun body => by split_ifs <;> exact ⟨rfl, rfl⟩) sound
  | settled id outcome around =>
    rw [SubagentManager.step]
    split_ifs with waits
    · exact settle_advances outcome (alive waits) sound
    · exact Advances.refl _ sound
  | polled id around =>
    rw [SubagentManager.step]
    split_ifs with waits
    · exact pollRun_advances (alive waits) sound
    · exact Advances.refl _ sound
  | blockedPolled id around =>
    rw [SubagentManager.step]
    split_ifs
    · exact pollBlocked_advances sound
    · exact Advances.refl _ sound

end

section

/-- **No queued spawn is stranded**: one waits only while all slots are taken. -/
def Unstranded (manager : SubagentManager) : Prop :=
  manager.queue ≠ [] → manager.maxConcurrent ≤ manager.runningBackground

/-- A piece of code that leaves the queue, the limit and the slots as they are. -/
structure SameSlots (manager next : SubagentManager) : Prop where
  queue : next.queue = manager.queue
  limit : next.maxConcurrent = manager.maxConcurrent
  slots : next.runningBackground = manager.runningBackground

theorem SameSlots.unstranded (same : SameSlots manager next) (holds : Unstranded manager) :
    Unstranded next := by
  intro waiting
  rw [same.limit, same.slots]
  exact holds (same.queue ▸ waiting)

theorem markStopped_sameSlots (reason : String) : SameSlots manager (manager.markStopped id reason) :=
  ⟨rfl, rfl, rfl⟩

theorem drainFrom_unstranded (waiting : List QueuedSpawn) (manager : SubagentManager) :
    Unstranded (drainFrom waiting manager) := by
  induction waiting generalizing manager with
  | nil => exact fun waiting => absurd rfl waiting
  | cons entry rest ih =>
    rw [drainFrom]
    split_ifs with free queued
    · exact ih _
    · exact ih _
    · exact fun _ => not_lt.mp free

theorem drainQueue_unstranded : Unstranded manager.drainQueue := drainFrom_unstranded _ _

theorem start_unstranded (holds : Unstranded manager) (signal : Option Nat) :
    Unstranded (manager.start id signal) := by
  intro waiting
  have taken : manager.runningBackground ≤ (manager.start id signal).runningBackground := by
    show manager.runningBackground ≤ if _ then _ else _
    split_ifs
    · exact Nat.le_succ _
    · exact le_refl _
  exact (holds waiting).trans (by exact_mod_cast taken)

theorem call_unstranded (holds : Unstranded manager) (call : Call) : Unstranded (manager.call call) := by
  cases call with
  | spawn options signal =>
    show Unstranded (manager.spawn options signal)
    unfold SubagentManager.spawn
    cases full : options.background && decide (manager.maxConcurrent ≤ manager.runningBackground) with
    | true =>
      rw [Bool.and_eq_true, decide_eq_true_eq] at full
      exact fun _ => full.2
    | false =>
      exact start_unstranded (by exact holds) signal
  | abort id reason =>
    show Unstranded (manager.abort id reason)
    unfold SubagentManager.abort
    split_ifs
    · refine (markStopped_sameSlots _).unstranded fun waiting => holds ?_
      exact fun none => waiting (by show manager.queue.filter _ = []; rw [none]; rfl)
    · exact holds
    · exact (markStopped_sameSlots _).unstranded holds
    · exact holds
  | abortAll reason =>
    show Unstranded (manager.abortAll reason)
    have empty : ∀ (ids : List Nat) (state : SubagentManager), state.queue = [] →
        (ids.foldl (abortActive (reason.getD "Aborted (session switch or shutdown).")) state).queue = [] := by
      intro ids
      induction ids with
      | nil => exact fun _ none => none
      | cons id rest ih =>
        refine fun state none => ih _ ?_
        unfold abortActive
        split_ifs <;> exact none
    exact fun waiting => absurd (empty _ _ rfl) waiting
  | setMaxConcurrent value => exact drainQueue_unstranded

theorem notify_unstranded (holds : Unstranded manager) (callback : Callback) :
    Unstranded (manager.notify id callback) := by
  have calls : ∀ (calls : List Call) (state : SubagentManager), Unstranded state →
      Unstranded (calls.foldl SubagentManager.call state) := by
    intro calls
    induction calls with
    | nil => exact fun _ kept => kept
    | cons call rest ih => exact fun state kept => ih _ (call_unstranded kept call)
  exact calls _ _ holds

variable {around : Surroundings}

/-- What a body meets at its end lets its `finally` run to the drain. -/
def Surroundings.Returns (around : Surroundings) : Prop :=
  around.endTurns.failure = none ∧ around.onEnd.throws = none

instance : DecidablePred Surroundings.Returns := fun around =>
  inferInstanceAs (Decidable (around.endTurns.failure = none ∧ around.onEnd.throws = none))

/-- **A `finally` that runs to its end drains the queue.** -/
theorem finishBody_unstranded (returns : around.Returns) : Unstranded (manager.finishBody id around) := by
  have known : ((manager.releaseBody id).turnsFailure id around.endTurns).isSome = false := by
    rw [turnsFailure, returns.1, ite_self]
    rfl
  unfold SubagentManager.finishBody
  simp only [known, returns.2, Option.isSome_none, Bool.false_eq_true, if_false]
  split_ifs <;> exact drainQueue_unstranded

theorem failBody_unstranded (returns : around.Returns) (message : String) :
    Unstranded (manager.failBody id around message) := by
  unfold SubagentManager.failBody
  dsimp only
  split_ifs <;> exact finishBody_unstranded returns

theorem pollRun_unstranded (returns : around.Returns) (holds : Unstranded manager) :
    Unstranded (manager.pollRun id around) := by
  have ended : ∀ status error, Unstranded (manager.endRun id around status error) := by
    intro status error
    unfold SubagentManager.endRun
    dsimp only
    split
    · exact failBody_unstranded returns _
    · exact finishBody_unstranded returns
  unfold SubagentManager.pollRun
  split_ifs
  · exact finishBody_unstranded returns
  · split
    · exact failBody_unstranded returns _
    · exact ended _ _
    · exact ended _ _
    · exact ended _ _
    · unfold SubagentManager.reportBlocked
      dsimp only
      split_ifs
      · exact finishBody_unstranded returns
      · split
        · exact failBody_unstranded returns _
        · exact finishBody_unstranded returns
    all_goals exact holds
  · exact finishBody_unstranded returns

theorem settle_unstranded (returns : around.Returns) (holds : Unstranded manager) (outcome : Outcome) :
    Unstranded (manager.settle id around outcome) := by
  cases outcome with
  | rejected message => exact failBody_unstranded returns message
  | result isError text runId =>
    rw [SubagentManager.settle]
    dsimp only
    split_ifs
    · exact finishBody_unstranded returns
    · exact failBody_unstranded returns text
    · exact pollRun_unstranded returns holds
    · exact finishBody_unstranded returns

theorem pollBlocked_unstranded (holds : Unstranded manager) : Unstranded (manager.pollBlocked id around) := by
  have ended : ∀ status error,
      Unstranded (endBlocked { manager with polls := manager.polls.erase id } id around status error) := by
    intro status error
    unfold SubagentManager.endBlocked
    dsimp only
    split_ifs
    · exact holds
    · exact notify_unstranded (by exact holds) _
  unfold SubagentManager.pollBlocked
  dsimp only
  split_ifs
  · split
    · exact holds
    · exact ended _ _
    · exact ended _ _
    · exact ended _ _
    all_goals exact holds
  · exact holds

/-- The `finally` that an event may come to runs to its end. -/
def Event.Returns : Event → Prop
  | .settled _ _ around | .polled _ around => around.Returns
  | .called _ | .signalAborted _ | .blockedPolled _ _ => True

instance : DecidablePred Event.Returns
  | .settled _ _ around | .polled _ around => inferInstanceAs (Decidable around.Returns)
  | .called _ | .signalAborted _ | .blockedPolled _ _ => inferInstanceAs (Decidable True)

theorem step_unstranded (manager : SubagentManager) (event : Event) (holds : Unstranded manager)
    (returns : event.Returns) : Unstranded (manager.step event) := by
  cases event with
  | called call => exact call_unstranded holds call
  | signalAborted signal => exact holds
  | settled id outcome around =>
    rw [SubagentManager.step]
    split_ifs
    · exact settle_unstranded returns holds outcome
    · exact holds
  | polled id around =>
    rw [SubagentManager.step]
    split_ifs
    · exact pollRun_unstranded returns holds
    · exact holds
  | blockedPolled id around =>
    rw [SubagentManager.step]
    split_ifs
    · exact pollBlocked_unstranded holds
    · exact holds

end

def SubagentManager.new (maxConcurrent : ℚ) : SubagentManager := { maxConcurrent := maxConcurrent }

theorem new_sound (limit : ℚ) : Sound (SubagentManager.new limit) where
  counted := rfl
  ordered := List.Pairwise.nil
  arrived _ there := absurd there List.not_mem_nil
  fresh _ _ := nofun
  embodied _ there := absurd there List.not_mem_nil
  recorded _ there := absurd there List.not_mem_nil
  polled _ there := absurd there List.not_mem_nil

/-- **A quiescent state as it should be**: the counter is exact, no queued spawn is stranded, and the
queued spawns started in the order of arrival, before those that still wait. -/
structure Scheduled (manager : SubagentManager) : Prop where
  counted : manager.runningBackground = manager.bodies.countP (·.background)
  unstranded : manager.queue ≠ [] → manager.maxConcurrent ≤ manager.runningBackground
  ordered : (manager.queueStarts ++ manager.queue.map (·.id)).Pairwise (· < ·)

theorem step_sound (manager : SubagentManager) (event : Event) (sound : Sound manager) :
    Sound (manager.step event) := (step_advances event sound).1

theorem run_sound (limit : ℚ) (events : List Event) :
    Sound (finish SubagentManager.step (.new limit) events) :=
  finish_keeps SubagentManager.step step_sound (new_sound limit) events

theorem finish_later (sound : Sound manager) (events : List Event) :
    Later manager (finish SubagentManager.step manager events) := by
  induction events generalizing manager with
  | nil => exact Later.refl _
  | cons event rest ih =>
    have first := step_advances event sound
    exact first.2.trans (ih first.1)

/-- **Background subagents are scheduled as they should be**, where every `finally` runs to its end: in
every state of a run the slots are counted, no spawn is stranded, and queued spawns start in the order of
arrival; and a record that is stopped stays stopped, and its runner is not called again. -/
theorem slots_accounted (limit : ℚ) (first rest : List Event)
    (returns : ∀ event ∈ first ++ rest, event.Returns) :
    Scheduled (finish SubagentManager.step (.new limit) first) ∧
      Later (finish SubagentManager.step (.new limit) first)
        (finish SubagentManager.step (.new limit) (first ++ rest)) := by
  have sound := run_sound limit first
  have unstranded : Unstranded (finish SubagentManager.step (.new limit) first) :=
    finish_keeps_of SubagentManager.step step_unstranded (fun waiting => absurd rfl waiting)
      fun event there => returns event (List.mem_append_left _ there)
  refine ⟨⟨sound.counted, unstranded, sound.ordered⟩, ?_⟩
  rw [show finish SubagentManager.step (.new limit) (first ++ rest) = _ from List.foldl_append]
  exact finish_later sound rest

def oneSlotRun (onEnd : Callback) : List Event :=
  [.called (.spawn { background := true } none), .called (.spawn { background := true } none),
    .settled 0 (.result false "" none) { onEnd := onEnd }]

theorem slots_accounted_of_return :
    Scheduled (finish SubagentManager.step (.new 1) (oneSlotRun {})) ∧
      Later (finish SubagentManager.step (.new 1) (oneSlotRun {}))
        (finish SubagentManager.step (.new 1) (oneSlotRun {} ++ [])) :=
  slots_accounted 1 (oneSlotRun {}) [] (by decide)

/-- **A callback that throws strands the spawn behind it**: the slot is free, and nobody takes it. -/
theorem callback_strands :
    ¬ Scheduled (finish SubagentManager.step (.new 1) (oneSlotRun { throws := some "host" })) := fun holds =>
  absurd (holds.unstranded (by decide +kernel)) (by decide +kernel)

end PiCrew.Subagents
