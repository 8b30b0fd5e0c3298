/-
**The index keeps the agents.**

`runtime/crew-agent-records.ts`. A call reads the list before it takes the lock, and what is buffered is written
later. So the index contains what the calls say as long as calls of different processes do not overlap.

* `Inv`, `step_keeps` — at most one process is between its read and its write, and it knows what the index is;
* `agents_kept` — then the index contains the records that the calls say, once nothing is under way or buffered;
* `agent_lost` — two processes that read the same list, and of which one loses its record.
-/

import PiCrew.AgentRecords.ExpectedAgents

namespace PiCrew.AgentRecords.AgentsIndex

section

variable {β : Type} (redact : CrewAgentRecord β → CrewAgentRecord β)
  (before : String → Option (CrewAgentRecord β))

/-- A process is between its read of the file and its write, or about to flush for a save. -/
def Control.busy : Control β → Bool
  | .idle _ | .statRoot _ | .statAgents _ | .readToken (.done _) | .removeOwnLock (.done _) => false
  | .statFlush next => next.isSome
  | _ => true

/-- **A process has read the list, or buffered one, that it is yet to write.** -/
def Worker.outstanding (worker : Worker β) : Bool := worker.pending.isSome || worker.control.busy

/-- The call for which a process is about to read. -/
def Control.asks : Control β → Option (Call β)
  | .statRoot record => some (.upsertCrewAgent record)
  | .statAgents call | .readAgents call _ => some call
  | _ => none

def Control.ended : Control β → Option (Call β)
  | .idle (some (call, .done)) | .readToken (.done call) | .removeOwnLock (.done call) => some call
  | _ => none

def AgentsFiles.HasSaid (files : AgentsFiles β) (slot : Nat) (call : Call β) : Prop :=
  ⟨slot, call⟩ ∈ files.history

/-- **What holds of each process**: what it remembers is described by its stamp, its call is one of records
that settle, and the call that had its effect is in the history. -/
structure Local (files : AgentsFiles β) (slot : Nat) (worker : Worker β) : Prop where
  cache : ∀ cached ∈ worker.readCache, files.file.Describes cached.stamp cached.content
  stat : ∀ call stamp, worker.control = .readAgents call (some stamp) → files.file.Spent stamp
  unbuffered : ∀ call, worker.control = .statAgents call → worker.pending = none
  asks : ∀ call, worker.control.asks = some call → call.Settles redact
  ended : ∀ call, worker.control.ended = some call → files.HasSaid slot call

/-- The list that a process sees: the one in its buffer, or the one in the file. -/
def Sees (files : AgentsFiles β) (worker : Worker β) (records : List (CrewAgentRecord β)) : Prop :=
  match worker.pending with
  | some entry => records = entry.value ∧ entry.queued = statSync files
  | none => readAgentsRecordsStrict files.file.content = some records

def Saving.Knows (history : List (Word β)) (slot : Nat) (saving : Saving β) : Prop :=
  ∃ call, saving.after = .done call ∧
    Follows redact before (⟨slot, call⟩ :: history) (redactSecrets redact saving.records)

def Control.Knows (history : List (Word β)) (slot : Nat) (pending : Option (PendingWrite β)) :
    Control β → Prop
  | .idle _ | .statRoot _ | .statAgents _ => True
  | .readToken after | .removeOwnLock after => ∃ call, after = .done call
  | .readAgents _ _ => pending = none
  | .statQueued call merged =>
    Follows redact before (⟨slot, call⟩ :: history) (redactSecrets redact merged)
  | .statFlush next => ∀ saving ∈ next, saving.Knows redact before history slot
  | .writeFlush entry next =>
    pending = some entry ∧ ∀ saving ∈ next, saving.Knows redact before history slot
  | .openLock saving | .checkLock saving | .removeLock saving | .writeAgents saving =>
    pending = none ∧ saving.Knows redact before history slot

/-- **A process knows what the index is**, and has in hand what it will be. -/
structure Knows (files : AgentsFiles β) (slot : Nat) (worker : Worker β) : Prop where
  sees : ∃ records, Sees files worker records ∧ Follows redact before files.history records
  control : worker.control.Knows redact before files.history slot worker.pending

def Alone (system : AgentsSystem β) (slot : Nat) : Prop :=
  ∀ other, other ≠ slot → (system.workers other).outstanding = false

def Owned (system : AgentsSystem β) : Prop :=
  ∃ owner, Alone system owner ∧ Knows redact before system.files owner (system.workers owner)

structure Inv (system : AgentsSystem β) : Prop where
  each : ∀ slot, Local redact system.files slot (system.workers slot)
  owned : Owned redact before system

variable {redact before} {system : AgentsSystem β} {slot : Nat} {files later : AgentsFiles β}
  {worker : Worker β}

/-- The files at a later time: nothing is taken back, and a stamp says what it said. -/
structure Later (files later : AgentsFiles β) : Prop where
  history : files.history ⊆ later.history
  describes : ∀ stamp content, files.file.Describes stamp content → later.file.Describes stamp content
  spent : ∀ stamp, files.file.Spent stamp → later.file.Spent stamp

theorem Later.of_file (same : later.file = files.file) (history : files.history ⊆ later.history) :
    Later files later :=
  ⟨history, fun _ _ describes => same ▸ describes, fun _ spent => same ▸ spent⟩

theorem Later.of_write {records : List (CrewAgentRecord β)} {stamp : Stamp} (fresh : files.file.Fresh stamp)
    (same : later.file = files.file.write (.records records) stamp)
    (history : files.history ⊆ later.history) : Later files later where
  history := history
  describes _ _ describes := same ▸ describes.write fresh _
  spent _ spent := same ▸ spent.write fresh _

theorem Local.mono (here : Local redact files slot worker) (more : Later files later) :
    Local redact later slot worker where
  cache cached remembered := more.describes _ _ (here.cache cached remembered)
  stat call stamp place := more.spent _ (here.stat call stamp place)
  unbuffered := here.unbuffered
  asks := here.asks
  ended call place := more.history (here.ended call place)

theorem Owned.of_outstanding (owned : Owned redact before system)
    (outstanding : (system.workers slot).outstanding = true) :
    Alone system slot ∧ Knows redact before system.files slot (system.workers slot) := by
  obtain ⟨owner, alone, knows⟩ := owned
  by_cases same : slot = owner
  · exact same ▸ ⟨alone, knows⟩
  · rw [alone slot same] at outstanding
    exact nomatch outstanding

theorem Owned.of_alone (owned : Owned redact before system) (alone : Alone system slot) :
    ∃ records, Sees system.files (system.workers slot) records ∧
      Follows redact before system.files.history records := by
  obtain ⟨owner, only, knows⟩ := owned
  by_cases same : slot = owner
  · exact same ▸ knows.sees
  · have mine := only slot same
    have theirs := alone owner (Ne.symm same)
    simp only [Worker.outstanding, Bool.or_eq_false_iff, Option.isSome_eq_false_iff,
      Option.isNone_iff_eq_none] at mine theirs
    obtain ⟨records, sees, follows⟩ := knows.sees
    refine ⟨records, ?_, follows⟩
    rw [Sees, theirs.1] at sees
    rw [Sees, mine.1]
    exact sees

theorem knows_of_quiet {control : Control β} (quiet : control.busy = false) (history : List (Word β))
    (pending : Option (PendingWrite β)) : control.Knows redact before history slot pending := by
  cases control with
  | readToken after =>
    cases after with
    | done call => exact ⟨call, rfl⟩
    | resume call existing => exact nomatch quiet
  | removeOwnLock after =>
    cases after with
    | done call => exact ⟨call, rfl⟩
    | resume call existing => exact nomatch quiet
  | statFlush next =>
    cases next with
    | none => exact fun saving member => nomatch member
    | some saving => exact nomatch quiet
  | idle ended | statRoot record | statAgents call => trivial
  | _ => exact nomatch quiet

section

variable {next : Worker β × AgentsFiles β}

theorem workers_moved (system : AgentsSystem β) (slot : Nat) (next : Worker β × AgentsFiles β) :
    (system.moved slot next).workers slot = next.1 := Function.update_self _ _ _

theorem workers_moved_other {other : Nat} (apart : other ≠ slot) (next : Worker β × AgentsFiles β) :
    (system.moved slot next).workers other = system.workers other := Function.update_of_ne apart _ _

theorem owned_moved (alone : Alone system slot) (knows : Knows redact before next.2 slot next.1) :
    Owned redact before (system.moved slot next) := by
  refine ⟨slot, fun other apart => ?_, ?_⟩
  · rw [workers_moved_other apart]
    exact alone other apart
  · rw [workers_moved]
    exact knows

theorem owned_quiet (owned : Owned redact before system) (file : next.2.file = system.files.file)
    (history : next.2.history = system.files.history)
    (pending : next.1.pending = (system.workers slot).pending) (quiet : next.1.control.busy = false) :
    Owned redact before (system.moved slot next) := by
  obtain ⟨owner, alone, knows⟩ := owned
  have sees : ∀ (worker mover : Worker β) records, mover.pending = worker.pending →
      Sees system.files worker records → Sees next.2 mover records := by
    intro worker mover records same sees
    unfold Sees statSync at *
    rw [same, file]
    exact sees
  obtain ⟨records, saw, follows⟩ := knows.sees
  by_cases same : slot = owner
  · subst same
    refine owned_moved alone ⟨⟨records, sees _ _ records pending saw, ?_⟩, knows_of_quiet quiet _ _⟩
    rw [history]
    exact follows
  · refine ⟨owner, fun other apart => ?_, ?_⟩
    · by_cases mover : other = slot
      · subst mover
        have mine := alone other same
        rw [workers_moved, Worker.outstanding, pending, quiet]
        rw [Worker.outstanding, Bool.or_eq_false_iff] at mine
        rw [mine.1]
        rfl
      · rw [workers_moved_other mover]
        exact alone other apart
    · rw [workers_moved_other (Ne.symm same)]
      have control := knows.control
      refine ⟨⟨records, sees _ _ records rfl saw, ?_⟩, ?_⟩
      · rw [show (system.moved slot next).files.history = system.files.history from history]
        exact follows
      · rw [show (system.moved slot next).files.history = system.files.history from history]
        exact control

theorem inv_moved (inv : Inv redact before system) (more : Later system.files next.2)
    (own : Local redact next.2 slot next.1) (owned : Owned redact before (system.moved slot next)) :
    Inv redact before (system.moved slot next) := by
  refine ⟨fun other => ?_, owned⟩
  by_cases mover : other = slot
  · subst mover
    rw [workers_moved]
    exact own
  · rw [workers_moved_other mover]
    exact (inv.each other).mono more

end

/-- **A move of the process that knows what the index is**, after which it still does. -/
structure Moves (redact : CrewAgentRecord β → CrewAgentRecord β) (before : String → Option (CrewAgentRecord β))
    (files : AgentsFiles β) (slot : Nat) (next : Worker β × AgentsFiles β) : Prop where
  later : Later files next.2
  own : Local redact next.2 slot next.1
  knows : Knows redact before next.2 slot next.1

theorem local_of_silent (cache : ∀ cached ∈ worker.readCache, files.file.Describes cached.stamp cached.content)
    (asks : worker.control.asks = none)
    (ended : ∀ call, worker.control.ended = some call → files.HasSaid slot call) :
    Local redact files slot worker where
  cache := cache
  stat call stamp place := by
    rw [place] at asks
    exact nomatch asks
  unbuffered call place := by
    rw [place] at asks
    exact nomatch asks
  asks call found := by
    rw [asks] at found
    exact nomatch found
  ended := ended

section

variable (cache : ∀ cached ∈ worker.readCache, files.file.Describes cached.stamp cached.content)
  {records : List (CrewAgentRecord β)} (sees : Sees files worker records)
  (follows : Follows redact before files.history records)

include cache sees follows

theorem save_moves {call : Call β} {list : List (CrewAgentRecord β)}
    (next : Follows redact before (⟨slot, call⟩ :: files.history) (redactSecrets redact list)) :
    Moves redact before files slot (worker.goto (worker.saveCrewAgents list (.done call)), files) := by
  have saving : Saving.Knows redact before files.history slot ⟨list, .done call⟩ := ⟨call, rfl, next⟩
  refine ⟨.of_file rfl (List.Subset.refl _), local_of_silent cache ?_ fun call place => ?_,
    ⟨records, sees, follows⟩, ?_⟩
  · simp only [Worker.goto, Worker.saveCrewAgents]
    split_ifs <;> rfl
  · simp only [Worker.goto, Worker.saveCrewAgents] at place
    split_ifs at place <;> exact nomatch place
  · simp only [Worker.goto, Worker.saveCrewAgents]
    split_ifs with buffered
    · rintro other ⟨⟩
      exact saving
    · exact ⟨by simpa using buffered, saving⟩

theorem apply_moves {call : Call β} (settles : call.Settles redact) :
    Moves redact before files slot (worker.apply slot files records call) := by
  cases call with
  | upsertCrewAgent record =>
    have merged := follows_merge slot follows settles
    unfold Worker.apply
    dsimp only
    split_ifs
    · exact save_moves cache sees follows merged
    · exact ⟨.of_file rfl (List.Subset.refl _), local_of_silent cache rfl fun call place => (nomatch place),
        ⟨records, sees, follows⟩, merged⟩
  | removeCrewAgent taskId =>
    have filtered := follows_filter slot follows taskId
    unfold Worker.apply
    dsimp only
    split_ifs with fewer
    · refine save_moves cache sees follows ?_
      rwa [redactSecrets_of_redacted filtered.redacted]
    · have same : records.filter (fun record => record.taskId ≠ taskId) = records :=
        List.filter_sublist.eq_of_length (not_not.mp fewer)
      rw [same] at filtered
      refine ⟨.of_file rfl (List.subset_cons_self _ _), local_of_silent cache rfl ?_,
        ⟨records, sees, filtered⟩, trivial⟩
      rintro call ⟨⟩
      exact List.mem_cons_self

theorem afterRead_moves {call : Call β} (settles : call.Settles redact) :
    Moves redact before files slot (worker.afterRead slot files call (some records)) := by
  unfold Worker.afterRead
  dsimp only
  rw [dedupe_of_distinct follows.distinct, if_neg (not_not.mpr rfl)]
  exact apply_moves cache sees follows settles

end

section

variable {world : World}

section

variable (inv : Inv redact before system)

include inv

theorem inv_of_moves (alone : Alone system slot)
    {next : Worker β × AgentsFiles β} (moves : Moves redact before system.files slot next) :
    Inv redact before (system.moved slot next) :=
  inv_moved inv moves.later moves.own (owned_moved alone moves.knows)

theorem inv_of_quiet {next : Worker β × AgentsFiles β}
    (own : Local redact next.2 slot next.1) (file : next.2.file = system.files.file)
    (history : next.2.history = system.files.history)
    (pending : next.1.pending = (system.workers slot).pending) (quiet : next.1.control.busy = false) :
    Inv redact before (system.moved slot next) := by
  refine inv_moved inv (.of_file file ?_) own (owned_quiet inv.owned file history pending quiet)
  rw [history]
  exact List.Subset.refl _

theorem Inv.of_busy {control : Control β} (place : (system.workers slot).control = control)
    (busy : control.busy = true) :
    Alone system slot ∧ control.Knows redact before system.files.history slot (system.workers slot).pending ∧
      Knows redact before system.files slot (system.workers slot) := by
  subst place
  obtain ⟨alone, knows⟩ := inv.owned.of_outstanding (by rw [Worker.outstanding, busy, Bool.or_true])
  exact ⟨alone, knows.control, knows⟩

theorem Inv.of_buffered {entry : PendingWrite β} (buffered : (system.workers slot).pending = some entry) :
    Alone system slot ∧ Knows redact before system.files slot (system.workers slot) :=
  inv.owned.of_outstanding (by rw [Worker.outstanding, buffered]; rfl)

theorem readCrewAgents_keeps {call : Call β} (settles : call.Settles redact) :
    Inv redact before (system.moved slot ((system.workers slot).readCrewAgents slot system.files call)) := by
  unfold Worker.readCrewAgents
  cases buffered : (system.workers slot).pending with
  | none =>
    refine inv_of_quiet inv ⟨(inv.each slot).cache, ?_, fun _ _ => buffered, ?_, ?_⟩ rfl rfl rfl rfl
    · exact nofun
    · rintro other ⟨⟩
      exact settles
    · exact nofun
  | some entry =>
    obtain ⟨alone, knows⟩ := inv.of_buffered buffered
    obtain ⟨records, sees, follows⟩ := knows.sees
    have value : records = entry.value := by
      rw [Sees, buffered] at sees
      exact sees.1
    subst value
    exact inv_of_moves inv alone (afterRead_moves (inv.each slot).cache sees follows settles)

theorem afterStat_keeps {call : Call β}
    (place : (system.workers slot).control = .statAgents call) (alone : Alone system slot) (now : Nat) :
    Inv redact before (system.moved slot ((system.workers slot).afterStat slot system.files call now)) := by
  have here := inv.each slot
  have settles := here.asks call (by rw [place]; rfl)
  have unbuffered := here.unbuffered call place
  obtain ⟨records, sees, follows⟩ := inv.owned.of_alone alone
  have shown := sees
  rw [Sees, unbuffered] at shown
  have miss : Moves redact before system.files slot
      ((system.workers slot).goto (.readAgents call (statSync system.files)), system.files) := by
    refine ⟨.of_file rfl (List.Subset.refl _), ⟨here.cache, ?_, nofun, ?_, ?_⟩,
      ⟨records, sees, follows⟩, unbuffered⟩
    · intro other stamp same
      have stat : statSync system.files = some stamp := (Control.readAgents.inj same).2
      unfold statSync at stat
      split at stat
      · exact nomatch stat
      · exact Option.some.inj stat ▸ StampedFile.spent_stamp
    · rintro other ⟨⟩
      exact settles
    · exact nofun
  unfold Worker.afterStat
  dsimp only
  cases remembered : (system.workers slot).readCache with
  | none => exact inv_of_moves inv alone miss
  | some cached =>
    dsimp only
    split_ifs with fresh
    · have describes := here.cache cached remembered
      have same : cached.stamp = system.files.file.stamp := by
        have stat := fresh.2
        unfold statSync at stat
        split at stat
        · exact nomatch stat
        · exact (Option.some.inj stat).symm
      rw [describes.2 same, shown]
      exact inv_of_moves inv alone (afterRead_moves here.cache sees follows settles)
    · exact inv_of_moves inv alone miss

theorem readAgents_keeps {call : Call β} {stat : Option Stamp}
    (place : (system.workers slot).control = .readAgents call stat) (now : Nat) :
    Inv redact before
      (system.moved slot ((system.workers slot).readAgents slot system.files call stat now)) := by
  have here := inv.each slot
  have settles := here.asks call (by rw [place]; rfl)
  obtain ⟨alone, unbuffered, knows⟩ := inv.of_busy place rfl
  obtain ⟨records, sees, follows⟩ := knows.sees
  have shown := sees
  rw [Sees, unbuffered] at shown
  unfold Worker.readAgents
  dsimp only
  rw [shown]
  refine inv_of_moves inv alone (afterRead_moves ?_ ?_ follows settles)
  · intro cached remembered
    cases stat with
    | none => exact here.cache cached remembered
    | some stamp =>
      obtain rfl := Option.some.inj remembered
      exact StampedFile.describes_read (here.stat call stamp place)
  · exact sees

theorem statQueued_keeps {call : Call β}
    {merged : List (CrewAgentRecord β)} (place : (system.workers slot).control = .statQueued call merged) :
    Inv redact before (system.step redact (.proceed slot world)) := by
  obtain ⟨alone, control, -⟩ := inv.of_busy place rfl
  simp only [AgentsSystem.step, Worker.proceed, place]
  refine inv_of_moves inv alone ⟨.of_file rfl (List.subset_cons_self _ _),
    local_of_silent (inv.each slot).cache rfl ?_, ⟨_, ⟨rfl, rfl⟩, control⟩, trivial⟩
  rintro other ⟨⟩
  exact List.mem_cons_self

end

theorem knows_afterFlush {history : List (Word β)} {next : Option (Saving β)}
    (savings : ∀ saving ∈ next, saving.Knows redact before history slot) :
    (Worker.afterFlush next).Knows redact before history slot none := by
  cases next with
  | none => trivial
  | some saving => exact ⟨rfl, savings saving rfl⟩

theorem asks_afterFlush (next : Option (Saving β)) : (Worker.afterFlush next).asks = none := by
  cases next <;> rfl

theorem ended_afterFlush (next : Option (Saving β)) (call : Call β) :
    (Worker.afterFlush next).ended ≠ some call := by
  cases next with
  | none | some saving => exact nofun

section

variable (inv : Inv redact before system)

include inv

theorem statFlush_keeps {next : Option (Saving β)}
    (place : (system.workers slot).control = .statFlush next) :
    Inv redact before (system.step redact (.proceed slot world)) := by
  have here := inv.each slot
  simp only [AgentsSystem.step, Worker.proceed, place]
  have silent : ∀ control : Control β, control.asks = none → (∀ call, control.ended ≠ some call) →
      Local redact system.files slot ((system.workers slot).goto control) := fun control asks ended =>
    local_of_silent here.cache asks fun call found => absurd found (ended call)
  cases buffered : (system.workers slot).pending with
  | none =>
    dsimp only
    cases next with
    | none => exact inv_of_quiet inv (silent _ rfl nofun) rfl rfl rfl rfl
    | some saving =>
      obtain ⟨alone, control, knows⟩ := inv.of_busy place rfl
      refine inv_of_moves inv alone ⟨.of_file rfl (List.Subset.refl _),
        silent _ rfl nofun, knows.sees, buffered, control saving rfl⟩
  | some entry =>
    obtain ⟨alone, knows⟩ := inv.of_buffered buffered
    have control := knows.control
    rw [place] at control
    obtain ⟨records, sees, follows⟩ := knows.sees
    have same : entry.queued = statSync system.files := by
      rw [Sees, buffered] at sees
      exact sees.2
    dsimp only
    rw [if_neg fun overtaken => overtaken.2 same.symm]
    exact inv_of_moves inv alone ⟨.of_file rfl (List.Subset.refl _),
      silent _ rfl nofun, ⟨records, sees, follows⟩, buffered, control⟩

theorem writeFlush_keeps {entry : PendingWrite β} {next : Option (Saving β)}
    (place : (system.workers slot).control = .writeFlush entry next)
    (fresh : system.files.file.Fresh world.stamp) :
    Inv redact before (system.step redact (.proceed slot world)) := by
  have here := inv.each slot
  obtain ⟨alone, ⟨buffered, savings⟩, knows⟩ := inv.of_busy place rfl
  obtain ⟨records, sees, follows⟩ := knows.sees
  have value : records = entry.value := by
    rw [Sees, buffered] at sees
    exact sees.1
  subst value
  have more : Later system.files
      { system.files with file := system.files.file.write (.records entry.value) world.stamp } :=
    .of_write fresh rfl (List.Subset.refl _)
  simp only [AgentsSystem.step, Worker.proceed, place, Worker.atomicWriteJson]
  exact inv_of_moves inv alone ⟨more,
    local_of_silent (fun cached remembered => more.describes _ _ (here.cache cached remembered))
      (asks_afterFlush next) fun call found => absurd found (ended_afterFlush next call),
    ⟨_, rfl, follows⟩, knows_afterFlush savings⟩

theorem lock_keeps {saving : Saving β} (place : (system.workers slot).control = .openLock saving ∨
      (system.workers slot).control = .checkLock saving ∨ (system.workers slot).control = .removeLock saving) :
    Inv redact before (system.step redact (.proceed slot world)) := by
  have here := inv.each slot
  obtain ⟨alone, control, knows⟩ : Alone system slot ∧ ((system.workers slot).pending = none ∧
      saving.Knows redact before system.files.history slot) ∧
      Knows redact before system.files slot (system.workers slot) := by
    rcases place with place | place | place <;> exact inv.of_busy place rfl
  have goes : ∀ (next : Control β) (later : AgentsFiles β), later.file = system.files.file →
      later.history = system.files.history → next.asks = none → (∀ call, next.ended ≠ some call) →
      next.Knows redact before system.files.history slot (system.workers slot).pending →
      Inv redact before (system.moved slot ((system.workers slot).goto next, later)) := by
    intro next later file history asks ended hand
    have more : Later system.files later := .of_file file (by rw [history]; exact List.Subset.refl _)
    obtain ⟨records, sees, follows⟩ := knows.sees
    refine inv_of_moves inv alone ⟨more,
      local_of_silent (fun cached remembered => more.describes _ _ (here.cache cached remembered)) asks
        fun call found => absurd found (ended call), ⟨records, ?_, ?_⟩, ?_⟩
    · unfold Sees statSync at *
      rw [show later.file = system.files.file from file]
      exact sees
    · rw [show later.history = system.files.history from history]
      exact follows
    · rw [show later.history = system.files.history from history]
      exact hand
  rcases place with place | place | place <;> simp only [AgentsSystem.step, Worker.proceed, place]
  · cases system.files.lock with
    | none | some lock => exact goes _ _ rfl rfl rfl nofun control
  · split_ifs
    · exact goes _ _ rfl rfl rfl nofun control
    · obtain ⟨call, done, -⟩ := control.2
      rw [done]
      exact goes _ _ rfl rfl rfl nofun trivial
    · exact goes _ _ rfl rfl rfl nofun control
  · exact goes _ _ rfl rfl rfl nofun control

theorem writeAgents_keeps {saving : Saving β}
    (place : (system.workers slot).control = .writeAgents saving)
    (fresh : system.files.file.Fresh world.stamp) :
    Inv redact before (system.step redact (.proceed slot world)) := by
  have here := inv.each slot
  obtain ⟨alone, ⟨-, call, done, follows⟩, -⟩ := inv.of_busy place rfl
  have more : Later system.files { system.files with
        file := system.files.file.write (.records (redactSecrets redact saving.records)) world.stamp
        history := ⟨slot, call⟩ :: system.files.history } :=
    .of_write fresh rfl (List.subset_cons_self _ _)
  simp only [AgentsSystem.step, Worker.proceed, place, Worker.atomicWriteJson, done, Worker.said]
  refine inv_of_moves inv alone ⟨more,
    local_of_silent (fun cached remembered => more.describes _ _ (here.cache cached remembered)) rfl ?_,
    ⟨_, rfl, follows⟩, call, rfl⟩
  rintro other ⟨⟩
  exact List.mem_cons_self

theorem release_keeps {after : After β} (place : (system.workers slot).control = .readToken after ∨
      (system.workers slot).control = .removeOwnLock after) :
    Inv redact before (system.step redact (.proceed slot world)) := by
  have here := inv.each slot
  cases after with
  | resume call existing =>
    rcases place with place | place <;> exact nomatch (inv.of_busy place rfl).2.1.choose_spec
  | done call =>
    have said : system.files.HasSaid slot call :=
      here.ended call (by rcases place with place | place <;> rw [place] <;> rfl)
    have silent : ∀ (next : Control β) (later : AgentsFiles β), later.file = system.files.file →
        later.history = system.files.history → next.asks = none → next.ended = some call →
        Local redact later slot ((system.workers slot).goto next) := by
      intro next later file history asks ended
      have more : Later system.files later := .of_file file (by rw [history]; exact List.Subset.refl _)
      refine local_of_silent (fun cached remembered => more.describes _ _ (here.cache cached remembered))
        asks fun other found => ?_
      obtain rfl := Option.some.inj (ended.symm.trans found)
      exact more.history said
    rcases place with place | place <;> simp only [AgentsSystem.step, Worker.proceed, place]
    · split_ifs
      · exact inv_of_quiet inv (silent _ _ rfl rfl rfl rfl) rfl rfl rfl rfl
      · exact inv_of_quiet inv (silent _ _ rfl rfl rfl rfl) rfl rfl rfl rfl
    · exact inv_of_quiet inv (silent _ _ rfl rfl rfl rfl) rfl rfl rfl rfl

end

def Control.writes : Control β → Bool
  | .writeFlush _ _ | .writeAgents _ => true
  | _ => false

/-- **Calls do not overlap**: no process looks at the file while another one is between its read of it and its
write, or has a list in its buffer. The records of the calls settle, and a write gives the file a fresh
stamp. -/
def Careful (redact : CrewAgentRecord β → CrewAgentRecord β) (system : AgentsSystem β) :
    AgentsAction β → Prop
  | .call _ call => call.Settles redact
  | .flush _ => True
  | .proceed slot world =>
    (∀ call, (system.workers slot).control = .statAgents call → Alone system slot) ∧
      ((system.workers slot).control.writes = true → system.files.file.Fresh world.stamp)

theorem proceed_keeps (inv : Inv redact before system) (careful : Careful redact system (.proceed slot world)) :
    Inv redact before (system.step redact (.proceed slot world)) := by
  have here := inv.each slot
  cases place : (system.workers slot).control with
  | idle ended =>
    simp only [AgentsSystem.step, Worker.proceed, place]
    exact inv_of_quiet inv here rfl rfl rfl (by rw [place]; rfl)
  | statRoot record =>
    have settles : Settles redact record := here.asks (.upsertCrewAgent record) (by rw [place]; rfl)
    simp only [AgentsSystem.step, Worker.proceed, place]
    split_ifs
    · unfold Worker.afterRoot
      split_ifs
      · exact readCrewAgents_keeps inv trivial
      · exact readCrewAgents_keeps inv settles
    · exact inv_of_quiet inv (local_of_silent here.cache rfl nofun) rfl rfl rfl rfl
  | statAgents call =>
    simp only [AgentsSystem.step, Worker.proceed, place]
    exact afterStat_keeps inv place (careful.1 call place) world.now
  | readAgents call stat =>
    simp only [AgentsSystem.step, Worker.proceed, place]
    exact readAgents_keeps inv place world.now
  | statQueued call merged => exact statQueued_keeps inv place
  | statFlush next => exact statFlush_keeps inv place
  | writeFlush entry next => exact writeFlush_keeps inv place (careful.2 (by rw [place]; rfl))
  | openLock saving => exact lock_keeps inv (.inl place)
  | checkLock saving => exact lock_keeps inv (.inr (.inl place))
  | removeLock saving => exact lock_keeps inv (.inr (.inr place))
  | writeAgents saving => exact writeAgents_keeps inv place (careful.2 (by rw [place]; rfl))
  | readToken after => exact release_keeps inv (.inl place)
  | removeOwnLock after => exact release_keeps inv (.inr place)

/-- **A step keeps the invariant**, if calls do not overlap. -/
theorem step_keeps (inv : Inv redact before system) (action : AgentsAction β)
    (careful : Careful redact system action) : Inv redact before (system.step redact action) := by
  cases action with
  | call slot call =>
    unfold AgentsSystem.step
    dsimp only
    split
    · cases call with
      | removeCrewAgent taskId => exact readCrewAgents_keeps inv trivial
      | upsertCrewAgent record =>
        refine inv_of_quiet inv ⟨(inv.each slot).cache, nofun,
          nofun, ?_, nofun⟩ rfl rfl rfl rfl
        rintro other ⟨⟩
        exact careful
    · exact inv
  | flush slot =>
    unfold AgentsSystem.step
    dsimp only
    split
    · exact inv_of_quiet inv (local_of_silent (inv.each slot).cache rfl nofun)
        rfl rfl rfl rfl
    · exact inv
  | proceed slot world => exact proceed_keeps inv careful

end

end

section

variable {β : Type}

def Quiet (system : AgentsSystem β) : Prop :=
  ∀ slot, (∃ ended, (system.workers slot).control = .idle ended) ∧ (system.workers slot).pending = none

/-- **The index keeps the agents**: its records are those that the calls say, one of an id, and a call that
had its effect is among them. -/
structure KeepsAgents (redact : CrewAgentRecord β → CrewAgentRecord β)
    (before : String → Option (CrewAgentRecord β)) (system : AgentsSystem β) : Prop where
  index : ∃ list, readAgentsRecordsStrict system.files.file.content = some list ∧ Distinct list ∧
    ∀ id, lookup list id = expected redact before system.files.history id
  said : ∀ slot call, (system.workers slot).control = .idle (some (call, .done)) →
    system.files.HasSaid slot call

theorem Inv.keeps {redact : CrewAgentRecord β → CrewAgentRecord β}
    {before : String → Option (CrewAgentRecord β)} {system : AgentsSystem β} (inv : Inv redact before system)
    (quiet : Quiet system) : KeepsAgents redact before system where
  index := by
    obtain ⟨owner, -, knows⟩ := inv.owned
    obtain ⟨list, sees, follows⟩ := knows.sees
    rw [Sees, (quiet owner).2] at sees
    exact ⟨list, sees, follows.distinct, follows.each⟩
  said slot call place := (inv.each slot).ended call (by rw [place]; rfl)

/-- **The index keeps the agents**, on top of records that were redacted as they were written, in every run in
which the calls of different processes do not overlap, once every call is finished and nothing is buffered. -/
theorem agents_kept (redact : CrewAgentRecord β → CrewAgentRecord β) (file : StampedFile (AgentsContent β))
    (records : List (CrewAgentRecord β)) (shown : readAgentsRecordsStrict file.content = some records)
    (distinct : Distinct records) (redacted : ∀ record ∈ records, redact record = record)
    (actions : List (AgentsAction β))
    (careful : ∀ taken ∈ Runs.transitions (AgentsSystem.step redact) { files := { file := file } } actions,
      Careful redact taken.before taken.action)
    (quiet : Quiet (Runs.finish (AgentsSystem.step redact) { files := { file := file } } actions)) :
    KeepsAgents redact (lookup records)
      (Runs.finish (AgentsSystem.step redact) { files := { file := file } } actions) := by
  have initial : Inv redact (lookup records) { files := { file := file } } := by
    refine ⟨fun slot => local_of_silent (fun cached remembered => (nomatch remembered)) rfl
      fun call found => (nomatch found), 0, fun other apart => rfl, ⟨records, shown, ?_⟩, trivial⟩
    exact ⟨distinct, redacted, fun id => rfl⟩
  have keeps : ∀ system action, Inv redact (lookup records) system → Careful redact system action →
      Inv redact (lookup records) (system.step redact action) :=
    fun _ action inv careful => step_keeps inv action careful
  exact Inv.keeps (Runs.finish_guarded _ keeps initial careful) quiet

def AgentsAction.slot : AgentsAction β → Nat
  | .call slot _ | .flush slot | .proceed slot _ => slot

def Untouched (bound : Nat) (system : AgentsSystem β) : Prop := ∀ slot, bound ≤ slot → system.workers slot = {}

theorem untouched_step {redact : CrewAgentRecord β → CrewAgentRecord β} {bound : Nat}
    {system : AgentsSystem β} {action : AgentsAction β} (untouched : Untouched bound system)
    (below : action.slot < bound) : Untouched bound (system.step redact action) := by
  intro slot above
  have apart : slot ≠ action.slot := by omega
  cases action with
  | proceed mover world => exact (workers_moved_other apart _).trans (untouched slot above)
  | call mover call =>
    unfold AgentsSystem.step
    dsimp only
    split
    · exact (workers_moved_other apart _).trans (untouched slot above)
    · exact untouched slot above
  | flush mover =>
    unfold AgentsSystem.step
    dsimp only
    split
    · exact (workers_moved_other apart _).trans (untouched slot above)
    · exact untouched slot above

/-- The calls of two processes do not overlap, as far as one step tells. -/
def carefulOfTwo (taken : Runs.Transition (AgentsSystem β) (AgentsAction β)) : Bool :=
  decide (taken.action.slot < 2) &&
    match taken.action with
    | .proceed slot world =>
      (match (taken.before.workers slot).control with
        | .statAgents _ => !(taken.before.workers (1 - slot)).outstanding
        | _ => true) &&
        (!(taken.before.workers slot).control.writes || decide (taken.before.files.file.Fresh world.stamp))
    | _ => true

theorem careful_of_two {file : StampedFile (AgentsContent β)} {actions : List (AgentsAction β)}
    (all : ∀ taken ∈ Runs.transitions (AgentsSystem.step id) { files := { file := file } } actions,
      carefulOfTwo taken = true) :
    ∀ taken ∈ Runs.transitions (AgentsSystem.step id) { files := { file := file } } actions,
      Careful id taken.before taken.action := by
  intro taken member
  have below : ∀ taken ∈ Runs.transitions (AgentsSystem.step id) { files := { file := file } } actions,
      taken.action.slot < 2 := fun taken member =>
    of_decide_eq_true ((Bool.and_eq_true _ _).mp (all taken member)).1
  have initial : Untouched 2 ({ files := { file := file } } : AgentsSystem β) := fun _ _ => rfl
  have untouched := (Runs.forall_transitions (AgentsSystem.step id)
    (fun _ _ untouched (below : AgentsAction.slot _ < 2) => untouched_step untouched below) initial below
    taken member).1
  have told := all taken member
  unfold carefulOfTwo at told
  unfold Careful
  split
  · rename_i call _
    cases call with
    | upsertCrewAgent record => exact ⟨rfl, rfl⟩
    | removeCrewAgent taskId => trivial
  · trivial
  · rename_i slot world same
    rw [same] at told
    simp only [Bool.and_eq_true, decide_eq_true_eq, Bool.or_eq_true, Bool.not_eq_true'] at told
    refine ⟨fun call place other apart => ?_, fun writes => ?_⟩
    · have quiet := told.2.1
      rw [place] at quiet
      by_cases near : other < 2
      · have mover : slot < 2 := told.1
        obtain rfl : other = 1 - slot := by omega
        simpa using quiet
      · rw [untouched other (by omega)]
        rfl
    · rcases told.2.2 with idle | fresh
      · rw [writes] at idle
        exact nomatch idle
      · exact fresh

def quietAt (system : AgentsSystem β) (slot : Nat) : Bool :=
  (match (system.workers slot).control with
    | .idle _ => true
    | _ => false) && (system.workers slot).pending.isNone

theorem quiet_of_two {file : StampedFile (AgentsContent β)} {actions : List (AgentsAction β)}
    (below : ∀ action ∈ actions, action.slot < 2) (both : ∀ slot < 2,
      quietAt (Runs.finish (AgentsSystem.step id) { files := { file := file } } actions) slot) :
    Quiet (Runs.finish (AgentsSystem.step id) { files := { file := file } } actions) := by
  have initial : Untouched 2 ({ files := { file := file } } : AgentsSystem β) := fun _ _ => rfl
  have untouched := Runs.finish_keeps_of (AgentsSystem.step id)
    (fun _ _ untouched (below : AgentsAction.slot _ < 2) => untouched_step untouched below) initial below
  intro slot
  by_cases near : slot < 2
  · have quiet := both slot near
    rw [quietAt, Bool.and_eq_true, Option.isNone_iff_eq_none] at quiet
    refine ⟨?_, quiet.2⟩
    have idle := quiet.1
    split at idle
    · rename_i ended place
      exact ⟨ended, place⟩
    · exact nomatch idle
  · rw [untouched slot (by omega)]
    exact ⟨⟨none, rfl⟩, rfl⟩

def agentOf (name status : String) : CrewAgentRecord Unit where
  id := "run:" ++ name
  taskId := name
  status := status
  body := ()

def noIndex : StampedFile (AgentsContent Unit) where
  content := .missing
  stamp := Stamp.zero

def proceeds (slot count stamp : Nat) : List (AgentsAction Unit) :=
  List.replicate count (.proceed slot { stamp := ⟨stamp, stamp⟩ })

/-- One process buffers and flushes a record, another one saves its own, and the first is removed. -/
def inTurn : List (AgentsAction Unit) :=
  [.call 0 (.upsertCrewAgent (agentOf "a" "running"))] ++ proceeds 0 4 1 ++ [.flush 0] ++ proceeds 0 2 1 ++
    [.call 1 (.upsertCrewAgent (agentOf "b" "completed"))] ++ proceeds 1 7 2 ++
    [.call 0 (.removeCrewAgent "a")] ++ proceeds 0 6 3

def indexAfter (actions : List (AgentsAction Unit)) : AgentsContent Unit :=
  (Runs.finish (AgentsSystem.step id) { files := { file := noIndex } } actions).files.file.content

theorem agents_kept_inTurn :
    KeepsAgents id (lookup []) (Runs.finish (AgentsSystem.step id) { files := { file := noIndex } } inTurn) ∧
      indexAfter inTurn = .records [agentOf "b" "completed"] :=
  ⟨agents_kept id noIndex [] rfl List.nodup_nil nofun inTurn
    (careful_of_two (by decide)) (quiet_of_two (by decide) (by decide)), by decide⟩

/-- Two processes read the index, and then both save their records. -/
def bothRead : List (AgentsAction Unit) := [.call 0 (.upsertCrewAgent (agentOf "a" "completed")),
    .call 1 (.upsertCrewAgent (agentOf "b" "completed"))] ++
    proceeds 0 3 0 ++ proceeds 1 3 0 ++ proceeds 0 4 1 ++ proceeds 1 4 2

def removedWhileBuffered : List (AgentsAction Unit) :=
  [.call 0 (.upsertCrewAgent (agentOf "a" "running"))] ++ proceeds 0 4 0 ++
    [.call 1 (.removeCrewAgent "a")] ++ proceeds 1 2 0 ++ [.flush 0] ++ proceeds 0 2 1

def cancelledUpsert : List (AgentsAction Unit) :=
  [.call 0 (.upsertCrewAgent (agentOf "a" "cancelled"))] ++ proceeds 0 3 0

def endedAfter (actions : List (AgentsAction Unit)) (slot : Nat) : Control Unit :=
  ((Runs.finish (AgentsSystem.step id) { files := { file := noIndex } } actions).workers slot).control

/-- **Agents that are not kept.** The only call about an agent is an upsert, which ends well, and its record is
not in the index: another process had read the list before it was written. A removal ends well, and the record
is in the index: another process had it in its buffer. And a cancelled agent has no record. -/
theorem agent_lost :
    (endedAfter bothRead 0 = .idle (some (.upsertCrewAgent (agentOf "a" "completed"), .done)) ∧
        indexAfter bothRead = .records [agentOf "b" "completed"]) ∧
      (endedAfter removedWhileBuffered 1 = .idle (some (.removeCrewAgent "a", .done)) ∧
        indexAfter removedWhileBuffered = .records [agentOf "a" "running"]) ∧
      indexAfter cancelledUpsert = .missing := by
  decide

end

end PiCrew.AgentRecords.AgentsIndex
