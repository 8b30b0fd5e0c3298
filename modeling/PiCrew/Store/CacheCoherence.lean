/-
**What the manifest cache answers.**

A save writes a file and stats it afterwards, to stamp what it puts into the cache. Another process that
writes the file in between has its stamp put on what this one wrote, and the next load answers that. Every
other position of a foreign write is harmless: a load stats a file before it reads it, and a write gives the
file a stamp that nothing in any cache has.

* `PhaseSound.writeManifest`, `PhaseSound.writeTasks` — and for the others, outside the window;
* `answers_current` — a run without writes in the windows of others answers from its caches only what the
  files contained;
* `overtaken_save_is_answered` — a run with such a write.
-/

import PiCrew.Store.ManifestCache

namespace PiCrew.Store.ManifestCache

open PiCrew.State Runs StampedFile

def CachedAnswer.Current (answer : CachedAnswer) : Prop :=
  answer.manifest = answer.manifestThen ∧ answer.tasks = answer.tasksThen

structure CacheEntry.Sound (files : StampedFiles) (entry : CacheEntry) : Prop where
  manifest : files.manifest.Describes entry.manifestStamp entry.manifest
  tasks : files.tasks.Describes entry.tasksStamp entry.tasks

/-- What the loop of a load may take from the cache is sound. -/
structure LoadLoop.Sound (files : StampedFiles) (loop : LoadLoop) : Prop where
  cached : ∀ entry ∈ loop.cached, entry.Sound files
  seen : files.tasks.Seen loop.tasksMtimeMs

/-- **What a process has in its hands** is described by the stamps it has for it. Between its write of a file
and its stat of that file, the file contains what it wrote. -/
def PhaseSound (files : StampedFiles) (cache : Option CacheEntry) : Phase → Prop
  | .idle | .guardTasks _ _ | .statQueued _ | .statFlushed | .loadManifestStat => True
  | .preserve _ _ tasks tasksStamp | .writeManifest _ tasks tasksStamp => files.tasks.Describes tasksStamp tasks
  | .statManifest effective tasks tasksStamp =>
    files.manifest.content = effective ∧ files.tasks.Describes tasksStamp tasks
  | .writeTasks _ recache => recache = true → cache = none
  | .statBesides tasks => cache = none ∧ files.tasks.content = tasks
  | .statTasks tasks manifestStamp =>
    cache = none ∧ files.tasks.content = tasks ∧ files.manifest.Spent manifestStamp
  | .readBesides tasks manifestStamp tasksStamp =>
    files.manifest.Spent manifestStamp ∧ files.tasks.Describes tasksStamp tasks
  | .loadTasksStat cached manifestStat manifestThen =>
    ∀ entry ∈ cached, entry.Sound files ∧ (entry.manifestStamp = manifestStat → entry.manifest = manifestThen)
  | .freshManifestStat loop => loop.Sound files
  | .readManifest loop fresh => loop.Sound files ∧ files.manifest.Spent fresh
  | .freshTasksStat loop fresh manifest => loop.Sound files ∧ files.manifest.Describes fresh manifest
  | .readTasks loop fresh manifest freshTasks =>
    loop.Sound files ∧ files.manifest.Describes fresh manifest ∧
      files.tasks.Spent ⟨loop.tasksMtimeMs, freshTasks.size⟩

structure Worker.Sound (files : StampedFiles) (worker : Worker) : Prop where
  entry : ∀ entry ∈ worker.manifestCache, entry.Sound files
  phase : PhaseSound files worker.manifestCache worker.phase

/-- **The invariant of the files**: the tasks are there, a loader keeps them all, and the answers so far are
current. -/
structure StampedFiles.Sound (belongs : TeamTaskState → Bool) (files : StampedFiles) : Prop where
  there : files.tasks.Exists
  kept : sanitizeLoadedTasks belongs files.tasks.content = files.tasks.content
  answers : ∀ answer ∈ files.answers, answer.Current

def Phase.stampsManifest : Phase → Bool
  | .statManifest _ _ _ => true
  | _ => false

def Phase.stampsTasks : Phase → Bool
  | .statBesides _ | .statTasks _ _ => true
  | _ => false

def Phase.writesManifest : Phase → Bool
  | .writeManifest _ _ _ => true
  | _ => false

def Phase.writtenTasks : Phase → Option (List TeamTaskState)
  | .writeTasks tasks _ => some tasks
  | _ => none

/-- A write gives its file a fresh stamp. -/
def FreshStamps (crew : Crew) : Action → Prop
  | .move slot (.proceed stamp _ _) => ∀ worker ∈ crew.procs slot,
      (worker.phase.writesManifest = true → crew.shared.manifest.Fresh stamp) ∧
      (worker.phase.writtenTasks.isSome = true → crew.shared.tasks.Fresh stamp)
  | _ => True

/-- **A write that is not in the window of another process**: no other process stands between its own write
of that file and its stat of it. -/
def OutsideWindows (crew : Crew) : Action → Prop
  | .move slot (.proceed _ _ _) => ∀ worker ∈ crew.procs slot,
      ∀ other rival, other ≠ slot → crew.procs other = some rival →
        (worker.phase.writesManifest = true → rival.phase.stampsManifest = false) ∧
        (worker.phase.writtenTasks.isSome = true → rival.phase.stampsTasks = false)
  | _ => True

/-- **The tasks that are written are such as a loader keeps.** -/
def WritesWhole (belongs : TeamTaskState → Bool) (crew : Crew) : Action → Prop
  | .move slot (.proceed _ _ _) => ∀ worker ∈ crew.procs slot,
      ∀ tasks ∈ worker.phase.writtenTasks, sanitizeLoadedTasks belongs tasks = tasks
  | _ => True

instance decidableFreshStamps (crew : Crew) (action : Action) : Decidable (FreshStamps crew action) :=
  match action with
  | .begin _ _ | .crash _ | .move _ (.call _ _) | .move _ (.evict _) => inferInstanceAs (Decidable True)
  | .move slot (.proceed stamp _ _) =>
    inferInstanceAs (Decidable (∀ worker ∈ crew.procs slot,
      (worker.phase.writesManifest = true → crew.shared.manifest.Fresh stamp) ∧
      (worker.phase.writtenTasks.isSome = true → crew.shared.tasks.Fresh stamp)))

instance decidableWritesWhole (belongs : TeamTaskState → Bool) (crew : Crew) (action : Action) :
    Decidable (WritesWhole belongs crew action) :=
  match action with
  | .begin _ _ | .crash _ | .move _ (.call _ _) | .move _ (.evict _) => inferInstanceAs (Decidable True)
  | .move slot (.proceed _ _ _) =>
    inferInstanceAs (Decidable (∀ worker ∈ crew.procs slot,
      ∀ tasks ∈ worker.phase.writtenTasks, sanitizeLoadedTasks belongs tasks = tasks))

section

variable {files : StampedFiles} {cache : Option CacheEntry} {phase : Phase} {stamp : Stamp}

theorem CacheEntry.Sound.writeManifest {entry : CacheEntry} (sound : entry.Sound files)
    (fresh : files.manifest.Fresh stamp) (manifest : TeamRunManifest) :
    entry.Sound (files.writeManifest manifest stamp) :=
  ⟨sound.manifest.write fresh manifest, sound.tasks⟩

theorem CacheEntry.Sound.writeTasks {entry : CacheEntry} (sound : entry.Sound files)
    (fresh : files.tasks.Fresh stamp) (tasks : List TeamTaskState) :
    entry.Sound (files.writeTasks tasks stamp) :=
  ⟨sound.manifest, sound.tasks.write fresh tasks⟩

theorem LoadLoop.Sound.writeManifest {loop : LoadLoop} (sound : loop.Sound files)
    (fresh : files.manifest.Fresh stamp) (manifest : TeamRunManifest) :
    loop.Sound (files.writeManifest manifest stamp) :=
  ⟨fun entry there => (sound.cached entry there).writeManifest fresh manifest, sound.seen⟩

theorem LoadLoop.Sound.writeTasks {loop : LoadLoop} (sound : loop.Sound files)
    (fresh : files.tasks.Fresh stamp) (tasks : List TeamTaskState) : loop.Sound (files.writeTasks tasks stamp) :=
  ⟨fun entry there => (sound.cached entry there).writeTasks fresh tasks, sound.seen.write tasks⟩

/-- **The manifest is written**, and the process has not just written it itself. -/
theorem PhaseSound.writeManifest (sound : PhaseSound files cache phase) (fresh : files.manifest.Fresh stamp)
    (outside : phase.stampsManifest = false) (manifest : TeamRunManifest) :
    PhaseSound (files.writeManifest manifest stamp) cache phase := by
  cases phase with
  | statManifest effective tasks tasksStamp => cases outside
  | idle | guardTasks | statQueued | statFlushed | loadManifestStat => trivial
  | preserve | writeManifest | writeTasks | statBesides => exact sound
  | statTasks tasks manifestStamp => exact ⟨sound.1, sound.2.1, sound.2.2.write fresh manifest⟩
  | readBesides tasks manifestStamp tasksStamp => exact ⟨sound.1.write fresh manifest, sound.2⟩
  | loadTasksStat cached manifestStat manifestThen =>
    exact fun entry there => ⟨(sound entry there).1.writeManifest fresh manifest, (sound entry there).2⟩
  | freshManifestStat loop => exact LoadLoop.Sound.writeManifest sound fresh manifest
  | readManifest loop next | freshTasksStat loop next known =>
    exact ⟨sound.1.writeManifest fresh manifest, sound.2.write fresh manifest⟩
  | readTasks loop next known freshTasks =>
    exact ⟨sound.1.writeManifest fresh manifest, sound.2.1.write fresh manifest, sound.2.2⟩

/-- **The tasks are written**, and the process has not just written them itself. -/
theorem PhaseSound.writeTasks (sound : PhaseSound files cache phase) (fresh : files.tasks.Fresh stamp)
    (outside : phase.stampsTasks = false) (tasks : List TeamTaskState) :
    PhaseSound (files.writeTasks tasks stamp) cache phase := by
  cases phase with
  | statBesides | statTasks => cases outside
  | idle | guardTasks | statQueued | statFlushed | loadManifestStat => trivial
  | writeTasks => exact sound
  | preserve | writeManifest => exact Describes.write fresh sound tasks
  | statManifest effective known tasksStamp | readBesides known manifestStamp tasksStamp =>
    exact ⟨sound.1, sound.2.write fresh tasks⟩
  | loadTasksStat cached manifestStat manifestThen =>
    exact fun entry there => ⟨(sound entry there).1.writeTasks fresh tasks, (sound entry there).2⟩
  | freshManifestStat loop => exact LoadLoop.Sound.writeTasks sound fresh tasks
  | readManifest loop next | freshTasksStat loop next known =>
    exact ⟨sound.1.writeTasks fresh tasks, sound.2⟩
  | readTasks loop next known freshTasks =>
    exact ⟨sound.1.writeTasks fresh tasks, sound.2.1, sound.2.2.write fresh tasks⟩

theorem Worker.Sound.writeManifest {worker : Worker} (sound : worker.Sound files)
    (fresh : files.manifest.Fresh stamp) (outside : worker.phase.stampsManifest = false)
    (manifest : TeamRunManifest) : worker.Sound (files.writeManifest manifest stamp) :=
  ⟨fun entry there => (sound.entry entry there).writeManifest fresh manifest,
    sound.phase.writeManifest fresh outside manifest⟩

theorem Worker.Sound.writeTasks {worker : Worker} (sound : worker.Sound files)
    (fresh : files.tasks.Fresh stamp) (outside : worker.phase.stampsTasks = false)
    (tasks : List TeamTaskState) : worker.Sound (files.writeTasks tasks stamp) :=
  ⟨fun entry there => (sound.entry entry there).writeTasks fresh tasks,
    sound.phase.writeTasks fresh outside tasks⟩

end

section

variable {files : StampedFiles} {worker : Worker}

theorem Worker.Sound.goto (sound : worker.Sound files) {phase : Phase}
    (held : PhaseSound files worker.manifestCache phase) : (worker.goto phase).Sound files :=
  ⟨sound.entry, held⟩

theorem Worker.Sound.setManifestCache {entry : CacheEntry} (sound : entry.Sound files)
    (idle : worker.phase = .idle) (now : Nat) : (worker.setManifestCache entry now).Sound files where
  entry := by
    rintro _ ⟨⟩
    exact ⟨sound.manifest, sound.tasks⟩
  phase := by
    show PhaseSound files _ worker.phase
    rw [idle]
    trivial

theorem Worker.Sound.emptied {emptied : Worker} (empty : emptied.manifestCache = none)
    (held : PhaseSound files none emptied.phase) : emptied.Sound files :=
  ⟨fun entry there => (Option.not_mem_none entry (empty ▸ there)).elim, empty.symm ▸ held⟩

theorem persistTasks_sound (there : files.tasks.Exists) (sound : worker.Sound files)
    (tasks : List TeamTaskState) (now : Nat) (coalesced : Option Bool) :
    (worker.persistTasks tasks now coalesced).Sound files := by
  cases coalesced with
  | none => exact .emptied rfl fun _ => rfl
  | some skipCoalesce =>
    have held : ∀ cache, PhaseSound files cache
        (if skipCoalesce then .writeTasks tasks false else .statQueued tasks) := by
      cases skipCoalesce
      · exact fun _ => trivial
      · exact fun _ recache => absurd recache Bool.false_ne_true
    rw [Worker.persistTasks]
    cases cached : worker.manifestCache with
    | none => exact .emptied rfl (held none)
    | some entry =>
      refine ⟨?_, held _⟩
      rintro _ ⟨⟩
      exact ⟨(sound.entry entry cached).manifest, there.describes tasks⟩

theorem begin_sound (there : files.tasks.Exists) (sound : worker.Sound files) (now : Nat) (call : Call) :
    (worker.begin now call).Sound files := by
  have persists : ∀ tasks coalesced, (worker.shouldPersistTasks tasks now coalesced).Sound files := by
    intro tasks coalesced
    rw [Worker.shouldPersistTasks]
    split_ifs
    · exact sound.goto trivial
    · exact persistTasks_sound there sound tasks now coalesced
  cases call with
  | saveRunManifest manifest allowTerminalExit =>
    refine .emptied rfl ?_
    show files.tasks.Describes (worker.manifestCache.elim _ _) (worker.manifestCache.elim _ _)
    cases cached : worker.manifestCache with
    | none => exact there.describes []
    | some entry => exact (sound.entry entry cached).tasks
  | saveRunTasks tasks => exact persists tasks none
  | saveRunTasksCoalesced tasks skipCoalesce => exact persists tasks (some skipCoalesce)
  | flush =>
    rw [Worker.begin]
    split_ifs
    · exact sound.goto trivial
    · exact sound
  | loadRunManifestById => exact sound.goto trivial

def Untouched (files next : StampedFiles) : Prop :=
  next = files ∨ ∃ answer : CachedAnswer, answer.Current ∧ next = files.answer answer

theorem answerFromCache_sound {cached : Option CacheEntry} {manifestStat : Stamp}
    {manifestThen : TeamRunManifest} (sound : worker.Sound files)
    (held : PhaseSound files worker.manifestCache (.loadTasksStat cached manifestStat manifestThen)) (now : Nat)
    (valid : Bool) :
    let looked := worker.answerFromCache cached manifestStat files.tasks.stamp now valid manifestThen files
    Untouched files looked.2 ∧ looked.1.Sound files := by
  have slow : (LoadLoop.mk 0 cached manifestStat files.tasks.stamp.mtimeMs files.tasks.stamp).Sound files :=
    ⟨fun entry there => (held entry there).1, seen_stamp⟩
  cases cached with
  | none => exact ⟨Or.inl rfl, sound.goto slow⟩
  | some entry =>
    obtain ⟨described, same⟩ := held entry rfl
    simp only [Worker.answerFromCache]
    split_ifs with hit expired checked
    · exact ⟨Or.inl rfl, .emptied rfl slow⟩
    · exact ⟨Or.inr ⟨_, ⟨same hit.1, described.tasks.2 hit.2.1⟩, rfl⟩, sound.goto trivial⟩
    · exact ⟨Or.inl rfl, .emptied rfl trivial⟩
    · exact ⟨Or.inl rfl, sound.goto slow⟩

theorem roundRead_sound {loop : LoadLoop} {fresh freshTasks : Stamp} {manifest : TeamRunManifest}
    (sound : worker.Sound files)
    (held : PhaseSound files worker.manifestCache (.readTasks loop fresh manifest freshTasks)) (now : Nat)
    (valid : Bool) :
    (worker.roundRead loop fresh manifest freshTasks files.tasks.content now valid).Sound files := by
  obtain ⟨looping, described, spent⟩ := held
  have idle : (worker.goto .idle).Sound files := sound.goto trivial
  have entry : CacheEntry.Sound files
      { manifest := manifest, tasks := files.tasks.content, manifestStamp := fresh
        tasksStamp := ⟨loop.tasksMtimeMs, freshTasks.size⟩ } := ⟨described, describes_read spent⟩
  rw [Worker.roundRead]
  dsimp only
  split_ifs with stable checked more
  · obtain ⟨rfl, rfl⟩ := stable
    exact .setManifestCache entry rfl now
  · exact idle
  · exact sound.goto ⟨looping.cached, looping.seen⟩
  · exact .setManifestCache entry rfl now
  · exact idle

/-- **A call that writes nothing** keeps what the process has in its hands described. -/
theorem read_sound {belongs : TeamTaskState → Bool} (whole : files.Sound belongs) (sound : worker.Sound files)
    (manifest : worker.phase.writesManifest = false) (tasks : worker.phase.writtenTasks = none) (stamp : Stamp)
    (now : Nat) (valid : Bool) :
    Untouched files (worker.proceed belongs stamp now valid files).2 ∧
      (worker.proceed belongs stamp now valid files).1.Sound files := by
  have held := sound.phase
  rw [Worker.proceed]
  cases turn : worker.phase with
  | writeManifest => exact absurd (turn ▸ manifest) nofun
  | writeTasks => exact absurd (turn ▸ tasks) nofun
  | idle => exact ⟨Or.inl rfl, sound⟩
  | preserve incoming allowTerminalExit known tasksStamp =>
    rw [turn] at held
    exact ⟨Or.inl rfl, sound.goto held⟩
  | statManifest effective known tasksStamp =>
    rw [turn] at held
    exact ⟨Or.inl rfl, .setManifestCache ⟨held.1 ▸ describes_now, held.2⟩ rfl now⟩
  | guardTasks known coalesced =>
    refine ⟨Or.inl rfl, ?_⟩
    dsimp only
    split_ifs
    · exact persistTasks_sound whole.there sound known now coalesced
    · exact sound.goto trivial
  | statBesides known =>
    rw [turn] at held
    exact ⟨Or.inl rfl, sound.goto ⟨held.1, held.2, spent_stamp⟩⟩
  | statTasks known manifestStamp =>
    rw [turn] at held
    obtain ⟨empty, same, spent⟩ := held
    simp only [empty]
    exact ⟨Or.inl rfl, sound.goto ⟨spent, same ▸ describes_now⟩⟩
  | readBesides known manifestStamp tasksStamp =>
    rw [turn] at held
    exact ⟨Or.inl rfl, .setManifestCache ⟨describes_read held.1, held.2⟩ rfl now⟩
  | statQueued known => exact ⟨Or.inl rfl, sound.entry, trivial⟩
  | statFlushed =>
    cases pending : worker.pending with
    | none => exact ⟨Or.inl rfl, sound.goto trivial⟩
    | some write =>
      dsimp only
      split_ifs
      · exact ⟨Or.inl rfl, sound.goto fun recache => absurd recache Bool.false_ne_true⟩
      · exact ⟨Or.inl rfl, sound.entry, trivial⟩
  | loadManifestStat =>
    exact ⟨Or.inl rfl, sound.goto fun entry there =>
      ⟨sound.entry entry there, (sound.entry entry there).manifest.2⟩⟩
  | loadTasksStat cached manifestStat manifestThen => exact answerFromCache_sound sound (turn ▸ held) now valid
  | freshManifestStat loop =>
    rw [turn] at held
    dsimp only
    cases reused : loop.cached.filter fun cached => cached.manifestStamp == files.manifest.stamp with
    | none => exact ⟨Or.inl rfl, sound.goto ⟨held, spent_stamp⟩⟩
    | some entry =>
      obtain ⟨there, same⟩ := Option.filter_eq_some_iff.mp reused
      have described := (LoadLoop.Sound.cached held entry there).manifest
      exact ⟨Or.inl rfl, sound.goto ⟨held, eq_of_beq same ▸ described⟩⟩
  | readManifest loop fresh =>
    rw [turn] at held
    exact ⟨Or.inl rfl, sound.goto ⟨held.1, describes_read held.2⟩⟩
  | freshTasksStat loop fresh known =>
    rw [turn] at held
    exact ⟨Or.inl rfl, sound.goto ⟨held.1, held.2, held.1.seen.spent⟩⟩
  | readTasks loop fresh known freshTasks =>
    refine ⟨Or.inl rfl, ?_⟩
    dsimp only
    rw [whole.kept]
    exact roundRead_sound sound (turn ▸ held) now valid

theorem CacheEntry.Sound.answer {entry : CacheEntry} (sound : entry.Sound files) (answer : CachedAnswer) :
    entry.Sound (files.answer answer) :=
  ⟨sound.manifest, sound.tasks⟩

theorem LoadLoop.Sound.answer {loop : LoadLoop} (sound : loop.Sound files) (answer : CachedAnswer) :
    loop.Sound (files.answer answer) :=
  ⟨fun entry there => (sound.cached entry there).answer answer, sound.seen⟩

theorem Untouched.sound_worker {next : StampedFiles} (untouched : Untouched files next)
    (sound : worker.Sound files) : worker.Sound next := by
  rcases untouched with rfl | ⟨answer, -, rfl⟩
  · exact sound
  · refine ⟨fun entry there => (sound.entry entry there).answer answer, ?_⟩
    have held := sound.phase
    cases turn : worker.phase with
    | loadTasksStat cached manifestStat manifestThen =>
      rw [turn] at held
      exact fun entry there => ⟨(held entry there).1.answer answer, (held entry there).2⟩
    | freshManifestStat loop =>
      rw [turn] at held
      exact LoadLoop.Sound.answer held answer
    | readManifest loop fresh | freshTasksStat loop fresh known | readTasks loop fresh known freshTasks =>
      rw [turn] at held
      exact ⟨held.1.answer answer, held.2⟩
    | _ =>
      rw [turn] at held
      exact held

theorem Untouched.sound_files {belongs : TeamTaskState → Bool} {next : StampedFiles}
    (untouched : Untouched files next) (whole : files.Sound belongs) : next.Sound belongs := by
  rcases untouched with rfl | ⟨answer, current, rfl⟩
  · exact whole
  · exact ⟨whole.there, whole.kept, List.forall_mem_cons.mpr ⟨current, whole.answers⟩⟩

end

section

variable {belongs : TeamTaskState → Bool} {crew : Crew}

variable (belongs crew) in
abbrev AllSound : Prop :=
  crew.Holds (StampedFiles.Sound belongs) fun files _ worker => worker.Sound files

/-- **The next file-system call** keeps its own process sound, and the others. -/
theorem proceed_keeps (all : AllSound belongs crew) {slot : Nat} {worker : Worker}
    (here : crew.procs slot = some worker) {stamp : Stamp} {now : Nat} {valid : Bool}
    (fresh : FreshStamps crew (.move slot (.proceed stamp now valid)))
    (outside : OutsideWindows crew (.move slot (.proceed stamp now valid)))
    (writes : WritesWhole belongs crew (.move slot (.proceed stamp now valid))) :
    Processes.Keeps (StampedFiles.Sound belongs) (fun files _ worker => worker.Sound files) crew slot
      (worker.proceed belongs stamp now valid crew.shared) := by
  have sound := all.procs slot worker here
  obtain ⟨freshManifest, freshTasks⟩ := fresh worker here
  cases turn : worker.phase with
  | writeManifest effective tasks tasksStamp =>
    have held := turn ▸ sound.phase
    have new := freshManifest (by rw [turn]; rfl)
    rw [Worker.proceed, turn]
    refine ⟨⟨all.shared.there, all.shared.kept, all.shared.answers⟩,
      ⟨fun entry there => (sound.entry entry there).writeManifest new effective, rfl, held⟩,
      fun other rival apart there => ?_⟩
    exact (all.procs other rival there).writeManifest new
      ((outside worker here other rival apart there).1 (by rw [turn]; rfl)) effective
  | writeTasks tasks recache =>
    have held := turn ▸ sound.phase
    have new := freshTasks (by rw [turn]; rfl)
    rw [Worker.proceed, turn]
    refine ⟨⟨all.shared.there.write new tasks, writes worker here tasks (by rw [turn]; rfl),
      all.shared.answers⟩, ⟨fun entry there => (sound.entry entry there).writeTasks new tasks, ?_⟩,
      fun other rival apart there => ?_⟩
    · cases recache with
      | false => trivial
      | true => exact ⟨held rfl, rfl⟩
    · exact (all.procs other rival there).writeTasks new
        ((outside worker here other rival apart there).2 (by rw [turn]; rfl)) tasks
  | _ =>
    obtain ⟨untouched, own⟩ :=
      read_sound all.shared sound (by rw [turn]; rfl) (by rw [turn]; rfl) stamp now valid
    exact ⟨untouched.sound_files all.shared, untouched.sound_worker own,
      fun other rival _ there => untouched.sound_worker (all.procs other rival there)⟩

theorem step_sound (all : AllSound belongs crew) (action : Action) (fresh : FreshStamps crew action)
    (outside : OutsideWindows crew action) (writes : WritesWhole belongs crew action) :
    AllSound belongs (step belongs crew action) := by
  refine Processes.step_keeps all action
    (fun _ _ _ => .emptied rfl trivial) fun slot input worker same here => ?_
  have sound := all.procs slot worker here
  have others : ∀ other rival, other ≠ slot → crew.procs other = some rival → rival.Sound crew.shared :=
    fun other rival _ there => all.procs other rival there
  cases input with
  | proceed stamp now valid =>
    subst same
    exact proceed_keeps all here fresh outside writes
  | call call now =>
    rw [move]
    split_ifs
    · exact ⟨all.shared, begin_sound all.shared.there sound now call, others⟩
    · exact ⟨all.shared, sound, others⟩
  | evict generation =>
    rw [move]
    by_cases idle : worker.phase = .idle
    · rw [if_pos idle]
      exact ⟨all.shared, .emptied rfl (idle ▸ trivial), others⟩
    · rw [if_neg idle]
      exact ⟨all.shared, sound, others⟩

def Crew.created (manifest : TeamRunManifest) (manifestStamp : Stamp) (tasks : List TeamTaskState)
    (tasksStamp : Stamp) : Crew where
  shared := { manifest := { content := manifest, stamp := manifestStamp }
              tasks := { content := tasks, stamp := tasksStamp } }
  procs _ := none

/-- **Answers are current.** For all processes and all that they do on a run, one file-system call after the
other, with a fresh stamp from each write: if no process writes a file while another stands between its own
write of that file and its stat of it, and no more tasks are written than a loader keeps, then every load
that answers from its cache answers what the files contained when it made its stat calls. -/
theorem answers_current (manifest : TeamRunManifest) (manifestStamp : Stamp) (tasks : List TeamTaskState)
    (tasksStamp : Stamp) (there : Stamp.zero ≠ tasksStamp) (kept : sanitizeLoadedTasks belongs tasks = tasks)
    (actions : List Action)
    (fresh : ∀ taken ∈ transitions (step belongs) (Crew.created manifest manifestStamp tasks tasksStamp) actions,
      FreshStamps taken.before taken.action)
    (undisturbed : ∀ taken ∈
      transitions (step belongs) (Crew.created manifest manifestStamp tasks tasksStamp) actions,
      OutsideWindows taken.before taken.action ∧ WritesWhole belongs taken.before taken.action) :
    ∀ answer ∈
      (finish (step belongs) (Crew.created manifest manifestStamp tasks tasksStamp) actions).shared.answers,
      answer.Current := by
  have initial : AllSound belongs (Crew.created manifest manifestStamp tasks tasksStamp) :=
    ⟨⟨⟨there, List.mem_singleton_self _⟩, kept, fun answer none => absurd none List.not_mem_nil⟩,
      fun slot worker taken => (Option.some_ne_none worker taken.symm).elim⟩
  have keeps : ∀ (crew : Crew) (action : Action), AllSound belongs crew →
      FreshStamps crew action ∧ OutsideWindows crew action ∧ WritesWhole belongs crew action →
      AllSound belongs (step belongs crew action) :=
    fun crew action all both => step_sound all action both.1 both.2.1 both.2.2
  have all : AllSound belongs
      (finish (step belongs) (Crew.created manifest manifestStamp tasks tasksStamp) actions) :=
    finish_guarded (step belongs) keeps initial fun taken member =>
      ⟨fresh taken member, undisturbed taken member⟩
  exact all.shared.answers

theorem outside_of_alone (created : Crew) (slot : Nat)
    (alone : ∀ other, other ≠ slot → created.procs other = none) (actions : List Action)
    (all : ∀ action ∈ actions, action.slot = slot) :
    ∀ taken ∈ transitions (step belongs) created actions, OutsideWindows taken.before taken.action := by
  intro taken member
  have own : ∀ taken ∈ transitions (step belongs) created actions, taken.action.slot = slot :=
    fun taken member => all _ (transition_action _ member)
  have free := (forall_transitions (step belongs)
    (fun (crew : Crew) (action : Action) (free : ∀ other, other ≠ slot → crew.procs other = none)
      (mine : action.slot = slot) other apart =>
        (Processes.step_others (mine.symm ▸ apart)).trans (free other apart)) alone own taken member).1
  have mine := own taken member
  cases acts : taken.action with
  | begin | crash => trivial
  | move at_ input =>
    cases input with
    | call | evict => trivial
    | proceed stamp now valid =>
      intro worker _ other rival apart there
      have same : at_ = slot := (congrArg Processes.Action.slot acts).symm.trans mine
      exact absurd ((free other (same ▸ apart)).symm.trans there) nofun

/-- A process saves the tasks and the manifest of a run, and loads it. -/
def saveAndLoad (running : TeamRunManifest) : List Action := [.begin 0 (),
    .move 0 (.call (.saveRunTasks []) 1), .move 0 (.proceed ⟨0, 0⟩ 1 true), .move 0 (.proceed ⟨2, 2⟩ 1 true),
    .move 0 (.proceed ⟨0, 0⟩ 1 true), .move 0 (.proceed ⟨0, 0⟩ 1 true), .move 0 (.proceed ⟨0, 0⟩ 1 true),
    .move 0 (.call (.saveRunManifest running false) 2), .move 0 (.proceed ⟨0, 0⟩ 2 true),
    .move 0 (.proceed ⟨3, 40⟩ 2 true), .move 0 (.proceed ⟨0, 0⟩ 3 true),
    .move 0 (.call .loadRunManifestById 4), .move 0 (.proceed ⟨0, 0⟩ 4 true), .move 0 (.proceed ⟨0, 0⟩ 4 true)]

theorem saveAndLoad_current :
    let planning : TeamRunManifest := { runId := "run", status := .planning }
    let running : TeamRunManifest := { runId := "run", status := .running }
    let answers := (finish (step fun _ => true) (Crew.created planning ⟨1, 30⟩ [] ⟨1, 3⟩)
      (saveAndLoad running)).shared.answers
    answers.length = 1 ∧ ∀ answer ∈ answers, answer.Current := by
  intro planning running answers
  refine ⟨by decide, answers_current planning ⟨1, 30⟩ [] ⟨1, 3⟩ (by decide) (by decide) (saveAndLoad running)
    (by decide) fun taken member => ⟨?_, ?_⟩⟩
  · exact outside_of_alone _ 0 (fun _ _ => rfl) _ (by decide) taken member
  · exact (show ∀ taken ∈ transitions (step fun _ => true) (Crew.created planning ⟨1, 30⟩ [] ⟨1, 3⟩)
      (saveAndLoad running), WritesWhole (fun _ => true) taken.before taken.action by decide) taken member

/-- Two processes on a run: the first saves a manifest, and the second saves another one between the write of
the first and its stat. Then the first loads the run. -/
def overtakenSave (planning running : TeamRunManifest) : List Action := [.begin 0 (), .begin 1 (),
    .move 0 (.call (.saveRunTasks []) 1), .move 0 (.proceed ⟨0, 0⟩ 1 true), .move 0 (.proceed ⟨2, 2⟩ 1 true),
    .move 0 (.proceed ⟨0, 0⟩ 1 true), .move 0 (.proceed ⟨0, 0⟩ 1 true), .move 0 (.proceed ⟨0, 0⟩ 1 true),
    .move 0 (.call (.saveRunManifest planning false) 2), .move 0 (.proceed ⟨0, 0⟩ 2 true),
    .move 0 (.proceed ⟨3, 40⟩ 2 true),
    .move 1 (.call (.saveRunManifest running false) 2), .move 1 (.proceed ⟨0, 0⟩ 2 true),
    .move 1 (.proceed ⟨4, 41⟩ 2 true),
    .move 0 (.proceed ⟨0, 0⟩ 3 true),
    .move 0 (.call .loadRunManifestById 4), .move 0 (.proceed ⟨0, 0⟩ 4 true), .move 0 (.proceed ⟨0, 0⟩ 4 true)]

/-- **A save that is overtaken is answered later**, though the file contains something else. -/
theorem overtaken_save_is_answered :
    let planning : TeamRunManifest := { runId := "run", status := .planning }
    let running : TeamRunManifest := { runId := "run", status := .running }
    let created := Crew.created planning ⟨1, 30⟩ [] ⟨1, 3⟩
    (∀ taken ∈ transitions (step fun _ => true) created (overtakenSave planning running),
        FreshStamps taken.before taken.action ∧ WritesWhole (fun _ => true) taken.before taken.action) ∧
      ∃ answer ∈ (finish (step fun _ => true) created (overtakenSave planning running)).shared.answers,
        answer.manifest = planning ∧ answer.manifestThen = running ∧ ¬ answer.Current := by
  refine ⟨by decide, ⟨_, [], _, []⟩, List.mem_singleton_self _, rfl, rfl, fun current => ?_⟩
  exact absurd current.1 (by decide)

end

end PiCrew.Store.ManifestCache
