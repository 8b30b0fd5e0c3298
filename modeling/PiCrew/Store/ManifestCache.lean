/-
**The manifest cache.**

`state/stores/state-store.ts` (`saveRunManifest`, `saveRunTasks`, `saveRunTasksCoalesced`,
`loadRunManifestById`, `setManifestCache`, `invalidateRunCache`) and the buffer of `state/atomic-write.ts`.
Each process keeps the manifest and the tasks of a run in memory, with the stamps of the two files. A load
that finds both files with these stamps answers from memory. Any number of processes save and load the same
run.

* `move` — a process makes a move, on the two files and its own memory.

The model is of one run with the JSON files, both of which are there from its creation on.
`StampedFiles.answers` lists what was answered from a cache, and with it what the files contained at the two
stat calls. The calls that ask only whether a file or a directory is there are left out; so are the
manifests that a loader refuses as malformed, which no save writes.
-/

import PiCrew.Store.RunStatus
import PiCrew.Library.Processes
import PiCrew.Library.Stamps

namespace PiCrew.Store.ManifestCache

open PiCrew.State

/-- An entry of the cache (`ManifestCacheEntry`). -/
structure CacheEntry where
  manifest : TeamRunManifest
  tasks : List TeamTaskState
  manifestStamp : Stamp
  tasksStamp : Stamp
  cachedAt : Nat := 0
  generation : Nat := 0
  deriving DecidableEq, Repr

structure PendingWrite where
  value : List TeamTaskState
  queued : Stamp
  deriving DecidableEq, Repr

/-- What the loop of a load remembers. `tasksMtimeMs` is of the first stat call. -/
structure LoadLoop where
  attempts : Nat := 0
  cached : Option CacheEntry
  manifestStat : Stamp
  tasksMtimeMs : Nat
  tasksStat : Stamp
  deriving DecidableEq, Repr

/-- **The file-system call that a process makes next.** -/
inductive Phase where
  | idle
  | preserve (manifest : TeamRunManifest) (allowTerminalExit : Bool) (tasks : List TeamTaskState)
      (tasksStamp : Stamp)
  | writeManifest (effective : TeamRunManifest) (tasks : List TeamTaskState) (tasksStamp : Stamp)
  | statManifest (effective : TeamRunManifest) (tasks : List TeamTaskState) (tasksStamp : Stamp)
  | guardTasks (tasks : List TeamTaskState) (coalesced : Option Bool)
  | writeTasks (tasks : List TeamTaskState) (recache : Bool)
  | statBesides (tasks : List TeamTaskState)
  | statTasks (tasks : List TeamTaskState) (manifestStamp : Stamp)
  | readBesides (tasks : List TeamTaskState) (manifestStamp tasksStamp : Stamp)
  | statQueued (tasks : List TeamTaskState)
  | statFlushed
  | loadManifestStat
  | loadTasksStat (cached : Option CacheEntry) (manifestStat : Stamp) (manifestThen : TeamRunManifest)
  | freshManifestStat (loop : LoadLoop)
  | readManifest (loop : LoadLoop) (fresh : Stamp)
  | freshTasksStat (loop : LoadLoop) (fresh : Stamp) (manifest : TeamRunManifest)
  | readTasks (loop : LoadLoop) (fresh : Stamp) (manifest : TeamRunManifest) (freshTasks : Stamp)
  deriving DecidableEq, Repr

/-- **The memory of a process**, as far as the run is concerned. -/
structure Worker where
  manifestCache : Option CacheEntry := none
  generation : Nat := 0
  pending : Option PendingWrite := none
  phase : Phase := .idle
  deriving DecidableEq, Repr

/-- What a load answered from its cache, and what the files contained when it made its stat calls. -/
structure CachedAnswer where
  manifest : TeamRunManifest
  tasks : List TeamTaskState
  manifestThen : TeamRunManifest
  tasksThen : List TeamTaskState
  deriving DecidableEq, Repr

/-- The files of the run, and the answers that were given from a cache. -/
structure StampedFiles where
  manifest : StampedFile TeamRunManifest
  tasks : StampedFile (List TeamTaskState)
  answers : List CachedAnswer := []

inductive Call where
  | saveRunManifest (manifest : TeamRunManifest) (allowTerminalExit : Bool)
  | saveRunTasks (tasks : List TeamTaskState)
  | saveRunTasksCoalesced (tasks : List TeamTaskState) (skipCoalesce : Bool)
  | flush
  | loadRunManifestById

/-- **What a process does next.** `proceed` is its next file-system call: `stamp` is what a write gives the
file, `now` the time, and `valid` the verdict of `validateRunManifestPaths`. `evict` is of the limit on cache
entries, or of that on generations, which forgets the generation too. -/
inductive Input where
  | call (call : Call) (now : Nat)
  | proceed (stamp : Stamp) (now : Nat) (valid : Bool)
  | evict (generation : Bool)

def manifestCacheTtlMs : Nat := 60000

def loadManifestRetryLimit : Nat := 5

def maxLoadedTasks : Nat := 10000

def sanitizeLoadedTasks (belongs : TeamTaskState → Bool) (tasks : List TeamTaskState) : List TeamTaskState :=
  (tasks.take maxLoadedTasks).filter belongs

namespace Worker

variable (worker : Worker)

def goto (phase : Phase) : Worker := { worker with phase := phase }

/-- `setManifestCache`: the entry has the present time and generation. -/
def setManifestCache (entry : CacheEntry) (now : Nat) : Worker :=
  { worker with manifestCache := some { entry with cachedAt := now, generation := worker.generation } }

def invalidateRunCache : Worker :=
  { worker with manifestCache := none, generation := worker.generation + 1 }

def cancelPendingCoalescedWrite : Worker := { worker with pending := none }

/-- `saveRunTasks` and `saveRunTasksCoalesced`, once the tasks may be persisted. -/
def persistTasks (tasks : List TeamTaskState) (now : Nat) : Option Bool → Worker
  | none => worker.invalidateRunCache.goto (.writeTasks tasks true)
  | some skipCoalesce =>
    let kept :=
      match worker.manifestCache with
      | some cached =>
        worker.setManifestCache { cached with tasks := tasks, tasksStamp := Stamp.zero } now
      | none => worker.invalidateRunCache
    kept.goto (if skipCoalesce then .writeTasks tasks false else .statQueued tasks)

def shouldPersistTasks (tasks : List TeamTaskState) (now : Nat) (coalesced : Option Bool) : Worker :=
  if tasks = [] then worker.goto (.guardTasks tasks coalesced) else worker.persistTasks tasks now coalesced

def begin (now : Nat) : Call → Worker
  | .saveRunManifest manifest allowTerminalExit =>
    let tasks := worker.manifestCache.elim [] (·.tasks)
    let tasksStamp := worker.manifestCache.elim Stamp.zero (·.tasksStamp)
    worker.invalidateRunCache.goto (.preserve manifest allowTerminalExit tasks tasksStamp)
  | .saveRunTasks tasks => worker.shouldPersistTasks tasks now none
  | .saveRunTasksCoalesced tasks skipCoalesce => worker.shouldPersistTasks tasks now (some skipCoalesce)
  | .flush => if worker.pending.isSome then worker.goto .statFlushed else worker
  | .loadRunManifestById => worker.goto .loadManifestStat

end Worker

section

variable (belongs : TeamTaskState → Bool)

def StampedFiles.writeManifest (files : StampedFiles) (manifest : TeamRunManifest) (stamp : Stamp) :
    StampedFiles :=
  { files with manifest := files.manifest.write manifest stamp }

def StampedFiles.writeTasks (files : StampedFiles) (tasks : List TeamTaskState) (stamp : Stamp) : StampedFiles :=
  { files with tasks := files.tasks.write tasks stamp }

def StampedFiles.answer (files : StampedFiles) (answer : CachedAnswer) : StampedFiles :=
  { files with answers := answer :: files.answers }

namespace Worker

variable (worker : Worker)

def hit (manifestStat tasksStat : Stamp) (cached : CacheEntry) : Prop :=
  cached.manifestStamp = manifestStat ∧ cached.tasksStamp = tasksStat ∧ cached.generation = worker.generation

instance decidableHit (manifestStat tasksStat : Stamp) (cached : CacheEntry) :
    Decidable (worker.hit manifestStat tasksStat cached) :=
  inferInstanceAs (Decidable (_ ∧ _ ∧ _))

/-- **The cache is looked at**, with the stamps of both files at hand. -/
def answerFromCache (cached : Option CacheEntry) (manifestStat tasksStat : Stamp) (now : Nat) (valid : Bool)
    (manifestThen : TeamRunManifest) (files : StampedFiles) : Worker × StampedFiles :=
  let slow := LoadLoop.mk 0 cached manifestStat tasksStat.mtimeMs tasksStat
  match cached with
  | none => (worker.goto (.freshManifestStat slow), files)
  | some entry =>
    if worker.hit manifestStat tasksStat entry then
      if manifestCacheTtlMs < now - entry.cachedAt then
        ({ worker with manifestCache := none, phase := .freshManifestStat slow }, files)
      else if valid then
        (worker.goto .idle, files.answer ⟨entry.manifest, entry.tasks, manifestThen, files.tasks.content⟩)
      else ({ worker with manifestCache := none, phase := .idle }, files)
    else (worker.goto (.freshManifestStat slow), files)

/-- **The loop of a load has read both files.** It ends where their stamps are those of the round before, or
at its limit, and what was read goes into the cache. -/
def roundRead (loop : LoadLoop) (fresh : Stamp) (manifest : TeamRunManifest) (freshTasks : Stamp)
    (tasks : List TeamTaskState) (now : Nat) (valid : Bool) : Worker :=
  let cache (ended : LoadLoop) : Worker :=
    let loaded := worker.goto .idle
    if valid then
      loaded.setManifestCache
        { manifest := manifest, tasks := tasks, manifestStamp := ended.manifestStat
          tasksStamp := ⟨ended.tasksMtimeMs, ended.tasksStat.size⟩ } now
    else loaded
  if fresh = loop.manifestStat ∧ freshTasks = loop.tasksStat then cache loop
  else
    let next := { loop with attempts := loop.attempts + 1, manifestStat := fresh, tasksStat := freshTasks }
    if next.attempts < loadManifestRetryLimit then worker.goto (.freshManifestStat next) else cache next

/-- **A process makes its next file-system call.** -/
def proceed (stamp : Stamp) (now : Nat) (valid : Bool) (files : StampedFiles) : Worker × StampedFiles :=
  match worker.phase with
  | .idle => (worker, files)
  | .preserve manifest allowTerminalExit tasks tasksStamp =>
    let disk : RunDisk := { manifest := files.manifest.content }
    let effective := preserveDiskTerminalStatus disk manifest allowTerminalExit
    (worker.goto (.writeManifest effective tasks tasksStamp), files)
  | .writeManifest effective tasks tasksStamp =>
    (worker.goto (.statManifest effective tasks tasksStamp), files.writeManifest effective stamp)
  | .statManifest effective tasks tasksStamp =>
    ((worker.goto .idle).setManifestCache
      { manifest := effective, tasks := tasks, manifestStamp := files.manifest.stamp,
        tasksStamp := tasksStamp } now, files)
  | .guardTasks tasks coalesced =>
    (if files.tasks.content = [] then worker.persistTasks tasks now coalesced else worker.goto .idle, files)
  | .writeTasks tasks recache =>
    (worker.cancelPendingCoalescedWrite.goto (if recache then .statBesides tasks else .idle),
      files.writeTasks tasks stamp)
  | .statBesides tasks => (worker.goto (.statTasks tasks files.manifest.stamp), files)
  | .statTasks tasks manifestStamp =>
    match worker.manifestCache with
    | some cached =>
      ((worker.goto .idle).setManifestCache
        { manifest := cached.manifest, tasks := tasks, manifestStamp := manifestStamp,
          tasksStamp := files.tasks.stamp } now, files)
    | none => (worker.goto (.readBesides tasks manifestStamp files.tasks.stamp), files)
  | .readBesides tasks manifestStamp tasksStamp =>
    ((worker.goto .idle).setManifestCache
      { manifest := files.manifest.content, tasks := tasks, manifestStamp := manifestStamp,
        tasksStamp := tasksStamp } now, files)
  | .statQueued tasks =>
    ({ worker with pending := some ⟨tasks, files.tasks.stamp⟩, phase := .idle }, files)
  | .statFlushed =>
    match worker.pending with
    | some pending =>
      if pending.queued = files.tasks.stamp then (worker.goto (.writeTasks pending.value false), files)
      else (worker.cancelPendingCoalescedWrite.goto .idle, files)
    | none => (worker.goto .idle, files)
  | .loadManifestStat =>
    (worker.goto (.loadTasksStat worker.manifestCache files.manifest.stamp files.manifest.content), files)
  | .loadTasksStat cached manifestStat manifestThen =>
    worker.answerFromCache cached manifestStat files.tasks.stamp now valid manifestThen files
  | .freshManifestStat loop =>
    let fresh := files.manifest.stamp
    match loop.cached.filter fun cached => cached.manifestStamp == fresh with
    | some cached => (worker.goto (.freshTasksStat loop fresh cached.manifest), files)
    | none => (worker.goto (.readManifest loop fresh), files)
  | .readManifest loop fresh => (worker.goto (.freshTasksStat loop fresh files.manifest.content), files)
  | .freshTasksStat loop fresh manifest =>
    (worker.goto (.readTasks loop fresh manifest files.tasks.stamp), files)
  | .readTasks loop fresh manifest freshTasks =>
    let tasks := sanitizeLoadedTasks belongs files.tasks.content
    (worker.roundRead loop fresh manifest freshTasks tasks now valid, files)

end Worker

/-- **A process makes a move.** It begins a call, and loses an entry of its cache, between its calls. -/
def move (_ : Nat) (worker : Worker) (input : Input) (files : StampedFiles) : Worker × StampedFiles :=
  match input with
  | .call call now => (if worker.phase = .idle then worker.begin now call else worker, files)
  | .proceed stamp now valid => worker.proceed belongs stamp now valid files
  | .evict generation =>
    (if worker.phase = .idle then
      { worker with manifestCache := none, generation := if generation then 0 else worker.generation }
    else worker, files)

abbrev Crew := Processes StampedFiles Worker

abbrev Action := Processes.Action Unit Input

/-- **A step.** A process begins with nothing in memory. -/
def step (crew : Crew) (action : Action) : Crew := crew.step (fun _ => {}) (move belongs) action

end

end PiCrew.Store.ManifestCache
