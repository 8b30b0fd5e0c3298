/-
**The index of the agents of a run.**

`runtime/crew-agent-records.ts` (`upsertCrewAgent`, `removeCrewAgent`, `readCrewAgents`, `saveCrewAgents`,
`saveCrewAgentsCoalesced`, `withAgentsLock`), with `utils/file-coalescer.ts` and the buffer of
`state/atomic-write.ts`. A call reads the list of agents, from the buffer of its process or from the file, changes
it, and writes it under a lock, or buffers it until a timer writes it.

* `AgentsSystem.step` — a process begins a call or a flush, or makes its next file-system call.

What redaction changes is a parameter, and so are the verdicts on a lock that is there. The status files of the
tasks, the caches of other readers, unsafe task ids and failing writes are left out.
-/

import PiCrew.Library.Runs
import PiCrew.Library.Stamps
import Mathlib.Logic.Function.Basic

namespace PiCrew.AgentRecords.AgentsIndex

section

/-- A record, with everything else that it says in `body`. -/
structure CrewAgentRecord (β : Type) where
  id : String
  taskId : String
  status : String
  body : β
  deriving DecidableEq, Repr

def terminalAgentStatuses : List String := ["completed", "failed", "cancelled", "blocked"]

variable {β : Type}

def shouldDeleteCrewAgentOnTerminalStatus (record : CrewAgentRecord β) : Bool :=
  record.status = "cancelled" || record.status = "stopped"

def dedupe : List (CrewAgentRecord β) → List (CrewAgentRecord β)
  | [] => []
  | record :: rest => record :: (dedupe rest).filter fun other => other.id ≠ record.id

def merge (existing : List (CrewAgentRecord β)) (record : CrewAgentRecord β) : List (CrewAgentRecord β) :=
  let merged := existing.map fun item => if item.id = record.id then record else item
  if existing.any fun item => item.id = record.id then merged else merged ++ [record]

end

section

variable (β : Type)

/-- What is at the path of the index. What is no list is read as an empty one. -/
inductive AgentsContent where
  | missing
  | unreadable
  | records (list : List (CrewAgentRecord β))
  deriving DecidableEq, Repr

inductive Call where
  | upsertCrewAgent (record : CrewAgentRecord β)
  | removeCrewAgent (taskId : String)
  deriving DecidableEq, Repr

/-- The lock file, with the process whose token is in it. -/
structure AgentsLock where
  holder : Option Nat
  deriving DecidableEq, Repr

/-- A call that had its effect, and the process that made it. -/
structure Word where
  slot : Nat
  call : Call β
  deriving DecidableEq, Repr

/-- The files of the index, and the calls that had their effect, the latest first. -/
structure AgentsFiles where
  file : StampedFile (AgentsContent β)
  lock : Option AgentsLock := none
  history : List (Word β) := []

variable {β}

/-- `readAgentsRecordsStrict`: nothing, if the file is there and cannot be read. -/
def readAgentsRecordsStrict : AgentsContent β → Option (List (CrewAgentRecord β))
  | .missing => some []
  | .unreadable => none
  | .records list => some list

/-- What a stat call says about the index. -/
def statSync (files : AgentsFiles β) : Option Stamp :=
  match files.file.content with
  | .missing => none
  | _ => some files.file.stamp

end

section

variable (β : Type)

/-- A list in the buffer of a process, with the stamp that the file had when it was put there. -/
structure PendingWrite where
  value : List (CrewAgentRecord β)
  queued : Option Stamp
  deriving DecidableEq, Repr

/-- What a process remembers of the file (`ReadCacheEntry`), for the time until it expires. -/
structure ReadCacheEntry where
  content : AgentsContent β
  stamp : Stamp
  expiresAt : Nat
  deriving DecidableEq, Repr

/-- What a process does when a list is saved: it is done with its call, or goes on with what it has read. -/
inductive After where
  | done (call : Call β)
  | resume (call : Call β) (existing : List (CrewAgentRecord β))
  deriving DecidableEq, Repr

/-- A list that is to be written under the lock. -/
structure Saving where
  records : List (CrewAgentRecord β)
  after : After β
  deriving DecidableEq, Repr

/-- How a call ended: it had its effect, or the run is gone, or the index cannot be read, or the lock was
not to be had. -/
inductive Outcome where
  | done
  | gone
  | unreadable
  | locked
  deriving DecidableEq, Repr

/-- **The file-system call that a process makes next**; when it is idle, how its last call ended. -/
inductive Control where
  | idle (ended : Option (Call β × Outcome))
  | statRoot (record : CrewAgentRecord β)
  | statAgents (call : Call β)
  | readAgents (call : Call β) (stamp : Option Stamp)
  | statQueued (call : Call β) (merged : List (CrewAgentRecord β))
  | statFlush (next : Option (Saving β))
  | writeFlush (entry : PendingWrite β) (next : Option (Saving β))
  | openLock (saving : Saving β)
  | checkLock (saving : Saving β)
  | removeLock (saving : Saving β)
  | writeAgents (saving : Saving β)
  | readToken (after : After β)
  | removeOwnLock (after : After β)
  deriving DecidableEq, Repr

/-- **A process**, as far as the index is concerned. -/
structure Worker where
  pending : Option (PendingWrite β) := none
  readCache : Option (ReadCacheEntry β) := none
  control : Control β := .idle none
  deriving DecidableEq, Repr

/-- What the environment shows to a process at a file-system call: the time, whether the run is there, what
it finds of a lock, and the stamp that a write gives the file. -/
structure World where
  now : Nat := 0
  rootExists : Bool := true
  lockStale : Bool := false
  lockTimedOut : Bool := false
  stamp : Stamp := Stamp.zero

end

section

variable {β : Type} (redact : CrewAgentRecord β → CrewAgentRecord β)

def agentReaderTtlMs : Nat := 200

/-- `redactSecrets` of a list. -/
def redactSecrets (records : List (CrewAgentRecord β)) : List (CrewAgentRecord β) := records.map redact

namespace Worker

variable (worker : Worker β)

def goto (control : Control β) : Worker β := { worker with control := control }

/-- `saveCrewAgents`: what is buffered is flushed first. -/
def saveCrewAgents (records : List (CrewAgentRecord β)) (after : After β) : Control β :=
  if worker.pending.isSome then .statFlush (some ⟨records, after⟩) else .openLock ⟨records, after⟩

/-- **What a call makes of the records that it has read**: it goes on to save or to buffer a list, or is done
with a removal that finds nothing. -/
def apply (slot : Nat) (files : AgentsFiles β) (existing : List (CrewAgentRecord β)) :
    Call β → Worker β × AgentsFiles β
  | .upsertCrewAgent record =>
    let merged := merge existing record
    if record.status ∈ terminalAgentStatuses then
      (worker.goto (worker.saveCrewAgents merged (.done (.upsertCrewAgent record))), files)
    else (worker.goto (.statQueued (.upsertCrewAgent record) merged), files)
  | .removeCrewAgent taskId =>
    let filtered := existing.filter fun record => record.taskId ≠ taskId
    if filtered.length ≠ existing.length then
      (worker.goto (worker.saveCrewAgents filtered (.done (.removeCrewAgent taskId))), files)
    else
      (worker.goto (.idle (some (.removeCrewAgent taskId, .done))),
        { files with history := ⟨slot, .removeCrewAgent taskId⟩ :: files.history })

/-- `readCrewAgents` has its records: it saves them at once if there are two of one id. -/
def afterRead (slot : Nat) (files : AgentsFiles β) (call : Call β) :
    Option (List (CrewAgentRecord β)) → Worker β × AgentsFiles β
  | none => (worker.goto (.idle (some (call, .unreadable))), files)
  | some records =>
    let deduped := dedupe records
    if deduped.length ≠ records.length then
      (worker.goto (worker.saveCrewAgents deduped (.resume call deduped)), files)
    else worker.apply slot files deduped call

/-- `readCrewAgents`: what is buffered takes the place of the file. -/
def readCrewAgents (slot : Nat) (files : AgentsFiles β) (call : Call β) : Worker β × AgentsFiles β :=
  match worker.pending with
  | some entry => worker.afterRead slot files call (some entry.value)
  | none => (worker.goto (.statAgents call), files)

def begin (slot : Nat) (files : AgentsFiles β) : Call β → Worker β × AgentsFiles β
  | .upsertCrewAgent record => (worker.goto (.statRoot record), files)
  | .removeCrewAgent taskId => worker.readCrewAgents slot files (.removeCrewAgent taskId)

/-- The run of an upsert is there. A record of a cancelled or stopped agent is a removal. -/
def afterRoot (slot : Nat) (files : AgentsFiles β) (record : CrewAgentRecord β) : Worker β × AgentsFiles β :=
  if shouldDeleteCrewAgentOnTerminalStatus record then
    worker.readCrewAgents slot files (.removeCrewAgent record.taskId)
  else worker.readCrewAgents slot files (.upsertCrewAgent record)

/-- `readJsonFileCoalesced` has looked at the file: what is remembered of it may do. -/
def afterStat (slot : Nat) (files : AgentsFiles β) (call : Call β) (now : Nat) : Worker β × AgentsFiles β :=
  let stat := statSync files
  match worker.readCache with
  | some cached =>
    if now < cached.expiresAt ∧ stat = some cached.stamp then
      worker.afterRead slot files call (readAgentsRecordsStrict cached.content)
    else (worker.goto (.readAgents call stat), files)
  | none => (worker.goto (.readAgents call stat), files)

def readAgents (slot : Nat) (files : AgentsFiles β) (call : Call β) (stat : Option Stamp) (now : Nat) :
    Worker β × AgentsFiles β :=
  let content := files.file.content
  let cached := stat.map fun stamp => (⟨content, stamp, now + agentReaderTtlMs⟩ : ReadCacheEntry β)
  { worker with readCache := cached.or worker.readCache }.afterRead slot files call
    (readAgentsRecordsStrict content)

def afterFlush : Option (Saving β) → Control β
  | some saving => .openLock saving
  | none => .idle none

def afterSave (slot : Nat) (files : AgentsFiles β) : After β → Worker β × AgentsFiles β
  | .done call => (worker.goto (.idle (some (call, .done))), files)
  | .resume call existing => worker.apply slot files existing call

/-- `atomicWriteFile`: it cancels what is buffered. -/
def atomicWriteJson (files : AgentsFiles β) (records : List (CrewAgentRecord β)) (stamp : Stamp)
    (next : Control β) : Worker β × AgentsFiles β :=
  ({ worker with pending := none, control := next },
    { files with file := files.file.write (.records records) stamp })

def said (slot : Nat) : After β → List (Word β)
  | .done call => [⟨slot, call⟩]
  | .resume _ _ => []

/-- **The next file-system call of a process.** -/
def proceed (slot : Nat) (world : World) (files : AgentsFiles β) : Worker β × AgentsFiles β :=
  match worker.control with
  | .idle _ => (worker, files)
  | .statRoot record =>
    if world.rootExists then worker.afterRoot slot files record
    else (worker.goto (.idle (some (.upsertCrewAgent record, .gone))), files)
  | .statAgents call => worker.afterStat slot files call world.now
  | .readAgents call stat => worker.readAgents slot files call stat world.now
  | .statQueued call merged =>
    ({ worker with
        pending := some ⟨redactSecrets redact merged, statSync files⟩
        control := .idle (some (call, .done)) },
      { files with history := ⟨slot, call⟩ :: files.history })
  | .statFlush next =>
    match worker.pending with
    | none => (worker.goto (afterFlush next), files)
    | some entry =>
      -- another process has written the file, or there was none
      if statSync files ≠ none ∧ statSync files ≠ entry.queued then
        ({ worker with pending := none, control := afterFlush next }, files)
      else (worker.goto (.writeFlush entry next), files)
  | .writeFlush entry next => worker.atomicWriteJson files entry.value world.stamp (afterFlush next)
  | .openLock saving =>
    match files.lock with
    | none => (worker.goto (.writeAgents saving), { files with lock := some ⟨some slot⟩ })
    | some _ => (worker.goto (.checkLock saving), files)
  | .checkLock saving =>
    if world.lockStale then (worker.goto (.removeLock saving), files)
    else if world.lockTimedOut then
      match saving.after with
      | .done call => (worker.goto (.idle (some (call, .locked))), files)
      -- a read whose save fails has read nothing
      | .resume call _ => worker.apply slot files [] call
    else (worker.goto (.openLock saving), files)
  | .removeLock saving => (worker.goto (.openLock saving), { files with lock := none })
  | .writeAgents saving =>
    let written := worker.atomicWriteJson files (redactSecrets redact saving.records) world.stamp
      (.readToken saving.after)
    (written.1, { written.2 with history := said slot saving.after ++ files.history })
  | .readToken after =>
    if files.lock = some ⟨some slot⟩ then (worker.goto (.removeOwnLock after), files)
    else worker.afterSave slot files after
  | .removeOwnLock after => worker.afterSave slot { files with lock := none } after

end Worker

structure AgentsSystem (β : Type) where
  files : AgentsFiles β
  workers : Nat → Worker β := fun _ => {}

/-- What happens next: a process that is idle begins a call, or its timer flushes what is buffered; or a
process makes its next file-system call. -/
inductive AgentsAction (β : Type) where
  | call (slot : Nat) (call : Call β)
  | flush (slot : Nat)
  | proceed (slot : Nat) (world : World)

namespace AgentsSystem

variable (system : AgentsSystem β)

def moved (slot : Nat) (next : Worker β × AgentsFiles β) : AgentsSystem β where
  files := next.2
  workers := Function.update system.workers slot next.1

def step (system : AgentsSystem β) : AgentsAction β → AgentsSystem β
  | .call slot call =>
    match (system.workers slot).control with
    | .idle _ => system.moved slot ((system.workers slot).begin slot system.files call)
    | _ => system
  | .flush slot =>
    match (system.workers slot).control with
    | .idle _ => system.moved slot ((system.workers slot).goto (.statFlush none), system.files)
    | _ => system
  | .proceed slot world =>
    system.moved slot ((system.workers slot).proceed redact slot world system.files)

end AgentsSystem

end

end PiCrew.AgentRecords.AgentsIndex
