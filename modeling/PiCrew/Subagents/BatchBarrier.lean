/-
**The barrier that holds back the notice of a batch.**

`runtime/scheduling/batch-barrier.ts` (`BatchBarrier`) and `extension/registration/subagent-manager-setup.ts`
(`onTerminalStatus`, `runWhenLeaderIdle`). Subagents that are spawned under one batch id are announced
together: the completion callback marks each of them, and the one that makes the batch complete emits the
notice. While the turn of the leader is active the callback is deferred, and a timer tries again.

* `Session.step` — the tools and the timers of one session.

Left out: what the notices say, and completions without a batch id, which another part coalesces. A
record's `resultConsumed` stands for the copy in memory and the one on disk, which are set together.
-/

import PiCrew.Subagents.Manager

namespace PiCrew.Subagents

open PiCrew.State

structure BatchMember where
  id : Nat
  status : SubagentStatus
  deriving DecidableEq, Repr

structure Batch where
  members : List BatchMember := []
  terminal : List BatchMember := []
  notified : Bool := false
  deriving DecidableEq, Repr

/-- The batches, and the batches whose notice was emitted, the oldest first. -/
structure BatchBarrier where
  batches : String → Option Batch := fun _ => none
  notifiedTombstones : List String := []

structure BatchSnapshot where
  terminal : List BatchMember
  allDone : Bool
  notified : Bool
  deriving DecidableEq, Repr

def tombstoneCap : Nat := 256

def hasMember (entries : List BatchMember) (id : Nat) : Bool := entries.any (·.id == id)

/-- `Map.set` on a map of members. -/
def setMember (entries : List BatchMember) (member : BatchMember) : List BatchMember :=
  if hasMember entries member.id then
    entries.map fun entry => if entry.id = member.id then member else entry
  else entries ++ [member]

/-- **Every registered member is terminal.** -/
def Batch.allDone (batch : Batch) : Bool :=
  !batch.members.isEmpty && batch.members.all fun member => hasMember batch.terminal member.id

def Batch.ensure (batch : Batch) (member : BatchMember) : Batch :=
  if hasMember batch.members member.id then batch
  else { batch with members := batch.members ++ [member] }

/-- Put in the status of a member that is terminal. -/
def Batch.mark (batch : Batch) (member : BatchMember) : Batch :=
  if member.status.ended then
    { batch with
      members := setMember batch.members member, terminal := setMember batch.terminal member }
  else batch

namespace BatchBarrier

variable (barrier : BatchBarrier) (batchId : String)

def set (batch : Batch) : BatchBarrier :=
  { barrier with batches := Function.update barrier.batches batchId (some batch) }

/-- **Register a member** when it is spawned. -/
def register (agentId : Nat) : BatchBarrier :=
  if batchId ∈ barrier.notifiedTombstones then barrier
  else barrier.set batchId (((barrier.batches batchId).getD {}).ensure { id := agentId, status := .running })

/-- **Mark a member**, and see whether the batch is complete. -/
def markTerminal (member : BatchMember) : BatchSnapshot × BatchBarrier :=
  if batchId ∈ barrier.notifiedTombstones then
    ({ terminal := [member], allDone := true, notified := true }, barrier)
  else
    let batch := (((barrier.batches batchId).getD {}).ensure member).mark member
    ({ terminal := batch.terminal, allDone := batch.allDone, notified := batch.notified },
      barrier.set batchId batch)

/-- **The notice was emitted**: drop the batch, and remember it, the oldest not for ever. -/
def markNotified : BatchBarrier :=
  let tombstones := if batchId ∈ barrier.notifiedTombstones then barrier.notifiedTombstones
    else barrier.notifiedTombstones ++ [batchId]
  { batches := Function.update barrier.batches batchId none
    notifiedTombstones := if tombstoneCap < tombstones.length then tombstones.tail else tombstones }

end BatchBarrier

structure SessionContext where
  cleanedUp : Bool := false
  sessionId : Option String := none
  sessionGeneration : Nat := 0
  deriving DecidableEq, Repr

def SessionContext.isOwnerSessionCurrent (context : SessionContext) (generation : Option Nat)
    (owner : Option String) : Bool :=
  !context.cleanedUp && (owner.isNone || owner == context.sessionId) &&
    (generation.isNone || generation == some context.sessionGeneration)

/-- A callback that waits for the leader to be idle, with what it has closed over. -/
structure Deferral where
  agentId : Nat
  ownerGeneration : Option Nat
  status : SubagentStatus
  batchId : String
  deriving DecidableEq, Repr

/-- What an attempt to run a deferred callback finds. -/
structure Gate where
  leaderTurnActive : Bool
  capExpired : Bool := false
  deriving DecidableEq, Repr

structure Announcement where
  batchId : String
  members : List BatchMember
  deriving DecidableEq, Repr

/-- **A session**: its manager and barrier, the deferred callbacks, and the notices it has emitted. -/
structure Session where
  context : SessionContext
  manager : SubagentManager := {}
  barrier : BatchBarrier := {}
  deferrals : List Deferral := []
  announcements : List Announcement := []

namespace Session

variable (session : Session)

/-- What `getRecord` finds of a record, where it was not evicted. -/
def getRecord (id : Nat) : Option SpawnOptions :=
  if id ∈ session.manager.records then some (session.manager.heap id).options else none

/-- **The deferred callback**: mark the member, unless its result was read, and announce the batch. -/
def announce (deferral : Deferral) : Session :=
  let record := session.manager.heap deferral.agentId
  let fresh := session.getRecord deferral.agentId
  if session.context.cleanedUp then session
  else if record.resultConsumed then session
  else if !session.context.isOwnerSessionCurrent
      ((fresh.bind (·.ownerSessionGeneration)) <|> deferral.ownerGeneration) (fresh.bind (·.ownerSessionId))
  then session
  else
    let marked := session.barrier.markTerminal deferral.batchId
      { id := deferral.agentId, status := deferral.status }
    if marked.1.allDone && !marked.1.notified then
      { session with
        barrier := marked.2.markNotified deferral.batchId
        announcements := session.announcements ++
          [{ batchId := deferral.batchId, members := marked.1.terminal }] }
    else { session with barrier := marked.2 }

/-- **An attempt of `runWhenLeaderIdle`**: run the callback, or try again later. -/
def attempt (deferral : Deferral) (gate : Gate) : Session :=
  if session.context.cleanedUp then session
  else if !gate.leaderTurnActive || gate.capExpired then session.announce deferral
  else { session with deferrals := session.deferrals ++ [deferral] }

/-- **The completion callback.** A stopped record is not among those it goes on with. -/
def onTerminalStatus (leaderTurnActive : Bool) (session : Session) (completion : Completion) : Session :=
  let options := (session.manager.heap completion.id).options
  if !options.background then session
  else if !session.context.isOwnerSessionCurrent options.ownerSessionGeneration options.ownerSessionId then
    session
  else if completion.status ∉
      [SubagentStatus.completed, .failed, .cancelled, .blocked, .error] then session
  else
    match options.batchId.filter (· ≠ "") with
    | none => session
    | some batchId =>
      session.attempt
        { agentId := completion.id, ownerGeneration := options.ownerSessionGeneration
          status := completion.status, batchId := batchId }
        { leaderTurnActive := leaderTurnActive }

/-- An event of the manager, whose callback is `onTerminalStatus`. -/
def manage (event : Event) (leaderTurnActive : Bool) : Session :=
  let manager := session.manager.step event
  (manager.completions.drop session.manager.completions.length).foldl (onTerminalStatus leaderTurnActive)
    { session with manager := manager }

/-- **The tool that spawns a subagent**, and registers it with its batch. -/
def spawn (background : Bool) (batchId : Option String) (signal : Option Nat) : Session :=
  let options : SpawnOptions :=
    { background := background, batchId := batchId
      ownerSessionGeneration := some session.context.sessionGeneration
      ownerSessionId := session.context.sessionId }
  let id := session.manager.counter
  let spawned := { session with
    manager := session.manager.spawn options (if background then none else signal) }
  match batchId.filter (· ≠ "") with
  | some batchId =>
    if background then { spawned with barrier := spawned.barrier.register batchId id } else spawned
  | none => spawned

/-- What a read finds in the manifest of the run, where it has ended or is blocked. -/
def refreshed (record : SubagentRecord) (manifest : Option TeamRunStatus) : SubagentStatus :=
  if record.hasRun then
    match manifest with
    | some .completed => .completed
    | some .failed => .failed
    | some .cancelled => .cancelled
    | some .blocked => .blocked
    | some .queued | some .planning | some .running | none => record.status
  else record.status

/-- **A read of a result**: it takes the status of the manifest, and consumes a result that is there. -/
def readResult (id : Nat) (manifest : Option TeamRunStatus) : Session :=
  if id < session.manager.counter then
    { session with
      manager := session.manager.update id fun record =>
        { record with
          status := refreshed record manifest
          resultConsumed := record.resultConsumed || (refreshed record manifest).ended } }
  else session

/-- **A read that has waited for the result**, and has it, or gave up. -/
def readAfterWait (id : Nat) (gaveUp : Bool) : Session :=
  if id < session.manager.counter then
    { session with
      manager := session.manager.update id fun record =>
        { record with
          resultConsumed :=
            if record.status = .blocked then false
            else record.resultConsumed || record.status.ended || gaveUp } }
  else session

end Session

inductive SessionEvent where
  | spawned (background : Bool) (batchId : Option String) (signal : Option Nat)
  | aborted (id : Nat) (reason : Option String)
  | abortedAll (reason : Option String)
  | signalAborted (signal : Nat)
  | settled (id : Nat) (outcome : Outcome) (around : Surroundings) (leaderTurnActive : Bool)
  | polled (id : Nat) (around : Surroundings) (leaderTurnActive : Bool)
  | blockedPolled (id : Nat) (around : Surroundings) (leaderTurnActive : Bool)
  | retried (deferral : Deferral) (gate : Gate)
  | resultRead (id : Nat) (manifest : Option TeamRunStatus)
  | waitedRead (id : Nat) (gaveUp : Bool)
  deriving DecidableEq, Repr

def Surroundings.told (around : Surroundings) : Surroundings :=
  { around with onBlocked := {}, onEnd := {} }

namespace Session

def step (session : Session) : SessionEvent → Session
  | .spawned background batchId signal => session.spawn background batchId signal
  | .aborted id reason => session.manage (.called (.abort id reason)) false
  | .abortedAll reason => session.manage (.called (.abortAll reason)) false
  | .signalAborted signal => session.manage (.signalAborted signal) false
  | .settled id outcome around active => session.manage (.settled id outcome around.told) active
  | .polled id around active => session.manage (.polled id around.told) active
  | .blockedPolled id around active => session.manage (.blockedPolled id around.told) active
  | .retried deferral gate =>
    if deferral ∈ session.deferrals then
      { session with deferrals := session.deferrals.erase deferral }.attempt deferral gate
    else session
  | .resultRead id manifest => session.readResult id manifest
  | .waitedRead id gaveUp => session.readAfterWait id gaveUp

def announced (session : Session) (batchId : String) : Nat :=
  session.announcements.countP (·.batchId == batchId)

end Session

end PiCrew.Subagents
