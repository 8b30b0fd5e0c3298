/-
**The workspace lock.**

`runtime/workspace-lock.ts`. A goal that works alone in a directory holds a lock file there, and refreshes the
heartbeat in it. Another goal steals a file whose heartbeat is too old or whose process id belongs to a later
process: it removes the file and creates its own. A sweep removes what is stale or without readable contents.

* `FindsObserved` — a removal finds the file that it was decided on.

A step is a call on the lock file, with the computation up to the next one. What happens to the temporary file of
a refresh is left out. A file has an identity of its own, and no contents until its creator has written them.
-/

import PiCrew.Library.Runs
import Mathlib.Data.Fintype.Basic
import Mathlib.Logic.Function.Basic

namespace PiCrew.Coordination.WorkspaceLock

/-- A goal and the process it runs in. The start time is there where the platform tells it. -/
structure Goal where
  goalId : String
  pid : Nat
  startTime : Option Nat
  deriving DecidableEq, Repr

/-- **The goals of a workspace**: no two have the same id and the same process. -/
structure Goals (π : Type) where
  goal : π → Goal
  distinct : ∀ first second, (goal first).goalId = (goal second).goalId →
    (goal first).pid = (goal second).pid → first = second

structure WorkspaceLockContents where
  pid : Nat
  startTime : Option Nat
  heartbeat : Nat
  goalId : String
  acquiredAt : Nat
  deriving DecidableEq, Repr

/-- The file at the path of the lock. -/
structure LockFile where
  ident : Nat
  mtimeMs : Nat
  contents : Option WorkspaceLockContents := none
  deriving DecidableEq, Repr

structure Claim where
  ident : Nat
  contents : WorkspaceLockContents
  deriving DecidableEq, Repr

/-- Where the holder of a lock is in a refresh: at work between two of them, or at its next call.
`raw` and `identity` are what it observed first, and `refreshed` is what it puts into place. -/
inductive Refresh where
  | work
  | readBytes
  | statIdentity (raw : Option WorkspaceLockContents)
  | readLock (raw : Option WorkspaceLockContents) (identity : Nat)
  | statAgain (raw : Option WorkspaceLockContents) (identity : Nat) (refreshed : WorkspaceLockContents)
  | readAgain (raw : Option WorkspaceLockContents) (identity : Nat) (refreshed : WorkspaceLockContents)
      (again : Nat)
  | rename (refreshed : WorkspaceLockContents)
  | reread
  deriving DecidableEq, Repr

/-- **The call that a goal makes next.** `observed` is the file that it was decided on. -/
inductive Control where
  | idle
  | look
  | unlinkStale (observed : Nat) (contents : WorkspaceLockContents)
  | create (contents : WorkspaceLockContents)
  | statAge (contents : WorkspaceLockContents)
  | unlinkAged (observed : Nat) (contents : WorkspaceLockContents)
  | createAgain (contents : WorkspaceLockContents)
  | write (claim : Claim)
  | verify (claim : Claim)
  | unlinkUnverified (created : Nat)
  | holding (claim : Claim) (refresh : Refresh)
  | releaseRead
  | releaseUnlink (observed : Nat)
  deriving DecidableEq, Repr

/-- The call that a sweep makes next. A listed file may be gone when it is read. -/
inductive Sweep where
  | idle
  | read
  | unlinkStale (observed : Nat)
  | unlinkUnreadable (observed : Option Nat)
  deriving DecidableEq, Repr

/-- **The lock file, the goals and the sweeps.** `startTimes` are those of the processes that run. -/
structure WorkspaceSystem (π : Type) where
  now : Nat := 0
  file : Option LockFile := none
  control : π → Control := fun _ => .idle
  sweeps : Nat → Sweep := fun _ => .idle
  startTimes : Nat → Option Nat := fun _ => none
  nextIdent : Nat := 0

/-- What happens next. `stop` is of a goal that throws, gives up or crashes where it stands; `process` gives a
process id to a process that starts at that time, or to none, which ends every other process of that id. -/
inductive Action (π : Type) where
  | begin (goal : π)
  | call (goal : π)
  | refresh (goal : π)
  | release (goal : π)
  | stop (goal : π)
  | process (pid : Nat) (startTime : Option Nat)
  | sweep (sweeper : Nat)
  | tick (elapsed : Nat)

def Goal.Owns (goal : Goal) (lock : WorkspaceLockContents) : Prop :=
  lock.goalId = goal.goalId ∧ lock.pid = goal.pid

instance decidableOwns (goal : Goal) (lock : WorkspaceLockContents) : Decidable (goal.Owns lock) :=
  inferInstanceAs (Decidable (_ ∧ _))

def Goal.Wrote (goal : Goal) (lock : WorkspaceLockContents) : Prop :=
  goal.Owns lock ∧ lock.startTime = goal.startTime

instance decidableWrote (goal : Goal) (lock : WorkspaceLockContents) : Decidable (goal.Wrote lock) :=
  inferInstanceAs (Decidable (_ ∧ _))

section

variable {π : Type} [DecidableEq π] (heartbeatStaleMs : Nat) (goals : Goals π)

namespace WorkspaceSystem

variable (system : WorkspaceSystem π)

def readLock : Option WorkspaceLockContents := system.file.bind (·.contents)

/-- `isLockStale`: the process id belongs to a later process, or the heartbeat is too old. -/
def IsLockStale (lock : WorkspaceLockContents) : Prop :=
  (∃ startTime ∈ lock.startTime, ∃ current ∈ system.startTimes lock.pid, current ≠ startTime) ∨
    heartbeatStaleMs + lock.heartbeat < system.now

instance decidableIsLockStale (lock : WorkspaceLockContents) :
    Decidable (system.IsLockStale heartbeatStaleMs lock) :=
  inferInstanceAs (Decidable (_ ∨ _))

/-- What a goal writes to claim the lock now. -/
def contentsOf (goal : Goal) : WorkspaceLockContents where
  pid := goal.pid
  startTime := goal.startTime
  heartbeat := system.now
  goalId := goal.goalId
  acquiredAt := system.now

def goto (goal : π) (next : Control) : WorkspaceSystem π :=
  { system with control := Function.update system.control goal next }

/-- Create the file exclusively; `taken` is where a goal goes on if there is one. -/
def openSync (goal : π) (contents : WorkspaceLockContents) (taken : Control) : WorkspaceSystem π :=
  match system.file with
  | none =>
    { system with
      file := some { ident := system.nextIdent, mtimeMs := system.now }
      nextIdent := system.nextIdent + 1
      control := Function.update system.control goal (.write ⟨system.nextIdent, contents⟩) }
  | some _ => system.goto goal taken

/-- Write into the file that was created, which may no longer be the one at the path. -/
def writeFileSync (goal : π) (claim : Claim) : WorkspaceSystem π := { system with
    file := system.file.map fun file =>
      if file.ident = claim.ident then
        { file with mtimeMs := system.now, contents := some claim.contents }
      else file
    control := Function.update system.control goal (.verify claim) }

def unlinkSync (goal : π) (next : Control) : WorkspaceSystem π :=
  { system with file := none, control := Function.update system.control goal next }

def renameSync (goal : π) (refreshed : WorkspaceLockContents) : WorkspaceSystem π := { system with
    file := some { ident := system.nextIdent, mtimeMs := refreshed.heartbeat, contents := some refreshed }
    nextIdent := system.nextIdent + 1
    control := Function.update system.control goal (.holding ⟨system.nextIdent, refreshed⟩ .reread) }

/-- A goal has read the lock. Where it is live, the goal waits and looks again. -/
def afterLook (goal : Goal) : Control :=
  match system.file with
  | none => .create (system.contentsOf goal)
  | some file =>
    match file.contents with
    | none => .create (system.contentsOf goal)
    | some lock =>
      if system.IsLockStale heartbeatStaleMs lock then .unlinkStale file.ident (system.contentsOf goal)
      else .look

/-- A goal that lost the race to create the file looks at its age. -/
def afterAge (contents : WorkspaceLockContents) : Control :=
  match system.file with
  | none => .look
  | some file =>
    if heartbeatStaleMs + file.mtimeMs < system.now then .unlinkAged file.ident contents else .look

/-- **A call of a refresh** (`refreshWorkspaceLockHeartbeat`), other than the rename. A refresh that finds
something else ends, and the goal with it. -/
def afterRefresh (goal : Goal) (claim : Claim) : Refresh → Control
  | .work => .holding claim .work
  | .readBytes =>
    match system.file with
    | none => .releaseRead
    | some file => .holding claim (.statIdentity file.contents)
  | .statIdentity raw =>
    match system.file with
    | none => .releaseRead
    | some file => .holding claim (.readLock raw file.ident)
  | .readLock raw identity =>
    match system.readLock with
    | none => .releaseRead
    | some current =>
      if goal.Owns current then
        .holding claim (.statAgain raw identity { current with heartbeat := system.now })
      else .releaseRead
  | .statAgain raw identity refreshed =>
    match system.file with
    | none => .releaseRead
    | some file => .holding claim (.readAgain raw identity refreshed file.ident)
  | .readAgain raw identity refreshed again =>
    match system.file with
    | none => .releaseRead
    | some file =>
      if file.contents = raw ∧ again = identity then .holding claim (.rename refreshed) else .releaseRead
  | .rename refreshed => .holding claim (.rename refreshed)
  | .reread =>
    match system.readLock with
    | none => .releaseRead
    | some current => if goal.Owns current then .holding claim .work else .releaseRead

/-- `safeRelease` has read the lock. -/
def afterRelease (goal : Goal) : Control :=
  match system.file with
  | none => .idle
  | some file =>
    match file.contents with
    | none => .idle
    | some lock => if goal.Wrote lock then .releaseUnlink file.ident else .idle

/-- The claim is verified, by reading the lock again. -/
def afterVerify (goal : Goal) (claim : Claim) : Control :=
  match system.readLock with
  | none => .unlinkUnverified claim.ident
  | some lock => if goal.Owns lock then .holding claim .work else .unlinkUnverified claim.ident

def call (goal : π) : WorkspaceSystem π :=
  match system.control goal with
  | .idle => system
  | .look => system.goto goal (system.afterLook heartbeatStaleMs (goals.goal goal))
  | .unlinkStale _ contents | .unlinkAged _ contents => system.unlinkSync goal (.createAgain contents)
  | .create contents => system.openSync goal contents (.statAge contents)
  | .statAge contents => system.goto goal (system.afterAge heartbeatStaleMs contents)
  | .createAgain contents => system.openSync goal contents .look
  | .write claim => system.writeFileSync goal claim
  | .verify claim => system.goto goal (system.afterVerify (goals.goal goal) claim)
  | .unlinkUnverified _ => system.unlinkSync goal .look
  | .holding _ (.rename refreshed) => system.renameSync goal refreshed
  | .holding claim refresh => system.goto goal (system.afterRefresh (goals.goal goal) claim refresh)
  | .releaseRead => system.goto goal (system.afterRelease (goals.goal goal))
  | .releaseUnlink _ => system.unlinkSync goal .idle

def afterSweepRead : Sweep :=
  match system.file with
  | none => .unlinkUnreadable none
  | some file =>
    match file.contents with
    | none => .unlinkUnreadable (some file.ident)
    | some lock => if system.IsLockStale heartbeatStaleMs lock then .unlinkStale file.ident else .idle

/-- **The next call of a sweep.** It begins with the list of files. -/
def sweep (sweeper : Nat) : WorkspaceSystem π :=
  match system.sweeps sweeper with
  | .idle =>
    { system with
      sweeps := Function.update system.sweeps sweeper (if system.file.isSome then .read else .idle) }
  | .read =>
    { system with
      sweeps := Function.update system.sweeps sweeper (system.afterSweepRead heartbeatStaleMs) }
  | .unlinkStale _ | .unlinkUnreadable _ =>
    { system with file := none, sweeps := Function.update system.sweeps sweeper .idle }

/-- **A step.** A goal begins where its process runs; it refreshes and releases a lock that it holds. -/
def step (system : WorkspaceSystem π) : Action π → WorkspaceSystem π
  | .begin goal =>
    if system.control goal = .idle ∧
        system.startTimes (goals.goal goal).pid = (goals.goal goal).startTime then
      system.goto goal .look
    else system
  | .call goal => system.call heartbeatStaleMs goals goal
  | .refresh goal =>
    match system.control goal with
    | .holding claim .work => system.goto goal (.holding claim .readBytes)
    | _ => system
  | .release goal =>
    match system.control goal with
    | .holding _ .work => system.goto goal .releaseRead
    | _ => system
  | .stop goal => system.goto goal .idle
  | .process pid startTime =>
    { system with
      startTimes := Function.update system.startTimes pid startTime
      control := fun goal =>
        if (goals.goal goal).pid = pid ∧ (goals.goal goal).startTime ≠ startTime then .idle
        else system.control goal }
  | .sweep sweeper => system.sweep heartbeatStaleMs sweeper
  | .tick elapsed => { system with now := system.now + elapsed }

end WorkspaceSystem

end

section

def Control.holder : Control → Option Claim
  | .holding claim _ => some claim
  | _ => none

/-- The file that a removal was decided on: the one that was read or looked at, or, where a verification
failed, the one that the goal created. -/
def Control.removes : Control → Option Nat
  | .unlinkStale observed _ | .unlinkAged observed _ | .unlinkUnverified observed | .releaseUnlink observed =>
    some observed
  | _ => none

def Control.writes : Control → Option Nat
  | .write claim => some claim.ident
  | _ => none

/-- The next call is the rename of a refresh, or the removal of a release or of a failed verification. -/
def Control.takesOwn : Control → Bool
  | .unlinkUnverified _ | .releaseUnlink _ | .holding _ (.rename _) => true
  | _ => false

def Sweep.removes : Sweep → Bool
  | .unlinkStale _ | .unlinkUnreadable _ => true
  | _ => false

variable {π : Type} (heartbeatStaleMs : Nat) (goals : Goals π) (system : WorkspaceSystem π)

/-- **At most one goal believes that it holds the lock.** -/
def MutualExclusion : Prop := ∀ first second, (system.control first).holder.isSome = true →
    (system.control second).holder.isSome = true → first = second

def Timely : Prop :=
  ∀ goal, ∀ claim ∈ (system.control goal).holder, system.now ≤ heartbeatStaleMs + claim.contents.heartbeat

/-- **Nobody takes away what is another's**: a rename, a release and a failed verification find no lock of
another goal, and a sweep removes no lock that is being created. -/
def Respects : Action π → Prop
  | .call goal => (system.control goal).takesOwn = true →
      ∀ lock ∈ system.readLock, (goals.goal goal).Wrote lock
  | .sweep sweeper => (system.sweeps sweeper).removes = true →
      ∀ file ∈ system.file, ∀ goal, (system.control goal).writes ≠ some file.ident
  | _ => True

/-- The removal of a sweep finds the file that it was decided on, or none. Where that was a file without
contents, it still has none, and no goal is about to write them. -/
def SweepFinds : Sweep → Prop
  | .idle | .read => True
  | .unlinkStale observed => ∀ file ∈ system.file, file.ident = observed
  | .unlinkUnreadable observed => ∀ file ∈ system.file,
      observed = some file.ident ∧ file.contents = none ∧
        ∀ goal, (system.control goal).writes ≠ some file.ident

/-- **A removal finds the file that it was decided on**, or none. -/
def FindsObserved : Action π → Prop
  | .call goal => ∀ observed ∈ (system.control goal).removes, ∀ file ∈ system.file, file.ident = observed
  | .sweep sweeper => SweepFinds system (system.sweeps sweeper)
  | _ => True

section

variable [Fintype π] [DecidableEq π]

instance decidableMutualExclusion : Decidable (MutualExclusion system) :=
  inferInstanceAs (Decidable (∀ _, ∀ _, _ → _ → _))

instance decidableTimely : Decidable (Timely heartbeatStaleMs system) :=
  inferInstanceAs (Decidable (∀ _, ∀ _ ∈ _, _))

instance decidableSweepFinds (sweep : Sweep) : Decidable (SweepFinds system sweep) := by
  cases sweep <;> (dsimp only [SweepFinds]; infer_instance)

instance decidableFindsObserved (action : Action π) : Decidable (FindsObserved system action) := by
  cases action <;> (dsimp only [FindsObserved]; infer_instance)

end

end

end PiCrew.Coordination.WorkspaceLock
