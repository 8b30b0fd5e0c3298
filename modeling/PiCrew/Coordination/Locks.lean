/-
**The lock file.**

`state/coordination/locks.ts`. The holder of a lock is the process that created its file, wrote its
token into it and found that token there again. A contender that finds a file reads it once; when the
holder is dead or over its time, it reads the token again, and removes the file if it is still the same.

* `call_safe` — what a file-system call does, the removal being the one that needs a guard;
* `instance_bound_exclusion` — no two processes are in the critical section in a run in which every
  removal finds the file that was compared;
* `removal_hits_live_lock` — a removal that was decided on an absent file.

A step is a call on the lock file, with the computation up to the next one. Calls that only refuse a symbolic link
are left out, and a process that retries begins again. A process makes one acquisition at a time.
-/

import PiCrew.Library.Runs
import Mathlib.Data.Fintype.Basic
import Mathlib.Logic.Function.Basic

set_option linter.unusedSectionVars false

namespace PiCrew.Coordination

section

structure LockContent (π : Type) where
  pid : π
  createdAt : Nat
  token : Nat
  deriving DecidableEq

/-- The file at the path of the lock. It is without content until its creator has written it. -/
structure LockFile (π : Type) where
  inode : Nat
  mtimeMs : Nat
  content : Option (LockContent π) := none

/-- A run lock is released by `releaseOwnLock`, a file lock by `releaseLock`. -/
inductive LockKind where
  | run
  | file

/-- **The call that a process makes next.** -/
inductive Control (π : Type) where
  | idle
  | create
  | write (inode : Nat)
  | verify (own : LockContent π)
  | stat
  | read (mtimeMs : Nat)
  | recheck (corpseToken : Option Nat)
  | remove (comparedToken : Option Nat)
  | critical (own : LockContent π)
  | releaseLock (own : LockContent π)
  | releaseOwnLock (own : LockContent π)
  deriving DecidableEq

structure LockSystem (π : Type) where
  now : Nat := 0
  file : Option (LockFile π) := none
  control : π → Control π := fun _ => .idle
  treatOwnPidAsStealable : π → Bool := fun _ => false
  alive : π → Bool := fun _ => true
  nextToken : Nat := 0
  nextInode : Nat := 0

/-- What happens in the system. `begin` is an attempt to acquire, in the tier given by the flag;
`abandon` is a call that throws, or an attempt past its deadline. -/
inductive Action (π : Type) where
  | begin (process : π) (treatOwnPidAsStealable : Bool)
  | call (process : π)
  | leave (process : π)
  | abandon (process : π)
  | crash (process : π)
  | tick

variable {π : Type}

def LockSystem.content (system : LockSystem π) : Option (LockContent π) :=
  system.file.bind (·.content)

def LockSystem.readLockToken (system : LockSystem π) : Option Nat :=
  system.content.map (·.token)

variable [DecidableEq π]

def LockSystem.goto (system : LockSystem π) (process : π) (next : Control π) : LockSystem π :=
  { system with control := Function.update system.control process next }

def LockSystem.openSync (system : LockSystem π) (process : π) : LockSystem π :=
  match system.file with
  | none =>
    { system with
      file := some { inode := system.nextInode, mtimeMs := system.now }
      nextInode := system.nextInode + 1
      control := Function.update system.control process (.write system.nextInode) }
  | some _ => system.goto process .stat

/-- Write the payload to the file that was created, which may no longer be the one at the path. The
token is a fresh one. -/
def LockSystem.writeSync (system : LockSystem π) (process : π) (inode : Nat) : LockSystem π :=
  let own := { pid := process, createdAt := system.now, token := system.nextToken }
  { system with
    file := system.file.map fun file =>
      if file.inode = inode then { file with mtimeMs := system.now, content := some own } else file
    nextToken := system.nextToken + 1
    control := Function.update system.control process (.verify own) }

/-- Remove the file at the path, whichever it is. -/
def LockSystem.rmSync (system : LockSystem π) (process : π) : LockSystem π :=
  { system with
    file := none
    control := Function.update system.control process .idle }

variable (staleMs : Nat) (kind : LockKind)

/-- The verdict on a file that was read: its holder is over its time or dead, or is this process. -/
def CanSteal (system : LockSystem π) (process : π) (mtimeMs : Nat) :
    Option (LockContent π) → Prop
  | some holder =>
    staleMs + holder.createdAt < system.now ∨ system.alive holder.pid = false ∨
      system.treatOwnPidAsStealable process = true ∧ holder.pid = process
  | none => staleMs + mtimeMs < system.now

instance decidableCanSteal (system : LockSystem π) (process : π) (mtimeMs : Nat)
    (holder : Option (LockContent π)) :
    Decidable (CanSteal staleMs system process mtimeMs holder) := by
  cases holder <;> (dsimp only [CanSteal]; infer_instance)

def LockSystem.call (system : LockSystem π) (process : π) : LockSystem π :=
  match system.control process with
  | .idle | .critical _ => system
  | .create => system.openSync process
  | .write inode => system.writeSync process inode
  | .verify own =>
    system.goto process
      (if system.readLockToken = some own.token then .critical own else .releaseLock own)
  | .stat =>
    system.goto process
      (match system.file with
      | none => .recheck none
      | some file => .read file.mtimeMs)
  | .read mtimeMs =>
    system.goto process
      (match system.file with
      | none => .recheck none
      | some file =>
        if CanSteal staleMs system process mtimeMs file.content then
          .recheck (file.content.map (·.token))
        else .idle)
  | .recheck corpseToken =>
    system.goto process (if system.readLockToken = corpseToken then .remove corpseToken else .idle)
  | .remove _ => system.rmSync process
  | .releaseLock own =>
    let stored := system.readLockToken
    system.goto process (if stored = none ∨ stored = some own.token then .remove stored else .idle)
  | .releaseOwnLock own =>
    system.goto process
      (match system.content with
      | none => .idle
      | some holder =>
        if holder.pid = process ∧ holder.token = own.token then .remove (some own.token)
        else .idle)

def releaseOf (own : LockContent π) : LockKind → Control π
  | .run => .releaseOwnLock own
  | .file => .releaseLock own

def LockSystem.step (system : LockSystem π) : Action π → LockSystem π
  | .begin process flag =>
    if system.control process = .idle ∧ system.alive process = true then
      { system.goto process .create with
        treatOwnPidAsStealable := Function.update system.treatOwnPidAsStealable process flag }
    else system
  | .call process => system.call staleMs process
  | .leave process =>
    match system.control process with
    | .critical own => system.goto process (releaseOf own kind)
    | _ => system
  | .abandon process =>
    match system.control process with
    | .critical _ => system
    | _ => system.goto process .idle
  | .crash process =>
    { system.goto process .idle with alive := Function.update system.alive process false }
  | .tick => { system with now := system.now + 1 }

def Control.holding : Control π → Option (LockContent π)
  | .critical own => some own
  | _ => none

/-- **No two processes are inside the critical section.** -/
def MutualExclusion (system : LockSystem π) : Prop :=
  ∀ first second, (system.control first).holding.isSome = true →
    (system.control second).holding.isSome = true → first = second

def Timely (system : LockSystem π) : Prop :=
  ∀ process, ∀ own ∈ (system.control process).holding, system.now ≤ staleMs + own.createdAt

def Control.removing : Control π → Option (Option Nat)
  | .remove compared => some compared
  | _ => none

/-- **A removal finds what was compared**: a file without content, or one with the token that the
process read. -/
def InstanceBound (system : LockSystem π) : Action π → Prop
  | .call process =>
    ∀ compared ∈ (system.control process).removing,
      ∀ holder ∈ system.content, compared = some holder.token
  | _ => True

instance decidableInstanceBound (system : LockSystem π) (action : Action π) :
    Decidable (InstanceBound system action) := by
  cases action <;> (dsimp only [InstanceBound]; infer_instance)

end

section

variable {π : Type} [Fintype π] [DecidableEq π] (staleMs : Nat) (system : LockSystem π)

instance decidableMutualExclusion : Decidable (MutualExclusion system) :=
  inferInstanceAs (Decidable (∀ _, ∀ _, _ → _ → _))

instance decidableTimely : Decidable (Timely staleMs system) :=
  inferInstanceAs (Decidable (∀ _, ∀ _ ∈ _, _))

end

section

variable {π : Type} {staleMs : Nat} {system : LockSystem π}

def Control.own : Control π → Option (LockContent π)
  | .verify own | .critical own | .releaseLock own | .releaseOwnLock own => some own
  | _ => none

def Control.compared : Control π → Option Nat
  | .recheck token | .remove token => token
  | _ => none

def Removable (staleMs : Nat) (system : LockSystem π) (process : π) (token : Nat) : Prop :=
  token < system.nextToken ∧ ∀ other own, (system.control other).own = some own →
    own.token = token → other = process ∨ staleMs + own.createdAt < system.now

variable (staleMs system) in
/-- **The invariant**: a holder has its own payload at the path, payloads differ in their tokens, a file
that is still to be written has no content, and what a process is about to remove is removable. -/
structure Safe : Prop where
  running : ∀ process, system.control process ≠ .idle → system.alive process = true
  wrote : ∀ process own, (system.control process).own = some own →
    own.pid = process ∧ own.token < system.nextToken
  stored : ∀ holder, system.content = some holder → holder.token < system.nextToken
  distinct : ∀ first second own other, (system.control first).own = some own →
    (system.control second).own = some other → own.token = other.token → first = second
  same : ∀ process own holder, (system.control process).own = some own →
    system.content = some holder → holder.token = own.token → holder = own
  holds : ∀ process own, system.control process = .critical own → system.content = some own
  inodes : ∀ file, system.file = some file → file.inode < system.nextInode
  writes : ∀ process inode, system.control process = .write inode →
    inode < system.nextInode ∧
      ∀ file, system.file = some file → file.inode = inode → file.content = none
  writers : ∀ first second inode, system.control first = .write inode →
    system.control second = .write inode → first = second
  removes : ∀ process token, (system.control process).compared = some token →
    Removable staleMs system process token

theorem start_safe : Safe staleMs ({} : LockSystem π) where
  running _ busy := absurd rfl busy
  wrote _ _ written := nomatch written
  stored _ found := nomatch found
  distinct _ _ _ _ written := nomatch written
  same _ _ _ written := nomatch written
  holds _ _ inside := nomatch inside
  inodes _ found := nomatch found
  writes _ _ writing := nomatch writing
  writers _ _ _ writing := nomatch writing
  removes _ _ compares := nomatch compares

theorem holding_eq {control : Control π} {own : LockContent π} :
    control.holding = some own ↔ control = .critical own := by
  cases control <;> simp [Control.holding]

theorem Safe.exclusion (safe : Safe staleMs system) : MutualExclusion system := by
  intro first second firstHolds secondHolds
  obtain ⟨own, firstHolding⟩ := Option.isSome_iff_exists.mp firstHolds
  obtain ⟨other, secondHolding⟩ := Option.isSome_iff_exists.mp secondHolds
  have firstInside := holding_eq.mp firstHolding
  have secondInside := holding_eq.mp secondHolding
  have same := (safe.holds first own firstInside).symm.trans (safe.holds second other secondInside)
  have firstWrote := safe.wrote first own (by rw [firstInside]; rfl)
  have secondWrote := safe.wrote second other (by rw [secondInside]; rfl)
  rw [← firstWrote.1, ← secondWrote.1, Option.some.inj same]

end

section

variable {π : Type} [DecidableEq π] {staleMs : Nat} {system : LockSystem π} {process : π}

variable (staleMs system process) in
/-- A payload that a process can have written: it is the only one with its token. -/
structure Owned (own : LockContent π) : Prop where
  pid : own.pid = process
  minted : own.token < system.nextToken
  only : ∀ other theirs, (system.control other).own = some theirs →
    theirs.token = own.token → other = process
  stored : ∀ holder, system.content = some holder → holder.token = own.token → holder = own
  compared : ∀ other, (system.control other).compared = some own.token →
    other = process ∨ staleMs + own.createdAt < system.now

variable (system) in
/-- An inode that no process is going to write to yet. -/
structure Unwritten (inode : Nat) : Prop where
  made : inode < system.nextInode
  blank : ∀ file, system.file = some file → file.inode = inode → file.content = none
  only : ∀ other, system.control other ≠ .write inode

theorem goto_control (next : Control π) (other : π) :
    (system.goto process next).control other
      = if other = process then next else system.control other :=
  Function.update_apply _ _ _ _

variable (safe : Safe staleMs system)

include safe

theorem Safe.owned {own : LockContent π}
    (written : (system.control process).own = some own) : Owned staleMs system process own where
  pid := (safe.wrote process own written).1
  minted := (safe.wrote process own written).2
  only other theirs wrote same := safe.distinct other process theirs own wrote written same
  stored holder found := safe.same process own holder written found
  compared other compares :=
    ((safe.removes other own.token compares).2 process own written rfl).imp_left Eq.symm

variable {next : Control π}

/-- **Going on to the next call** is safe when its payload is an own one, and stands at the path when the
process enters, when the file to write has no content, and the token compared may be removed. -/
theorem goto_safe (running : next ≠ .idle → system.alive process = true)
    (owns : ∀ own, next.own = some own → Owned staleMs system process own)
    (enters : ∀ own, next = .critical own → system.content = some own)
    (writes : ∀ inode, next = .write inode → Unwritten system inode)
    (compares : ∀ token, next.compared = some token → Removable staleMs system process token) :
    Safe staleMs (system.goto process next) where
  running other busy := by
    rw [goto_control] at busy
    split_ifs at busy with here
    · exact here ▸ running busy
    · exact safe.running other busy
  wrote other own written := by
    rw [goto_control] at written
    split_ifs at written with here
    · exact ⟨here ▸ (owns own written).pid, (owns own written).minted⟩
    · exact safe.wrote other own written
  stored := safe.stored
  distinct first second own other firstWrote secondWrote same := by
    rw [goto_control] at firstWrote secondWrote
    split_ifs at firstWrote secondWrote with firstHere secondHere secondHere
    · exact firstHere.trans secondHere.symm
    · exact firstHere.trans ((owns own firstWrote).only second other secondWrote same.symm).symm
    · exact ((owns other secondWrote).only first own firstWrote same).trans secondHere.symm
    · exact safe.distinct first second own other firstWrote secondWrote same
  same other own holder written found same := by
    rw [goto_control] at written
    split_ifs at written with here
    · exact (owns own written).stored holder found same
    · exact safe.same other own holder written found same
  holds other own inside := by
    rw [goto_control] at inside
    split_ifs at inside with here
    · exact enters own inside
    · exact safe.holds other own inside
  inodes := safe.inodes
  writes other inode writing := by
    rw [goto_control] at writing
    split_ifs at writing with here
    · exact ⟨(writes inode writing).made, (writes inode writing).blank⟩
    · exact safe.writes other inode writing
  writers first second inode firstWrites secondWrites := by
    rw [goto_control] at firstWrites secondWrites
    split_ifs at firstWrites secondWrites with firstHere secondHere secondHere
    · exact firstHere.trans secondHere.symm
    · exact absurd secondWrites ((writes inode firstWrites).only second)
    · exact absurd firstWrites ((writes inode secondWrites).only first)
    · exact safe.writers first second inode firstWrites secondWrites
  removes other token compared := by
    rw [goto_control] at compared
    have minted : token < system.nextToken := by
      split_ifs at compared with here
      · exact (compares token compared).1
      · exact (safe.removes other token compared).1
    refine ⟨minted, fun another own written same => ?_⟩
    rw [goto_control] at written
    split_ifs at written compared with wrote here here
    · exact Or.inl (wrote.trans here.symm)
    · rw [wrote]
      exact ((owns own written).compared other (same ▸ compared)).imp_left Eq.symm
    · rw [here]
      exact (compares token compared).2 another own written same
    · exact (safe.removes other token compared).2 another own written same

theorem Safe.alive_of_busy {control : Control π}
    (busy : system.control process = control) (active : control ≠ .idle) :
    system.alive process = true :=
  safe.running process (busy ▸ active)

theorem goto_owner_safe {own : LockContent π}
    (alive : system.alive process = true) (owned : Owned staleMs system process own)
    (owns : next.own = some own) (outside : next.holding = none) :
    Safe staleMs (system.goto process next) := by
  cases next with
  | verify payload | releaseLock payload | releaseOwnLock payload =>
    obtain rfl := Option.some.inj owns
    exact goto_safe safe (fun _ => alive) (fun _ same => Option.some.inj same ▸ owned)
      nofun nofun
      nofun
  | critical payload => cases outside
  | _ => cases owns

theorem goto_plain_safe (running : next ≠ .idle → system.alive process = true) (own : next.own = none)
    (compared : next.compared = none) (blank : ∀ inode, next ≠ .write inode) :
    Safe staleMs (system.goto process next) := by
  refine goto_safe safe running (fun other written => ?_) (fun other inside => ?_)
    (fun inode writes => absurd writes (blank inode)) fun token compares => ?_
  · rw [own] at written
    cases written
  · rw [inside] at own
    cases own
  · rw [compared] at compares
    cases compares

theorem goto_idle_safe : Safe staleMs (system.goto process .idle) :=
  goto_plain_safe safe (absurd rfl) rfl rfl nofun

theorem goto_remove_safe {compared : Option Nat}
    (either : next = .recheck compared ∨ next = .remove compared) (alive : system.alive process = true)
    (removable : ∀ token, compared = some token → Removable staleMs system process token) :
    Safe staleMs (system.goto process next) := by
  rcases either with rfl | rfl
  all_goals
    refine goto_safe safe (fun _ => alive) nofun
      nofun nofun removable

end

section

variable {π : Type} [DecidableEq π] {staleMs : Nat} {system : LockSystem π} {process : π}

theorem openSync_safe (safe : Safe staleMs system) (alive : system.alive process = true) :
    Safe staleMs (system.openSync process) := by
  unfold LockSystem.openSync
  split
  case h_2 => exact goto_plain_safe safe (fun _ => alive) rfl rfl nofun
  case h_1 absent =>
    have empty : system.content = none := by rw [LockSystem.content, absent]; rfl
    have created : Safe staleMs
        { system with
          file := some { inode := system.nextInode, mtimeMs := system.now }
          nextInode := system.nextInode + 1 } :=
      { safe with
        stored := nofun
        same := nofun
        holds := fun other own inside => by
          have found := safe.holds other own inside
          rw [empty] at found
          cases found
        inodes := fun file found => by
          rw [← Option.some.inj found]
          exact Nat.lt_succ_self _
        writes := fun other inode writing =>
          ⟨Nat.lt_succ_of_lt (safe.writes other inode writing).1, fun file found _ => by
            rw [← Option.some.inj found]⟩ }
    refine goto_safe created (fun _ => alive) nofun
      nofun (fun inode writing => ?_) nofun
    obtain rfl := Control.write.inj writing
    exact ⟨Nat.lt_succ_self _, fun file found _ => by rw [← Option.some.inj found],
      fun other writes => absurd (safe.writes other _ writes).1 (Nat.lt_irrefl _)⟩

theorem content_written {inode : Nat} {own holder : LockContent π} {file : Option (LockFile π)}
    (found : (file.map fun file =>
      if file.inode = inode then { file with mtimeMs := system.now, content := some own } else file).bind
        (·.content) = some holder) :
    holder = own ∨ file.bind (·.content) = some holder := by
  cases file with
  | none => cases found
  | some file =>
    rw [Option.map_some, Option.bind_some] at found
    split_ifs at found
    · exact Or.inl (Option.some.inj found).symm
    · exact Or.inr found

variable (safe : Safe staleMs system)

include safe

theorem writeSync_safe {inode : Nat}
    (busy : system.control process = .write inode) : Safe staleMs (system.writeSync process inode) := by
  have alive := safe.alive_of_busy busy nofun
  have blank := (safe.writes process inode busy).2
  have idle : Safe staleMs (system.goto process .idle) := goto_idle_safe safe
  let own : LockContent π :=
    { pid := process, createdAt := system.now, token := system.nextToken }
  let filled : LockSystem π :=
    { system.goto process .idle with
      file := system.file.map fun file =>
        if file.inode = inode then { file with mtimeMs := system.now, content := some own } else file
      nextToken := system.nextToken + 1 }
  have holder_cases : ∀ holder, filled.content = some holder →
      holder = own ∨ system.content = some holder := fun _ found => content_written found
  have filledSafe : Safe staleMs filled :=
    { running := idle.running
      wrote := fun other theirs written =>
        (idle.wrote other theirs written).imp_right Nat.lt_succ_of_lt
      stored := fun holder found => by
        rcases holder_cases holder found with rfl | before
        · exact Nat.lt_succ_self _
        · exact Nat.lt_succ_of_lt (safe.stored holder before)
      distinct := idle.distinct
      same := fun other theirs holder written found same => by
        rcases holder_cases holder found with rfl | before
        · have older : theirs.token < system.nextToken := (idle.wrote other theirs written).2
          exact absurd older (same ▸ Nat.lt_irrefl _)
        · exact idle.same other theirs holder written before same
      holds := fun other theirs inside => by
        have found : system.content = some theirs := idle.holds other theirs inside
        obtain ⟨file, present, content⟩ := Option.bind_eq_some_iff.mp found
        have apart : file.inode ≠ inode := by
          intro same
          rw [blank file present same] at content
          cases content
        change (system.file.map _).bind _ = _
        rw [present, Option.map_some, Option.bind_some, if_neg apart]
        exact content
      inodes := fun file found => by
        obtain ⟨old, present, rfl⟩ := Option.map_eq_some_iff.mp found
        have older := safe.inodes old present
        split_ifs <;> exact older
      writes := fun other theirs writing => by
        have apart : other ≠ process := by
          rintro rfl
          change (system.goto other .idle).control other = _ at writing
          rw [goto_control, if_pos rfl] at writing
          cases writing
        have before : system.control other = .write theirs := by
          change (system.goto process .idle).control other = _ at writing
          rwa [goto_control, if_neg apart] at writing
        refine ⟨(safe.writes other theirs before).1, fun file found same => ?_⟩
        obtain ⟨old, present, rfl⟩ := Option.map_eq_some_iff.mp found
        split_ifs at same ⊢ with here
        · have both : inode = theirs := here.symm.trans same
          exact absurd (safe.writers other process theirs before (both ▸ busy)) apart
        · exact (safe.writes other theirs before).2 old present same
      writers := idle.writers
      removes := fun other token compared =>
        (idle.removes other token compared).imp_left Nat.lt_succ_of_lt }
  have owned : Owned staleMs filled process own :=
    { pid := rfl
      minted := Nat.lt_succ_self _
      only := fun other theirs written same => by
        have older : theirs.token < system.nextToken := (idle.wrote other theirs written).2
        exact absurd older (same ▸ Nat.lt_irrefl _)
      stored := fun holder found same => by
        rcases holder_cases holder found with rfl | before
        · rfl
        · exact absurd (safe.stored holder before) (same ▸ Nat.lt_irrefl _)
      compared := fun other compares =>
        absurd (idle.removes other _ compares).1 (Nat.lt_irrefl _) }
  have written : Safe staleMs (filled.goto process (.verify own)) :=
    goto_owner_safe filledSafe alive owned rfl rfl
  have same : filled.goto process (.verify own) = system.writeSync process inode := by
    simp only [LockSystem.goto, LockSystem.writeSync, filled, own, Function.update_idem]
  exact same ▸ written

theorem rmSync_safe (timely : Timely staleMs system)
    {compared : Option Nat} (busy : system.control process = .remove compared)
    (bound : ∀ holder, system.content = some holder → compared = some holder.token) :
    Safe staleMs (system.rmSync process) := by
  have removed : Safe staleMs { system with file := none } :=
    { safe with
      stored := nofun
      same := nofun
      inodes := nofun
      writes := fun other inode writing =>
        ⟨(safe.writes other inode writing).1, nofun⟩
      holds := fun other own inside => by
        exfalso
        have found := safe.holds other own inside
        have token : (system.control process).compared = some own.token := by
          rw [busy]
          exact bound own found
        have written : (system.control other).own = some own := by rw [inside]; rfl
        rcases (safe.removes process own.token token).2 other own written rfl with rfl | late
        · rw [busy] at inside
          cases inside
        · exact absurd (timely other own (holding_eq.mpr inside)) (Nat.not_le_of_lt late) }
  exact goto_idle_safe removed

theorem removable_of_canSteal {mtimeMs : Nat} {holder : LockContent π}
    (found : system.content = some holder)
    (canSteal : CanSteal staleMs system process mtimeMs (some holder)) :
    Removable staleMs system process holder.token := by
  refine ⟨safe.stored holder found, fun other own written same => ?_⟩
  have whole : holder = own := safe.same other own holder written found same.symm
  subst whole
  rcases canSteal with late | dead | ⟨-, mine⟩
  · exact Or.inr late
  · have busy : system.control other ≠ .idle := by
      intro idle
      rw [idle] at written
      cases written
    rw [(safe.wrote other holder written).1, safe.running other busy] at dead
    cases dead
  · exact Or.inl ((safe.wrote other holder written).1.symm.trans mine)

theorem removable_own {own : LockContent π} (written : (system.control process).own = some own) :
    Removable staleMs system process own.token :=
  ⟨(safe.wrote process own written).2, fun other theirs wrote same =>
    Or.inl (safe.distinct other process theirs own wrote written same)⟩

/-- **A call keeps the invariant**, if a removal finds what was compared. -/
theorem call_safe (timely : Timely staleMs system)
    (bound : InstanceBound system (.call process)) : Safe staleMs (system.call staleMs process) := by
  unfold LockSystem.call
  split
  case h_1 => exact safe
  case h_2 => exact safe
  case h_3 busy => exact openSync_safe safe (safe.alive_of_busy busy nofun)
  case h_4 inode busy => exact writeSync_safe safe busy
  case h_5 own busy =>
    have alive := safe.alive_of_busy busy nofun
    have owned : Owned staleMs system process own := safe.owned (by rw [busy]; rfl)
    split_ifs with mine
    · obtain ⟨holder, found, same⟩ := Option.map_eq_some_iff.mp mine
      refine goto_safe safe (fun _ => alive) (fun _ same => Option.some.inj same ▸ owned)
        (fun _ inside => ?_) nofun nofun
      rw [← Control.critical.inj inside, ← owned.stored holder found same]
      exact found
    · exact goto_owner_safe safe alive owned rfl rfl
  case h_6 busy =>
    have alive := safe.alive_of_busy busy nofun
    split
    · exact goto_plain_safe safe (fun _ => alive) rfl rfl nofun
    · exact goto_plain_safe safe (fun _ => alive) rfl rfl nofun
  case h_7 mtimeMs busy =>
    have alive := safe.alive_of_busy busy nofun
    split
    case h_1 =>
      exact goto_plain_safe safe (fun _ => alive) rfl rfl nofun
    case h_2 file present =>
      split_ifs with canSteal
      · refine goto_remove_safe safe (Or.inl rfl) alive fun token compared => ?_
        obtain ⟨holder, content, rfl⟩ := Option.map_eq_some_iff.mp compared
        rw [content] at canSteal
        have found : system.content = some holder := by rw [LockSystem.content, present]; exact content
        exact removable_of_canSteal safe found canSteal
      · exact goto_idle_safe safe
  case h_8 corpseToken busy =>
    split_ifs
    · refine goto_remove_safe safe (Or.inr rfl)
        (safe.alive_of_busy busy nofun) fun token compared => ?_
      exact safe.removes process token (by rw [busy]; exact compared)
    · exact goto_idle_safe safe
  case h_9 compared busy => exact rmSync_safe safe timely busy (bound compared (by rw [busy]; rfl))
  case h_10 own busy =>
    dsimp only
    split_ifs with mine
    · refine goto_remove_safe safe (Or.inr rfl)
        (safe.alive_of_busy busy nofun) fun token compared => ?_
      rcases mine with absent | present
      · cases absent.symm.trans compared
      · obtain rfl := Option.some.inj (present.symm.trans compared)
        exact removable_own safe (by rw [busy]; rfl)
    · exact goto_idle_safe safe
  case h_11 own busy =>
    split
    case h_1 => exact goto_idle_safe safe
    case h_2 =>
      split_ifs
      · refine goto_remove_safe safe (Or.inr rfl)
          (safe.alive_of_busy busy nofun) fun token compared => ?_
        obtain rfl := Option.some.inj compared
        exact removable_own safe (by rw [busy]; rfl)
      · exact goto_idle_safe safe

end

section

variable {π : Type} [DecidableEq π] {staleMs : Nat} {kind : LockKind}

theorem step_safe (system : LockSystem π) (action : Action π) (safe : Safe staleMs system)
    (guard : Timely staleMs system ∧ InstanceBound system action) :
    Safe staleMs (system.step staleMs kind action) := by
  cases action with
  | begin process flag =>
    simp only [LockSystem.step]
    split_ifs with free
    · have begun : Safe staleMs (system.goto process .create) :=
        goto_plain_safe safe (fun _ => free.2) rfl rfl nofun
      exact { begun with }
    · exact safe
  | call process => exact call_safe safe guard.1 guard.2
  | leave process =>
    simp only [LockSystem.step]
    split
    case h_1 own inside =>
      have alive := safe.alive_of_busy inside nofun
      have owned : Owned staleMs system process own := safe.owned (by rw [inside]; rfl)
      cases kind with
      | run | file => exact goto_owner_safe safe alive owned rfl rfl
    case h_2 => exact safe
  | abandon process =>
    simp only [LockSystem.step]
    split
    · exact safe
    · exact goto_idle_safe safe
  | crash process =>
    have idle : Safe staleMs (system.goto process .idle) := goto_idle_safe safe
    exact
      { idle with
        running := fun other busy => by
          have apart : other ≠ process := by
            rintro rfl
            exact busy (Function.update_self _ _ _)
          exact (Function.update_of_ne apart _ _).trans (idle.running other busy) }
  | tick =>
    exact
      { safe with
        removes := fun process token compared =>
          (safe.removes process token compared).imp_right fun others other own written same =>
            (others other own written same).imp_right Nat.lt_succ_of_lt }

/-- **Mutual exclusion**, in a run in which every holder is within its time and every removal finds what
was compared. -/
theorem instance_bound_exclusion (staleMs : Nat) (kind : LockKind) (actions : List (Action π))
    (timely : ∀ taken ∈ Runs.transitions (LockSystem.step staleMs kind) {} actions,
      Timely staleMs taken.before)
    (bound : ∀ taken ∈ Runs.transitions (LockSystem.step staleMs kind) {} actions,
      InstanceBound taken.before taken.action) :
    ∀ taken ∈ Runs.transitions (LockSystem.step staleMs kind) {} actions,
      MutualExclusion taken.before ∧ MutualExclusion taken.after := by
  intro taken member
  have safe := Runs.forall_transitions (LockSystem.step staleMs kind)
    (fun system action => step_safe system action) (start_safe (π := π))
    (fun taken member => ⟨timely taken member, bound taken member⟩) taken member
  exact ⟨safe.1.exclusion, safe.2.exclusion⟩

theorem instance_bound_exclusion_takeover :
    let steps := Runs.transitions (LockSystem.step 30000 .file) ({} : LockSystem (Fin 2))
      ([.begin 0 false, .call 0, .call 0, .call 0, .crash 0] ++ [.begin 1 false]
        ++ List.replicate 5 (.call 1) ++ [.begin 1 false] ++ List.replicate 3 (.call 1)
        ++ [.leave 1, .call 1, .call 1])
    (∃ taken ∈ steps, ((taken.after.control 1).holding.isSome = true)) ∧
      ∀ taken ∈ steps, MutualExclusion taken.before ∧ MutualExclusion taken.after := by
  refine ⟨by decide +kernel, ?_⟩
  apply instance_bound_exclusion
  · decide +kernel
  · decide +kernel

/-- **A removal that was decided on an absent file** takes the file of a process that has acquired the
lock in the meantime. All within one millisecond, nobody crashing: process 0 holds the lock while process
1 fails to create it, and releases it before process 1 looks at it. Process 2 creates the file, process 1
finds no token in it, process 2 writes its token and enters, process 1 removes the file and acquires. -/
theorem removal_hits_live_lock :
    let steps := Runs.transitions (LockSystem.step 30000 .file) ({} : LockSystem (Fin 3))
      [.begin 0 false, .call 0, .call 0, .call 0, .begin 1 false, .call 1, .leave 0, .call 0, .call 0,
        .call 1, .begin 2 false, .call 2, .call 1, .call 2, .call 2, .call 1, .begin 1 false, .call 1,
        .call 1, .call 1]
    (∀ taken ∈ steps, Timely 30000 taken.before ∧ Timely 30000 taken.after) ∧
      ¬ ∀ taken ∈ steps, MutualExclusion taken.before ∧ MutualExclusion taken.after := by
  decide +kernel

end

end PiCrew.Coordination
