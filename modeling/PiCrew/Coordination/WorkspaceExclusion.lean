/-
**Who holds the workspace lock.**

A holder has its own file at the path. It loses it only to a removal: a goal or a sweep removes whatever file
is there, some calls after it decided to.

* `call_safe`, `sweep_safe`, `step_safe` — a step keeps the invariant, the removals being what needs a guard;
* `workspace_exclusion` — in a run in which every removal finds what it was decided on, at most one goal
  believes that it holds the lock, and nobody takes away what is another's;
* `stolen_twice` — a stale lock that two goals steal from each other.
-/

import PiCrew.Coordination.WorkspaceLock

set_option linter.unusedSectionVars false

namespace PiCrew.Coordination.WorkspaceLock

open Runs

section

def Control.claim : Control → Option Claim
  | .write claim | .verify claim | .holding claim _ => some claim
  | _ => none

def Control.written : Control → Bool
  | .write _ => false
  | _ => true

/-- What a goal is going to write, or to rename into place. -/
def Control.prepared : Control → Option WorkspaceLockContents
  | .unlinkStale _ contents | .create contents | .statAge contents | .unlinkAged _ contents
  | .createAgain contents => some contents
  | .holding _ (.statAgain _ _ refreshed) | .holding _ (.readAgain _ _ refreshed _)
  | .holding _ (.rename refreshed) => some refreshed
  | _ => none

/-- The file of its own that a goal is about to remove. -/
def Control.gives : Control → Option Nat
  | .unlinkUnverified created => some created
  | .releaseUnlink observed => some observed
  | _ => none

/-- **A claim is backed**: it is the goal's own, and where its file is at the path, it has what was written
there. No other file at the path is of this goal. -/
structure Backed (file : Option LockFile) (nextIdent now : Nat) (goal : Goal) (claim : Claim)
    (written : Bool) : Prop where
  made : claim.ident < nextIdent
  wrote : goal.Wrote claim.contents
  early : claim.contents.heartbeat ≤ now
  stored : ∀ there, file = some there → there.ident = claim.ident →
    there.contents = (if written then some claim.contents else none) ∧ claim.contents.heartbeat ≤ there.mtimeMs
  only : ∀ there lock, file = some there → there.contents = some lock → goal.Wrote lock →
    there.ident = claim.ident

variable {π : Type} (heartbeatStaleMs : Nat) (goals : Goals π) (system : WorkspaceSystem π)

/-- **A file that may be removed**: whoever else claims it has let its heartbeat grow old. -/
def Removable (own : π → Prop) (ident : Nat) : Prop :=
  ident < system.nextIdent ∧ ∀ other claim, (system.control other).claim = some claim →
    claim.ident = ident → own other ∨ heartbeatStaleMs + claim.contents.heartbeat < system.now

/-- A file that a goal may remove as its own: no other goal claims it, and no other goal wrote it. -/
structure Given (goal : π) (ident : Nat) : Prop where
  sole : ∀ other claim, (system.control other).claim = some claim → claim.ident = ident → other = goal
  wrote : ∀ there lock, system.file = some there → there.ident = ident → there.contents = some lock →
    (goals.goal goal).Wrote lock

/-- A file that a sweep may remove as stale: it was written. -/
structure Swept (ident : Nat) : Prop where
  removable : Removable heartbeatStaleMs system (fun _ => False) ident
  filled : ∀ there, system.file = some there → there.ident = ident → there.contents ≠ none

structure Safe : Prop where
  running : ∀ goal, system.control goal ≠ .idle →
    system.startTimes (goals.goal goal).pid = (goals.goal goal).startTime
  idents : ∀ there, system.file = some there → there.ident < system.nextIdent
  stored : ∀ there lock, system.file = some there → there.contents = some lock →
    ∃ goal, (goals.goal goal).Wrote lock
  prepared : ∀ goal contents, (system.control goal).prepared = some contents →
    (goals.goal goal).Wrote contents ∧ contents.heartbeat ≤ system.now
  claims : ∀ goal claim, (system.control goal).claim = some claim →
    Backed system.file system.nextIdent system.now (goals.goal goal) claim (system.control goal).written
  distinct : ∀ first second own other, (system.control first).claim = some own →
    (system.control second).claim = some other → own.ident = other.ident → first = second
  holds : ∀ goal claim, (system.control goal).holder = some claim →
    ∃ there, system.file = some there ∧ there.ident = claim.ident
  removes : ∀ goal ident, (system.control goal).removes = some ident →
    Removable heartbeatStaleMs system (· = goal) ident
  gives : ∀ goal ident, (system.control goal).gives = some ident → Given goals system goal ident
  sweeps : ∀ sweeper ident, system.sweeps sweeper = .unlinkStale ident → Swept heartbeatStaleMs system ident

theorem start_safe : Safe heartbeatStaleMs goals {} where
  running _ busy := absurd rfl busy
  idents _ found := nomatch found
  stored _ _ found := nomatch found
  prepared _ _ prepared := nomatch prepared
  claims _ _ claimed := nomatch claimed
  distinct _ _ _ _ claimed := nomatch claimed
  holds _ _ held := nomatch held
  removes _ _ removes := nomatch removes
  gives _ _ gives := nomatch gives
  sweeps _ _ sweeps := nomatch sweeps

variable {heartbeatStaleMs goals system}

theorem claim_of_holder {control : Control} {claim : Claim} (holds : control.holder = some claim) :
    control.claim = some claim ∧ control.written = true := by
  cases control with
  | holding own refresh => exact ⟨holds, rfl⟩
  | _ => cases holds

theorem removes_of_gives {control : Control} {ident : Nat} (gives : control.gives = some ident) :
    control.removes = some ident := by
  cases control with
  | unlinkUnverified | releaseUnlink => exact gives
  | _ => cases gives

theorem wrote_unique {first second : π} {lock : WorkspaceLockContents} (one : (goals.goal first).Owns lock)
    (other : (goals.goal second).Owns lock) : first = second :=
  goals.distinct first second (one.1.symm.trans other.1) (one.2.symm.trans other.2)

theorem Safe.held (safe : Safe heartbeatStaleMs goals system) {goal : π} {claim : Claim}
    (holds : (system.control goal).holder = some claim) :
    ∃ there, system.file = some there ∧ there.ident = claim.ident ∧ there.contents = some claim.contents := by
  obtain ⟨there, found, same⟩ := safe.holds goal claim holds
  obtain ⟨claimed, written⟩ := claim_of_holder holds
  have stored := ((safe.claims goal claim claimed).stored there found same).1
  rw [written, if_pos rfl] at stored
  exact ⟨there, found, same, stored⟩

theorem Safe.exclusion (safe : Safe heartbeatStaleMs goals system) : MutualExclusion system := by
  intro first second firstHolds secondHolds
  obtain ⟨own, firstHolding⟩ := Option.isSome_iff_exists.mp firstHolds
  obtain ⟨other, secondHolding⟩ := Option.isSome_iff_exists.mp secondHolds
  obtain ⟨there, found, mine⟩ := safe.holds first own firstHolding
  obtain ⟨same, again, its⟩ := safe.holds second other secondHolding
  obtain rfl := Option.some.inj (found.symm.trans again)
  exact safe.distinct first second own other (claim_of_holder firstHolding).1
    (claim_of_holder secondHolding).1 (mine.symm.trans its)

end

section

variable {π : Type} [DecidableEq π] (heartbeatStaleMs : Nat) (goals : Goals π) (system : WorkspaceSystem π)
  (goal : π)

/-- **A goal replaces the file at the path**, by none or by its own, while no other goal holds the lock. -/
structure Replaces (file : Option LockFile) (nextIdent : Nat) : Prop where
  grows : system.nextIdent ≤ nextIdent
  made : ∀ there, file = some there → there.ident < nextIdent
  own : ∀ there, file = some there → there.ident = system.nextIdent ∨
    ∃ claim, (system.control goal).claim = some claim ∧ claim.ident = there.ident
  wrote : ∀ there lock, file = some there → there.contents = some lock → (goals.goal goal).Wrote lock
  blank : ∀ there, file = some there → there.contents = none → there.ident = system.nextIdent
  alone : ∀ other, other ≠ goal → (system.control other).holder = none

/-- **A goal goes on to its next call**, with the file that is then at the path. -/
structure Enters (file : Option LockFile) (nextIdent : Nat) (next : Control) : Prop where
  running : next ≠ .idle → system.startTimes (goals.goal goal).pid = (goals.goal goal).startTime
  prepared : ∀ contents, next.prepared = some contents →
    (goals.goal goal).Wrote contents ∧ contents.heartbeat ≤ system.now
  claims : ∀ claim, next.claim = some claim →
    Backed file nextIdent system.now (goals.goal goal) claim next.written
  known : ∀ claim, next.claim = some claim →
    claim.ident = system.nextIdent ∨ (system.control goal).claim = some claim
  holds : ∀ claim, next.holder = some claim → ∃ there, file = some there ∧ there.ident = claim.ident
  removes : ∀ ident, next.removes = some ident → Removable heartbeatStaleMs system (· = goal) ident
  gives : ∀ ident, next.gives = some ident → Given goals system goal ident ∧ file = system.file

variable {heartbeatStaleMs goals system goal} {file : Option LockFile} {nextIdent : Nat} {next : Control}

theorem Replaces.backed (safe : Safe heartbeatStaleMs goals system)
    (replaces : Replaces goals system goal file nextIdent) {other : π} (apart : other ≠ goal) {claim : Claim}
    (claimed : (system.control other).claim = some claim) :
    Backed file nextIdent system.now (goals.goal other) claim (system.control other).written := by
  have backed := safe.claims other claim claimed
  refine ⟨Nat.lt_of_lt_of_le backed.made replaces.grows, backed.wrote, backed.early, fun there found same => ?_,
    fun there lock found contents mine => ?_⟩
  · rcases replaces.own there found with fresh | ⟨own, its, equal⟩
    · exact absurd backed.made (same ▸ fresh ▸ Nat.lt_irrefl _)
    · exact absurd (safe.distinct other goal claim own claimed its (same.symm.trans equal.symm)) apart
  · exact absurd (wrote_unique mine.1 (replaces.wrote there lock found contents).1) apart

/-- **What a goal does keeps the invariant**, if it goes on with a claim of its own, and removes only what may
be removed. -/
theorem moved_safe (safe : Safe heartbeatStaleMs goals system)
    (changes : (file = system.file ∧ nextIdent = system.nextIdent) ∨ Replaces goals system goal file nextIdent)
    (enters : Enters heartbeatStaleMs goals system goal file nextIdent next) :
    Safe heartbeatStaleMs goals
      { system with
        file := file, nextIdent := nextIdent, control := Function.update system.control goal next } := by
  have grows : system.nextIdent ≤ nextIdent := by
    rcases changes with ⟨-, rfl⟩ | replaces
    · exact Nat.le_refl _
    · exact replaces.grows
  have updated : ∀ other, Function.update system.control goal next other =
      if other = goal then next else system.control other := fun other => Function.update_apply _ _ _ _
  -- what was removable stays so: a claim that this goal goes on with is new, or it was there
  have removable : ∀ (own : π → Prop) ident, Removable heartbeatStaleMs system own ident →
      Removable heartbeatStaleMs { system with
        file := file, nextIdent := nextIdent
        control := Function.update system.control goal next } own ident := by
    refine fun own ident old => ⟨Nat.lt_of_lt_of_le old.1 grows, fun other claim claimed same => ?_⟩
    dsimp only at claimed
    rw [updated] at claimed
    split_ifs at claimed with here
    · rcases enters.known claim claimed with fresh | before
      · exact absurd old.1 (same ▸ fresh ▸ Nat.lt_irrefl _)
      · exact here ▸ old.2 goal claim before same
    · exact old.2 other claim claimed same
  refine ⟨fun other busy => ?_, fun there found => ?_, fun there lock found contents => ?_,
    fun other contents prepares => ?_, fun other claim claimed => ?_,
    fun first second own other firstClaims secondClaims same => ?_, fun other claim holder => ?_,
    fun other ident removing => ?_, fun other ident giving => ?_, fun sweeper ident sweeping => ?_⟩
  · dsimp only at busy
    rw [updated] at busy
    split_ifs at busy with here
    · exact here ▸ enters.running busy
    · exact safe.running other busy
  · rcases changes with ⟨rfl, rfl⟩ | replaces
    · exact safe.idents there found
    · exact replaces.made there found
  · rcases changes with ⟨rfl, rfl⟩ | replaces
    · exact safe.stored there lock found contents
    · exact ⟨goal, replaces.wrote there lock found contents⟩
  · dsimp only at prepares
    rw [updated] at prepares
    split_ifs at prepares with here
    · exact here ▸ enters.prepared contents prepares
    · exact safe.prepared other contents prepares
  · dsimp only at claimed ⊢
    rw [updated] at claimed ⊢
    split_ifs at claimed ⊢ with here
    · exact here ▸ enters.claims claim claimed
    · rcases changes with ⟨rfl, rfl⟩ | replaces
      · exact safe.claims other claim claimed
      · exact replaces.backed safe here claimed
  · dsimp only at firstClaims secondClaims
    rw [updated] at firstClaims secondClaims
    split_ifs at firstClaims secondClaims with one two two
    · exact one.trans two.symm
    · rcases enters.known own firstClaims with fresh | before
      · exact absurd (safe.claims second other secondClaims).made (same ▸ fresh ▸ Nat.lt_irrefl _)
      · exact one.trans (safe.distinct goal second own other before secondClaims same)
    · rcases enters.known other secondClaims with fresh | before
      · exact absurd (safe.claims first own firstClaims).made (same.symm ▸ fresh ▸ Nat.lt_irrefl _)
      · exact (safe.distinct first goal own other firstClaims before same).trans two.symm
    · exact safe.distinct first second own other firstClaims secondClaims same
  · dsimp only at holder
    rw [updated] at holder
    split_ifs at holder with here
    · exact enters.holds claim holder
    · rcases changes with ⟨rfl, rfl⟩ | replaces
      · exact safe.holds other claim holder
      · exact absurd ((replaces.alone other here).symm.trans holder) nofun
  · dsimp only at removing
    rw [updated] at removing
    split_ifs at removing with here
    · exact here ▸ removable _ ident (enters.removes ident removing)
    · exact removable _ ident (safe.removes other ident removing)
  · dsimp only at giving
    rw [updated] at giving
    split_ifs at giving with here
    · subst here
      obtain ⟨given, same⟩ := enters.gives ident giving
      refine ⟨fun another claim claimed equal => ?_, fun there lock found => ?_⟩
      · dsimp only at claimed
        rw [updated] at claimed
        split_ifs at claimed with its
        · exact its
        · exact given.sole another claim claimed equal
      · exact given.wrote there lock (same ▸ found)
    · have given := safe.gives other ident giving
      have made := (safe.removes other ident (removes_of_gives giving)).1
      refine ⟨fun another claim claimed equal => ?_, fun there lock found equal contents => ?_⟩
      · dsimp only at claimed
        rw [updated] at claimed
        split_ifs at claimed with its
        · rcases enters.known claim claimed with fresh | before
          · exact absurd made (equal ▸ fresh ▸ Nat.lt_irrefl _)
          · exact its.trans (given.sole goal claim before equal)
        · exact given.sole another claim claimed equal
      · rcases changes with ⟨rfl, rfl⟩ | replaces
        · exact given.wrote there lock found equal contents
        · rcases replaces.own there found with fresh | ⟨claim, its, same⟩
          · exact absurd made (equal ▸ fresh ▸ Nat.lt_irrefl _)
          · exact absurd (given.sole goal claim its (same.trans equal)).symm here
  · have swept := safe.sweeps sweeper ident sweeping
    refine ⟨removable _ ident swept.removable, fun there found equal blank => ?_⟩
    rcases changes with ⟨rfl, rfl⟩ | replaces
    · exact swept.filled there found equal blank
    · exact absurd swept.removable.1 (equal ▸ replaces.blank there found blank ▸ Nat.lt_irrefl _)

theorem Enters.plain (running : next ≠ .idle →
      system.startTimes (goals.goal goal).pid = (goals.goal goal).startTime)
    (prepared : ∀ contents, next.prepared = some contents →
      (goals.goal goal).Wrote contents ∧ contents.heartbeat ≤ system.now)
    (claim : next.claim = none) (removes : next.removes = none) :
    Enters heartbeatStaleMs goals system goal file nextIdent next where
  running := running
  prepared := prepared
  claims _ claimed := absurd (claim.symm.trans claimed) nofun
  known _ claimed := absurd (claim.symm.trans claimed) nofun
  holds _ holder := absurd (claim.symm.trans (claim_of_holder holder).1) nofun
  removes _ removing := absurd (removes.symm.trans removing) nofun
  gives _ giving := absurd (removes.symm.trans (removes_of_gives giving)) nofun

theorem goto_safe (safe : Safe heartbeatStaleMs goals system)
    (enters : Enters heartbeatStaleMs goals system goal system.file system.nextIdent next) :
    Safe heartbeatStaleMs goals (system.goto goal next) :=
  moved_safe safe (Or.inl ⟨rfl, rfl⟩) enters

theorem Enters.hold (safe : Safe heartbeatStaleMs goals system) {claim : Claim} {refresh : Refresh}
    (holder : (system.control goal).holder = some claim)
    (prepared : ∀ contents, (Control.holding claim refresh).prepared = some contents →
      (goals.goal goal).Wrote contents ∧ contents.heartbeat ≤ system.now) :
    Enters heartbeatStaleMs goals system goal system.file system.nextIdent (.holding claim refresh) := by
  obtain ⟨claimed, written⟩ := claim_of_holder holder
  refine ⟨fun _ => safe.running _ fun idle => ?_, prepared, fun own same => ?_, fun own same => ?_,
    fun own same => ?_, nofun, nofun⟩
  · exact absurd (idle ▸ holder) nofun
  · obtain rfl := Option.some.inj same
    have backed := safe.claims goal claim claimed
    rwa [written] at backed
  · obtain rfl := Option.some.inj same
    exact Or.inr claimed
  · obtain rfl := Option.some.inj same
    exact safe.holds goal claim holder

end

section

variable {π : Type} [DecidableEq π] {heartbeatStaleMs : Nat} {goals : Goals π} {system : WorkspaceSystem π}
  {goal : π} (safe : Safe heartbeatStaleMs goals system)

include safe

theorem openSync_safe (turn : system.control goal ≠ .idle)
    {contents : WorkspaceLockContents} (prepared : (system.control goal).prepared = some contents)
    {taken : Control}
    (enters : Enters heartbeatStaleMs goals system goal system.file system.nextIdent taken) :
    Safe heartbeatStaleMs goals (system.openSync goal contents taken) := by
  rw [WorkspaceSystem.openSync]
  cases found : system.file with
  | some there => exact goto_safe safe enters
  | none =>
    obtain ⟨wrote, early⟩ := safe.prepared goal contents prepared
    refine moved_safe safe (Or.inr ⟨Nat.le_succ _, ?_, ?_, ?_, ?_, fun other _ => ?_⟩)
      ⟨fun _ => safe.running _ turn, nofun, ?_, ?_, nofun, nofun, nofun⟩
    · rintro _ ⟨⟩
      exact Nat.lt_succ_self _
    · rintro _ ⟨⟩
      exact Or.inl rfl
    · rintro _ _ ⟨⟩ ⟨⟩
    · rintro _ ⟨⟩ _
      rfl
    · rw [Option.eq_none_iff_forall_ne_some]
      intro claim holder
      obtain ⟨there, found', -⟩ := safe.holds other claim holder
      exact absurd (found.symm.trans found') nofun
    · rintro _ ⟨⟩
      refine ⟨Nat.lt_succ_self _, wrote, early, ?_, ?_⟩
      · rintro _ ⟨⟩ _
        exact ⟨rfl, early⟩
      · rintro _ _ ⟨⟩ ⟨⟩
    · rintro _ ⟨⟩
      exact Or.inl rfl

variable {claim : Claim} {lock : WorkspaceLockContents} {there : LockFile}

/-- **A goal writes its claim** into the file that it created, if that is still at the path. -/
theorem writeFileSync_safe (turn : system.control goal = .write claim) :
    Safe heartbeatStaleMs goals (system.writeFileSync goal claim) := by
  have claimed : (system.control goal).claim = some claim := turn ▸ rfl
  have backed := safe.claims goal claim claimed
  have running := safe.running goal (by rw [turn]; exact Control.noConfusion)
  have unchanged : ∀ file, file = system.file →
      (∀ there, system.file = some there → there.ident ≠ claim.ident) →
      Enters heartbeatStaleMs goals system goal file system.nextIdent (.verify claim) := by
    rintro _ rfl apart
    refine ⟨fun _ => running, nofun, ?_, ?_, nofun, nofun, nofun⟩
    · rintro _ ⟨⟩
      exact ⟨backed.made, backed.wrote, backed.early,
        fun there found same => absurd same (apart there found), backed.only⟩
    · rintro _ ⟨⟩
      exact Or.inr claimed
  rw [WorkspaceSystem.writeFileSync]
  cases found : system.file with
  | none =>
    exact moved_safe safe (Or.inl ⟨found.symm, rfl⟩)
      (unchanged _ found.symm fun there found' => absurd (found.symm.trans found') nofun)
  | some there =>
    by_cases same : there.ident = claim.ident
    · rw [Option.map_some, if_pos same]
      refine moved_safe safe (Or.inr ⟨Nat.le_refl _, ?_, ?_, ?_, ?_, fun other apart => ?_⟩)
        ⟨fun _ => running, nofun, ?_, ?_, nofun, nofun, nofun⟩
      · rintro _ ⟨⟩
        exact safe.idents there found
      · rintro _ ⟨⟩
        exact Or.inr ⟨claim, claimed, same.symm⟩
      · rintro _ _ ⟨⟩ ⟨⟩
        exact backed.wrote
      · rintro _ ⟨⟩ blank
        cases blank
      · rw [Option.eq_none_iff_forall_ne_some]
        intro own holder
        obtain ⟨its, found', equal⟩ := safe.holds other own holder
        obtain rfl := Option.some.inj (found.symm.trans found')
        exact apart (safe.distinct other goal own claim (claim_of_holder holder).1 claimed
          (equal.symm.trans same))
      · rintro _ ⟨⟩
        refine ⟨backed.made, backed.wrote, backed.early, ?_, ?_⟩
        · rintro _ ⟨⟩ _
          exact ⟨rfl, backed.early⟩
        · rintro _ _ ⟨⟩ _ _
          exact same
      · rintro _ ⟨⟩
        exact Or.inr claimed
    · rw [Option.map_some, if_neg same]
      exact moved_safe safe (Or.inl ⟨found.symm, rfl⟩) (unchanged _ found.symm fun other found' =>
        Option.some.inj (found.symm.trans found') ▸ same)

theorem alone_of_removable (timely : Timely heartbeatStaleMs system)
    {own : π → Prop} {ident : Nat} (removable : Removable heartbeatStaleMs system own ident)
    (finds : ∀ there, system.file = some there → there.ident = ident) {other : π} (apart : ¬ own other) :
    (system.control other).holder = none := by
  rw [Option.eq_none_iff_forall_ne_some]
  intro claim holder
  obtain ⟨there, found, equal⟩ := safe.holds other claim holder
  have same : claim.ident = ident := equal.symm.trans (finds there found)
  rcases removable.2 other claim (claim_of_holder holder).1 same with mine | late
  · exact apart mine
  · exact absurd (timely other claim holder) (Nat.not_le_of_lt late)

theorem unlinkSync_safe (timely : Timely heartbeatStaleMs system)
    {observed : Nat} (removes : (system.control goal).removes = some observed)
    (finds : ∀ there, system.file = some there → there.ident = observed) {next : Control}
    (enters : Enters heartbeatStaleMs goals system goal none system.nextIdent next) :
    Safe heartbeatStaleMs goals (system.unlinkSync goal next) :=
  moved_safe safe (Or.inr ⟨Nat.le_refl _, nofun, nofun, nofun, nofun, fun _ apart =>
    alone_of_removable safe timely (safe.removes goal observed removes) finds apart⟩) enters

theorem renameSync_safe
    {refreshed : WorkspaceLockContents} (turn : system.control goal = .holding claim (.rename refreshed)) :
    Safe heartbeatStaleMs goals (system.renameSync goal refreshed) := by
  have holder : (system.control goal).holder = some claim := turn ▸ rfl
  obtain ⟨wrote, early⟩ := safe.prepared goal refreshed (turn ▸ rfl)
  refine moved_safe safe (Or.inr ⟨Nat.le_succ _, ?_, ?_, ?_, ?_, fun other apart => ?_⟩)
    ⟨fun _ => safe.running _ (by rw [turn]; exact Control.noConfusion), nofun, ?_, ?_, ?_, nofun, nofun⟩
  · rintro _ ⟨⟩
    exact Nat.lt_succ_self _
  · rintro _ ⟨⟩
    exact Or.inl rfl
  · rintro _ _ ⟨⟩ ⟨⟩
    exact wrote
  · rintro _ ⟨⟩ _
    rfl
  · rw [Option.eq_none_iff_forall_ne_some]
    intro own its
    exact apart (safe.exclusion other goal (Option.isSome_of_eq_some its) (Option.isSome_of_eq_some holder))
  · rintro _ ⟨⟩
    refine ⟨Nat.lt_succ_self _, wrote, early, ?_, ?_⟩
    · rintro _ ⟨⟩ _
      exact ⟨rfl, Nat.le_refl _⟩
    · rintro _ _ ⟨⟩ _ _
      rfl
  · rintro _ ⟨⟩
    exact Or.inl rfl
  · rintro _ ⟨⟩
    exact ⟨_, rfl, rfl⟩

theorem contents_of_claim (found : system.file = some there) (contents : there.contents = some lock)
    {other : π} (claimed : (system.control other).claim = some claim)
    (same : claim.ident = there.ident) : lock = claim.contents := by
  have stored := ((safe.claims other claim claimed).stored there found same.symm).1
  rw [contents] at stored
  split_ifs at stored
  exact Option.some.inj stored

theorem removable_of_stale (found : system.file = some there) (contents : there.contents = some lock)
    (stale : system.IsLockStale heartbeatStaleMs lock) (own : π → Prop) :
    Removable heartbeatStaleMs system own there.ident := by
  refine ⟨safe.idents there found, fun other claim claimed same => ?_⟩
  obtain rfl := contents_of_claim safe found contents claimed same
  rcases stale with ⟨startTime, its, current, running, differs⟩ | late
  · have wrote := (safe.claims other claim claimed).wrote
    have runs := safe.running other fun idle => absurd (idle ▸ claimed) nofun
    have known : system.startTimes claim.contents.pid = claim.contents.startTime := by
      rw [wrote.1.2, wrote.2]
      exact runs
    exact absurd (Option.some.inj (running.symm.trans (known.trans its))) differs
  · exact Or.inr late

theorem removable_of_aged
    (found : system.file = some there) (aged : heartbeatStaleMs + there.mtimeMs < system.now) (own : π → Prop) :
    Removable heartbeatStaleMs system own there.ident := by
  refine ⟨safe.idents there found, fun other claim claimed same => Or.inr ?_⟩
  have early := ((safe.claims other claim claimed).stored there found same.symm).2
  omega

theorem given_of_claim (claimed : (system.control goal).claim = some claim) :
    Removable heartbeatStaleMs system (· = goal) claim.ident ∧ Given goals system goal claim.ident := by
  have backed := safe.claims goal claim claimed
  have sole : ∀ other own, (system.control other).claim = some own → own.ident = claim.ident → other = goal :=
    fun other own its same => safe.distinct other goal own claim its claimed same
  refine ⟨⟨backed.made, fun other own its same => Or.inl (sole other own its same)⟩, sole,
    fun there lock found same contents => ?_⟩
  rw [contents_of_claim safe found contents claimed same.symm]
  exact backed.wrote

theorem given_of_wrote (found : system.file = some there) (contents : there.contents = some lock)
    (wrote : (goals.goal goal).Wrote lock) :
    Removable heartbeatStaleMs system (· = goal) there.ident ∧ Given goals system goal there.ident := by
  have sole : ∀ other claim, (system.control other).claim = some claim → claim.ident = there.ident →
      other = goal := by
    intro other claim claimed same
    have its := (safe.claims other claim claimed).wrote
    rw [← contents_of_claim safe found contents claimed same] at its
    exact wrote_unique its.1 wrote.1
  refine ⟨⟨safe.idents there found, fun other claim claimed same => Or.inl (sole other claim claimed same)⟩,
    sole, fun other again found' _ contents' => ?_⟩
  obtain rfl := Option.some.inj (found.symm.trans found')
  exact Option.some.inj (contents.symm.trans contents') ▸ wrote

theorem Safe.wrote_of_owns (read : system.readLock = some lock) (owns : (goals.goal goal).Owns lock) :
    (goals.goal goal).Wrote lock ∧ ∃ there, system.file = some there ∧ there.contents = some lock := by
  obtain ⟨there, found, contents⟩ := Option.bind_eq_some_iff.mp read
  obtain ⟨writer, wrote⟩ := safe.stored there lock found contents
  exact ⟨wrote_unique wrote.1 owns ▸ wrote, there, found, contents⟩

omit safe in
theorem wrote_contentsOf : (goals.goal goal).Wrote (system.contentsOf (goals.goal goal)) ∧
    (system.contentsOf (goals.goal goal)).heartbeat ≤ system.now :=
  ⟨⟨⟨rfl, rfl⟩, rfl⟩, Nat.le_refl _⟩

theorem afterLook_enters (turn : system.control goal ≠ .idle) :
    Enters heartbeatStaleMs goals system goal system.file system.nextIdent
      (system.afterLook heartbeatStaleMs (goals.goal goal)) := by
  have creates : Enters heartbeatStaleMs goals system goal system.file system.nextIdent
      (.create (system.contentsOf (goals.goal goal))) := by
    refine .plain (fun _ => safe.running _ turn) ?_ rfl rfl
    rintro _ ⟨⟩
    exact wrote_contentsOf
  rw [WorkspaceSystem.afterLook]
  split
  · exact creates
  · next there found =>
      split
      · exact creates
      · next lock contents =>
          split_ifs with stale
          · refine ⟨fun _ => safe.running _ turn, ?_, nofun, nofun, nofun, ?_, nofun⟩
            · rintro _ ⟨⟩
              exact wrote_contentsOf
            · rintro _ ⟨⟩
              exact removable_of_stale safe found contents stale _
          · exact .plain (fun _ => safe.running _ turn) nofun rfl rfl

theorem afterAge_enters {contents : WorkspaceLockContents}
    (turn : system.control goal = .statAge contents) :
    Enters heartbeatStaleMs goals system goal system.file system.nextIdent
      (system.afterAge heartbeatStaleMs contents) := by
  have running := safe.running goal (by rw [turn]; exact Control.noConfusion)
  rw [WorkspaceSystem.afterAge]
  split
  · exact .plain (fun _ => running) nofun rfl rfl
  · next there found =>
      split_ifs with aged
      · refine ⟨fun _ => running, ?_, nofun, nofun, nofun, ?_, nofun⟩
        · rintro _ ⟨⟩
          exact safe.prepared goal contents (turn ▸ rfl)
        · rintro _ ⟨⟩
          exact removable_of_aged safe found aged _
      · exact .plain (fun _ => running) nofun rfl rfl

theorem afterVerify_enters (turn : system.control goal = .verify claim) :
    Enters heartbeatStaleMs goals system goal system.file system.nextIdent
      (system.afterVerify (goals.goal goal) claim) := by
  have running := safe.running goal (by rw [turn]; exact Control.noConfusion)
  have claimed : (system.control goal).claim = some claim := turn ▸ rfl
  obtain ⟨removable, given⟩ := given_of_claim safe claimed
  have unverified : Enters heartbeatStaleMs goals system goal system.file system.nextIdent
      (.unlinkUnverified claim.ident) := by
    refine ⟨fun _ => running, nofun, nofun, nofun, nofun, ?_, ?_⟩
    · rintro _ ⟨⟩
      exact removable
    · rintro _ ⟨⟩
      exact ⟨given, rfl⟩
  rw [WorkspaceSystem.afterVerify]
  split
  · exact unverified
  · next lock read =>
      split_ifs with owns
      · have backed := safe.claims goal claim claimed
        rw [turn] at backed
        obtain ⟨wrote, there, found, contents⟩ := safe.wrote_of_owns read owns
        refine ⟨fun _ => running, nofun, ?_, ?_, ?_, nofun, nofun⟩
        · rintro _ ⟨⟩
          exact backed
        · rintro _ ⟨⟩
          exact Or.inr claimed
        · rintro _ ⟨⟩
          exact ⟨there, found, backed.only there lock found contents wrote⟩
      · exact unverified

/-- **A call of a refresh**: the goal goes on with its own lock, or gives it up. -/
theorem afterRefresh_enters {refresh : Refresh} (turn : system.control goal = .holding claim refresh) :
    Enters heartbeatStaleMs goals system goal system.file system.nextIdent
      (system.afterRefresh (goals.goal goal) claim refresh) := by
  have holder : (system.control goal).holder = some claim := turn ▸ rfl
  have lost : Enters heartbeatStaleMs goals system goal system.file system.nextIdent .releaseRead :=
    .plain (fun _ => safe.running _ (by rw [turn]; exact Control.noConfusion)) nofun rfl rfl
  have holds : ∀ next, (∀ contents, (Control.holding claim next).prepared = some contents →
      (system.control goal).prepared = some contents) →
      Enters heartbeatStaleMs goals system goal system.file system.nextIdent (.holding claim next) :=
    fun next kept => .hold safe holder fun contents prepares =>
      safe.prepared goal contents (kept contents prepares)
  cases refresh with
  | work => exact holds _ nofun
  | rename refreshed => exact holds _ fun contents prepares => turn ▸ prepares
  | readBytes | statIdentity raw =>
    rw [WorkspaceSystem.afterRefresh]
    split
    · exact lost
    · exact holds _ nofun
  | readLock raw identity =>
    rw [WorkspaceSystem.afterRefresh]
    split
    · exact lost
    · next current read =>
        split_ifs with owns
        · refine .hold safe holder ?_
          rintro _ ⟨⟩
          exact ⟨⟨owns, (safe.wrote_of_owns read owns).1.2⟩, Nat.le_refl _⟩
        · exact lost
  | statAgain raw identity refreshed =>
    rw [WorkspaceSystem.afterRefresh]
    split
    · exact lost
    · exact holds _ fun contents prepares => turn ▸ prepares
  | readAgain raw identity refreshed again =>
    rw [WorkspaceSystem.afterRefresh]
    split
    · exact lost
    · split_ifs
      · exact holds _ fun contents prepares => turn ▸ prepares
      · exact lost
  | reread =>
    rw [WorkspaceSystem.afterRefresh]
    split
    · exact lost
    · split_ifs
      · exact holds _ nofun
      · exact lost

theorem afterRelease_enters (turn : system.control goal = .releaseRead) :
    Enters heartbeatStaleMs goals system goal system.file system.nextIdent
      (system.afterRelease (goals.goal goal)) := by
  have idle : Enters heartbeatStaleMs goals system goal system.file system.nextIdent .idle :=
    .plain (absurd rfl) nofun rfl rfl
  rw [WorkspaceSystem.afterRelease]
  split
  · exact idle
  · next there found =>
      split
      · exact idle
      · next lock contents =>
          split_ifs with wrote
          · obtain ⟨removable, given⟩ := given_of_wrote safe found contents wrote
            refine ⟨fun _ => safe.running _ (by rw [turn]; exact Control.noConfusion),
              nofun, nofun, nofun, nofun, ?_, ?_⟩
            · rintro _ ⟨⟩
              exact removable
            · rintro _ ⟨⟩
              exact ⟨given, rfl⟩
          · exact idle

/-- **A call keeps the invariant**, if a removal finds what it was decided on. -/
theorem call_safe (timely : Timely heartbeatStaleMs system) (finds : FindsObserved system (.call goal)) :
    Safe heartbeatStaleMs goals (system.call heartbeatStaleMs goals goal) := by
  have running : system.control goal ≠ .idle → _ := fun turn => safe.running _ turn
  have removed : ∀ observed, (system.control goal).removes = some observed → ∀ next : Control,
      next.claim = none → next.removes = none → (∀ contents, next.prepared = some contents →
        (system.control goal).prepared = some contents) →
      Safe heartbeatStaleMs goals (system.unlinkSync goal next) := by
    refine fun observed removes next claim quiet kept => unlinkSync_safe safe timely removes
      (fun there found => finds observed removes there found) (.plain (fun _ => running fun idle => ?_)
        (fun contents prepares => safe.prepared goal contents (kept contents prepares)) claim quiet)
    exact absurd (idle ▸ removes) nofun
  rw [WorkspaceSystem.call]
  cases turn : system.control goal with
  | idle => exact safe
  | look => exact goto_safe safe (afterLook_enters safe (turn ▸ Control.noConfusion))
  | unlinkStale observed contents | unlinkAged observed contents =>
    refine removed observed (turn ▸ rfl) _ rfl rfl ?_
    rw [turn]
    exact fun _ => id
  | create contents =>
    refine openSync_safe safe (turn ▸ Control.noConfusion) (turn ▸ rfl)
      (.plain (fun _ => running (turn ▸ Control.noConfusion)) ?_ rfl rfl)
    exact fun other prepares => safe.prepared goal other (turn ▸ prepares)
  | statAge contents => exact goto_safe safe (afterAge_enters safe turn)
  | createAgain contents =>
    exact openSync_safe safe (turn ▸ Control.noConfusion) (turn ▸ rfl)
      (.plain (fun _ => running (turn ▸ Control.noConfusion)) nofun rfl rfl)
  | write claim => exact writeFileSync_safe safe turn
  | verify claim => exact goto_safe safe (afterVerify_enters safe turn)
  | unlinkUnverified created => exact removed created (turn ▸ rfl) _ rfl rfl nofun
  | holding claim refresh =>
    cases refresh with
    | rename refreshed => exact renameSync_safe safe turn
    | _ => exact goto_safe safe (afterRefresh_enters safe turn)
  | releaseRead => exact goto_safe safe (afterRelease_enters safe turn)
  | releaseUnlink observed => exact removed observed (turn ▸ rfl) _ rfl rfl nofun

end

section

variable {π : Type} [DecidableEq π] {heartbeatStaleMs : Nat} {goals : Goals π} {system : WorkspaceSystem π}

theorem sweepTo_safe (safe : Safe heartbeatStaleMs goals system) (sweeper : Nat) {next : Sweep}
    (swept : ∀ ident, next = .unlinkStale ident → Swept heartbeatStaleMs system ident) :
    Safe heartbeatStaleMs goals { system with sweeps := Function.update system.sweeps sweeper next } :=
  { safe with
    gives := fun goal ident giving =>
      ⟨(safe.gives goal ident giving).sole, (safe.gives goal ident giving).wrote⟩
    sweeps := fun other ident sweeping => by
      dsimp only at sweeping
      rw [Function.update_apply] at sweeping
      split_ifs at sweeping
      · exact ⟨(swept ident sweeping).removable, (swept ident sweeping).filled⟩
      · exact ⟨(safe.sweeps other ident sweeping).removable, (safe.sweeps other ident sweeping).filled⟩ }

theorem removed_safe (safe : Safe heartbeatStaleMs goals system)
    (free : ∀ goal, (system.control goal).holder = none) :
    Safe heartbeatStaleMs goals { system with file := none } :=
  { safe with
    idents := nofun
    stored := nofun
    claims := fun goal _ claimed =>
      let backed := safe.claims goal _ claimed
      ⟨backed.made, backed.wrote, backed.early, nofun, nofun⟩
    holds := fun goal _ holder => absurd ((free goal).symm.trans holder) nofun
    gives := fun goal ident giving => ⟨(safe.gives goal ident giving).sole, nofun⟩
    sweeps := fun sweeper ident sweeping => ⟨(safe.sweeps sweeper ident sweeping).removable, nofun⟩ }

/-- **The next call of a sweep keeps the invariant**, if a removal finds what it was decided on. -/
theorem sweep_safe (safe : Safe heartbeatStaleMs goals system) (timely : Timely heartbeatStaleMs system)
    {sweeper : Nat} (finds : FindsObserved system (.sweep sweeper)) :
    Safe heartbeatStaleMs goals (system.sweep heartbeatStaleMs sweeper) := by
  rw [WorkspaceSystem.sweep]
  cases turn : system.sweeps sweeper with
  | idle =>
    refine sweepTo_safe safe sweeper fun ident same => ?_
    split_ifs at same
  | read =>
    refine sweepTo_safe safe sweeper fun ident same => ?_
    rw [WorkspaceSystem.afterSweepRead] at same
    split at same
    · cases same
    · next there found =>
        split at same
        · cases same
        · next lock contents =>
            split_ifs at same with stale
            obtain rfl := Sweep.unlinkStale.inj same
            refine ⟨removable_of_stale safe found contents stale _, fun other found' _ blank => ?_⟩
            obtain rfl := Option.some.inj (found.symm.trans found')
            exact absurd (contents.symm.trans blank) nofun
  | unlinkStale observed =>
    have finds : ∀ there ∈ system.file, there.ident = observed := by
      have both := finds
      rw [FindsObserved, turn] at both
      exact both
    refine sweepTo_safe (removed_safe safe fun goal => ?_) sweeper nofun
    exact alone_of_removable safe timely (safe.sweeps sweeper observed turn).removable finds not_false
  | unlinkUnreadable observed =>
    have finds : ∀ there ∈ system.file, observed = some there.ident ∧ there.contents = none ∧
        ∀ goal, (system.control goal).writes ≠ some there.ident := by
      have both := finds
      rw [FindsObserved, turn] at both
      exact both
    refine sweepTo_safe (removed_safe safe fun goal => ?_) sweeper nofun
    rw [Option.eq_none_iff_forall_ne_some]
    intro claim holder
    obtain ⟨there, found, -, contents⟩ := safe.held holder
    exact absurd ((finds there found).2.1.symm.trans contents) nofun

end

section

variable {π : Type} [DecidableEq π] {heartbeatStaleMs : Nat} {goals : Goals π}

theorem stopped_safe {system : WorkspaceSystem π} (safe : Safe heartbeatStaleMs goals system)
    (stops : π → Prop) [DecidablePred stops] (startTimes : Nat → Option Nat)
    (running : ∀ goal, ¬ stops goal → system.control goal ≠ .idle →
      startTimes (goals.goal goal).pid = (goals.goal goal).startTime) :
    Safe heartbeatStaleMs goals { system with
      startTimes := startTimes
      control := fun goal => if stops goal then .idle else system.control goal } := by
  have still : ∀ {α : Type} (view : Control → Option α) goal value, view .idle = none →
      view (if stops goal then .idle else system.control goal) = some value →
      view (system.control goal) = some value ∧ ¬ stops goal := by
    intro α view goal value idle seen
    split_ifs at seen with stopped
    · exact absurd (idle.symm.trans seen) nofun
    · exact ⟨seen, stopped⟩
  have removable : ∀ (own : π → Prop) ident, Removable heartbeatStaleMs system own ident →
      Removable heartbeatStaleMs { system with
        startTimes := startTimes
        control := fun goal => if stops goal then .idle else system.control goal } own ident :=
    fun own ident old => ⟨old.1, fun other claim claimed same =>
      old.2 other claim (still Control.claim other claim rfl claimed).1 same⟩
  exact
    { running := fun goal busy => by
        dsimp only at busy
        split_ifs at busy with stopped
        · exact absurd rfl busy
        · exact running goal stopped busy
      idents := safe.idents
      stored := safe.stored
      prepared := fun goal contents prepares =>
        safe.prepared goal contents (still Control.prepared goal contents rfl prepares).1
      claims := fun goal claim claimed => by
        obtain ⟨before, runs⟩ := still Control.claim goal claim rfl claimed
        dsimp only
        rw [if_neg runs]
        exact safe.claims goal claim before
      distinct := fun first second own other firstClaims secondClaims =>
        safe.distinct first second own other (still Control.claim first own rfl firstClaims).1
          (still Control.claim second other rfl secondClaims).1
      holds := fun goal claim holder => safe.holds goal claim (still Control.holder goal claim rfl holder).1
      removes := fun goal ident removing =>
        removable _ ident (safe.removes goal ident (still Control.removes goal ident rfl removing).1)
      gives := fun goal ident giving =>
        let given := safe.gives goal ident (still Control.gives goal ident rfl giving).1
        ⟨fun other claim claimed => given.sole other claim (still Control.claim other claim rfl claimed).1,
          given.wrote⟩
      sweeps := fun sweeper ident sweeping =>
        let swept := safe.sweeps sweeper ident sweeping
        ⟨removable _ ident swept.removable, swept.filled⟩ }

theorem tick_safe {system : WorkspaceSystem π} (safe : Safe heartbeatStaleMs goals system) (elapsed : Nat) :
    Safe heartbeatStaleMs goals { system with now := system.now + elapsed } := by
  have removable : ∀ (own : π → Prop) ident, Removable heartbeatStaleMs system own ident →
      Removable heartbeatStaleMs { system with now := system.now + elapsed } own ident :=
    fun own ident old => ⟨old.1, fun other claim claimed same =>
      (old.2 other claim claimed same).imp_right fun late => Nat.lt_of_lt_of_le late (Nat.le_add_right _ _)⟩
  exact
    { safe with
      prepared := fun goal contents prepares =>
        (safe.prepared goal contents prepares).imp_right fun early => Nat.le_trans early (Nat.le_add_right _ _)
      claims := fun goal claim claimed =>
        let backed := safe.claims goal claim claimed
        { backed with early := Nat.le_trans backed.early (Nat.le_add_right _ _) }
      removes := fun goal ident removing => removable _ ident (safe.removes goal ident removing)
      gives := fun goal ident giving =>
        ⟨(safe.gives goal ident giving).sole, (safe.gives goal ident giving).wrote⟩
      sweeps := fun sweeper ident sweeping =>
        let swept := safe.sweeps sweeper ident sweeping
        ⟨removable _ ident swept.removable, swept.filled⟩ }

/-- **A step keeps the invariant**, if a removal finds what it was decided on. -/
theorem step_safe (system : WorkspaceSystem π) (action : Action π) (safe : Safe heartbeatStaleMs goals system)
    (guard : Timely heartbeatStaleMs system ∧ FindsObserved system action) :
    Safe heartbeatStaleMs goals (system.step heartbeatStaleMs goals action) := by
  cases action with
  | begin goal =>
    rw [WorkspaceSystem.step]
    split_ifs with free
    · exact goto_safe safe (.plain (fun _ => free.2) nofun rfl rfl)
    · exact safe
  | call goal => exact call_safe safe guard.1 guard.2
  | refresh goal =>
    rw [WorkspaceSystem.step]
    split
    · next claim working => exact goto_safe safe (.hold safe (working ▸ rfl) nofun)
    · exact safe
  | release goal =>
    rw [WorkspaceSystem.step]
    split
    · next claim working =>
        exact goto_safe safe (.plain (fun _ => safe.running _ (working ▸ Control.noConfusion)) nofun rfl rfl)
    · exact safe
  | stop goal => exact goto_safe safe (.plain (absurd rfl) nofun rfl rfl)
  | process pid startTime =>
    refine stopped_safe safe
      (fun goal => (goals.goal goal).pid = pid ∧ (goals.goal goal).startTime ≠ startTime) _ fun goal runs busy => ?_
    rw [Function.update_apply]
    split_ifs with same
    · by_contra differs
      exact runs ⟨same, fun equal => differs equal.symm⟩
    · exact safe.running goal busy
  | sweep sweeper => exact sweep_safe safe guard.1 guard.2
  | tick elapsed => exact tick_safe safe elapsed

/-- **Nobody takes away what is another's**, in a step that keeps the invariant. -/
theorem step_respects (system : WorkspaceSystem π) (action : Action π)
    (safe : Safe heartbeatStaleMs goals system) (finds : FindsObserved system action) : Respects goals system action := by
  cases action with
  | call goal =>
    intro takes lock read
    obtain ⟨there, found, contents⟩ := Option.bind_eq_some_iff.mp read
    have gives : ∀ ident, (system.control goal).gives = some ident → (goals.goal goal).Wrote lock :=
      fun ident giving => (safe.gives goal ident giving).wrote there lock found
        (finds ident (removes_of_gives giving) there found) contents
    cases turn : system.control goal with
    | unlinkUnverified created => exact gives created (turn ▸ rfl)
    | releaseUnlink observed => exact gives observed (turn ▸ rfl)
    | holding claim refresh =>
      have holder : (system.control goal).holder = some claim := turn ▸ rfl
      obtain ⟨same, found', -, its⟩ := safe.held holder
      obtain rfl := Option.some.inj (found.symm.trans found')
      obtain rfl := Option.some.inj (contents.symm.trans its)
      exact (safe.claims goal claim (turn ▸ rfl)).wrote
    | _ => rw [turn] at takes; cases takes
  | sweep sweeper =>
    intro removes there found goal writes
    rw [FindsObserved] at finds
    cases turn : system.sweeps sweeper with
    | idle | read => rw [turn] at removes; cases removes
    | unlinkUnreadable observed =>
      rw [turn] at finds
      exact (finds there found).2.2 goal writes
    | unlinkStale observed =>
      rw [turn] at finds
      -- a stale file was written, and one that a goal is about to write was not
      cases busy : system.control goal with
      | write claim =>
        rw [busy] at writes
        have backed := safe.claims goal claim (busy ▸ rfl)
        rw [busy] at backed
        have same : there.ident = claim.ident := (Option.some.inj writes).symm
        exact (safe.sweeps sweeper observed turn).filled there found (finds there found)
          (backed.stored there found same).1
      | _ => rw [busy] at writes; cases writes
  | _ => trivial

/-- **Exclusion.** For all goals and sweeps, and every order of their calls: if every removal finds the file
that it was decided on, and every holder has refreshed within the stale period, then at most one goal at a time
believes that it holds the lock, no refresh, release or failed verification takes a lock of another goal away,
and no sweep removes a lock that is being created. -/
theorem workspace_exclusion (actions : List (Action π))
    (timely : ∀ taken ∈ transitions (WorkspaceSystem.step heartbeatStaleMs goals) {} actions,
      Timely heartbeatStaleMs taken.before)
    (finds : ∀ taken ∈ transitions (WorkspaceSystem.step heartbeatStaleMs goals) {} actions,
      FindsObserved taken.before taken.action) :
    ∀ taken ∈ transitions (WorkspaceSystem.step heartbeatStaleMs goals) {} actions,
      MutualExclusion taken.before ∧ MutualExclusion taken.after ∧
        Respects goals taken.before taken.action := by
  intro taken member
  have safe := forall_transitions (WorkspaceSystem.step heartbeatStaleMs goals)
    (fun system action safe guard => step_safe system action safe guard) (start_safe heartbeatStaleMs goals)
    (fun taken member => ⟨timely taken member, finds taken member⟩) taken member
  exact ⟨safe.1.exclusion, safe.2.exclusion, step_respects _ _ safe.1 (finds taken member)⟩

def apart (count : Nat) : Goals (Fin count) where
  goal index := { goalId := "goal", pid := index.val, startTime := none }
  distinct _ _ _ pid := Fin.ext pid

/-- A goal acquires the lock, refreshes it and releases it, and another acquires it then. -/
def handedOn : List (Action (Fin 2)) :=
  [.begin 0, .call 0, .call 0, .call 0, .call 0, .begin 1, .call 1, .tick 15000, .refresh 0] ++
    List.replicate 7 (.call 0) ++
    [.call 1, .tick 50000, .call 1, .release 0, .call 0, .call 0] ++ List.replicate 4 (.call 1)

theorem handedOn_exclusion :
    ((finish (WorkspaceSystem.step 60000 (apart 2)) {} handedOn).control 1).holder.isSome = true ∧
      ∀ taken ∈ transitions (WorkspaceSystem.step 60000 (apart 2)) {} handedOn,
        MutualExclusion taken.before ∧ MutualExclusion taken.after ∧
          Respects (apart 2) taken.before taken.action :=
  ⟨by decide +kernel, workspace_exclusion handedOn (by decide +kernel) (by decide +kernel)⟩

/-- A goal stops and leaves its lock. Two others find it stale; the first removes it and acquires the lock, and
then the second removes what is there. -/
def stolenByTwo : List (Action (Fin 3)) :=
  [.begin 0, .call 0, .call 0, .call 0, .call 0, .stop 0, .tick 60001,
    .begin 1, .call 1, .begin 2, .call 2] ++ List.replicate 4 (.call 1) ++ List.replicate 4 (.call 2)

/-- **A stale lock that is stolen twice**: both goals believe that they hold it. -/
theorem stolen_twice :
    (∀ taken ∈ transitions (WorkspaceSystem.step 60000 (apart 3)) {} stolenByTwo,
        Timely 60000 taken.before ∧ Timely 60000 taken.after) ∧
      ¬ MutualExclusion (finish (WorkspaceSystem.step 60000 (apart 3)) {} stolenByTwo) := by
  decide +kernel

/-- A sweep removes a file that its creator has not written yet. -/
example :
    let actions : List (Action (Fin 1)) := [.begin 0, .call 0, .call 0, .sweep 0, .sweep 0, .sweep 0]
    let system := finish (WorkspaceSystem.step 60000 (apart 1)) {} actions
    (system.control 0).writes = some 0 ∧ system.file = none := by
  decide +kernel

end

end PiCrew.Coordination.WorkspaceLock
