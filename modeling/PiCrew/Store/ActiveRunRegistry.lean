/-
**The registry of active runs.**

`state/stores/active-run-registry.ts`. The runs that are active stand in one file of the user, of which there
is a binary mirror and a JSON mirror. A registration and an unregistration each read the registry, change it
and write both mirrors, under a lock file that is created exclusively. A lock that is old is removed by
whoever waits for it, and the removal at the end of a call takes away whatever is at the path.

* `Word` — what a call that writes has to say about the runs: which it registers, unregisters or leaves out.

What the manifests of the runs say when a call looks at them is part of the input of a move, and so is the
time. The temporary files, which no other process looks at, and calls that fail for other reasons than those
below are left out. A lock file remembers which process created it, which no step of the code looks at.
-/

import PiCrew.Broker.Tokens
import PiCrew.Library.Processes
import Mathlib.Data.List.Sort

namespace PiCrew.Store.ActiveRunRegistry

open PiCrew.Broker.Tokens (isSafePathId)

section

structure ActiveRunRegistryEntry where
  runId : String
  cwd : String
  stateRoot : String
  manifestPath : String
  updatedAt : String
  deriving DecidableEq, Repr

/-- A value of a mirror, as far as its fields are strings. -/
structure Row where
  runId : Option String := none
  cwd : Option String := none
  stateRoot : Option String := none
  manifestPath : Option String := none
  updatedAt : Option String := none
  deriving DecidableEq, Repr

def ActiveRunRegistryEntry.row (entry : ActiveRunRegistryEntry) : Row where
  runId := some entry.runId
  cwd := some entry.cwd
  stateRoot := some entry.stateRoot
  manifestPath := some entry.manifestPath
  updatedAt := some entry.updatedAt

/-- The functions of the platform on paths, and its comparison of strings. -/
structure Platform where
  basename : String → String
  join : String → String → String
  resolve : String → String
  localeCompare : String → String → Int

/-- `DEFAULT_PATHS.state.manifestFile` -/
def manifestFile : String := "manifest.json"

/-- `DEFAULT_CACHE.manifestMaxEntries` -/
def manifestMaxEntries : Nat := 64

variable (platform : Platform)

def normalizeEntry (row : Row) : Option ActiveRunRegistryEntry :=
  match row.runId, row.cwd, row.stateRoot, row.manifestPath, row.updatedAt with
  | some runId, some cwd, some stateRoot, some manifestPath, some updatedAt =>
    if runId = "" ∨ isSafePathId runId = false ∨ cwd = "" ∨ stateRoot = "" ∨ manifestPath = "" ∨
        updatedAt = "" then none
    else if platform.basename stateRoot ≠ runId then none
    else if platform.resolve manifestPath ≠
        platform.resolve (platform.join stateRoot manifestFile) then none
    else some ⟨runId, cwd, stateRoot, manifestPath, updatedAt⟩
  | _, _, _, _, _ => none

def Accepted (entry : ActiveRunRegistryEntry) : Prop := normalizeEntry platform entry.row = some entry

instance decidableAccepted (entry : ActiveRunRegistryEntry) : Decidable (Accepted platform entry) :=
  inferInstanceAs (Decidable (_ = _))

def firstOfEachRun : List ActiveRunRegistryEntry → List ActiveRunRegistryEntry
  | [] => []
  | entry :: rest => entry :: (firstOfEachRun rest).filter fun other => other.runId ≠ entry.runId

/-- The entries that a reader finds in a mirror: of each run the newest, and of these not too many. -/
def entriesOf (rows : List Row) : List ActiveRunRegistryEntry :=
  (firstOfEachRun ((rows.filterMap (normalizeEntry platform)).insertionSort fun first second =>
    platform.localeCompare second.updatedAt first.updatedAt ≤ 0)).take manifestMaxEntries

end

section

/-- What a signal to the process of a run finds. It is gone if the error is `ESRCH` or `ENOENT`. -/
inductive Signal where
  | delivered
  | gone
  | refused
  deriving DecidableEq, Repr

/-- What a check reads in a manifest: the status, whether the run is asynchronous and what a signal to its
process finds, if it names one, and how old the manifest says that it is. -/
structure ManifestView where
  status : String := ""
  async : Option (Option Signal) := none
  ageMs : Option Nat := none
  deriving DecidableEq, Repr

structure RunView where
  cwdExists : Bool := true
  manifestExists : Bool := true
  symlinkSafe : Bool := true
  manifest : Option ManifestView
  deriving DecidableEq, Repr

inductive Verdict where
  | alive
  | terminal
  | gone
  deriving DecidableEq, Repr

def terminalStatuses : List String := ["completed", "failed", "cancelled", "blocked"]

def activeRunStaleMs : Nat := 30 * 60000

def ManifestView.stale (manifest : ManifestView) : Bool := manifest.ageMs.any (activeRunStaleMs < ·)

def RunView.verdict (view : RunView) : Verdict :=
  if !(view.cwdExists && view.manifestExists && view.symlinkSafe) then .gone
  else
    match view.manifest with
    | none => .gone
    | some manifest =>
      if manifest.status ∈ terminalStatuses then .terminal
      else
        match manifest.async with
        | some (some .refused) | some none => .alive
        | some (some .gone) => .gone
        | some (some .delivered) | none => if manifest.stale then .gone else .alive

variable (platform : Platform) (views : ActiveRunRegistryEntry → RunView)

def aliveOf (entries : List ActiveRunRegistryEntry) : List ActiveRunRegistryEntry :=
  entries.filter fun entry => (views entry).verdict = .alive

def terminalRunIds (entries : List ActiveRunRegistryEntry) : List String :=
  (entries.filter fun entry => (views entry).verdict = .terminal).map (·.runId)

def filterAliveEntries (entries : List ActiveRunRegistryEntry) :
    List ActiveRunRegistryEntry × List String :=
  (aliveOf views entries, terminalRunIds views entries)

/-- The newest entries, if there are too many. -/
def newest (entries : List ActiveRunRegistryEntry) : List ActiveRunRegistryEntry :=
  if manifestMaxEntries < entries.length then
    (entries.insertionSort fun first second =>
      platform.localeCompare first.updatedAt second.updatedAt ≤ 0).drop (entries.length - manifestMaxEntries)
  else entries

/-- `writeEntries`, as far as it chooses what it writes. -/
def entriesToWrite (entries : List ActiveRunRegistryEntry) (skipTerminalRunIds : List String) :
    List ActiveRunRegistryEntry :=
  (newest platform entries).filter fun entry => entry.runId ∉ skipTerminalRunIds

end

section

/-- A mirror: it is missing, or no reader gets a value out of it, or it contains some rows. What is no list
of rows is read as an empty one. -/
inductive Mirror where
  | missing
  | unreadable
  | holds (rows : List Row)
  deriving DecidableEq, Repr

/-- The lock file: the process that created it, and its time of creation as it is written in it, once it is. -/
structure LockFile where
  creator : Option Nat
  createdAt : Option Nat := none
  mtimeMs : Nat
  deriving DecidableEq, Repr

inductive Call where
  | registerActiveRun (entry : ActiveRunRegistryEntry)
  | unregisterActiveRun (runId : String)
  deriving DecidableEq, Repr

def Call.runId : Call → String
  | .registerActiveRun entry => entry.runId
  | .unregisterActiveRun runId => runId

/-- The entries that a call would have in the registry: those that it found of other runs, and its own. -/
def Call.proposed (found : List ActiveRunRegistryEntry) : Call → List ActiveRunRegistryEntry
  | .registerActiveRun entry => entry :: found.filter fun item => item.runId ≠ entry.runId
  | .unregisterActiveRun runId => found.filter fun item => item.runId ≠ runId

/-- **What a call that writes has to say**, with the entries that it found and what it saw of their runs. -/
structure Word where
  slot : Nat
  call : Call
  found : List ActiveRunRegistryEntry
  views : ActiveRunRegistryEntry → RunView

/-- **The runs that a call leaves out**: they are not alive, or there are too many newer ones, or readers
would not accept the entry. -/
def Word.leftOut (platform : Platform) (word : Word) : List String :=
  ((word.call.proposed word.found).filter fun entry =>
    (word.views entry).verdict ≠ .alive ∨
      entry ∉ newest platform (aliveOf word.views (word.call.proposed word.found)) ∨
      ¬ Accepted platform entry).map (·.runId)

/-- The files of the registry, and the words of the calls that have written it, the latest first. -/
structure RegistryFiles where
  lock : Option LockFile := none
  binary : Mirror := .missing
  json : Mirror := .missing
  history : List Word := []

def Mirror.rows? : Mirror → Option (List Row)
  | .holds rows => some rows
  | _ => none

variable (platform : Platform)

def readActiveRunRegistry (files : RegistryFiles) : List ActiveRunRegistryEntry :=
  ((files.binary.rows?.or files.json.rows?).map (entriesOf platform)).getD []

end

section

/-- How a call ends: it wrote the registry; it found it unreadable; the run that it was to register is not
alive; it did not get the lock in time; its run id is not one. -/
inductive Outcome where
  | wrote
  | skipped
  | refused
  | lockedOut
  | ignored
  deriving DecidableEq, Repr

/-- **The file-system call that a process makes next.** `checkEntries` stands for the reads of the manifests
of the entries. -/
inductive Control where
  | openLock
  | writeLock
  | statLock
  | readLock (mtimeMs : Nat)
  | removeLock
  | readBinary
  | readJson
  | existsBinary
  | existsJson
  | checkEntries (found : List ActiveRunRegistryEntry)
  | renameJson (word : Word) (entries : List ActiveRunRegistryEntry)
  | renameBinary (word : Word) (entries : List ActiveRunRegistryEntry)
  | releaseLock (outcome : Outcome)
  | finished (outcome : Outcome)

def Control.inside : Control → Bool
  | .openLock | .statLock | .readLock _ | .removeLock | .finished _ => false
  | _ => true

structure Writer where
  call : Call
  deadline : Nat
  control : Control

structure Beginning where
  call : Call
  now : Nat

structure World where
  now : Nat
  views : ActiveRunRegistryEntry → RunView

/-- `staleMs` of the lock. -/
def staleMs : Nat := 30000

def Writer.start (beginning : Beginning) : Writer where
  call := beginning.call
  deadline := beginning.now + 10000
  control :=
    match beginning.call with
    | .registerActiveRun _ => .openLock
    | .unregisterActiveRun runId => if isSafePathId runId then .openLock else .finished .ignored

variable (platform : Platform)

/-- A process has read the registry: it looks at the manifests, and goes on to write what is left. -/
def Call.afterRead (slot : Nat) (views : ActiveRunRegistryEntry → RunView)
    (found : List ActiveRunRegistryEntry) (call : Call) : Control :=
  let word : Word := ⟨slot, call, found, views⟩
  match call with
  | .registerActiveRun entry =>
    let checked := filterAliveEntries views (found.filter fun item => item.runId ≠ entry.runId)
    if (filterAliveEntries views [entry]).1 = [] then .releaseLock .refused
    else .renameJson word (entriesToWrite platform (entry :: checked.1) checked.2)
  | .unregisterActiveRun runId =>
    let checked := filterAliveEntries views (found.filter fun item => item.runId ≠ runId)
    .renameJson word (entriesToWrite platform checked.1 checked.2)

def Writer.retry (writer : Writer) (now : Nat) : Control :=
  if writer.deadline < now then .finished .lockedOut else .openLock

/-- **The next file-system call of a process**: where it goes on, and the files. -/
def Writer.act (slot : Nat) (writer : Writer) (world : World) (files : RegistryFiles) :
    Control × RegistryFiles :=
  match writer.control with
  | .openLock =>
    match files.lock with
    | none => (.writeLock, { files with lock := some { creator := some slot, mtimeMs := world.now } })
    | some _ => (.statLock, files)
  | .writeLock =>
    (.readBinary, { files with
        lock := files.lock.map fun lock =>
          if lock.creator = some slot then
            { lock with createdAt := some world.now, mtimeMs := world.now }
          else lock })
  | .statLock =>
    match files.lock with
    | none => (writer.retry world.now, files)
    | some lock => (.readLock lock.mtimeMs, files)
  | .readLock mtimeMs =>
    match files.lock with
    | none => (writer.retry world.now, files)
    | some lock =>
      if lock.createdAt.getD mtimeMs + staleMs < world.now then (.removeLock, files)
      else (writer.retry world.now, files)
  | .removeLock => (.openLock, { files with lock := none })
  | .readBinary =>
    match files.binary.rows? with
    | some rows => (.checkEntries (entriesOf platform rows), files)
    | none => (.readJson, files)
  | .readJson =>
    match files.json.rows? with
    | some rows => (.checkEntries (entriesOf platform rows), files)
    | none => (.existsBinary, files)
  | .existsBinary => (if files.binary = .missing then .existsJson else .releaseLock .skipped, files)
  | .existsJson => (if files.json = .missing then .checkEntries [] else .releaseLock .skipped, files)
  | .checkEntries found => (writer.call.afterRead platform slot world.views found, files)
  | .renameJson word entries =>
    -- readers go by the binary mirror, if they can
    (.renameBinary word entries, { files with
        json := .holds (entries.map (·.row))
        history := if files.binary.rows? = none then word :: files.history else files.history })
  | .renameBinary word entries =>
    (.releaseLock .wrote, { files with
        binary := .holds (entries.map (·.row))
        history := if files.binary.rows? = none then files.history else word :: files.history })
  | .releaseLock outcome => (.finished outcome, { files with lock := none })
  | .finished outcome => (.finished outcome, files)

def Writer.move (slot : Nat) (writer : Writer) (world : World) (files : RegistryFiles) :
    Writer × RegistryFiles :=
  ({ writer with control := (writer.act platform slot world files).1 },
    (writer.act platform slot world files).2)

/-- **Processes that register and unregister runs.** -/
abbrev RegistrySystem := Processes RegistryFiles Writer

abbrev RegistryAction := Processes.Action Beginning World

def registryStep : RegistrySystem → RegistryAction → RegistrySystem :=
  Processes.step Writer.start (Writer.move platform)

def RegistryFiles.system (files : RegistryFiles) : RegistrySystem where
  shared := files
  procs := fun _ => none

end

end PiCrew.Store.ActiveRunRegistry
