/-
**The registry keeps the registrations.**

`state/stores/active-run-registry.ts`. A call that writes has a word about some runs: it registers or
unregisters one, and it leaves out those that it does not find alive, those for which there are too many newer
ones, and those whose entries no reader accepts. The registry is to contain the runs about which the latest
word is a registration.

* `move_keeps` — the invariant: a process inside has the lock, what it has read is the registry, and what it
  is to write is the registry after its word;
* `registrations_kept` — in every run in which no process removes the lock of one that is inside as a stale
  one, one process is inside at a time, and the registry contains the runs about which the latest word is a
  registration;
* `registration_lost` — a registration after which another call leaves the run out, which is over; and two
  processes that both remove a stale lock, are inside at once, and one of which loses its registration.
-/

import PiCrew.Store.ActiveRunRegistry

namespace PiCrew.Store.ActiveRunRegistry

section

variable {platform : Platform}

theorem normalizeEntry_row (entry : ActiveRunRegistryEntry) :
    normalizeEntry platform entry.row = if Accepted platform entry then some entry else none := by
  unfold Accepted
  simp only [normalizeEntry, ActiveRunRegistryEntry.row]
  split_ifs with first second third <;> simp_all

theorem filterMap_row (entries : List ActiveRunRegistryEntry) :
    (entries.map (·.row)).filterMap (normalizeEntry platform) = entries.filter (Accepted platform ·) := by
  rw [List.filterMap_map, ← List.filterMap_eq_filter]
  refine List.filterMap_congr fun entry _ => ?_
  rw [Function.comp_apply, normalizeEntry_row]
  simp [Option.guard]

theorem nodup_firstOfEachRun (entries : List ActiveRunRegistryEntry) :
    ((firstOfEachRun entries).map (·.runId)).Nodup := by
  induction entries with
  | nil => exact List.nodup_nil
  | cons first rest ih =>
    rw [firstOfEachRun, List.map_cons, List.nodup_cons]
    refine ⟨fun again => ?_, ih.sublist (List.filter_sublist.map _)⟩
    obtain ⟨other, member, same⟩ := List.mem_map.mp again
    simp [same] at member

theorem firstOfEachRun_of_nodup {entries : List ActiveRunRegistryEntry}
    (apart : (entries.map (·.runId)).Nodup) : firstOfEachRun entries = entries := by
  induction entries with
  | nil => rfl
  | cons first rest ih =>
    rw [List.map_cons, List.nodup_cons] at apart
    rw [firstOfEachRun, ih apart.2, List.filter_eq_self.mpr]
    intro other member
    have different : other.runId ≠ first.runId := fun same =>
      apart.1 (same ▸ List.mem_map_of_mem member)
    exact decide_eq_true different

theorem nodup_entriesOf (rows : List Row) : ((entriesOf platform rows).map (·.runId)).Nodup :=
  (nodup_firstOfEachRun _).sublist ((List.take_sublist _ _).map _)

theorem mem_entriesOf_written {entries : List ActiveRunRegistryEntry}
    (apart : (entries.map (·.runId)).Nodup) (fits : entries.length ≤ manifestMaxEntries)
    {entry : ActiveRunRegistryEntry} :
    entry ∈ entriesOf platform (entries.map (·.row)) ↔ entry ∈ entries ∧ Accepted platform entry := by
  have sorted := List.perm_insertionSort (fun first second : ActiveRunRegistryEntry =>
    platform.localeCompare second.updatedAt first.updatedAt ≤ 0) (entries.filter (Accepted platform ·))
  have distinct := apart.sublist ((List.filter_sublist (p := (Accepted platform ·))).map (·.runId))
  rw [entriesOf, filterMap_row,
    firstOfEachRun_of_nodup ((sorted.map (·.runId)).nodup_iff.mpr distinct), List.take_of_length_le]
  · rw [sorted.mem_iff, List.mem_filter, decide_eq_true_eq]
  · rw [sorted.length_eq]
    exact (List.length_filter_le _ _).trans fits

theorem nodup_readActiveRunRegistry (files : RegistryFiles) :
    ((readActiveRunRegistry platform files).map (·.runId)).Nodup := by
  unfold readActiveRunRegistry
  cases files.binary.rows?.or files.json.rows? with
  | none => exact List.nodup_nil
  | some rows => exact nodup_entriesOf rows

end

section

variable {platform : Platform} {views : ActiveRunRegistryEntry → RunView}

theorem newest_perm_sublist (platform : Platform) (entries : List ActiveRunRegistryEntry) :
    ∃ sorted, sorted.Perm entries ∧ (newest platform entries).Sublist sorted := by
  unfold newest
  split_ifs
  · exact ⟨_, List.perm_insertionSort _ entries, List.drop_sublist _ _⟩
  · exact ⟨entries, .refl _, .refl _⟩

theorem mem_of_mem_newest {entries : List ActiveRunRegistryEntry} {entry : ActiveRunRegistryEntry}
    (member : entry ∈ newest platform entries) : entry ∈ entries := by
  obtain ⟨sorted, same, within⟩ := newest_perm_sublist platform entries
  exact same.mem_iff.mp (within.subset member)

theorem nodup_newest {entries : List ActiveRunRegistryEntry} (apart : (entries.map (·.runId)).Nodup) :
    ((newest platform entries).map (·.runId)).Nodup := by
  obtain ⟨sorted, same, within⟩ := newest_perm_sublist platform entries
  exact ((same.map _).nodup_iff.mpr apart).sublist (within.map _)

theorem length_newest (entries : List ActiveRunRegistryEntry) :
    (newest platform entries).length ≤ manifestMaxEntries := by
  unfold newest
  split_ifs with more
  · rw [List.length_drop, List.length_insertionSort]
    omega
  · omega

theorem entriesToWrite_eq (platform : Platform) (views : ActiveRunRegistryEntry → RunView)
    {proposed existing : List ActiveRunRegistryEntry}
    (apart : (proposed.map (·.runId)).Nodup) (within : existing ⊆ proposed) :
    entriesToWrite platform (aliveOf views proposed) (terminalRunIds views existing) =
      newest platform (aliveOf views proposed) := by
  refine List.filter_eq_self.mpr fun entry member => decide_eq_true fun terminal => ?_
  obtain ⟨other, there, same⟩ := List.mem_map.mp terminal
  have alive := List.mem_filter.mp (mem_of_mem_newest member)
  have ended := List.mem_filter.mp there
  have equal : other = entry := List.inj_on_of_nodup_map apart (within ended.1) alive.1 same
  subst equal
  rw [of_decide_eq_true ended.2] at alive
  exact absurd alive.2 (by decide)

theorem nodup_proposed {found : List ActiveRunRegistryEntry} (apart : (found.map (·.runId)).Nodup)
    (call : Call) : ((call.proposed found).map (·.runId)).Nodup := by
  cases call with
  | registerActiveRun entry =>
    rw [Call.proposed, List.map_cons, List.nodup_cons]
    refine ⟨fun again => ?_, apart.sublist (List.filter_sublist.map _)⟩
    obtain ⟨other, member, same⟩ := List.mem_map.mp again
    simp [same] at member
  | unregisterActiveRun runId => exact apart.sublist (List.filter_sublist.map _)

theorem mem_proposed {found : List ActiveRunRegistryEntry} {call : Call} {runId : String} :
    runId ∈ (call.proposed found).map (·.runId) ↔
      match call with
      | .registerActiveRun entry => entry.runId = runId ∨ runId ∈ found.map (·.runId)
      | .unregisterActiveRun gone => gone ≠ runId ∧ runId ∈ found.map (·.runId) := by
  cases call with
  | registerActiveRun entry =>
    simp only [Call.proposed, List.map_cons, List.mem_cons, List.mem_map, List.mem_filter,
      decide_eq_true_eq]
    constructor
    · rintro (same | ⟨other, ⟨member, -⟩, same⟩)
      · exact .inl same.symm
      · exact .inr ⟨other, member, same⟩
    · rintro (same | ⟨other, member, same⟩)
      · exact .inl same.symm
      · by_cases again : other.runId = entry.runId
        · exact .inl (same.symm.trans again)
        · exact .inr ⟨other, ⟨member, again⟩, same⟩
  | unregisterActiveRun gone =>
    simp only [Call.proposed, List.mem_map, List.mem_filter, decide_eq_true_eq]
    constructor
    · rintro ⟨other, ⟨member, different⟩, rfl⟩
      exact ⟨Ne.symm different, other, member, rfl⟩
    · rintro ⟨different, other, member, rfl⟩
      exact ⟨other, ⟨member, Ne.symm different⟩, rfl⟩

theorem mem_written (word : Word) (apart : (word.found.map (·.runId)).Nodup) {runId : String} :
    runId ∈ (entriesOf platform ((newest platform
        (aliveOf word.views (word.call.proposed word.found))).map (·.row))).map (·.runId) ↔
      runId ∈ (word.call.proposed word.found).map (·.runId) ∧ runId ∉ word.leftOut platform := by
  have proposed := nodup_proposed apart word.call
  have alive : ((aliveOf word.views (word.call.proposed word.found)).map (·.runId)).Nodup :=
    proposed.sublist (List.filter_sublist.map _)
  constructor
  · intro member
    obtain ⟨entry, there, rfl⟩ := List.mem_map.mp member
    obtain ⟨chosen, accepted⟩ := (mem_entriesOf_written (nodup_newest alive) (length_newest _)).mp there
    have lives := List.mem_filter.mp (mem_of_mem_newest chosen)
    refine ⟨List.mem_map_of_mem lives.1, fun out => ?_⟩
    obtain ⟨other, left, same⟩ := List.mem_map.mp out
    obtain ⟨inside, reasons⟩ := List.mem_filter.mp left
    obtain rfl : other = entry := List.inj_on_of_nodup_map proposed inside lives.1 same
    rcases of_decide_eq_true reasons with dead | cut | unread
    · exact dead (of_decide_eq_true lives.2)
    · exact cut chosen
    · exact unread accepted
  · rintro ⟨member, kept⟩
    obtain ⟨entry, inside, rfl⟩ := List.mem_map.mp member
    have stays : ¬ ((word.views entry).verdict ≠ .alive ∨
        entry ∉ newest platform (aliveOf word.views (word.call.proposed word.found)) ∨
        ¬ Accepted platform entry) := fun reasons =>
      kept (List.mem_map_of_mem (List.mem_filter.mpr ⟨inside, decide_eq_true reasons⟩))
    push Not at stays
    exact List.mem_map_of_mem
      ((mem_entriesOf_written (nodup_newest alive) (length_newest _)).mpr ⟨stays.2.1, stays.2.2⟩)

end

section

/-- **What a word tells about a run**: that it is registered, or that it is not; or nothing. -/
def Word.tells (platform : Platform) (word : Word) (runId : String) : Option Bool :=
  if runId ∈ word.leftOut platform then some false
  else if word.call.runId ≠ runId then none
  else
    match word.call with
    | .registerActiveRun _ => some true
    | .unregisterActiveRun _ => some false

/-- **The latest word about a run is a registration.** About a run without a word, the registry has the last
one that there was before. -/
def Registered (platform : Platform) (before : List String) (history : List Word) (runId : String) : Bool :=
  (history.findSome? fun word => word.tells platform runId).getD (decide (runId ∈ before))

def Follows (platform : Platform) (before : List String) (history : List Word)
    (entries : List ActiveRunRegistryEntry) : Prop :=
  ∀ runId, runId ∈ entries.map (·.runId) ↔ Registered platform before history runId = true

theorem registered_cons (platform : Platform) (before : List String) (word : Word) (history : List Word)
    (runId : String) :
    Registered platform before (word :: history) runId =
      (word.tells platform runId).getD (Registered platform before history runId) := by
  unfold Registered
  rw [List.findSome?_cons]
  cases word.tells platform runId with
  | none => rfl
  | some said => rfl

variable {platform : Platform} {views : ActiveRunRegistryEntry → RunView} {before : List String}
  {history : List Word} {found : List ActiveRunRegistryEntry}

theorem follows_written (platform : Platform) (word : Word)
    (follows : Follows platform before history word.found) (apart : (word.found.map (·.runId)).Nodup) :
    Follows platform before (word :: history) (entriesOf platform
      ((newest platform (aliveOf word.views (word.call.proposed word.found))).map (·.row))) := by
  intro runId
  have told := follows runId
  rw [mem_written word apart, mem_proposed, registered_cons, Word.tells]
  by_cases out : runId ∈ word.leftOut platform
  · simp [out]
  · rw [if_neg out]
    cases word.call with
    | registerActiveRun entry =>
      by_cases own : entry.runId = runId
      · simp [Call.runId, own, out]
      · simp only [Call.runId, own, out, ne_eq, not_false_iff, false_or, if_true, and_true,
          Option.getD_none]
        exact told
    | unregisterActiveRun gone =>
      by_cases own : gone = runId
      · simp [Call.runId, own]
      · simp only [Call.runId, own, out, ne_eq, not_false_iff, true_and, if_true, and_true,
          Option.getD_none]
        exact told

theorem afterRead_spec (views : ActiveRunRegistryEntry → RunView)
    (follows : Follows platform before history found) (apart : (found.map (·.runId)).Nodup) (slot : Nat)
    (call : Call) :
    call.afterRead platform slot views found = .releaseLock .refused ∨
      ∃ word entries, call.afterRead platform slot views found = .renameJson word entries ∧
        word.slot = slot ∧ word.call = call ∧
        Follows platform before (word :: history) (entriesOf platform (entries.map (·.row))) := by
  have written := follows_written platform ⟨slot, call, found, views⟩ follows apart
  cases call with
  | registerActiveRun entry =>
    by_cases lives : (views entry).verdict = .alive
    · have all : entry :: aliveOf views (found.filter fun item => item.runId ≠ entry.runId) =
          aliveOf views ((Call.registerActiveRun entry).proposed found) := by
        rw [Call.proposed, aliveOf, aliveOf, List.filter_cons_of_pos (by simpa using lives)]
      have stays : (filterAliveEntries views [entry]).1 ≠ [] := by
        simp [filterAliveEntries, aliveOf, lives]
      refine .inr ⟨_, _, if_neg stays, rfl, rfl, ?_⟩
      simp only [filterAliveEntries]
      rw [all, entriesToWrite_eq platform views (nodup_proposed apart _) (List.subset_cons_self _ _)]
      exact written
    · have none : (filterAliveEntries views [entry]).1 = [] := by
        simp [filterAliveEntries, aliveOf, lives]
      exact .inl (if_pos none)
  | unregisterActiveRun runId =>
    refine .inr ⟨_, _, rfl, rfl, rfl, ?_⟩
    have chosen := entriesToWrite_eq platform views
      (nodup_proposed apart (.unregisterActiveRun runId)) (List.Subset.refl _)
    rw [← chosen] at written
    exact written

end

section

variable (platform : Platform) (before : List String)

def RegistryFiles.creator (files : RegistryFiles) : Option Nat := files.lock.bind (·.creator)

def RegistryFiles.Kept (files : RegistryFiles) : Prop :=
  Follows platform before files.history (readActiveRunRegistry platform files)

def RegistryFiles.HasSaid (files : RegistryFiles) (slot : Nat) (call : Call) : Prop :=
  ∃ word ∈ files.history, word.slot = slot ∧ word.call = call

def Control.Knows (files : RegistryFiles) (slot : Nat) (call : Call) : Control → Prop
  | .readJson => files.binary.rows? = none
  | .existsBinary | .existsJson => files.binary.rows? = none ∧ files.json.rows? = none
  | .checkEntries found => found = readActiveRunRegistry platform files
  | .renameJson word entries =>
    word.slot = slot ∧ word.call = call ∧
      Follows platform before (word :: files.history) (entriesOf platform (entries.map (·.row)))
  | .renameBinary word entries =>
    word.slot = slot ∧ word.call = call ∧
      if files.binary.rows? = none then
        word ∈ files.history ∧
          Follows platform before files.history (entriesOf platform (entries.map (·.row)))
      else Follows platform before (word :: files.history) (entriesOf platform (entries.map (·.row)))
  | .releaseLock .wrote | .finished .wrote => files.HasSaid slot call
  | _ => True

/-- **The invariant of a process**: inside, the lock is its own; and it knows what it has read. -/
structure Stands (files : RegistryFiles) (slot : Nat) (writer : Writer) : Prop where
  holds : writer.control.inside = true → files.creator = some slot
  knows : writer.control.Knows platform before files slot writer.call

abbrev RegistryHolds : RegistrySystem → Prop :=
  Processes.Holds (RegistryFiles.Kept platform before) (Stands platform before)

variable {platform before} {system : RegistrySystem} {slot : Nat} {writer : Writer} {world : World}

theorem stands_outside {files later : RegistryFiles} (stands : Stands platform before files slot writer)
    (outside : writer.control.inside = false) (more : files.history ⊆ later.history) :
    Stands platform before later slot writer := by
  refine ⟨fun inside => absurd inside (by simp [outside]), ?_⟩
  have knows := stands.knows
  cases place : writer.control with
  | finished outcome =>
    rw [place] at knows
    cases outcome with
    | wrote =>
      obtain ⟨word, said, own⟩ := knows
      exact ⟨word, more said, own⟩
    | _ => trivial
  | openLock | statLock | readLock mtimeMs | removeLock => trivial
  | _ => simp [place, Control.inside] at outside

theorem others_outside (holds : RegistryHolds platform before system)
    (here : system.procs slot = some writer) (inside : writer.control.inside = true) {other : Nat}
    {rival : Writer} (apart : other ≠ slot) (there : system.procs other = some rival) :
    rival.control.inside = false := by
  by_contra both
  exact apart (Processes.only_one (fun where_ proc found => (holds.procs where_ proc found).holds) there here
    (by simpa using both) inside)

/-- The invariant of a system, after a move that only its own process looks at. -/
abbrev MoveKeeps (platform : Platform) (before : List String) (system : RegistrySystem) (slot : Nat)
    (writer : Writer) (moved : Control × RegistryFiles) : Prop :=
  Processes.Keeps (RegistryFiles.Kept platform before) (Stands platform before) system slot
    ({ writer with control := moved.1 }, moved.2)

theorem keeps_same (holds : RegistryHolds platform before system) {next : Control}
    (own : Stands platform before system.shared slot { writer with control := next }) :
    MoveKeeps platform before system slot writer (next, system.shared) where
  shared := holds.shared
  own := own
  others other rival _ there := holds.procs other rival there

theorem keeps_alone (holds : RegistryHolds platform before system) {next : Control} {later : RegistryFiles}
    (alone : ∀ other rival, other ≠ slot → system.procs other = some rival →
      rival.control.inside = false)
    (more : system.shared.history ⊆ later.history) (kept : later.Kept platform before)
    (own : Stands platform before later slot { writer with control := next }) :
    MoveKeeps platform before system slot writer (next, later) where
  shared := kept
  own := own
  others other rival apart there :=
    stands_outside (holds.procs other rival there) (alone other rival apart there) more

theorem stands_retry (files : RegistryFiles) (now : Nat) :
    Stands platform before files slot { writer with control := writer.retry now } := by
  unfold Writer.retry
  split_ifs
  · exact ⟨nofun, trivial⟩
  · exact ⟨nofun, trivial⟩

theorem openLock_keeps (holds : RegistryHolds platform before system)
    (place : writer.control = .openLock) :
    MoveKeeps platform before system slot writer (writer.act platform slot world system.shared) := by
  simp only [Writer.act, place]
  cases free : system.shared.lock with
  | some lock => exact keeps_same holds ⟨nofun, trivial⟩
  | none =>
    refine keeps_alone holds (fun other rival _ there => ?_) (List.Subset.refl _) holds.shared
      ⟨fun _ => rfl, trivial⟩
    by_contra inside
    have own := (holds.procs other rival there).holds (by simpa using inside)
    rw [RegistryFiles.creator, free] at own
    exact nomatch own

theorem look_keeps (holds : RegistryHolds platform before system)
    (place : writer.control = .statLock ∨ ∃ mtimeMs, writer.control = .readLock mtimeMs) :
    MoveKeeps platform before system slot writer (writer.act platform slot world system.shared) := by
  rcases place with place | ⟨mtimeMs, place⟩
  · simp only [Writer.act, place]
    cases system.shared.lock with
    | none => exact keeps_same holds (stands_retry _ _)
    | some lock => exact keeps_same holds ⟨nofun, trivial⟩
  · simp only [Writer.act, place]
    cases system.shared.lock with
    | none => exact keeps_same holds (stands_retry _ _)
    | some lock =>
      dsimp only
      split_ifs
      · exact keeps_same holds ⟨nofun, trivial⟩
      · exact keeps_same holds (stands_retry _ _)

/-- **The process removes the lock of one that is inside**, as a stale one. -/
def TakesLiveLock (system : RegistrySystem) (action : RegistryAction) : Prop :=
  ∃ writer, system.acting action = some writer ∧ writer.control = .removeLock ∧
    ∃ other rival, system.procs other = some rival ∧ rival.control.inside = true ∧
      system.shared.creator = some other

theorem removeLock_keeps (holds : RegistryHolds platform before system)
    (place : writer.control = .removeLock)
    (careful : ∀ other rival, system.procs other = some rival → rival.control.inside = true →
      system.shared.creator ≠ some other) :
    MoveKeeps platform before system slot writer (writer.act platform slot world system.shared) := by
  simp only [Writer.act, place]
  refine keeps_alone holds (fun other rival _ there => ?_) (List.Subset.refl _) holds.shared
    ⟨nofun, trivial⟩
  by_contra inside
  have inside : rival.control.inside = true := by simpa using inside
  exact careful other rival there inside ((holds.procs other rival there).holds inside)

section

variable (holds : RegistryHolds platform before system) (here : system.procs slot = some writer)

include holds here

/-- **A process that is inside** has the lock, knows what it has read, and is alone. -/
theorem inside_spec {control : Control} (place : writer.control = control) (inside : control.inside = true) :
    system.shared.creator = some slot ∧ control.Knows platform before system.shared slot writer.call ∧
      ∀ other rival, other ≠ slot → system.procs other = some rival → rival.control.inside = false := by
  subst place
  have stands := holds.procs slot writer here
  exact ⟨stands.holds inside, stands.knows, fun other rival apart there =>
    others_outside holds here inside apart there⟩

theorem writeLock_keeps (place : writer.control = .writeLock) :
    MoveKeeps platform before system slot writer (writer.act platform slot world system.shared) := by
  obtain ⟨own, -, alone⟩ := inside_spec holds here place rfl
  obtain ⟨lock, there, own⟩ := Option.bind_eq_some_iff.mp own
  simp only [Writer.act, place]
  refine keeps_alone holds alone (List.Subset.refl _) holds.shared ⟨fun _ => ?_, trivial⟩
  simp [RegistryFiles.creator, there, own]

theorem readMirrors_keeps
    (place : writer.control = .readBinary ∨ writer.control = .readJson ∨ writer.control = .existsBinary ∨
      writer.control = .existsJson) :
    MoveKeeps platform before system slot writer (writer.act platform slot world system.shared) := by
  rcases place with place | place | place | place <;>
    obtain ⟨lock, knows, -⟩ := inside_spec holds here place rfl <;> simp only [Writer.act, place]
  · cases binary : system.shared.binary.rows? with
    | some rows =>
      refine keeps_same holds ⟨fun _ => lock, ?_⟩
      simp [Control.Knows, readActiveRunRegistry, binary]
    | none => exact keeps_same holds ⟨fun _ => lock, binary⟩
  · cases json : system.shared.json.rows? with
    | some rows =>
      refine keeps_same holds ⟨fun _ => lock, ?_⟩
      simp only [Control.Knows] at knows
      simp [Control.Knows, readActiveRunRegistry, knows, json]
    | none => exact keeps_same holds ⟨fun _ => lock, knows, json⟩
  · split_ifs
    · exact keeps_same holds ⟨fun _ => lock, knows⟩
    · exact keeps_same holds ⟨fun _ => lock, trivial⟩
  · split_ifs
    · refine keeps_same holds ⟨fun _ => lock, ?_⟩
      simp only [Control.Knows] at knows
      simp [Control.Knows, readActiveRunRegistry, knows]
    · exact keeps_same holds ⟨fun _ => lock, trivial⟩

theorem checkEntries_keeps {found : List ActiveRunRegistryEntry}
    (place : writer.control = .checkEntries found) :
    MoveKeeps platform before system slot writer (writer.act platform slot world system.shared) := by
  obtain ⟨lock, read, -⟩ := inside_spec holds here place rfl
  simp only [Control.Knows] at read
  subst read
  simp only [Writer.act, place]
  rcases afterRead_spec world.views holds.shared (nodup_readActiveRunRegistry _) slot writer.call with
    refused | ⟨word, entries, next, mine, ours, follows⟩
  · rw [refused]
    exact keeps_same holds ⟨fun _ => lock, trivial⟩
  · rw [next]
    exact keeps_same holds ⟨fun _ => lock, mine, ours, follows⟩

theorem renameJson_keeps {word : Word} {entries : List ActiveRunRegistryEntry}
    (place : writer.control = .renameJson word entries) :
    MoveKeeps platform before system slot writer (writer.act platform slot world system.shared) := by
  obtain ⟨lock, ⟨mine, ours, follows⟩, alone⟩ := inside_spec holds here place rfl
  simp only [Writer.act, place]
  cases binary : system.shared.binary.rows? with
  | none =>
    refine keeps_alone holds alone (by simp) ?_ ⟨fun _ => lock, mine, ours, ?_⟩
    · unfold RegistryFiles.Kept readActiveRunRegistry
      simp only [binary, if_true]
      exact follows
    · simpa [binary] using follows
  | some rows =>
    refine keeps_alone holds alone (by simp) ?_ ⟨fun _ => lock, mine, ours, ?_⟩
    · simpa [RegistryFiles.Kept, readActiveRunRegistry, binary] using holds.shared
    · simpa [binary] using follows

theorem renameBinary_keeps {word : Word} {entries : List ActiveRunRegistryEntry}
    (place : writer.control = .renameBinary word entries) :
    MoveKeeps platform before system slot writer (writer.act platform slot world system.shared) := by
  obtain ⟨lock, ⟨mine, ours, follows⟩, alone⟩ := inside_spec holds here place rfl
  simp only [Writer.act, place]
  cases binary : system.shared.binary.rows? with
  | none =>
    rw [if_pos binary] at follows
    refine keeps_alone holds alone (by simp) ?_ ⟨fun _ => lock, word, by simpa using follows.1, mine, ours⟩
    simpa [RegistryFiles.Kept, readActiveRunRegistry, Mirror.rows?] using follows.2
  | some rows =>
    rw [binary, if_neg (Option.some_ne_none rows)] at follows
    refine keeps_alone holds alone (by simp) ?_ ⟨fun _ => lock, word, by simp, mine, ours⟩
    simpa [RegistryFiles.Kept, readActiveRunRegistry, Mirror.rows?] using follows

theorem releaseLock_keeps {outcome : Outcome} (place : writer.control = .releaseLock outcome) :
    MoveKeeps platform before system slot writer (writer.act platform slot world system.shared) := by
  obtain ⟨-, knows, alone⟩ := inside_spec holds here place rfl
  simp only [Writer.act, place]
  refine keeps_alone holds alone (List.Subset.refl _) holds.shared ⟨nofun, ?_⟩
  cases outcome with
  | wrote => exact knows
  | _ => trivial

end

/-- **A move keeps the invariant**, unless it takes the lock of a process that is inside. -/
theorem move_keeps (holds : RegistryHolds platform before system) (here : system.procs slot = some writer)
    (careful : ¬ TakesLiveLock system (.move slot world)) :
    MoveKeeps platform before system slot writer (writer.act platform slot world system.shared) := by
  cases place : writer.control with
  | openLock => exact openLock_keeps holds place
  | statLock => exact look_keeps holds (.inl place)
  | readLock mtimeMs => exact look_keeps holds (.inr ⟨mtimeMs, place⟩)
  | removeLock =>
    refine removeLock_keeps holds place fun other rival there inside own => ?_
    exact careful ⟨writer, here, place, other, rival, there, inside, own⟩
  | writeLock => exact writeLock_keeps holds here place
  | readBinary => exact readMirrors_keeps holds here (.inl place)
  | readJson => exact readMirrors_keeps holds here (.inr (.inl place))
  | existsBinary => exact readMirrors_keeps holds here (.inr (.inr (.inl place)))
  | existsJson => exact readMirrors_keeps holds here (.inr (.inr (.inr place)))
  | checkEntries found => exact checkEntries_keeps holds here place
  | renameJson word entries => exact renameJson_keeps holds here place
  | renameBinary word entries => exact renameBinary_keeps holds here place
  | releaseLock outcome => exact releaseLock_keeps holds here place
  | finished outcome =>
    have stands := holds.procs slot writer here
    simp only [Writer.act, place]
    refine keeps_same holds ⟨nofun, ?_⟩
    have knows := stands.knows
    rwa [place] at knows

theorem registryStep_keeps (holds : RegistryHolds platform before system) (action : RegistryAction)
    (careful : ¬ TakesLiveLock system action) :
    RegistryHolds platform before (registryStep platform system action) := by
  refine Processes.step_keeps holds action (fun slot beginning _ => ?_) fun slot world writer same here => ?_
  · refine ⟨fun inside => ?_, ?_⟩
    · unfold Writer.start at inside
      cases call : beginning.call with
      | registerActiveRun entry => simp [call, Control.inside] at inside
      | unregisterActiveRun runId =>
        simp only [call] at inside
        split_ifs at inside <;> exact nomatch inside
    · unfold Writer.start
      cases call : beginning.call with
      | registerActiveRun entry => trivial
      | unregisterActiveRun runId =>
        dsimp only
        split_ifs <;> trivial
  · subst same
    exact move_keeps holds here careful

end

section

variable {platform : Platform}

def registeredRuns (platform : Platform) (files : RegistryFiles) : List String :=
  (readActiveRunRegistry platform files).map (·.runId)

/-- **The registry keeps the registrations**: one process at a time is inside; the registry contains the runs
about which the latest word is a registration; and a call that wrote has its word. -/
structure KeepsRegistrations (platform : Platform) (before : List String) (system : RegistrySystem) : Prop where
  alone : ∀ slot other writer rival, system.procs slot = some writer → system.procs other = some rival →
    writer.control.inside = true → rival.control.inside = true → slot = other
  registry : ∀ runId, runId ∈ registeredRuns platform system.shared ↔
    Registered platform before system.shared.history runId = true
  wrote : ∀ slot writer, system.procs slot = some writer → writer.control = .finished .wrote →
    system.shared.HasSaid slot writer.call

theorem RegistryHolds.keeps {before : List String} {system : RegistrySystem}
    (holds : RegistryHolds platform before system) : KeepsRegistrations platform before system where
  alone slot other writer rival here there first second :=
    Processes.only_one (fun where_ proc found => (holds.procs where_ proc found).holds) here there first second
  registry := holds.shared
  wrote slot writer here place := by
    have knows := (holds.procs slot writer here).knows
    rwa [place] at knows

/-- **The registry keeps the registrations**, whatever the files contain at the start, in every run in which
no process takes the lock of one that is inside as a stale one. -/
theorem registrations_kept (platform : Platform) (files : RegistryFiles) (fresh : files.history = [])
    (actions : List RegistryAction)
    (careful : ∀ taken ∈ Runs.transitions (registryStep platform) files.system actions,
      ¬ TakesLiveLock taken.before taken.action) :
    KeepsRegistrations platform (registeredRuns platform files)
      (Runs.finish (registryStep platform) files.system actions) := by
  have initial : RegistryHolds platform (registeredRuns platform files) files.system := by
    refine ⟨fun runId => ?_, fun slot writer found => (nomatch found)⟩
    change runId ∈ registeredRuns platform files ↔
      Registered platform (registeredRuns platform files) files.history runId = true
    rw [fresh]
    exact (decide_eq_true_iff).symm
  have keeps : ∀ system action, RegistryHolds platform (registeredRuns platform files) system →
      ¬ TakesLiveLock system action →
      RegistryHolds platform (registeredRuns platform files) (registryStep platform system action) :=
    fun _ action holds careful => registryStep_keeps holds action careful
  exact RegistryHolds.keeps (Runs.finish_guarded _ keeps initial careful)

/-- The process removes a lock that a process of the run created. -/
def removesCreated (taken : Runs.Transition RegistrySystem RegistryAction) : Bool :=
  taken.before.shared.creator.isSome && (taken.before.acting taken.action).any fun writer =>
      match writer.control with
      | .removeLock => true
      | _ => false

theorem careful_of_removesCreated {taken : Runs.Transition RegistrySystem RegistryAction}
    (none : removesCreated taken = false) : ¬ TakesLiveLock taken.before taken.action := by
  rintro ⟨writer, acts, place, other, rival, -, -, own⟩
  simp [removesCreated, acts, place, own] at none

/-- Paths with slashes, and strings compared by their characters. -/
def slashes : Platform where
  basename path := String.ofList (path.toList.reverse.takeWhile (· ≠ '/')).reverse
  join first second := first ++ "/" ++ second
  resolve path := path
  localeCompare first second := if first = second then 0 else if first < second then -1 else 1

def entryOf (runId : String) : ActiveRunRegistryEntry where
  runId := runId
  cwd := "/w"
  stateRoot := "/w/" ++ runId
  manifestPath := "/w/" ++ runId ++ "/manifest.json"
  updatedAt := "t"

def register (slot : Nat) (runId : String) : RegistryAction :=
  .begin slot ⟨.registerActiveRun (entryOf runId), 40000⟩

def moves (slot count : Nat) (ended : Option String) : List RegistryAction :=
  List.replicate count (.move slot ⟨40000, fun entry =>
    { manifest := some { status := if ended = some entry.runId then "completed" else "running" } }⟩)

def leftLock : RegistryFiles where
  lock := some { creator := none, createdAt := some 0, mtimeMs := 0 }

def bothRegister : List RegistryAction :=
  [register 0 "a", register 1 "b"] ++ moves 0 5 none ++ moves 1 1 none ++ moves 0 10 none ++ moves 1 12 none

theorem registrations_kept_bothRegister :
    KeepsRegistrations slashes (registeredRuns slashes leftLock)
        (Runs.finish (registryStep slashes) leftLock.system bothRegister) ∧
      registeredRuns slashes (Runs.finish (registryStep slashes) leftLock.system bothRegister).shared =
        ["b", "a"] := by
  have orphans : ∀ taken ∈ Runs.transitions (registryStep slashes) leftLock.system bothRegister,
      removesCreated taken = false := by decide
  exact ⟨registrations_kept slashes leftLock rfl bothRegister fun taken member =>
    careful_of_removesCreated (orphans taken member), by decide⟩

/-- The call in a slot has written the registry and is finished. -/
def hasWritten (system : RegistrySystem) (slot : Nat) : Bool :=
  (system.procs slot).any fun writer =>
    match writer.control with
    | .finished .wrote => true
    | _ => false

def isInside (system : RegistrySystem) (slot : Nat) : Bool :=
  (system.procs slot).any fun writer => writer.control.inside

def overBefore : List RegistryAction :=
  [register 0 "a"] ++ moves 0 10 none ++ [register 1 "b"] ++ moves 1 10 (some "a")

def bothBreak : List RegistryAction :=
  [register 0 "a", register 1 "b"] ++ moves 0 3 none ++ moves 1 3 none ++ moves 0 2 none ++ moves 1 2 none

def bothWrite : List RegistryAction := moves 0 5 none ++ moves 1 5 none ++ moves 0 4 none ++ moves 1 4 none

/-- **A registration that does not last**: the only call about a run is its registration, which writes the
registry, and in the end the run is not there. In the first history the run is over when the next call looks;
in the second one two processes are inside at once. -/
theorem registration_lost :
    let after := Runs.finish (registryStep slashes) (RegistryFiles.system {}) overBefore
    let both := Runs.finish (registryStep slashes) leftLock.system bothBreak
    let lost := Runs.finish (registryStep slashes) leftLock.system (bothBreak ++ bothWrite)
    (hasWritten after 0 = true ∧ hasWritten after 1 = true ∧ registeredRuns slashes after.shared = ["b"]) ∧
      (isInside both 0 = true ∧ isInside both 1 = true) ∧
      hasWritten lost 0 = true ∧ hasWritten lost 1 = true ∧ registeredRuns slashes lost.shared = ["b"] := by
  decide

end

end PiCrew.Store.ActiveRunRegistry
