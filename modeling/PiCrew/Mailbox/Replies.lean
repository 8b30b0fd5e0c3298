/-
**Reading a mailbox in which messages are replied to.**

`state/coordination/mailbox.ts`. A reply rewrites the row of its message in the live file. When a rotation
has moved the message into an archive, which is never rewritten, the reply is a further row of the same
id; the reader merges the rows by id, the last one winning.

* `rotate_keeps`, `reply_keeps` — rotations and replies keep what a reader gets;
* `reads_conserve` — so in every run of `Orderly` operations it gets the recorded messages;
* `colliding_archives_lose_messages` — two rotations within a millisecond.

The operations are modelled one after the other, each with the reading of the clock that it makes, and
the rows as they are stored: redacted. The live file exists, an empty one being read as a missing one is.
-/

import PiCrew.Library.LastWins
import PiCrew.Library.Runs
import PiCrew.Mailbox.Files

set_option linter.unusedSectionVars false

namespace PiCrew.Mailbox.Replies

section

structure Reply (ρ : Type) where
  repliedAt : Nat
  replyContent : ρ
  deriving DecidableEq

/-- A message, with its reply if there was one. -/
structure Message (ι β ρ : Type) where
  id : ι
  content : β
  reply : Option (Reply ρ) := none
  deriving DecidableEq

structure Row (ι β ρ κ : Type) where
  message : Message ι β ρ
  signer : κ
  deriving DecidableEq

structure StoredFile (ι β ρ κ : Type) where
  rows : List (Row ι β ρ κ) := []
  mtimeMs : Nat := 0

/-- The name of a file. An archive has the time of its rotation in its name. -/
inductive StoredPath where
  | live
  | archive (stamp : Nat)
  deriving DecidableEq

/-- An entry of the parse cache. -/
structure CachedRead (ι β ρ : Type) where
  mtimeMs : Nat
  size : Nat
  messages : List (Message ι β ρ)

variable {ι β ρ κ : Type}

def Message.replied (message : Message ι β ρ) (reply : Reply ρ) : Message ι β ρ :=
  { message with reply := some reply }

@[simp] theorem replied_id (message : Message ι β ρ) (reply : Reply ρ) :
    (message.replied reply).id = message.id := rfl

end

section

variable {ι β ρ κ : Type}

/-- **A mailbox**: its live file, its archives in the order of their names, and the parse cache of the
process that reads it. -/
structure Store (ι β ρ κ : Type) where
  live : StoredFile ι β ρ κ := {}
  archives : List (Nat × StoredFile ι β ρ κ) := []
  mailboxParseCache : Ledger StoredPath (CachedRead ι β ρ) := {}

def mailboxParseCacheMax : Nat := 128

def Store.files (store : Store ι β ρ κ) : List (StoredPath × StoredFile ι β ρ κ) :=
  store.archives.map (fun archive => (.archive archive.1, archive.2)) ++ [(.live, store.live)]

def Store.rows (store : Store ι β ρ κ) : List (Row ι β ρ κ) :=
  store.archives.flatMap (·.2.rows) ++ store.live.rows

/-- A file renamed to an archive. An archive of the same name is replaced. -/
def renameSync (archives : List (Nat × StoredFile ι β ρ κ)) (stamp : Nat)
    (file : StoredFile ι β ρ κ) : List (Nat × StoredFile ι β ρ κ) :=
  archives.filter (fun archive => archive.1 < stamp)
    ++ (stamp, file) :: archives.filter fun archive => stamp < archive.1

def pruneOldMailboxArchives (archives : List (Nat × StoredFile ι β ρ κ)) :
    List (Nat × StoredFile ι β ρ κ) :=
  archives.drop (archives.length - maxArchivesPerDirection)

/-- The length of rows on disk. `bytes` is the length of the line of a message. -/
def rowsSize (bytes : Message ι β ρ → Nat) (rows : List (Row ι β ρ κ)) : Nat :=
  (rows.map fun row => bytes row.message + 1).sum

variable (bytes : Message ι β ρ → Nat)

/-- **Rotate** a live file that has reached its threshold. -/
def rotateMailboxFileIfNeeded (store : Store ι β ρ κ) (now : Nat) : Store ι β ρ κ :=
  if rowsSize bytes store.live.rows < perFileThresholdBytes then store
  else
    { store with
      archives := pruneOldMailboxArchives (renameSync store.archives now store.live)
      live := { rows := [], mtimeMs := now } }

def appendRow (store : Store ι β ρ κ) (row : Row ι β ρ κ) (now : Nat) : Store ι β ρ κ :=
  rotateMailboxFileIfNeeded bytes
    { store with live := { rows := store.live.rows ++ [row], mtimeMs := now } } now

end

section

variable {ι β ρ κ : Type} [DecidableEq κ] (bytes : Message ι β ρ → Nat) (verifyKeys : List κ)

def Accepted (signer : κ) : Prop := verifyKeys.isEmpty ∨ signer ∈ verifyKeys

instance decidableAccepted : DecidablePred (Accepted verifyKeys) :=
  fun _ => inferInstanceAs (Decidable (_ ∨ _))

def parseMailboxFile (rows : List (Row ι β ρ κ)) : List (Message ι β ρ) :=
  (rows.filter fun row => Accepted verifyKeys row.signer).map (·.message)

def remember (cache : Ledger StoredPath (CachedRead ι β ρ)) (path : StoredPath)
    (file : StoredFile ι β ρ κ) : Ledger StoredPath (CachedRead ι β ρ) :=
  (if mailboxParseCacheMax ≤ cache.entries.length then cache.dropOldest else cache).put path
    { mtimeMs := file.mtimeMs
      size := rowsSize bytes file.rows
      messages := parseMailboxFile verifyKeys file.rows }

/-- **Read a file through the cache**, which is trusted for the same time and size. -/
def cachedMailboxRead (cache : Ledger StoredPath (CachedRead ι β ρ)) (path : StoredPath)
    (file : StoredFile ι β ρ κ) :
    List (Message ι β ρ) × Ledger StoredPath (CachedRead ι β ρ) :=
  match cache.get path with
  | some hit =>
    if hit.mtimeMs = file.mtimeMs ∧ hit.size = rowsSize bytes file.rows then (hit.messages, cache)
    else (parseMailboxFile verifyKeys file.rows, remember bytes verifyKeys cache path file)
  | none => (parseMailboxFile verifyKeys file.rows, remember bytes verifyKeys cache path file)

def readFiles (cache : Ledger StoredPath (CachedRead ι β ρ)) :
    List (StoredPath × StoredFile ι β ρ κ) →
      List (Message ι β ρ) × Ledger StoredPath (CachedRead ι β ρ)
  | [] => ([], cache)
  | (path, file) :: rest =>
    let first := cachedMailboxRead bytes verifyKeys cache path file
    let others := readFiles first.2 rest
    (first.1 ++ others.1, others.2)

def Store.archiveFiles (store : Store ι β ρ κ) : List (StoredPath × StoredFile ι β ρ κ) :=
  store.archives.map fun archive => (.archive archive.1, archive.2)

variable [DecidableEq ι]

/-- **Read a mailbox**: without archives the live file as it is, else all files merged by id. -/
def safeReadMailboxFile (store : Store ι β ρ κ) : List (Message ι β ρ) × Store ι β ρ κ :=
  let live := cachedMailboxRead bytes verifyKeys store.mailboxParseCache .live store.live
  if store.archives.isEmpty then (live.1, { store with mailboxParseCache := live.2 })
  else
    let archived := readFiles bytes verifyKeys live.2 store.archiveFiles
    (LastWins.merge (·.id) (archived.1 ++ live.1), { store with mailboxParseCache := archived.2 })

/-- The rows of a live file with a reply, which are signed again. -/
def rewriteRows (rows : List (Row ι β ρ κ)) (id : ι) (reply : Reply ρ) (signer : κ) :
    List (Row ι β ρ κ) :=
  rows.map fun row =>
    if row.message.id = id then { message := row.message.replied reply, signer := signer } else row

/-- **Record a reply**: in the row of the live file, or as a further row when only an archive holds the
message. -/
def updateMailboxMessageReply (store : Store ι β ρ κ) (id : ι) (reply : Reply ρ) (signer : κ) :
    Store ι β ρ κ :=
  if store.live.rows.any fun row => row.message.id = id then
    { store with
      live := { rows := rewriteRows store.live.rows id reply signer, mtimeMs := reply.repliedAt } }
  else
    let archived := readFiles bytes verifyKeys store.mailboxParseCache store.archiveFiles
    let read := { store with mailboxParseCache := archived.2 }
    match archived.1.find? fun message => message.id = id with
    | some original =>
      appendRow bytes read { message := original.replied reply, signer := signer } reply.repliedAt
    | none => read

end

section

variable {ι β ρ κ : Type} [DecidableEq ι] [DecidableEq β] [DecidableEq ρ] [DecidableEq κ]

inductive Operation (ι β ρ κ : Type) where
  | append (message : Message ι β ρ) (signer : κ) (now : Nat)
  | reply (id : ι) (reply : Reply ρ) (signer : κ)
  | read

/-- A mailbox, and the messages that a reader of it has to get: the appended ones in order, each with
the last reply that was recorded. -/
structure History (ι β ρ κ : Type) where
  store : Store ι β ρ κ := {}
  recorded : List (Message ι β ρ) := []

def recordReply (recorded : List (Message ι β ρ)) (id : ι) (reply : Reply ρ) :
    List (Message ι β ρ) :=
  recorded.map fun message => if message.id = id then message.replied reply else message

variable (bytes : Message ι β ρ → Nat) (verifyKeys : List κ)

def History.step (history : History ι β ρ κ) : Operation ι β ρ κ → History ι β ρ κ
  | .append message signer now =>
    { store := appendRow bytes history.store { message := message, signer := signer } now
      recorded := history.recorded ++ [message] }
  | .reply id reply signer =>
    { store := updateMailboxMessageReply bytes verifyKeys history.store id reply signer
      recorded := recordReply history.recorded id reply }
  | .read =>
    { history with store := (safeReadMailboxFile bytes verifyKeys history.store).2 }

/-- **What a reader gets is what was recorded.** -/
def ReadsConserve (history : History ι β ρ κ) : Prop :=
  (safeReadMailboxFile bytes verifyKeys history.store).1 = history.recorded

instance decidableReadsConserve (history : History ι β ρ κ) :
    Decidable (ReadsConserve bytes verifyKeys history) :=
  inferInstanceAs (Decidable (_ = _))

def Noticed (store : Store ι β ρ κ) (rows : List (Row ι β ρ κ)) (now : Nat) : Prop :=
  ∀ hit ∈ store.mailboxParseCache.get .live, hit.mtimeMs = now →
    hit.size = rowsSize bytes rows → hit.messages = parseMailboxFile verifyKeys rows

/-- If the live file is rotated with these rows, the archive is the latest one, and none is pruned. -/
def ArchivesLast (store : Store ι β ρ κ) (rows : List (Row ι β ρ κ)) (now : Nat) : Prop :=
  perFileThresholdBytes ≤ rowsSize bytes rows →
    (∀ archive ∈ store.archives, archive.1 < now) ∧
      store.archives.length < maxArchivesPerDirection

instance decidableNoticed (store : Store ι β ρ κ) (rows : List (Row ι β ρ κ)) (now : Nat) :
    Decidable (Noticed bytes verifyKeys store rows now) :=
  inferInstanceAs (Decidable (∀ hit ∈ _, _ → _ → _))

instance decidableArchivesLast (store : Store ι β ρ κ) (rows : List (Row ι β ρ κ)) (now : Nat) :
    Decidable (ArchivesLast bytes store rows now) :=
  inferInstanceAs (Decidable (_ → _ ∧ _))

/-- **An operation that cannot go wrong**: the reader accepts what it writes, an appended message has an
id of its own, the write is noticed, and an archive that it makes is the latest one. -/
def Orderly (history : History ι β ρ κ) : Operation ι β ρ κ → Prop
  | .append message signer now =>
    Accepted verifyKeys signer ∧ message.id ∉ history.recorded.map (·.id) ∧
      let rows := history.store.live.rows ++ [{ message := message, signer := signer }]
      Noticed bytes verifyKeys history.store rows now ∧ ArchivesLast bytes history.store rows now
  | .reply id reply signer =>
    Accepted verifyKeys signer ∧
      if id ∈ history.store.live.rows.map (·.message.id) then
        Noticed bytes verifyKeys history.store
          (rewriteRows history.store.live.rows id reply signer) reply.repliedAt
      else
        ∀ message ∈ history.recorded, message.id = id →
          let rows := history.store.live.rows
            ++ [{ message := message.replied reply, signer := signer }]
          Noticed bytes verifyKeys history.store rows reply.repliedAt ∧
            ArchivesLast bytes history.store rows reply.repliedAt
  | .read => True

instance decidableOrderly (history : History ι β ρ κ) (operation : Operation ι β ρ κ) :
    Decidable (Orderly bytes verifyKeys history operation) := by
  cases operation <;> (dsimp only [Orderly]; infer_instance)

end

section

variable {ι β ρ κ : Type} [DecidableEq κ] {bytes : Message ι β ρ → Nat} {verifyKeys : List κ}

variable (bytes verifyKeys) in
/-- A parse cache that can be trusted with these files. -/
structure CacheSound (cache : Ledger StoredPath (CachedRead ι β ρ))
    (files : List (StoredPath × StoredFile ι β ρ κ)) : Prop where
  fresh : ∀ file ∈ files, ∀ hit ∈ cache.get file.1, hit.mtimeMs = file.2.mtimeMs →
    hit.size = rowsSize bytes file.2.rows → hit.messages = parseMailboxFile verifyKeys file.2.rows
  snapshots : ∀ path, ∀ hit ∈ cache.get path, ∃ rows : List (Row ι β ρ κ),
    hit.size = rowsSize bytes rows ∧ hit.messages = parseMailboxFile verifyKeys rows
  present : ∀ path, ∀ hit ∈ cache.get path, path ∈ files.map (·.1)

variable {cache : Ledger StoredPath (CachedRead ι β ρ)}
  {files : List (StoredPath × StoredFile ι β ρ κ)}

variable {file : StoredFile ι β ρ κ}

theorem get_remember {path other : StoredPath} {hit : CachedRead ι β ρ}
    (found : (remember bytes verifyKeys cache path file).get other = some hit) :
    (other = path ∧ hit.mtimeMs = file.mtimeMs ∧ hit.size = rowsSize bytes file.rows ∧
      hit.messages = parseMailboxFile verifyKeys file.rows) ∨ cache.get other = some hit := by
  rw [remember, Ledger.get_put] at found
  by_cases here : other = path
  · rw [if_pos here] at found
    rw [← Option.some.inj found]
    exact Or.inl ⟨here, rfl, rfl, rfl⟩
  · rw [if_neg here] at found
    refine Or.inr ?_
    split_ifs at found
    · exact Ledger.get_of_dropOldest found
    · exact found

theorem remember_sound (sound : CacheSound bytes verifyKeys cache files)
    (apart : (files.map (·.1)).Nodup) {path : StoredPath} (member : (path, file) ∈ files) :
    CacheSound bytes verifyKeys (remember bytes verifyKeys cache path file) files where
  fresh other there hit found := by
    rcases get_remember found with ⟨here, -, -, messages⟩ | before
    · have same : (path, file) = other := by
        exact List.inj_on_of_nodup_map apart member there here.symm
      intro _ _
      rw [← same]
      exact messages
    · exact sound.fresh other there hit before
  snapshots other hit found := by
    rcases get_remember found with ⟨-, -, size, messages⟩ | before
    · exact ⟨file.rows, size, messages⟩
    · exact sound.snapshots other hit before
  present other hit found := by
    rcases get_remember found with ⟨here, -⟩ | before
    · rw [here]
      exact List.mem_map_of_mem member
    · exact sound.present other hit before

theorem cachedMailboxRead_spec (sound : CacheSound bytes verifyKeys cache files)
    (apart : (files.map (·.1)).Nodup) {path : StoredPath} (member : (path, file) ∈ files) :
    (cachedMailboxRead bytes verifyKeys cache path file).1
        = parseMailboxFile verifyKeys file.rows ∧
      CacheSound bytes verifyKeys (cachedMailboxRead bytes verifyKeys cache path file).2 files := by
  have remembered := remember_sound sound apart member
  unfold cachedMailboxRead
  split
  case h_1 hit found =>
    split_ifs with same
    · exact ⟨sound.fresh _ member hit found same.1 same.2, sound⟩
    · exact ⟨rfl, remembered⟩
  case h_2 => exact ⟨rfl, remembered⟩

theorem get_readFiles {some : List (StoredPath × StoredFile ι β ρ κ)} {path : StoredPath}
    (apart : path ∉ some.map (·.1)) {hit : CachedRead ι β ρ}
    (found : hit ∈ (readFiles bytes verifyKeys cache some).2.get path) : hit ∈ cache.get path := by
  induction some generalizing cache with
  | nil => exact found
  | cons file rest ih =>
    obtain ⟨other, file⟩ := file
    obtain ⟨here, later⟩ := not_or.mp fun either => apart (List.mem_cons.mpr either)
    have first : hit ∈ (cachedMailboxRead bytes verifyKeys cache other file).2.get path :=
      ih later found
    unfold cachedMailboxRead at first
    split at first
    case h_1 =>
      split_ifs at first
      · exact first
      · exact (get_remember first).resolve_left fun parsed => here parsed.1
    case h_2 => exact (get_remember first).resolve_left fun parsed => here parsed.1

theorem readFiles_spec (sound : CacheSound bytes verifyKeys cache files)
    (apart : (files.map (·.1)).Nodup) {some : List (StoredPath × StoredFile ι β ρ κ)}
    (among : some ⊆ files) :
    (readFiles bytes verifyKeys cache some).1
        = some.flatMap (fun file => parseMailboxFile verifyKeys file.2.rows) ∧
      CacheSound bytes verifyKeys (readFiles bytes verifyKeys cache some).2 files := by
  induction some generalizing cache with
  | nil => exact ⟨rfl, sound⟩
  | cons file rest ih =>
    obtain ⟨path, file⟩ := file
    obtain ⟨first, next⟩ := cachedMailboxRead_spec sound apart (among List.mem_cons_self)
    obtain ⟨others, last⟩ := ih next fun _ later => among (List.mem_cons_of_mem _ later)
    refine ⟨?_, last⟩
    rw [List.flatMap_cons, ← first, ← others]
    rfl

end

section

variable {ι β ρ κ : Type} [DecidableEq ι] [DecidableEq κ] {bytes : Message ι β ρ → Nat}
  {verifyKeys : List κ}

variable (bytes verifyKeys) in
/-- **A mailbox whose reader gets these messages.** -/
structure Keeps (store : Store ι β ρ κ) (recorded : List (Message ι β ρ)) : Prop where
  accepted : ∀ row ∈ store.rows, Accepted verifyKeys row.signer
  merged : LastWins.merge (·.id) (store.rows.map (·.message)) = recorded
  apart : (store.live.rows.map (·.message.id)).Nodup
  content : ∃ contentOf : ι → Option β, ∀ row ∈ store.rows,
    contentOf row.message.id = some row.message.content
  sound : CacheSound bytes verifyKeys store.mailboxParseCache store.files
  stamps : (store.archives.map (·.1)).Nodup

theorem start_keeps : Keeps bytes verifyKeys ({} : Store ι β ρ κ) [] where
  accepted _ member := absurd member List.not_mem_nil
  merged := rfl
  apart := List.nodup_nil
  content := ⟨fun _ => none, fun _ member => absurd member List.not_mem_nil⟩
  sound :=
    { fresh := nofun
      snapshots := nofun
      present := nofun }
  stamps := List.nodup_nil

variable {store : Store ι β ρ κ} {recorded : List (Message ι β ρ)}

theorem files_nodup (stamps : (store.archives.map (·.1)).Nodup) :
    (store.files.map (·.1)).Nodup := by
  have archives : (store.archives.map fun archive => StoredPath.archive archive.1).Nodup := by
    have named := stamps.map (f := StoredPath.archive) fun _ _ same => by cases same; rfl
    rwa [List.map_map] at named
  have live : StoredPath.live ∉ store.archives.map fun archive => StoredPath.archive archive.1 := by
    simp
  simp only [Store.files, List.map_append, List.map_map, Function.comp_def, List.map_cons,
    List.map_nil]
  exact List.nodup_append_comm.mp (List.nodup_cons.mpr ⟨live, archives⟩)

variable {rows : List (Row ι β ρ κ)} {now : Nat}

theorem parse_accepted (accepted : ∀ row ∈ rows, Accepted verifyKeys row.signer) :
    parseMailboxFile verifyKeys rows = rows.map (·.message) := by
  rw [parseMailboxFile, List.filter_eq_self.mpr fun row member => decide_eq_true (accepted row member)]

section

variable (keeps : Keeps bytes verifyKeys store recorded)

include keeps

theorem Keeps.mem_recorded {id : ι} :
    id ∈ recorded.map (·.id) ↔ id ∈ store.rows.map (·.message.id) := by
  rw [← keeps.merged, LastWins.mem_map_merge, List.map_map]
  rfl

theorem Keeps.withCache {cache : Ledger StoredPath (CachedRead ι β ρ)}
    (sound : CacheSound bytes verifyKeys cache store.files) :
    Keeps bytes verifyKeys { store with mailboxParseCache := cache } recorded :=
  { keeps with sound := sound }

theorem Keeps.read_archives {cache : Ledger StoredPath (CachedRead ι β ρ)}
    (sound : CacheSound bytes verifyKeys cache store.files) :
    (readFiles bytes verifyKeys cache store.archiveFiles).1
        = (store.archives.flatMap (·.2.rows)).map (·.message) ∧
      CacheSound bytes verifyKeys (readFiles bytes verifyKeys cache store.archiveFiles).2
        store.files := by
  have among : store.archiveFiles ⊆ store.files := List.subset_append_left _ _
  obtain ⟨read, next⟩ := readFiles_spec sound (files_nodup keeps.stamps) among
  refine ⟨?_, next⟩
  rw [read, Store.archiveFiles, List.flatMap_map, List.map_flatMap]
  refine List.flatMap_congr fun archive member => parse_accepted fun row inside => ?_
  exact keeps.accepted row (List.mem_append_left _ (List.mem_flatMap.mpr ⟨archive, member, inside⟩))

theorem Keeps.read :
    (safeReadMailboxFile bytes verifyKeys store).1 = recorded ∧
      Keeps bytes verifyKeys (safeReadMailboxFile bytes verifyKeys store).2 recorded := by
  obtain ⟨live, next⟩ := cachedMailboxRead_spec keeps.sound (files_nodup keeps.stamps)
    (List.mem_append_right _ List.mem_cons_self)
  obtain ⟨archived, last⟩ := keeps.read_archives next
  have accepted : ∀ row ∈ store.live.rows, Accepted verifyKeys row.signer :=
    fun row member => keeps.accepted row (List.mem_append_right _ member)
  rw [parse_accepted accepted] at live
  unfold safeReadMailboxFile
  by_cases none : store.archives.isEmpty
  · simp only [if_pos none, live]
    refine ⟨?_, keeps.withCache next⟩
    have merged := keeps.merged
    rw [Store.rows, List.isEmpty_iff.mp none, List.flatMap_nil, List.nil_append] at merged
    rw [← merged, LastWins.merge_of_nodup]
    rw [List.map_map]
    exact keeps.apart
  · simp only [if_neg none, live, archived]
    refine ⟨?_, keeps.withCache last⟩
    rw [← keeps.merged, Store.rows, List.map_append]

end

theorem files_read (store : Store ι β ρ κ) :
    (safeReadMailboxFile bytes verifyKeys store).2.files = store.files := by
  unfold safeReadMailboxFile
  split_ifs <;> rfl

theorem CacheSound.write (sound : CacheSound bytes verifyKeys store.mailboxParseCache store.files)
    (noticed : Noticed bytes verifyKeys store rows now) :
    CacheSound bytes verifyKeys store.mailboxParseCache
      ({ store with live := { rows := rows, mtimeMs := now } } : Store ι β ρ κ).files where
  fresh file member hit found time := by
    rcases List.mem_append.mp member with archived | live
    · exact sound.fresh file (List.mem_append_left _ archived) hit found time
    · rw [List.mem_singleton.mp live] at found time ⊢
      exact noticed hit found time
  snapshots := sound.snapshots
  present path hit found := by
    have before := sound.present path hit found
    rwa [Store.files, List.map_append] at before ⊢

theorem renameSync_last {archives : List (Nat × StoredFile ι β ρ κ)}
    (last : ∀ archive ∈ archives, archive.1 < now) (file : StoredFile ι β ρ κ) :
    renameSync archives now file = archives ++ [(now, file)] := by
  have older : archives.filter (fun archive => archive.1 < now) = archives :=
    List.filter_eq_self.mpr fun archive member => decide_eq_true (last archive member)
  have newer : archives.filter (fun archive => now < archive.1) = [] :=
    List.filter_eq_nil_iff.mpr fun archive member later =>
      Nat.lt_asymm (last archive member) (of_decide_eq_true later)
  rw [renameSync, older, newer]

theorem rows_of_size_zero (empty : rowsSize bytes rows = 0) :
    rows = [] := by
  cases rows with
  | nil => rfl
  | cons row rest => simp [rowsSize] at empty

theorem CacheSound.rotate (sound : CacheSound bytes verifyKeys store.mailboxParseCache store.files)
    (last : ∀ archive ∈ store.archives, archive.1 < now) :
    CacheSound bytes verifyKeys store.mailboxParseCache
      ({ store with
        archives := store.archives ++ [(now, store.live)]
        live := { rows := [], mtimeMs := now } } : Store ι β ρ κ).files where
  fresh file member hit found time size := by
    simp only [Store.files, List.map_append, List.map_cons, List.map_nil, List.append_assoc,
      List.mem_append, List.mem_singleton] at member
    rcases member with archived | rfl | rfl
    · exact sound.fresh file (List.mem_append_left _ archived) hit found time size
    · have named := sound.present _ hit found
      simp only [Store.files, List.map_append, List.map_map, Function.comp_def, List.map_cons,
        List.map_nil, List.mem_append, List.mem_map, StoredPath.archive.injEq, List.mem_singleton,
        reduceCtorEq, or_false] at named
      obtain ⟨archive, member, here⟩ := named
      exact absurd (last archive member) (here ▸ Nat.lt_irrefl _)
    · obtain ⟨rows, measured, messages⟩ := sound.snapshots _ hit found
      rw [messages, rows_of_size_zero (measured.symm.trans size)]
  snapshots := sound.snapshots
  present path hit found := by
    have before := sound.present path hit found
    simp only [Store.files, List.map_append, List.map_cons, List.map_nil, List.mem_append,
      List.mem_singleton] at before ⊢
    rcases before with archived | live
    · exact Or.inl (Or.inl archived)
    · exact Or.inr live

/-- **A rotation** keeps what a reader gets. -/
theorem rotate_keeps (keeps : Keeps bytes verifyKeys store recorded)
    (archives : ArchivesLast bytes store store.live.rows now) :
    Keeps bytes verifyKeys (rotateMailboxFileIfNeeded bytes store now) recorded := by
  unfold rotateMailboxFileIfNeeded
  by_cases small : rowsSize bytes store.live.rows < perFileThresholdBytes
  · rw [if_pos small]
    exact keeps
  · rw [if_neg small]
    obtain ⟨last, room⟩ := archives (Nat.le_of_not_lt small)
    have all : pruneOldMailboxArchives (renameSync store.archives now store.live)
        = store.archives ++ [(now, store.live)] := by
      rw [renameSync_last last, pruneOldMailboxArchives, List.length_append, List.length_singleton,
        Nat.sub_eq_zero_of_le (Nat.succ_le_of_lt room), List.drop_zero]
    have rows : ({ store with
        archives := store.archives ++ [(now, store.live)]
        live := { rows := [], mtimeMs := now } } : Store ι β ρ κ).rows = store.rows := by
      simp [Store.rows]
    rw [all]
    exact
      { accepted := fun row member => keeps.accepted row (rows ▸ member)
        merged := by rw [rows, keeps.merged]
        apart := List.nodup_nil
        content := by rw [rows]; exact keeps.content
        sound := keeps.sound.rotate last
        stamps := by
          rw [List.map_append]
          refine List.nodup_append_comm.mp (List.nodup_cons.mpr ⟨fun again => ?_, keeps.stamps⟩)
          obtain ⟨archive, member, here⟩ := List.mem_map.mp again
          exact absurd (last archive member) (here ▸ Nat.lt_irrefl _) }

theorem append_keeps {row : Row ι β ρ κ} {after : List (Message ι β ρ)}
    (keeps : Keeps bytes verifyKeys store recorded) (accepted : Accepted verifyKeys row.signer)
    (absent : row.message.id ∉ store.live.rows.map (·.message.id)) (content : ∃ contentOf : ι → Option β,
      contentOf row.message.id = some row.message.content ∧
        ∀ old ∈ store.rows, contentOf old.message.id = some old.message.content)
    (merged : LastWins.merge (·.id) (store.rows.map (·.message) ++ [row.message]) = after)
    (noticed : Noticed bytes verifyKeys store (store.live.rows ++ [row]) now)
    (archives : ArchivesLast bytes store (store.live.rows ++ [row]) now) :
    Keeps bytes verifyKeys (appendRow bytes store row now) after := by
  have rows : ({ store with
      live := { rows := store.live.rows ++ [row], mtimeMs := now } } : Store ι β ρ κ).rows
        = store.rows ++ [row] := by
    simp [Store.rows]
  refine rotate_keeps ?_ archives
  exact
    { accepted := by
        rw [rows]
        intro other member
        rcases List.mem_append.mp member with old | new
        · exact keeps.accepted other old
        · rw [List.mem_singleton.mp new]
          exact accepted
      merged := by rw [rows, List.map_append]; exact merged
      apart := by
        rw [List.map_append]
        exact List.nodup_append_comm.mp (List.nodup_cons.mpr ⟨absent, keeps.apart⟩)
      content := by
        obtain ⟨contentOf, new, old⟩ := content
        refine ⟨contentOf, ?_⟩
        rw [rows]
        intro other member
        rcases List.mem_append.mp member with before | last
        · exact old other before
        · rw [List.mem_singleton.mp last]
          exact new
      sound := keeps.sound.write noticed
      stamps := keeps.stamps }

theorem append_new_keeps {row : Row ι β ρ κ}
    (keeps : Keeps bytes verifyKeys store recorded) (accepted : Accepted verifyKeys row.signer)
    (fresh : row.message.id ∉ recorded.map (·.id))
    (noticed : Noticed bytes verifyKeys store (store.live.rows ++ [row]) now)
    (archives : ArchivesLast bytes store (store.live.rows ++ [row]) now) :
    Keeps bytes verifyKeys (appendRow bytes store row now) (recorded ++ [row.message]) := by
  have new : row.message.id ∉ store.rows.map (·.message.id) :=
    fun known => fresh (keeps.mem_recorded.mpr known)
  have absent : row.message.id ∉ store.live.rows.map (·.message.id) := by
    intro live
    refine new ?_
    rw [Store.rows, List.map_append]
    exact List.mem_append_right _ live
  refine append_keeps keeps accepted absent ?_ ?_ noticed archives
  · obtain ⟨contentOf, old⟩ := keeps.content
    refine ⟨Function.update contentOf row.message.id (some row.message.content), by simp,
      fun other member => ?_⟩
    have apart : other.message.id ≠ row.message.id := fun same =>
      new (same ▸ List.mem_map_of_mem (f := fun row : Row ι β ρ κ => row.message.id) member)
    rw [Function.update_of_ne apart, old other member]
  · rw [LastWins.merge_new, keeps.merged]
    rw [List.map_map]
    exact new

end

section

variable {ι β ρ κ : Type} [DecidableEq ι] [DecidableEq κ] {bytes : Message ι β ρ → Nat}
  {verifyKeys : List κ} {store : Store ι β ρ κ} {recorded : List (Message ι β ρ)}

theorem updates_reply (id : ι) (reply : Reply ρ) :
    LastWins.Updates (fun message : Message ι β ρ => message.id) id
      fun message => if message.id = id then message.replied reply else message where
  keeps_key message := by split_ifs <;> rfl
  keeps_others message other := if_neg other

theorem rewriteRows_messages (rows : List (Row ι β ρ κ)) (id : ι) (reply : Reply ρ) (signer : κ) :
    (rewriteRows rows id reply signer).map (·.message)
      = (rows.map (·.message)).map fun message =>
          if message.id = id then message.replied reply else message := by
  rw [rewriteRows, List.map_map, List.map_map]
  refine List.map_congr_left fun row _ => ?_
  by_cases here : row.message.id = id
  · simp [here]
  · simp [here]

theorem rewriteRows_ids (rows : List (Row ι β ρ κ)) (id : ι) (reply : Reply ρ) (signer : κ) :
    (rewriteRows rows id reply signer).map (·.message.id) = rows.map (·.message.id) := by
  have same := congrArg (List.map (·.id)) (rewriteRows_messages rows id reply signer)
  rw [LastWins.map_key_updated (updates_reply id reply)] at same
  simpa [List.map_map, Function.comp_def] using same

/-- **A reply in the live file.** -/
theorem rewrite_keeps {id : ι} {reply : Reply ρ} {signer : κ}
    (keeps : Keeps bytes verifyKeys store recorded) (accepted : Accepted verifyKeys signer)
    (present : id ∈ store.live.rows.map (·.message.id))
    (noticed : Noticed bytes verifyKeys store (rewriteRows store.live.rows id reply signer)
      reply.repliedAt) :
    Keeps bytes verifyKeys
      { store with
        live :=
          { rows := rewriteRows store.live.rows id reply signer, mtimeMs := reply.repliedAt } }
      (recordReply recorded id reply) where
  accepted row member := by
    rcases List.mem_append.mp member with archived | live
    · exact keeps.accepted row (List.mem_append_left _ archived)
    · obtain ⟨old, inside, rfl⟩ := List.mem_map.mp live
      by_cases here : old.message.id = id
      · rw [if_pos here]
        exact accepted
      · rw [if_neg here]
        exact keeps.accepted old (List.mem_append_right _ inside)
  merged := by
    have known : id ∈ (store.live.rows.map (·.message)).map (·.id) := by
      rw [List.map_map]
      exact present
    rw [Store.rows, List.map_append, rewriteRows_messages,
      LastWins.merge_updated (updates_reply id reply) known, ← List.map_append,
      show store.archives.flatMap (·.2.rows) ++ store.live.rows = store.rows from rfl, keeps.merged]
    rfl
  apart := by
    show ((rewriteRows store.live.rows id reply signer).map (·.message.id)).Nodup
    rw [rewriteRows_ids]
    exact keeps.apart
  content := by
    obtain ⟨contentOf, old⟩ := keeps.content
    refine ⟨contentOf, fun row member => ?_⟩
    rcases List.mem_append.mp member with archived | live
    · exact old row (List.mem_append_left _ archived)
    · obtain ⟨before, inside, rfl⟩ := List.mem_map.mp live
      have same := old before (List.mem_append_right _ inside)
      by_cases here : before.message.id = id
      · rw [if_pos here]
        exact same
      · rw [if_neg here]
        exact same
  sound := keeps.sound.write noticed
  stamps := keeps.stamps

theorem replied_eq {first second : Message ι β ρ} (id : first.id = second.id)
    (content : first.content = second.content) (reply : Reply ρ) :
    first.replied reply = second.replied reply := by
  simp [Message.replied, id, content]

theorem compensate_keeps {original : Message ι β ρ} {reply : Reply ρ} {signer : κ}
    (keeps : Keeps bytes verifyKeys store recorded) (accepted : Accepted verifyKeys signer)
    (absent : original.id ∉ store.live.rows.map (·.message.id))
    (archived : original ∈ store.rows.map (·.message)) (noticed : Noticed bytes verifyKeys store
      (store.live.rows ++ [{ message := original.replied reply, signer := signer }]) reply.repliedAt)
    (archives : ArchivesLast bytes store
      (store.live.rows ++ [{ message := original.replied reply, signer := signer }])
      reply.repliedAt) :
    Keeps bytes verifyKeys
      (appendRow bytes store { message := original.replied reply, signer := signer }
        reply.repliedAt)
      (recordReply recorded original.id reply) := by
  obtain ⟨contentOf, old⟩ := keeps.content
  obtain ⟨copy, inside, rfl⟩ := List.mem_map.mp archived
  refine append_keeps keeps accepted absent ⟨contentOf, old copy inside, old⟩ ?_ noticed archives
  rw [← keeps.merged]
  refine LastWins.merge_known (updates_reply copy.message.id reply) ?_
  -- the last row of the id differs from the archived one by its reply at most
  have present : copy.message.id ∈ (store.rows.map (·.message)).map (·.id) :=
    List.mem_map_of_mem archived
  obtain ⟨last, found⟩ := Option.isSome_iff_exists.mp (LastWins.latest_isSome.mpr present)
  have here : last.id = copy.message.id := by simpa using List.find?_some found
  obtain ⟨row, stored, rfl⟩ := List.mem_map.mp
    (List.mem_reverse.mp (List.mem_of_find?_eq_some found))
  have same : row.message.content = copy.message.content := by
    refine Option.some.inj ?_
    rw [← old row stored, ← old copy inside, here]
  rw [replied_id, found, Option.map_some, if_pos here, replied_eq here same]

/-- **A reply** keeps what a reader gets, and marks its message. -/
theorem reply_keeps [DecidableEq β] [DecidableEq ρ] {history : History ι β ρ κ} {id : ι}
    {reply : Reply ρ} {signer : κ} (keeps : Keeps bytes verifyKeys history.store history.recorded)
    (orderly : Orderly bytes verifyKeys history (.reply id reply signer)) :
    Keeps bytes verifyKeys
      (updateMailboxMessageReply bytes verifyKeys history.store id reply signer)
      (recordReply history.recorded id reply) := by
  obtain ⟨accepted, writes⟩ := orderly
  have any : (history.store.live.rows.any fun row => row.message.id = id) = true
      ↔ id ∈ history.store.live.rows.map (·.message.id) := by
    simp
  unfold updateMailboxMessageReply
  by_cases present : id ∈ history.store.live.rows.map (·.message.id)
  · rw [if_pos present] at writes
    rw [if_pos (any.mpr present)]
    exact rewrite_keeps keeps accepted present writes
  · rw [if_neg present] at writes
    rw [if_neg fun found => present (any.mp found)]
    obtain ⟨read, sound⟩ := keeps.read_archives keeps.sound
    have cached := keeps.withCache sound
    simp only [read]
    cases found : ((history.store.archives.flatMap (·.2.rows)).map (·.message)).find?
        fun message => message.id = id with
    | some original =>
      have here : original.id = id := by simpa using List.find?_some found
      subst here
      have archived : original ∈ history.store.rows.map (·.message) := by
        rw [Store.rows, List.map_append]
        exact List.mem_append_left _ (List.mem_of_find?_eq_some found)
      -- the recorded message has the content of the archived one
      have known : original.id ∈ history.recorded.map (·.id) := by
        rw [keeps.mem_recorded, ← Function.comp_def, ← List.map_map]
        exact List.mem_map_of_mem archived
      obtain ⟨message, kept, same⟩ := List.mem_map.mp known
      have equal : message.replied reply = original.replied reply := by
        obtain ⟨contentOf, old⟩ := keeps.content
        obtain ⟨copy, inside, rfl⟩ := List.mem_map.mp archived
        rw [← keeps.merged] at kept
        obtain ⟨row, stored, rfl⟩ := List.mem_map.mp (LastWins.mem_merge kept)
        refine replied_eq same (Option.some.inj ?_) reply
        rw [← old row stored, ← old copy inside, same]
      have write := writes message kept same
      rw [equal] at write
      have live : StoredPath.live ∉ history.store.archiveFiles.map (·.1) := by
        simp [Store.archiveFiles]
      refine compensate_keeps cached accepted present archived (fun hit cachedHit => ?_) write.2
      exact write.1 hit (get_readFiles live cachedHit)
    | none =>
      have unknown : ∀ message ∈ history.recorded, message.id ≠ id := by
        intro message kept here
        have stored : id ∈ history.store.rows.map (·.message.id) :=
          keeps.mem_recorded.mp (List.mem_map.mpr ⟨message, kept, here⟩)
        rw [Store.rows, List.map_append] at stored
        rcases List.mem_append.mp stored with archived | live
        · obtain ⟨row, inside, same⟩ := List.mem_map.mp archived
          have missing := List.find?_eq_none.mp found row.message (List.mem_map_of_mem inside)
          exact missing (decide_eq_true same)
        · exact present live
      have same : recordReply history.recorded id reply = history.recorded := by
        refine (List.map_congr_left fun message kept => ?_).trans (List.map_id _)
        exact if_neg (unknown message kept)
      rw [same]
      exact cached

end

section

variable {ι β ρ κ : Type} [DecidableEq ι] [DecidableEq β] [DecidableEq ρ] [DecidableEq κ]
  {bytes : Message ι β ρ → Nat} {verifyKeys : List κ}

theorem step_keeps (history : History ι β ρ κ) (operation : Operation ι β ρ κ)
    (keeps : Keeps bytes verifyKeys history.store history.recorded)
    (orderly : Orderly bytes verifyKeys history operation) :
    Keeps bytes verifyKeys (history.step bytes verifyKeys operation).store
      (history.step bytes verifyKeys operation).recorded := by
  cases operation with
  | append message signer now =>
    obtain ⟨accepted, fresh, noticed, archives⟩ := orderly
    exact append_new_keeps keeps accepted fresh noticed archives
  | reply id reply signer => exact reply_keeps keeps orderly
  | read => exact keeps.read.2

/-- **A reader gets every message once**, in order and with its last reply, in every run of orderly
operations on a new mailbox. -/
theorem reads_conserve (operations : List (Operation ι β ρ κ))
    (orderly : ∀ taken ∈ Runs.transitions (History.step bytes verifyKeys) {} operations,
      Orderly bytes verifyKeys taken.before taken.action) :
    ∀ taken ∈ Runs.transitions (History.step bytes verifyKeys) {} operations,
      ReadsConserve bytes verifyKeys taken.before ∧ ReadsConserve bytes verifyKeys taken.after := by
  intro taken member
  obtain ⟨before, after⟩ := Runs.forall_transitions (History.step bytes verifyKeys)
    (fun history operation (keeps : Keeps bytes verifyKeys history.store history.recorded) =>
      step_keeps history operation keeps) start_keeps orderly taken member
  exact ⟨before.read.1, after.read.1⟩

end

def longMessage (id : Nat) : Message Nat Nat String := { id := id, content := perFileThresholdBytes }

def shortMessage : Message Nat Nat String := { id := 3, content := 200 }

def appendAt (message : Message Nat Nat String) (now : Nat) : Operation Nat Nat String Bool :=
  .append message true now

def replyAt (id : Nat) (content : String) (now : Nat) : Operation Nat Nat String Bool :=
  .reply id { repliedAt := now, replyContent := content } true

theorem reads_conserve_replies :
    let operations :=
      [appendAt (longMessage 1) 10, .read, appendAt shortMessage 20, replyAt 1 "no" 30, .read,
        replyAt 3 "later" 40, replyAt 1 "yes" 50]
    (Runs.finish (History.step (·.content) [true]) {} operations).recorded
        = [(longMessage 1).replied { repliedAt := 50, replyContent := "yes" },
          shortMessage.replied { repliedAt := 40, replyContent := "later" }] ∧
      ∀ taken ∈ Runs.transitions (History.step (·.content) [true]) {} operations,
        ReadsConserve (·.content) [true] taken.before ∧
          ReadsConserve (·.content) [true] taken.after := by
  intro operations
  exact ⟨by decide +kernel, reads_conserve operations (by decide +kernel)⟩

/-- **Two rotations within a millisecond**: the second archive takes the name of the first one, and
the first message is gone. -/
theorem colliding_archives_lose_messages :
    let operations := [appendAt (longMessage 1) 10, appendAt (longMessage 2) 10]
    let history := Runs.finish (History.step (·.content) [true]) {} operations
    history.recorded = [longMessage 1, longMessage 2] ∧
      (safeReadMailboxFile (·.content) [true] history.store).1 = [longMessage 2] ∧
      ¬ ∀ taken ∈ Runs.transitions (History.step (·.content) [true]) {} operations,
          ReadsConserve (·.content) [true] taken.before ∧
            ReadsConserve (·.content) [true] taken.after := by
  decide +kernel

end PiCrew.Mailbox.Replies
