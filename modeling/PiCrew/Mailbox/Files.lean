/-
**The files of a mailbox.**

`state/coordination/mailbox.ts`. Each recipient has a file of rows per direction. A file that has grown
past its threshold becomes an archive, and the newest archives are kept. A reader skips the rows whose
signature it cannot verify, unless it knows no key at all, and merges what is left by id, the last row
of an id winning.

* `mem_safeReadMailboxFile`, `mem_readAllInboxMessages` — what is read stands in a file.

A row is modelled by what its delivery depends on. Rows that do not parse are skipped by every reader,
and are not part of the model.
-/

import PiCrew.Mailbox.Delivery

namespace PiCrew.Mailbox

section

inductive MailboxDirection where
  | inbox
  | outbox
  deriving DecidableEq, Repr

/-- The file of a recipient: a task, or the run itself. -/
structure MailboxFile (τ : Type) where
  direction : MailboxDirection
  taskId : Option τ
  deriving DecidableEq

/-- A row of a mailbox file, with the key that it was signed with. -/
structure MailboxRow (ι κ : Type) where
  id : ι
  createdAt : Nat
  status : MailboxMessageStatus
  bytes : Nat
  signer : κ
  deriving DecidableEq

/-- A live file and its archives, the oldest first. -/
structure MailboxLog (ι κ : Type) where
  archives : List (List (MailboxRow ι κ)) := []
  live : List (MailboxRow ι κ) := []

def perFileThresholdBytes : Nat := 10 * 1024 * 1024

def maxArchivesPerDirection : Nat := 10

variable {τ ι κ : Type}

def MailboxLog.rows (log : MailboxLog ι κ) : List (MailboxRow ι κ) :=
  log.archives.flatten ++ log.live

def pruneOldMailboxArchives (archives : List (List (MailboxRow ι κ))) :
    List (List (MailboxRow ι κ)) :=
  archives.drop (archives.length - maxArchivesPerDirection)

def rotateMailboxFileIfNeeded (log : MailboxLog ι κ) : MailboxLog ι κ :=
  if (log.live.map (·.bytes)).sum < perFileThresholdBytes then log
  else { archives := pruneOldMailboxArchives (log.archives ++ [log.live]), live := [] }

def MailboxLog.append (log : MailboxLog ι κ) (row : MailboxRow ι κ) : MailboxLog ι κ :=
  rotateMailboxFileIfNeeded { log with live := log.live ++ [row] }

variable [DecidableEq κ] (verifyKeys : List κ)

def parseMailboxFile (rows : List (MailboxRow ι κ)) : List (MailboxRow ι κ) :=
  rows.filter fun row => verifyKeys.isEmpty || row.signer ∈ verifyKeys

variable [DecidableEq ι]

def mergeById (rows : List (MailboxRow ι κ)) : List (MailboxRow ι κ) :=
  (rows.foldl (fun merged row => merged.put row.id row)
    ({} : Ledger ι (MailboxRow ι κ))).entries.map (·.2)

def safeReadMailboxFile (log : MailboxLog ι κ) : List (MailboxRow ι κ) :=
  let live := parseMailboxFile verifyKeys log.live
  if log.archives.isEmpty then live
  else mergeById (log.archives.flatMap (parseMailboxFile verifyKeys) ++ live)

def readAllInboxMessages (logs : MailboxFile τ → MailboxLog ι κ) (tasks : List τ) :
    List (MailboxRow ι κ) :=
  ((none :: tasks.map some).flatMap fun taskId =>
      safeReadMailboxFile verifyKeys (logs { direction := .inbox, taskId := taskId })).insertionSort
    fun first second => first.createdAt ≤ second.createdAt

end

section

variable {τ ι κ : Type}

variable {row : MailboxRow ι κ}

theorem mem_rows_rotate {log : MailboxLog ι κ}
    (member : row ∈ (rotateMailboxFileIfNeeded log).rows) : row ∈ log.rows := by
  unfold rotateMailboxFileIfNeeded at member
  by_cases small : (log.live.map (·.bytes)).sum < perFileThresholdBytes
  · rw [if_pos small] at member
    exact member
  · rw [if_neg small] at member
    rcases List.mem_append.mp member with archived | live
    · obtain ⟨archive, kept, inside⟩ := List.mem_flatten.mp archived
      rcases List.mem_append.mp (List.mem_of_mem_drop kept) with older | newest
      · exact List.mem_append_left _ (List.mem_flatten.mpr ⟨archive, older, inside⟩)
      · rw [List.mem_singleton.mp newest] at inside
        exact List.mem_append_right _ inside
    · cases live

theorem mem_rows_append {log : MailboxLog ι κ} {row other : MailboxRow ι κ}
    (member : other ∈ (log.append row).rows) : other ∈ log.rows ∨ other = row := by
  rcases List.mem_append.mp (mem_rows_rotate member) with archived | live
  · exact Or.inl (List.mem_append_left _ archived)
  · rcases List.mem_append.mp live with old | new
    · exact Or.inl (List.mem_append_right _ old)
    · exact Or.inr (List.mem_singleton.mp new)

variable [DecidableEq ι]

theorem mem_mergeById {rows : List (MailboxRow ι κ)} (member : row ∈ mergeById rows) : row ∈ rows := by
  have fold : ∀ (merged : Ledger ι (MailboxRow ι κ)) (entry : ι × MailboxRow ι κ),
      entry ∈ (rows.foldl (fun merged row => merged.put row.id row) merged).entries →
        entry ∈ merged.entries ∨ entry.2 ∈ rows := by
    clear member
    induction rows with
    | nil => exact fun merged entry there => Or.inl there
    | cons first rest ih =>
      intro merged entry there
      rcases ih (merged.put first.id first) entry there with put | later
      · have held := Ledger.get_eq_some_iff.mpr put
        rw [Ledger.get_put] at held
        by_cases here : entry.1 = first.id
        · rw [if_pos here] at held
          rw [← Option.some.inj held]
          exact Or.inr List.mem_cons_self
        · rw [if_neg here] at held
          exact Or.inl (Ledger.get_eq_some_iff.mp held)
      · exact Or.inr (List.mem_cons_of_mem _ later)
  obtain ⟨entry, there, rfl⟩ := List.mem_map.mp member
  exact (fold {} entry there).resolve_left List.not_mem_nil

variable [DecidableEq κ] {verifyKeys : List κ}

/-- **What is read of a file stands in it.** -/
theorem mem_safeReadMailboxFile {log : MailboxLog ι κ}
    (member : row ∈ safeReadMailboxFile verifyKeys log) : row ∈ log.rows := by
  unfold safeReadMailboxFile at member
  by_cases none : log.archives.isEmpty
  · rw [if_pos none] at member
    exact List.mem_append_right _ (List.mem_of_mem_filter member)
  · rw [if_neg none] at member
    rcases List.mem_append.mp (mem_mergeById member) with archived | live
    · obtain ⟨archive, kept, inside⟩ := List.mem_flatMap.mp archived
      exact List.mem_append_left _
        (List.mem_flatten.mpr ⟨archive, kept, List.mem_of_mem_filter inside⟩)
    · exact List.mem_append_right _ (List.mem_of_mem_filter live)

/-- **What is read of the inboxes stands in one.** -/
theorem mem_readAllInboxMessages {logs : MailboxFile τ → MailboxLog ι κ} {tasks : List τ}
    (member : row ∈ readAllInboxMessages verifyKeys logs tasks) :
    ∃ taskId, row ∈ (logs { direction := .inbox, taskId := taskId }).rows := by
  have sorted := (List.perm_insertionSort
    (fun first second : MailboxRow ι κ => first.createdAt ≤ second.createdAt) _).mem_iff.mp member
  obtain ⟨taskId, -, inside⟩ := List.mem_flatMap.mp sorted
  exact ⟨taskId, mem_safeReadMailboxFile inside⟩

end

end PiCrew.Mailbox
