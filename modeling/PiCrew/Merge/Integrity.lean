/-
**What a whole merge can do to a settled task.**

The gate judges each update against the version held at that moment, so the law of a whole merge is
the closure of the accepted status changes. One lemma says what one accepted update does to a
settled status (`shouldMerge_settled`, `shouldMerge_unsuccessful`, `shouldMerge_completed`), and
the invariant rule of guarded merges carries it over any list of results:

* a completed task becomes failed or needs-attention only if some result carries a `skipped` or a
  `cancelled` version of it (`mergedVersion_stays_completed`).

`skipped` and `cancelled` are way stations: each single step is accepted on purpose, and two of
them make up a flip that the table rejects as one step (`merge_flips_through_detours`).
-/

import PiCrew.Merge.Gate

namespace PiCrew.Merge

open PiCrew.State PiCrew.Scheduling

section

variable {dateMs : String → Option Int} {current updated : TeamTaskState}

/-- **Terminal preservation**, for one accepted update. -/
theorem shouldMerge_settled (accepted : shouldMergeTaskUpdate dateMs current updated = true)
    (settled : isTerminalTaskStatus current.status = true) :
    isTerminalTaskStatus updated.status = true := by
  have allowed := shouldMerge_not_rejected accepted
  revert settled allowed
  generalize current.status = origin
  generalize updated.status = target
  revert origin target
  decide

def unsuccessful (status : TeamTaskStatus) : Bool :=
  status == .failed || status == .cancelled || status == .needsAttention

/-- **An unsuccessful task stays unsuccessful or is skipped**, for one accepted update. -/
theorem shouldMerge_unsuccessful (accepted : shouldMergeTaskUpdate dateMs current updated = true)
    (lost : unsuccessful current.status = true) :
    unsuccessful updated.status = true ∨ updated.status = .skipped := by
  have allowed := shouldMerge_not_rejected accepted
  revert lost allowed
  generalize current.status = origin
  generalize updated.status = target
  revert origin target
  decide

/-- **A completed task stays completed, is skipped or is cancelled**, for one accepted update. -/
theorem shouldMerge_completed (accepted : shouldMergeTaskUpdate dateMs current updated = true)
    (success : current.status = .completed) :
    updated.status = .completed ∨ updated.status = .skipped ∨ updated.status = .cancelled := by
  have allowed := shouldMerge_not_rejected accepted
  rw [success] at allowed
  revert allowed
  generalize updated.status = target
  revert target
  decide

end

section

variable {dateMs : String → Option Int} {results : List WorkerResult} {held : TeamTaskState}

def Carries (results : List WorkerResult) (id : String) (status : TeamTaskStatus) : Prop :=
  ∃ result ∈ results, ∃ task ∈ result.tasks,
    task.id = id ∧ task.status = status ∧ truthyText task.finishedAt = true

theorem carries_of_accepted {current updated : TeamTaskState} {id : String}
    (member : updated ∈ updatesOf results id)
    (accepted : shouldMergeTaskUpdate dateMs current updated = true)
    (settled : isNonTerminalTaskStatus updated.status = false) :
    Carries results id updated.status := by
  obtain ⟨⟨result, present, inside⟩, same⟩ := mem_updatesOf.mp member
  exact ⟨result, present, updated, inside, same, rfl, shouldMerge_finished accepted settled⟩

theorem mergedVersion_settled (settled : isTerminalTaskStatus held.status = true) :
    isTerminalTaskStatus (mergedVersion dateMs results held).status = true :=
  GuardedMerge.offers_keep (shouldMergeTaskUpdate dateMs)
    (fun version => isTerminalTaskStatus version.status = true)
    (fun _ good _ _ accepted => shouldMerge_settled accepted good) settled

theorem mergedVersion_not_completed (lost : unsuccessful held.status = true)
    (completed : (mergedVersion dateMs results held).status = .completed) :
    Carries results held.id .skipped := by
  by_contra uncarried
  have stays : unsuccessful (mergedVersion dateMs results held).status = true := by
    refine GuardedMerge.offers_keep (shouldMergeTaskUpdate dateMs)
      (fun version => unsuccessful version.status = true)
      (fun current good updated member accepted => ?_) lost
    rcases shouldMerge_unsuccessful accepted good with still | skipped
    · exact still
    · have carried := carries_of_accepted member accepted (by rw [skipped]; rfl)
      exact absurd (skipped ▸ carried) uncarried
  rw [completed] at stays
  cases stays

theorem mergedVersion_stays_completed (success : held.status = .completed)
    (lost : (mergedVersion dateMs results held).status ≠ .completed) :
    Carries results held.id .skipped ∨ Carries results held.id .cancelled := by
  by_contra uncarried
  refine lost (GuardedMerge.offers_keep (shouldMergeTaskUpdate dateMs)
    (fun version => version.status = .completed)
    (fun current good updated member accepted => ?_) success)
  rcases shouldMerge_completed accepted good with still | skipped | cancelled
  · exact still
  · have carried := carries_of_accepted member accepted (by rw [skipped]; rfl)
    exact absurd (Or.inl (skipped ▸ carried)) uncarried
  · have carried := carries_of_accepted member accepted (by rw [cancelled]; rfl)
    exact absurd (Or.inr (cancelled ▸ carried)) uncarried

/-- **Completed integrity of a whole merge.** For every base and every list of results: a settled
task stays settled; one that failed, was cancelled or needs attention is completed by the merge
only if some result carries a `skipped` version of it with a finish time; and a completed one comes
to have failed or to need attention only if some result carries a `skipped` or `cancelled` version
of it with a finish time. -/
theorem merge_completed_integrity (dateMs : String → Option Int) (base : List TeamTaskState)
    (results : List WorkerResult) (held merged : TeamTaskState)
    (found : (taskById base).get held.id = some held)
    (member : merged ∈ mergeTaskUpdatesPreservingTerminal dateMs base results)
    (same : merged.id = held.id) :
    (isTerminalTaskStatus held.status = true → isTerminalTaskStatus merged.status = true) ∧
      (held.status = .failed ∨ held.status = .cancelled ∨ held.status = .needsAttention →
        merged.status = .completed → Carries results held.id .skipped) ∧
      (held.status = .completed → merged.status = .failed ∨ merged.status = .needsAttention →
        Carries results held.id .skipped ∨ Carries results held.id .cancelled) := by
  obtain ⟨index, rfl⟩ := mem_merge found member same
  rw [withQueue_status]
  refine ⟨mergedVersion_settled, ?_, ?_⟩
  · intro lost completed
    refine mergedVersion_not_completed ?_ completed
    rcases lost with status | status | status <;> rw [status] <;> rfl
  · intro success lost
    have left : (mergedVersion dateMs results held).status ≠ .completed := by
      rcases lost with status | status <;> rw [status] <;> decide
    exact mergedVersion_stays_completed success left

/-- Two instants, read as the source reads them. -/
def sampleDateMs (text : String) : Option Int :=
  if text = "2026-01-01T00:00:00.000Z" then some 1767225600000
  else if text = "2026-01-01T00:01:00.000Z" then some 1767225660000
  else none

def versionOf (status : TeamTaskStatus) (finishedAt : Option String) : TeamTaskState :=
  { id := "task", status := status, finishedAt := finishedAt }

def detourResults : List WorkerResult := [⟨[versionOf .skipped (some "2026-01-01T00:00:00.000Z")]⟩,
    ⟨[versionOf .completed (some "2026-01-01T00:01:00.000Z")]⟩]

theorem merge_completed_integrity_failed : Carries detourResults "task" .skipped :=
  (merge_completed_integrity sampleDateMs [versionOf .failed none] detourResults
    (versionOf .failed none) (versionOf .completed (some "2026-01-01T00:01:00.000Z"))
    (by decide) (by decide) rfl).2.1 (Or.inl rfl) rfl

/-- **Two accepted steps make up a rejected flip**: a failed task ends completed through a skipped
version, and a completed one ends failed through a cancelled version. -/
theorem merge_flips_through_detours :
    (mergeTaskUpdatesPreservingTerminal sampleDateMs [versionOf .failed none] detourResults).map
        (·.status)
      = [.completed] ∧
    (mergeTaskUpdatesPreservingTerminal sampleDateMs
        [versionOf .completed (some "2026-01-01T00:00:00.000Z")]
        [⟨[versionOf .cancelled (some "2026-01-01T00:00:00.000Z")]⟩,
          ⟨[versionOf .failed (some "2026-01-01T00:01:00.000Z")]⟩]).map (·.status)
      = [.failed] ∧
    (TeamTaskStatus.failed, TeamTaskStatus.completed) ∈ rejectedStatusMergeTransitions ∧
    (TeamTaskStatus.completed, TeamTaskStatus.failed) ∈ rejectedStatusMergeTransitions := by
  decide

end

end PiCrew.Merge
