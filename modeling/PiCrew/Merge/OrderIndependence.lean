/-
**Merging the results of a batch in any order.**

Every worker of a batch owns one task and returns a whole task list: its own settled version, and a
copy of every sibling as it stood when the batch started. `OwnedResult` carries these facts as
fields. What becomes of a task under the copies and the owner's update depends on what the base
holds of it:

* a settled task that nobody owns is left alone (`mergedVersion_unowned_settled`);
* a task under way that nobody owns takes the looks of its copies or keeps its own, in every order
  alike as long as the copies look alike (`outcome_mergedVersion_unowned`). Copies that differ are
  merged in the order they come, and a queued copy does set a running task back
  (`merge_order_matters_for_stale_copies`).

The last two facts rest on `shouldMerge_judged`: the gate judges an update that differs in status,
finish time or result artifact by these three alone.
-/

import PiCrew.Merge.Integrity

namespace PiCrew.Merge

open PiCrew.State PiCrew.Scheduling

section

variable {dateMs : String → Option Int}

def outcome (task : TeamTaskState) : TeamTaskStatus × Option String × Option ArtifactDescriptor :=
  (task.status, task.finishedAt, task.resultArtifact)

@[simp] theorem outcome_withQueue (task : TeamTaskState) (index : TaskGraphIndex) :
    outcome (withQueue task index) = outcome task := by
  rw [withQueue_eq]
  rfl

def bareTask (looks : TeamTaskStatus × Option String × Option ArtifactDescriptor) :
    TeamTaskState :=
  { id := "", status := looks.1, finishedAt := looks.2.1, resultArtifact := looks.2.2 }

def outcomeVerdict (dateMs : String → Option Int)
    (current updated : TeamTaskStatus × Option String × Option ArtifactDescriptor) : Bool :=
  shouldMergeTaskUpdate dateMs (bareTask current) (bareTask updated)

theorem hasMeaningfulUpdate_of_outcome {current updated : TeamTaskState}
    (differ : outcome current ≠ outcome updated) : hasMeaningfulUpdate current updated = true := by
  by_contra idle
  simp only [hasMeaningfulUpdate, Bool.or_eq_true, not_or, bne_iff_ne, ne_eq, not_not,
    Bool.and_eq_true, not_and] at idle
  obtain ⟨⟨⟨⟨⟨⟨⟨⟨⟨⟨⟨status, finished⟩, -⟩, present⟩, artifact⟩, -⟩, -⟩, -⟩, -⟩, -⟩, -⟩, -⟩ := idle
  refine differ ?_
  unfold outcome
  rw [status, finished]
  cases held : updated.resultArtifact with
  | none =>
    rw [held, Option.isSome_none, eq_comm, Option.isSome_eq_false_iff,
      Option.isNone_iff_eq_none] at present
    rw [present]
  | some descriptor =>
    rw [← held, artifact (by rw [held, Option.isSome_some])]

/-- **The gate judges an update that looks different by its looks.** -/
theorem shouldMerge_judged (current updated : TeamTaskState)
    (differ : outcome current ≠ outcome updated) :
    shouldMergeTaskUpdate dateMs current updated
      = outcomeVerdict dateMs (outcome current) (outcome updated) := by
  have bare : hasMeaningfulUpdate (bareTask (outcome current)) (bareTask (outcome updated)) = true :=
    hasMeaningfulUpdate_of_outcome differ
  unfold outcomeVerdict shouldMergeTaskUpdate
  rw [bare, hasMeaningfulUpdate_of_outcome differ]
  rfl

end

section

variable {dateMs : String → Option Int}

/-- **The result of a worker that owns one task**: its own settled version with a proper finish
time, and copies of other tasks taken before they settled. -/
structure OwnedResult (dateMs : String → Option Int) extends WorkerResult where
  owned : TeamTaskState
  own : tasks.filter (fun task => task.id == owned.id) = [owned]
  settled : isTerminalTaskStatus owned.status = true
  finished : isFinite (safeFinishedAt dateMs owned) = true
  copies : ∀ copy ∈ tasks, copy.id ≠ owned.id → copy.status = .queued ∨ copy.status = .running

def NotLater (dateMs : String → Option Int) (version owned : TeamTaskState) : Prop :=
  isFinite (safeFinishedAt dateMs version) = true →
    (safeFinishedAt dateMs owned).before (safeFinishedAt dateMs version) = false

theorem shouldMerge_settled_rejects {current updated : TeamTaskState}
    (settled : isTerminalTaskStatus current.status = true)
    (underway : updated.status = .queued ∨ updated.status = .running) :
    shouldMergeTaskUpdate dateMs current updated = false := by
  cases verdict : shouldMergeTaskUpdate dateMs current updated with
  | false => rfl
  | true =>
    have still := shouldMerge_settled verdict settled
    rcases underway with status | status <;> rw [status] at still <;> cases still

theorem shouldMerge_owner {current : TeamTaskState} (result : OwnedResult dateMs)
    (underway : isTerminalTaskStatus current.status = false)
    (earlier : NotLater dateMs current result.owned) :
    shouldMergeTaskUpdate dateMs current result.owned = true := by
  have settled := result.settled
  have finished := result.finished
  have stamped := truthyText_of_isFinite finished
  have differ : result.owned.status ≠ current.status := by
    intro same
    rw [same, underway] at settled
    cases settled
  have meaningful : hasMeaningfulUpdate current result.owned = true := by
    simp [hasMeaningfulUpdate, differ]
  have allowed : rejectedStatusMergeTransitions.contains
      (statusMergeKey current.status result.owned.status) = false := by
    revert settled underway
    generalize current.status = origin
    generalize result.owned.status = target
    revert origin target
    decide
  have apart : decide (current.status = result.owned.status) = false :=
    decide_eq_false fun same => differ same.symm
  unfold shouldMergeTaskUpdate
  rw [meaningful, stamped, allowed, apart]
  simp only [Bool.false_eq_true, if_false, Bool.not_true, Bool.false_and]
  split
  · rfl
  split
  · rename_i unreplaced later
    simp only [Bool.and_eq_true] at later
    have proper : isFinite (safeFinishedAt dateMs current) = true := by
      by_contra malformed
      exact unreplaced (by simp [later.1.1, later.1.2, isMalformedFinishedAtReplacement, malformed,
        finished])
    rw [earlier proper] at later
    cases later.2
  · rfl

/-- **A batch of results over a base.** The owners are distinct. No version of an owned task that
is still under way, in the base or among the copies, finished later than the owner's. The copies of
a task under way that nobody owns look alike. -/
structure ParallelBatch (base : List TeamTaskState) (results : List (OwnedResult dateMs)) :
    Prop where
  distinct : (results.map (·.owned.id)).Nodup
  earlier : ∀ result ∈ results, ∀ version : TeamTaskState,
    (version ∈ base ∨ ∃ other ∈ results, version ∈ other.tasks) →
      version.id = result.owned.id → isTerminalTaskStatus version.status = false →
      NotLater dateMs version result.owned
  alike : ∀ held ∈ base, (∀ result ∈ results, result.owned.id ≠ held.id) →
    isTerminalTaskStatus held.status = false →
    ∀ first ∈ updatesOf (results.map (·.toWorkerResult)) held.id,
      ∀ second ∈ updatesOf (results.map (·.toWorkerResult)) held.id, outcome first = outcome second

variable {results : List (OwnedResult dateMs)}

theorem mem_ownedUpdates {id : String} {task : TeamTaskState} :
    task ∈ updatesOf (results.map (·.toWorkerResult)) id
      ↔ (∃ result ∈ results, task ∈ result.tasks) ∧ task.id = id := by
  rw [mem_updatesOf]
  simp

theorem copy_of_unowned {id : String}
    (unowned : ∀ result ∈ results, result.owned.id ≠ id) {task : TeamTaskState}
    (member : task ∈ updatesOf (results.map (·.toWorkerResult)) id) :
    task.status = .queued ∨ task.status = .running := by
  obtain ⟨⟨result, present, inside⟩, same⟩ := mem_ownedUpdates.mp member
  exact result.copies task inside fun equal => unowned result present (equal.symm.trans same)

theorem underway_of_copy {task : TeamTaskState}
    (copied : task.status = .queued ∨ task.status = .running) :
    isTerminalTaskStatus task.status = false := by
  rcases copied with status | status <;> rw [status] <;> rfl

theorem updatesOf_owned (distinct : (results.map (·.owned.id)).Nodup) {result : OwnedResult dateMs}
    (member : result ∈ results) :
    ∃ first second : List TeamTaskState, updatesOf (results.map (·.toWorkerResult)) result.owned.id
        = first ++ result.owned :: second ∧
      ∀ task ∈ first ++ second, (task.status = .queued ∨ task.status = .running) ∧
        task.id = result.owned.id ∧ ∃ other ∈ results, task ∈ other.tasks := by
  obtain ⟨before, after, rfl⟩ := List.append_of_mem member
  rw [List.map_append, List.map_cons, List.nodup_append] at distinct
  obtain ⟨-, distinctAfter, apart⟩ := distinct
  refine ⟨updatesOf (before.map (·.toWorkerResult)) result.owned.id,
    updatesOf (after.map (·.toWorkerResult)) result.owned.id, ?_, ?_⟩
  · have own := result.own
    simp only [updatesOf, List.map_append, List.map_cons, List.flatMap_append, List.flatMap_cons,
      List.filter_append, own, List.singleton_append]
  · intro task present
    rcases List.mem_append.mp present with inside | inside
    · have unowned : ∀ other ∈ before, other.owned.id ≠ result.owned.id := fun other there =>
        apart _ (List.mem_map.mpr ⟨other, there, rfl⟩) _ List.mem_cons_self
      obtain ⟨⟨other, there, carried⟩, same⟩ := mem_ownedUpdates.mp inside
      exact ⟨copy_of_unowned unowned inside, same, other,
        List.mem_append.mpr (Or.inl there), carried⟩
    · have unowned : ∀ other ∈ after, other.owned.id ≠ result.owned.id := by
        intro other there equal
        exact (List.nodup_cons.mp distinctAfter).1 (List.mem_map.mpr ⟨other, there, equal⟩)
      obtain ⟨⟨other, there, carried⟩, same⟩ := mem_ownedUpdates.mp inside
      exact ⟨copy_of_unowned unowned inside, same, other,
        List.mem_append.mpr (Or.inr (List.mem_cons_of_mem _ there)), carried⟩

end

section

variable {dateMs : String → Option Int} {base : List TeamTaskState}
  {results : List (OwnedResult dateMs)} {held : TeamTaskState}

theorem mergedVersion_owned (batch : ParallelBatch base results) (listed : held ∈ base)
    {result : OwnedResult dateMs} (member : result ∈ results) (same : held.id = result.owned.id)
    (underway : isTerminalTaskStatus held.status = false) :
    mergedVersion dateMs (results.map (·.toWorkerResult)) held = result.owned := by
  obtain ⟨first, second, split, copied⟩ := updatesOf_owned batch.distinct member
  unfold mergedVersion
  rw [same, split]
  refine GuardedMerge.offers_dominant (shouldMergeTaskUpdate dateMs)
    (fun version => isTerminalTaskStatus version.status = false ∧
      NotLater dateMs version result.owned) ?_ ?_ ?_ ?_
  · exact ⟨underway, batch.earlier result member held (Or.inl listed) same underway⟩
  · intro current _ updated inside _
    obtain ⟨copy, id, carried⟩ := copied updated (List.mem_append.mpr (Or.inl inside))
    exact ⟨underway_of_copy copy,
      batch.earlier result member updated (Or.inr carried) id (underway_of_copy copy)⟩
  · exact fun current good => shouldMerge_owner result good.1 good.2
  · intro updated inside
    exact shouldMerge_settled_rejects result.settled
      (copied updated (List.mem_append.mpr (Or.inr inside))).1

theorem mergedVersion_owned_settled (batch : ParallelBatch base results)
    {result : OwnedResult dateMs} (member : result ∈ results) (same : held.id = result.owned.id)
    (settled : isTerminalTaskStatus held.status = true) :
    mergedVersion dateMs (results.map (·.toWorkerResult)) held
      = GuardedMerge.offer (shouldMergeTaskUpdate dateMs) held result.owned := by
  obtain ⟨first, second, split, copied⟩ := updatesOf_owned batch.distinct member
  unfold mergedVersion
  rw [same, split]
  refine GuardedMerge.offers_sole (shouldMergeTaskUpdate dateMs) ?_ ?_
  · exact fun updated inside => shouldMerge_settled_rejects settled (copied updated inside).1
  · exact fun updated inside => shouldMerge_settled_rejects result.settled
      (copied updated (List.mem_append.mpr (Or.inr inside))).1

/-- **A settled task that nobody owns is left alone.** -/
theorem mergedVersion_unowned_settled (unowned : ∀ result ∈ results, result.owned.id ≠ held.id)
    (settled : isTerminalTaskStatus held.status = true) :
    mergedVersion dateMs (results.map (·.toWorkerResult)) held = held :=
  GuardedMerge.offers_rejected (shouldMergeTaskUpdate dateMs) fun _ member =>
    shouldMerge_settled_rejects settled (copy_of_unowned unowned member)

/-- **A task nobody owns takes the looks of its copies, or keeps its own**, when the copies look
alike. -/
theorem outcome_mergedVersion_unowned {looks : TeamTaskStatus × Option String × Option ArtifactDescriptor}
    (uniform : ∀ updated ∈ updatesOf (results.map (·.toWorkerResult)) held.id,
      outcome updated = looks) :
    outcome (mergedVersion dateMs (results.map (·.toWorkerResult)) held)
      = if updatesOf (results.map (·.toWorkerResult)) held.id ≠ [] ∧
          outcomeVerdict dateMs (outcome held) looks then looks
        else outcome held :=
  GuardedMerge.view_offers_uniform shouldMerge_judged uniform held

theorem mergedVersion_keeps_running (unowned : ∀ result ∈ results, result.owned.id ≠ held.id)
    (running : held.status = .running)
    (fresh : ∀ result ∈ results, ∀ copy ∈ result.tasks, copy.id = held.id → copy.status ≠ .queued) :
    (mergedVersion dateMs (results.map (·.toWorkerResult)) held).status = .running := by
  refine GuardedMerge.offers_keep (shouldMergeTaskUpdate dateMs)
    (fun version => version.status = .running) (fun _ _ updated member _ => ?_) running
  obtain ⟨⟨result, present, inside⟩, same⟩ := mem_ownedUpdates.mp member
  exact (copy_of_unowned unowned member).resolve_left (fresh result present updated inside same)

theorem updatesOf_perm {first second : List (OwnedResult dateMs)} (reordered : first.Perm second)
    (id : String) : (updatesOf (first.map (·.toWorkerResult)) id).Perm
      (updatesOf (second.map (·.toWorkerResult)) id) :=
  ((reordered.map _).flatMap_right _).filter _

theorem ParallelBatch.reorder {reordered : List (OwnedResult dateMs)}
    (batch : ParallelBatch base results) (perm : results.Perm reordered) :
    ParallelBatch base reordered where
  distinct := (perm.map _).nodup_iff.mp batch.distinct
  earlier := by
    intro result member version carried
    refine batch.earlier result (perm.mem_iff.mpr member) version (carried.imp_right ?_)
    rintro ⟨other, there, inside⟩
    exact ⟨other, perm.mem_iff.mpr there, inside⟩
  alike := by
    intro held listed unowned underway first firstMember second secondMember
    have same := updatesOf_perm perm held.id
    exact batch.alike held listed (fun result there => unowned result (perm.mem_iff.mp there))
      underway first (same.mem_iff.mpr firstMember) second (same.mem_iff.mpr secondMember)

/-- **One task, in any order of the results.** -/
theorem outcome_mergedVersion_perm {reordered : List (OwnedResult dateMs)}
    (batch : ParallelBatch base results) (perm : results.Perm reordered) (listed : held ∈ base) :
    outcome (mergedVersion dateMs (results.map (·.toWorkerResult)) held)
      = outcome (mergedVersion dateMs (reordered.map (·.toWorkerResult)) held) := by
  have other := batch.reorder perm
  by_cases owned : ∃ result ∈ results, held.id = result.owned.id
  · obtain ⟨result, member, same⟩ := owned
    have moved := perm.mem_iff.mp member
    cases status : isTerminalTaskStatus held.status with
    | false =>
      rw [mergedVersion_owned batch listed member same status,
        mergedVersion_owned other listed moved same status]
    | true =>
      rw [mergedVersion_owned_settled batch member same status,
        mergedVersion_owned_settled other moved same status]
  · have unowned : ∀ result ∈ results, result.owned.id ≠ held.id :=
      fun result member same => owned ⟨result, member, same.symm⟩
    have unownedMoved : ∀ result ∈ reordered, result.owned.id ≠ held.id :=
      fun result member => unowned result (perm.mem_iff.mpr member)
    cases status : isTerminalTaskStatus held.status with
    | true =>
      rw [mergedVersion_unowned_settled unowned status,
        mergedVersion_unowned_settled unownedMoved status]
    | false =>
      have updates := updatesOf_perm perm held.id
      cases copies : updatesOf (results.map (·.toWorkerResult)) held.id with
      | nil =>
        rw [copies] at updates
        unfold mergedVersion
        rw [copies, updates.nil_eq]
      | cons copy rest =>
        have uniform : ∀ updated ∈ updatesOf (results.map (·.toWorkerResult)) held.id,
            outcome updated = outcome copy := fun updated member =>
          batch.alike held listed unowned status updated member copy
            (by rw [copies]; exact List.mem_cons_self)
        rw [outcome_mergedVersion_unowned uniform, outcome_mergedVersion_unowned
          fun updated member => uniform updated (updates.mem_iff.mpr member)]
        have both : updatesOf (results.map (·.toWorkerResult)) held.id ≠ []
            ↔ updatesOf (reordered.map (·.toWorkerResult)) held.id ≠ [] :=
          not_congr ⟨fun none => (none ▸ updates).nil_eq.symm, fun none => (none ▸ updates).eq_nil⟩
        simp only [both]

theorem heldVersion_mem {task : TeamTaskState} (listed : task ∈ base) :
    heldVersion base task ∈ base :=
  (Bindings.get_ofKeyed_mem (taskById_heldVersion listed).1).1

theorem merge_outcomes (results : List WorkerResult) :
    (mergeTaskUpdatesPreservingTerminal dateMs base results).map outcome
      = base.map fun task => outcome (mergedVersion dateMs results (heldVersion base task)) := by
  rw [merge_eq]
  simp [refreshTaskGraphQueues, Function.comp_def]

/-- **A batch merges the same way in every order.** Of every base and every batch of results over
it: all orders of the results give every task the same status, finish time and result artifact; an
owned task under way becomes its owner's update, and a settled one is judged against that update
alone; a settled task that nobody owns stays what it was; and a running task that nobody owns is
not queued again unless some result carries a queued copy of it. -/
theorem merge_order_independent (dateMs : String → Option Int) (base : List TeamTaskState)
    (results reordered : List (OwnedResult dateMs)) (batch : ParallelBatch base results)
    (perm : results.Perm reordered) :
    (mergeTaskUpdatesPreservingTerminal dateMs base (results.map (·.toWorkerResult))).map outcome
        = (mergeTaskUpdatesPreservingTerminal dateMs base
            (reordered.map (·.toWorkerResult))).map outcome ∧
      ∀ held merged : TeamTaskState, (taskById base).get held.id = some held →
        merged ∈ mergeTaskUpdatesPreservingTerminal dateMs base (results.map (·.toWorkerResult)) →
        merged.id = held.id →
        (∀ result ∈ results, held.id = result.owned.id →
          (isTerminalTaskStatus held.status = false →
            ∃ index, merged = withQueue result.owned index) ∧
          (isTerminalTaskStatus held.status = true →
            ∃ index, merged = withQueue
              (if shouldMergeTaskUpdate dateMs held result.owned then result.owned else held)
              index)) ∧
        ((∀ result ∈ results, result.owned.id ≠ held.id) →
          (isTerminalTaskStatus held.status = true → ∃ index, merged = withQueue held index) ∧
          (held.status = .running →
            (∀ result ∈ results, ∀ copy ∈ result.tasks, copy.id = held.id →
              copy.status ≠ .queued) →
            merged.status = .running)) := by
  refine ⟨?_, ?_⟩
  · rw [merge_outcomes, merge_outcomes]
    exact List.map_congr_left fun task listed =>
      outcome_mergedVersion_perm batch perm (heldVersion_mem listed)
  · intro held merged found member same
    obtain ⟨index, rfl⟩ := mem_merge found member same
    have listed : held ∈ base := (Bindings.get_ofKeyed_mem found).1
    refine ⟨fun result owner named => ⟨fun underway => ?_, fun settled => ?_⟩, fun unowned =>
      ⟨fun settled => ?_, fun running fresh => ?_⟩⟩
    · exact ⟨index, by rw [mergedVersion_owned batch listed owner named underway]⟩
    · exact ⟨index, by rw [mergedVersion_owned_settled batch owner named settled]; rfl⟩
    · exact ⟨index, by rw [mergedVersion_unowned_settled unowned settled]⟩
    · rw [withQueue_status]
      exact mergedVersion_keeps_running unowned running fresh

end

def sampleTask (id : String) (status : TeamTaskStatus) (finishedAt : Option String) :
    TeamTaskState :=
  { id := id, status := status, finishedAt := finishedAt }

/-- The worker of `a`, whose copies of `b` and `c` are from before these were started. -/
def earlyResult : OwnedResult sampleDateMs where
  tasks := [sampleTask "a" .completed (some "2026-01-01T00:00:00.000Z"),
    sampleTask "b" .queued none, sampleTask "c" .queued none]
  owned := sampleTask "a" .completed (some "2026-01-01T00:00:00.000Z")
  own := by decide
  settled := by decide
  finished := by decide
  copies := by decide

/-- The worker of `c`, whose copies of `a` and `b` are from after these were started. -/
def lateResult : OwnedResult sampleDateMs where
  tasks := [sampleTask "a" .running none, sampleTask "b" .running none,
    sampleTask "c" .completed (some "2026-01-01T00:01:00.000Z")]
  owned := sampleTask "c" .completed (some "2026-01-01T00:01:00.000Z")
  own := by decide
  settled := by decide
  finished := by decide
  copies := by decide

/-- **Stale copies that differ are merged in the order they come**, a queued copy sets a running
sibling back, and an owner's update does not replace a settled version the gate protects. -/
theorem merge_order_matters_for_stale_copies :
    let running := [sampleTask "a" .running none, sampleTask "b" .running none,
      sampleTask "c" .running none]
    (mergeTaskUpdatesPreservingTerminal sampleDateMs running
        [earlyResult.toWorkerResult, lateResult.toWorkerResult]).map (·.status)
      = [.completed, .running, .completed] ∧
    (mergeTaskUpdatesPreservingTerminal sampleDateMs running
        [lateResult.toWorkerResult, earlyResult.toWorkerResult]).map (·.status)
      = [.completed, .queued, .completed] ∧
    (mergeTaskUpdatesPreservingTerminal sampleDateMs [sampleTask "a" .failed none]
        [earlyResult.toWorkerResult]).map (·.status)
      = [.failed] := by
  decide

theorem sampleBatch : ParallelBatch [sampleTask "a" .running none, sampleTask "c" .running none]
      [earlyResult, lateResult] where
  distinct := by decide
  earlier := by
    intro result _ version carried _ underway proper
    have ofBase : ∀ task ∈ [sampleTask "a" .running none, sampleTask "c" .running none],
        isTerminalTaskStatus task.status = false → task.finishedAt = none := by decide
    have ofEarly : ∀ task ∈ earlyResult.tasks,
        isTerminalTaskStatus task.status = false → task.finishedAt = none := by decide
    have ofLate : ∀ task ∈ lateResult.tasks,
        isTerminalTaskStatus task.status = false → task.finishedAt = none := by decide
    have unfinished : version.finishedAt = none := by
      rcases carried with inside | ⟨other, there, inside⟩
      · exact ofBase version inside underway
      · rcases List.mem_cons.mp there with rfl | last
        · exact ofEarly version inside underway
        · rw [List.mem_singleton.mp last] at inside
          exact ofLate version inside underway
    rw [safeFinishedAt, unfinished] at proper
    cases proper
  alike := by
    intro held listed unowned
    have early := unowned earlyResult List.mem_cons_self
    have late := unowned lateResult (List.mem_cons_of_mem _ List.mem_cons_self)
    rcases List.mem_cons.mp listed with rfl | last
    · exact absurd rfl early
    · rw [List.mem_singleton.mp last] at late
      exact absurd rfl late

theorem merge_order_independent_sample :
    (mergeTaskUpdatesPreservingTerminal sampleDateMs
        [sampleTask "a" .running none, sampleTask "c" .running none]
        [earlyResult.toWorkerResult, lateResult.toWorkerResult]).map outcome
      = (mergeTaskUpdatesPreservingTerminal sampleDateMs
        [sampleTask "a" .running none, sampleTask "c" .running none]
        [lateResult.toWorkerResult, earlyResult.toWorkerResult]).map outcome :=
  (merge_order_independent sampleDateMs _ [earlyResult, lateResult] [lateResult, earlyResult]
    sampleBatch (List.Perm.swap _ _ _)).1

end PiCrew.Merge
