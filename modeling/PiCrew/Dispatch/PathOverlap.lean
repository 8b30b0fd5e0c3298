/-
**Which tasks of a batch write one file.**

`runtime/path-overlap.ts` (`filterReadyByWriteOverlap`) under `selectDispatchBatch`. The filter goes through the
ready ids in order and drops an id whose file an earlier one writes. Ids in flight are taken out after the filter,
so it sees a task in flight only where the planner lists it:

* `find_of_mem_pickNonOverlapping`, `mem_pickNonOverlapping_of_find` — of the ids that write a file
  the filter leaves the first in the list, and no other;
* `outputs_apart_iff` — a batch stays clear of the files in flight exactly when no task in flight writes a file
  whose first writer in the list may go;
* `file_in_flight_is_dispatched_again` — a running task that the snapshot does not list.
-/

import PiCrew.Dispatch.Batch

namespace PiCrew.Dispatch

open PiCrew.State PiCrew.Scheduling PiCrew.Store

def stepOf (workflow : WorkflowConfig) (task : TeamTaskState) : Option WorkflowStep :=
  task.stepId.bind fun stepId =>
    if stepId = "" then none else (Bindings.ofKeyed (·.id) workflow.steps).get stepId

def declaredOutput (workflow : WorkflowConfig) (task : TeamTaskState) : Option String :=
  (stepOf workflow task).bind extractWritePath

/-- **Two tasks that declare one output file.** -/
def ShareOutput (workflow : WorkflowConfig) (task other : TeamTaskState) : Prop :=
  ∃ path, declaredOutput workflow task = some path ∧ declaredOutput workflow other = some path

/-- **The output files of a dispatched batch are apart**: from each other, and from those of the
tasks in flight. -/
structure OutputsApart (workflow : WorkflowConfig) (selection : Selection) : Prop where
  batch : ∀ batch, selection.batch = some batch →
    batch.Pairwise fun task other => ¬ ShareOutput workflow task other
  inFlight : ∀ batch, selection.batch = some batch → ∀ task ∈ batch,
    ∀ running ∈ selection.ctx.tasks, running.id ∈ inFlightTaskIds selection.ctx →
      ¬ ShareOutput workflow task running

section

variable {steps : String → Option WorkflowStep} {maxCount : Int}

def outputOf (steps : String → Option WorkflowStep) (id : String) : Option String :=
  (steps id).bind extractWritePath

def firstWriter (steps : String → Option WorkflowStep) (ready : List String) (path : String) :
    Option String :=
  ready.find? fun id => outputOf steps id == some path

theorem detectWriteOverlap_iff {step other : WorkflowStep} :
    detectWriteOverlap step other = true
      ↔ ∃ path, extractWritePath step = some path ∧ extractWritePath other = some path := by
  unfold detectWriteOverlap
  cases extractWritePath step with
  | none => simp
  | some pathA =>
    cases extractWritePath other with
    | none => simp
    | some pathB =>
      show (pathA == pathB) = true ↔ _
      rw [beq_iff_eq]
      constructor
      · rintro rfl
        exact ⟨pathA, rfl, rfl⟩
      · rintro ⟨path, ⟨rfl⟩, ⟨rfl⟩⟩
        rfl

theorem any_overlap_iff {step : WorkflowStep} {picked : List WorkflowStep} :
    picked.any (detectWriteOverlap step) = true ↔
      ∃ path, extractWritePath step = some path ∧
        ∃ other ∈ picked, extractWritePath other = some path := by
  simp only [List.any_eq_true, detectWriteOverlap_iff]
  constructor
  · rintro ⟨other, member, path, here, there⟩
    exact ⟨path, here, other, member, there⟩
  · rintro ⟨path, here, other, member, there⟩
    exact ⟨other, member, path, here, there⟩

variable {ready : List String} {pickedSteps : List WorkflowStep} {picked : List String}

/-- **Two ids that the filter leaves write different files.** -/
theorem pickNonOverlapping_apart (tracked : ∀ id ∈ picked, ∀ path, outputOf steps id = some path →
      ∃ step ∈ pickedSteps, extractWritePath step = some path)
    (apart : picked.Pairwise fun id other =>
      ∀ path, outputOf steps id = some path → outputOf steps other ≠ some path) :
    (pickNonOverlapping steps maxCount ready pickedSteps picked).Pairwise fun id other =>
      ∀ path, outputOf steps id = some path → outputOf steps other ≠ some path := by
  induction ready generalizing pickedSteps picked with
  | nil => exact apart
  | cons taskId rest ih =>
    -- the next id may be added when no picked step writes its file
    have extended : (∀ path, outputOf steps taskId = some path →
          ∀ step ∈ pickedSteps, extractWritePath step ≠ some path) →
        (picked ++ [taskId]).Pairwise fun id other =>
          ∀ path, outputOf steps id = some path → outputOf steps other ≠ some path := by
      intro clear
      refine List.pairwise_append.mpr ⟨apart, List.pairwise_singleton _ _, ?_⟩
      intro id member other last path writes again
      rw [List.mem_singleton.mp last] at again
      obtain ⟨step, listed, same⟩ := tracked id member path writes
      exact clear path again step listed same
    rw [pickNonOverlapping]
    split
    · exact apart
    · split
      · rename_i stepless
        have none_written : outputOf steps taskId = none := by rw [outputOf, stepless]; rfl
        refine ih (fun id member path writes => ?_) (extended ?_)
        · rcases List.mem_append.mp member with before | last
          · exact tracked id before path writes
          · rw [List.mem_singleton.mp last, none_written] at writes
            cases writes
        · intro path writes
          rw [none_written] at writes
          cases writes
      · rename_i step stepped
        have written : outputOf steps taskId = extractWritePath step := by
          rw [outputOf, stepped]; rfl
        split
        · exact ih tracked apart
        · rename_i clear
          refine ih (fun id member path writes => ?_) (extended ?_)
          · rcases List.mem_append.mp member with before | last
            · obtain ⟨other, listed, same⟩ := tracked id before path writes
              exact ⟨other, List.mem_append_left _ listed, same⟩
            · rw [List.mem_singleton.mp last, written] at writes
              exact ⟨step, List.mem_append_right _ (List.mem_singleton_self step), writes⟩
          · intro path writes other listed same
            rw [written] at writes
            exact clear (any_overlap_iff.mpr ⟨path, writes, other, listed, same⟩)

theorem find_of_mem_pickNonOverlapping {id path : String} (writes : outputOf steps id = some path)
    (left : id ∈ pickNonOverlapping steps maxCount ready pickedSteps picked) :
    id ∈ picked ∨ firstWriter steps ready path = some id ∧
      ∀ step ∈ pickedSteps, extractWritePath step ≠ some path := by
  induction ready generalizing pickedSteps picked with
  | nil => exact Or.inl left
  | cons taskId rest ih =>
    have later : outputOf steps taskId ≠ some path →
        firstWriter steps (taskId :: rest) path = firstWriter steps rest path := by
      intro other
      rw [firstWriter, List.find?_cons_of_neg (by simpa using other)]
      rfl
    have here : outputOf steps taskId = some path →
        firstWriter steps (taskId :: rest) path = some taskId := by
      intro same
      rw [firstWriter, List.find?_cons_of_pos (by simpa using same)]
    rw [pickNonOverlapping] at left
    split at left
    · exact Or.inl left
    · split at left
      · rename_i stepless
        have none_written : outputOf steps taskId = none := by rw [outputOf, stepless]; rfl
        have other : outputOf steps taskId ≠ some path := by
          rw [none_written]
          intro same
          cases same
        rw [later other]
        rcases ih left with member | found
        · rcases List.mem_append.mp member with before | last
          · exact Or.inl before
          · rw [List.mem_singleton.mp last, none_written] at writes
            cases writes
        · exact Or.inr found
      · rename_i step stepped
        have written : outputOf steps taskId = extractWritePath step := by
          rw [outputOf, stepped]; rfl
        split at left
        · rename_i overlaps
          obtain ⟨shared, own, earlier, listed, same⟩ := any_overlap_iff.mp overlaps
          rcases ih left with before | ⟨found, clear⟩
          · exact Or.inl before
          · refine Or.inr ⟨?_, clear⟩
            rw [later, found]
            rw [written, own]
            rintro ⟨rfl⟩
            exact clear earlier listed same
        · rename_i apart
          have unwritten : extractWritePath step = some path →
              ∀ other ∈ pickedSteps, extractWritePath other ≠ some path :=
            fun own other listed same =>
              apart (any_overlap_iff.mpr ⟨path, own, other, listed, same⟩)
          rcases ih left with member | ⟨found, clear⟩
          · rcases List.mem_append.mp member with before | last
            · exact Or.inl before
            · obtain rfl := List.mem_singleton.mp last
              exact Or.inr ⟨here writes, unwritten (written.symm.trans writes)⟩
          · have own : extractWritePath step ≠ some path :=
              clear step (List.mem_append_right _ (List.mem_singleton_self step))
            rw [later (by rw [written]; exact own)]
            exact Or.inr ⟨found, fun other listed => clear other (List.mem_append_left _ listed)⟩

/-- **The first id of the list that writes a file is left by the filter**, where there is room. -/
theorem mem_pickNonOverlapping_of_find {id path : String} (found : firstWriter steps ready path = some id)
    (clear : ∀ step ∈ pickedSteps, extractWritePath step ≠ some path)
    (room : (picked.length : Int) + ready.length ≤ maxCount) :
    id ∈ pickNonOverlapping steps maxCount ready pickedSteps picked := by
  induction ready generalizing pickedSteps picked with
  | nil => cases found
  | cons taskId rest ih =>
    have length : ((taskId :: rest).length : Int) = rest.length + 1 := by simp
    have grown : ((picked ++ [taskId]).length : Int) = picked.length + 1 := by simp
    rw [length] at room
    rw [pickNonOverlapping, if_neg (by omega)]
    by_cases same : outputOf steps taskId = some path
    · rw [firstWriter, List.find?_cons_of_pos (by simpa using same)] at found
      obtain rfl := Option.some_inj.mp found
      obtain ⟨step, stepped, own⟩ := Option.bind_eq_some_iff.mp same
      have apart : ¬ pickedSteps.any (detectWriteOverlap step) = true := by
        intro overlaps
        obtain ⟨shared, writes, other, listed, again⟩ := any_overlap_iff.mp overlaps
        rw [own] at writes
        obtain rfl := Option.some_inj.mp writes
        exact clear other listed again
      rw [stepped]
      dsimp only
      rw [if_neg apart]
      exact mem_pickNonOverlapping.1 (List.mem_append_right _ (List.mem_singleton_self taskId))
    · rw [firstWriter, List.find?_cons_of_neg (by simpa using same)] at found
      cases stepped : steps taskId with
      | none => exact ih found clear (by omega)
      | some step =>
        have own : extractWritePath step ≠ some path := by
          rwa [outputOf, stepped] at same
        dsimp only
        split
        · exact ih found clear (by omega)
        · refine ih found (fun other listed => ?_) (by omega)
          rcases List.mem_append.mp listed with before | last
          · exact clear other before
          · rw [List.mem_singleton.mp last]
            exact own

end

section

variable {ctx : TickContext} {ready : List String} {workflow : WorkflowConfig}

theorem outputOf_stepOfTask (tasks : List TeamTaskState) (workflow : WorkflowConfig) (id : String) :
    outputOf (stepOfTask tasks workflow) id
      = ((taskById tasks).get id).bind (declaredOutput workflow) := by
  rw [outputOf, stepOfTask]
  cases (taskById tasks).get id with
  | none => rfl
  | some task => rfl

/-- **The list keeps the files in flight apart**: when the first listed writer of a file may go, no
task in flight writes that file. -/
def KeepsFilesApart (ctx : TickContext) (workflow : WorkflowConfig) (ready : List String) : Prop :=
  ∀ task path, MayGo ctx ready task →
    firstWriter (stepOfTask ctx.tasks workflow) ready path = some task.id →
      ∀ running ∈ ctx.tasks, running.id ∈ inFlightTaskIds ctx →
        declaredOutput workflow running ≠ some path

/-- Settings for a workflow that serializes, under which nothing is held back for want of
workers. -/
def wideOverlapSettings (ctx : TickContext) (workflow : WorkflowConfig) (ready : List String) :
    BatchSettings where
  workflow := workflow
  limits :=
    { maxConcurrentWorkers := some (ctx.pendingUnits.length + ready.length)
      allowUnboundedConcurrency := true
      serializeOnPathOverlap := true }
  workerCap := ⟨1, Int.one_pos⟩

theorem wideOverlapSettings_limit (ctx : TickContext) (workflow : WorkflowConfig) (ready : List String) :
    (batchConcurrency (wideOverlapSettings ctx workflow ready) ready).maxConcurrent
      = max 1 ((ctx.pendingUnits.length : Int) + ready.length) := rfl

variable {settings : BatchSettings}

theorem filter_serializing (tasks : List TeamTaskState)
    (serialize : settings.limits.serializeOnPathOverlap = true) :
    filterReadyByWriteOverlap ready tasks settings.workflow
        (batchConcurrency settings ready).maxConcurrent settings.limits.serializeOnPathOverlap
      = pickNonOverlapping (stepOfTask tasks settings.workflow)
        (batchConcurrency settings ready).maxConcurrent ready [] [] := by
  have some_worker : 0 < (batchConcurrency settings ready).maxConcurrent :=
    resolveBatchConcurrency_pos settings.workerCap _
  unfold filterReadyByWriteOverlap
  rw [serialize, Bool.not_true, Bool.false_or, decide_eq_false (by omega), Bool.false_or]
  cases ready with
  | nil => rfl
  | cons first rest => rfl

theorem readyBatch_apart (serialize : settings.limits.serializeOnPathOverlap = true) :
    (readyBatch settings ctx ready).Pairwise fun task other =>
      ¬ ShareOutput settings.workflow task other := by
  have filtered : (pickNonOverlapping (stepOfTask ctx.tasks settings.workflow)
      (batchConcurrency settings ready).maxConcurrent ready [] []).Pairwise fun id other =>
        ∀ path, outputOf (stepOfTask ctx.tasks settings.workflow) id = some path →
          outputOf (stepOfTask ctx.tasks settings.workflow) other ≠ some path :=
    pickNonOverlapping_apart (fun id member => absurd member List.not_mem_nil) List.Pairwise.nil
  rw [← filter_serializing ctx.tasks serialize] at filtered
  have candidates : (candidateBatch settings ctx ready).Pairwise fun task other =>
      ¬ ShareOutput settings.workflow task other := by
    have listed : (if approvalPending ctx then dispatchableReady settings ctx ready
        else (dispatchableReady settings ctx ready).take (slotsAvailable settings ctx ready)).Sublist
          (filterReadyByWriteOverlap ready ctx.tasks settings.workflow
            (batchConcurrency settings ready).maxConcurrent
            settings.limits.serializeOnPathOverlap) := by
      split
      · exact List.filter_sublist
      · exact (List.take_sublist _ _).trans List.filter_sublist
    refine List.Pairwise.filterMap _ ?_ (filtered.sublist listed)
    rintro id other apart task held against heldAgainst ⟨path, writes, again⟩
    refine apart path ?_ ?_
    · rw [outputOf_stepOfTask, held]
      exact writes
    · rw [outputOf_stepOfTask, heldAgainst]
      exact again
  unfold readyBatch
  split
  · exact candidates.sublist ((List.take_sublist _ _).trans List.filter_sublist)
  · exact candidates

theorem firstWriter_of_mem_readyBatch
    (serialize : settings.limits.serializeOnPathOverlap = true) {task : TeamTaskState}
    (member : task ∈ readyBatch settings ctx ready) {path : String}
    (writes : declaredOutput settings.workflow task = some path) :
    firstWriter (stepOfTask ctx.tasks settings.workflow) ready path = some task.id := by
  obtain ⟨id, filtered, -, held⟩ := mem_candidateBatch (chosen_of_mem_readyBatch member).1
  obtain rfl := (Bindings.get_ofKeyed_mem held).2
  rw [filter_serializing ctx.tasks serialize] at filtered
  have output : outputOf (stepOfTask ctx.tasks settings.workflow) task.id = some path := by
    rw [outputOf_stepOfTask, held]
    exact writes
  rcases find_of_mem_pickNonOverlapping output filtered with none_before | ⟨found, -⟩
  · cases none_before
  · exact found

theorem mem_readyBatch_of_firstWriter {task : TeamTaskState} {path : String} (may : MayGo ctx ready task)
    (found : firstWriter (stepOfTask ctx.tasks workflow) ready path = some task.id) :
    task ∈ readyBatch (wideOverlapSettings ctx workflow ready) ctx ready := by
  obtain ⟨⟨id, listed, free, held⟩, harmless⟩ := may
  obtain rfl := (Bindings.get_ofKeyed_mem held).2
  have limit := wideOverlapSettings_limit ctx workflow ready
  have serialize : (wideOverlapSettings ctx workflow ready).limits.serializeOnPathOverlap = true :=
    rfl
  refine mem_readyBatch_of_room ?_ free held harmless ?_
  · rw [filter_serializing ctx.tasks serialize]
    refine mem_pickNonOverlapping_of_find found (fun step member => absurd member List.not_mem_nil) ?_
    rw [limit, List.length_nil]
    omega
  · have shorter : (dispatchableReady (wideOverlapSettings ctx workflow ready) ctx ready).length
        ≤ ready.length := by
      refine (List.length_filter_le _ _).trans ?_
      exact (filterReadyByWriteOverlap_sublist _ _ _ _ _).length_le
    rw [slotsAvailable, limit]
    omega

end

section

variable (sweeps : RunDisk → TickContext → RunDisk × TickContext)

theorem selectReady_apart_iff (ctx : TickContext) (workflow : WorkflowConfig) (ready : List String)
    (now : String) (disk : RunDisk) :
    (∀ settings : BatchSettings, settings.workflow = workflow →
        settings.limits.serializeOnPathOverlap = true →
          OutputsApart workflow (selectReady settings ctx ready now disk))
      ↔ KeepsFilesApart ctx workflow ready := by
  constructor
  · intro apart task path may found running member busy writes
    have goes := mem_readyBatch_of_firstWriter may found
    obtain ⟨decided, kept⟩ := selectReady_of_mem (wideOverlapSettings ctx workflow ready) now disk goes
    have clear := (apart _ rfl rfl).inFlight _ decided task goes
    rw [kept] at clear
    have own : declaredOutput workflow task = some path := by
      obtain ⟨⟨id, -, -, held⟩, -⟩ := may
      obtain rfl := (Bindings.get_ofKeyed_mem held).2
      have output := List.find?_some found
      rw [outputOf_stepOfTask, held, beq_iff_eq] at output
      exact output
    exact clear running member busy ⟨path, own, writes⟩
  · rintro keeps settings rfl serialize
    refine ⟨fun batch decided => ?_, fun batch decided task member => ?_⟩
    · obtain ⟨rfl, -⟩ := selectReady_dispatch decided
      exact readyBatch_apart serialize
    · obtain ⟨rfl, kept⟩ := selectReady_dispatch decided
      rw [kept]
      rintro running listed busy ⟨path, own, writes⟩
      exact keeps task path (mayGo_of_mem_readyBatch member)
        (firstWriter_of_mem_readyBatch serialize member own) running listed busy writes

/-- **A serializing selection keeps the output files apart**, under any number of workers, exactly
when the planner's list does: when the first listed writer of a file may go, no task in flight
writes that file. -/
theorem outputs_apart_iff (ctx : TickContext) (workflow : WorkflowConfig) (now : String)
    (disk : RunDisk) :
    (∀ settings : BatchSettings, settings.workflow = workflow →
        settings.limits.serializeOnPathOverlap = true →
          OutputsApart workflow (selectDispatchBatch settings ctx sweeps now disk))
      ↔ ∀ dagReady, dagReadyTaskIds (sweeps disk ctx).2.tasks
            (completedTaskIds (sweeps disk ctx).2.tasks) = .ok dagReady →
          KeepsFilesApart (sweeps disk ctx).2 workflow
            (readyBeforeFilter (sweeps disk ctx).2 dagReady) := by
  unfold selectDispatchBatch
  dsimp only
  cases planned : dagReadyTaskIds (sweeps disk ctx).2.tasks
      (completedTaskIds (sweeps disk ctx).2.tasks) with
  | error message => exact iff_of_true (fun _ _ _ => ⟨nofun, nofun⟩) nofun
  | ok dagReady =>
    rw [selectReady_apart_iff]
    constructor
    · rintro keeps other ⟨rfl⟩
      exact keeps
    · intro keeps
      exact keeps dagReady rfl

/-- **A file in flight is written again**: the running task is not in the ready queue of the
snapshot, so the filter does not see its file. -/
theorem file_in_flight_is_dispatched_again :
    let draft : TeamTaskState :=
      { id := "01_draft", stepId := some "draft", role := "writer", status := .running
        graph := some { taskId := "01_draft", queue := .running } }
    let polish : TeamTaskState :=
      { id := "02_polish", stepId := some "polish", role := "writer", status := .queued
        graph := some { taskId := "02_polish", queue := .ready } }
    let ctx : TickContext :=
      { manifest := { runId := "run", status := .running }, tasks := [draft, polish]
        pendingUnits := [{ unitKey := "01_draft", taskIds := ["01_draft"] }]
        queueIndex := buildTaskGraphIndex [draft, polish] }
    let workflow : WorkflowConfig :=
      { name := "default"
        steps := [{ id := "draft", output := some "notes.md" },
          { id := "polish", output := some "notes.md" }] }
    let selection := selectDispatchBatch
      { workflow := workflow, limits := { serializeOnPathOverlap := true }
        workerCap := ⟨4, by decide⟩ } ctx
      (fun disk ctx => (disk, ctx)) "now" { manifest := ctx.manifest, tasks := ctx.tasks }
    selection.batch = some [polish] ∧ ¬ OutputsApart workflow selection := by
  intro draft polish ctx workflow selection
  have decided : selection.batch = some [polish] := by decide
  refine ⟨decided, fun apart => ?_⟩
  have clear := apart.inFlight _ decided polish (List.mem_singleton_self polish) draft
    (by decide) (by decide)
  exact clear ⟨"notes.md", by decide, by decide⟩

end

end PiCrew.Dispatch
