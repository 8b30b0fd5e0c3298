/-
**Which revision the approval gate looks at.**

`runtime/plan-approval.ts` and `getCurrentPlanRecord`. The gate looks at the revision that the manifest
points to, if it is stored, and an approval is set in the last one. The pointer is saved after the
revision, and by another write.

* `fresh_step_iff` — an operation leaves such a pointer if no revision is appended behind one that the
  manifest points to, and no pointer to an older one is saved;
* `gate_reads_newest_iff` — the same for runs;
* `gate_open_behind_pointer` — the gate is open while the newest revision is pending.

A run is any order of single writes, each of which may be the last one before a crash.
-/

import PiCrew.Plans.PlanStore
import PiCrew.Library.Runs

namespace PiCrew.Plans

def isPlanApprovalStatePending (approval : Option PlanApprovalState) : Bool :=
  match approval with
  | none => false
  | some approval => approval.required && approval.status == .pending

def isPlanApprovalPending (manifest : TeamRunManifest) : Bool :=
  isPlanApprovalStatePending manifest.planApproval

/-- **The gate**: the decision of the current revision, or else the manifest's. -/
def isPlanApprovalPendingEffective (manifest : TeamRunManifest) (file : PlanFile) : Bool :=
  match (getCurrentPlanRecord manifest file).bind (·.approval) with
  | some approval => approval.status == .pending
  | none => isPlanApprovalPending manifest

structure Disk where
  file : PlanFile
  manifest : TeamRunManifest

inductive Write where
  | append (record : PlanRecord)
  | link (itemId taskId : String)
  | setApproval (approval : Decision) (now : String)
  | saveManifest (manifest : TeamRunManifest)

/-- **A write**, which leaves the disk as it is when it is refused. -/
def write (disk : Disk) : Write → Disk
  | .append record =>
    match appendPlanRevision disk.file record with
    | .ok (file, _) => { disk with file := file }
    | .error _ => disk
  | .link itemId taskId => { disk with file := (linkTaskToPlanItem disk.file itemId taskId).1 }
  | .setApproval approval now =>
    match setPlanApproval disk.file approval now with
    | .ok (file, _) => { disk with file := file }
    | .error _ => disk
  | .saveManifest manifest => { disk with manifest := manifest }

def start : Disk := ⟨.missing, ⟨none, none⟩⟩

/-- **What a write does to the revisions**: it appends one, or puts another one with its pointer for the
last. -/
theorem write_change (disk : Disk) (next : Write) :
    loadPlanRecords (write disk next).file = loadPlanRecords disk.file ∨
      (∃ stored : PlanRecord, (∀ last, (loadPlanRecords disk.file).getLast? = some last →
          stored.id = last.id ∧ stored.version = last.version + 1) ∧
        loadPlanRecords (write disk next).file = loadPlanRecords disk.file ++ [stored]) ∨
      ∃ current again : PlanRecord, (loadPlanRecords disk.file).getLast? = some current ∧
        again.pointer = current.pointer ∧
          loadPlanRecords (write disk next).file = (loadPlanRecords disk.file).dropLast ++ [again] := by
  cases next with
  | append record =>
    rw [write]
    split
    · rename_i file stored appended
      obtain ⟨after, follows⟩ := append_spec appended
      exact Or.inr (Or.inl ⟨stored, follows, by rw [after]; rfl⟩)
    · exact Or.inl rfl
  | link itemId taskId =>
    rw [write]
    rcases link_spec disk.file itemId taskId with same | ⟨current, items, ends, after⟩
    · exact Or.inl (by rw [same])
    · exact Or.inr (Or.inr ⟨current, { current with items := items }, ends, rfl, by rw [after]; rfl⟩)
  | setApproval approval now =>
    rw [write]
    split
    · rename_i file updated set
      rcases setApproval_spec set with ⟨-, -, rfl⟩ | ⟨last, ends, -, -, rfl⟩
      · exact Or.inl rfl
      · refine Or.inr (Or.inr ⟨last, _, ends, ?_, rfl⟩)
        rfl
    · exact Or.inl rfl
  | saveManifest manifest => exact Or.inl rfl

def IsNewest (file : PlanFile) (newest : PlanRecord) : Prop := newest ∈ loadPlanRecords file ∧
    ∀ record ∈ loadPlanRecords file, record ≠ newest → record.version < newest.version

/-- **Everything looks at the newest version**: `getCurrentPlanRecord`, with it the gate, and
`setPlanApproval`; and the gate is closed while it is pending. -/
structure Agrees (disk : Disk) : Prop where
  current : ∀ newest, IsNewest disk.file newest →
    getCurrentPlanRecord disk.manifest disk.file = some newest
  updated : ∀ approval now file record,
    setPlanApproval disk.file approval now = .ok (file, some record) →
      ∃ newest, IsNewest disk.file newest ∧ record = { newest with
          approval := some ⟨approval.status, approval.by_, now, approval.planVersion⟩ } ∧
        getCurrentPlanRecord disk.manifest file = some record
  closed : ∀ newest, IsNewest disk.file newest →
    (∃ approval, newest.approval = some approval ∧ approval.status = .pending) →
      isPlanApprovalPendingEffective disk.manifest disk.file = true

/-- **What they look at**: the current revision is the one that the manifest points to, if it is stored,
and else the newest; the gate takes its decision; an approval is set in the newest. -/
structure PointerFirst (disk : Disk) : Prop where
  pointed : ∀ record ∈ loadPlanRecords disk.file, disk.manifest.plan = some record.pointer →
    getCurrentPlanRecord disk.manifest disk.file = some record
  unresolved : (∀ record ∈ loadPlanRecords disk.file, disk.manifest.plan ≠ some record.pointer) →
    ∀ newest, IsNewest disk.file newest → getCurrentPlanRecord disk.manifest disk.file = some newest
  decides : ∀ record approval, getCurrentPlanRecord disk.manifest disk.file = some record →
    record.approval = some approval →
      (isPlanApprovalPendingEffective disk.manifest disk.file = true ↔ approval.status = .pending)
  updated : ∀ approval now file record,
    setPlanApproval disk.file approval now = .ok (file, some record) →
      ∃ newest, IsNewest disk.file newest ∧ record = { newest with
          approval := some ⟨approval.status, approval.by_, now, approval.planVersion⟩ }

def Fresh (disk : Disk) : Prop :=
  ∀ record ∈ loadPlanRecords disk.file, disk.manifest.plan = some record.pointer →
    (loadPlanRecords disk.file).getLast? = some record

/-- **No revision is appended behind one that the manifest points to**, and no pointer to an older one is
saved. -/
def Keeps (disk : Disk) : Write → Prop
  | .append record => ∀ file stored, appendPlanRevision disk.file record = .ok (file, stored) →
      ∀ old ∈ loadPlanRecords disk.file, disk.manifest.plan ≠ some old.pointer
  | .saveManifest manifest => ∀ record ∈ loadPlanRecords disk.file,
      manifest.plan = some record.pointer → IsNewest disk.file record
  | _ => True

section

variable {disk : Disk}

theorem isNewest_iff {file : PlanFile} (lineage : Lineage (loadPlanRecords file)) {newest : PlanRecord} :
    IsNewest file newest ↔ (loadPlanRecords file).getLast? = some newest := by
  constructor
  · rintro ⟨member, above⟩
    cases ends : (loadPlanRecords file).getLast? with
    | none =>
      rw [List.getLast?_eq_none_iff.mp ends] at member
      cases member
    | some last =>
      rcases lineage.before_last ends member with same | ⟨-, below⟩
      · rw [same]
      · have apart : last ≠ newest := by
          rintro rfl
          exact Nat.lt_irrefl _ below
        have back := above last (List.mem_of_getLast? ends) apart
        exact absurd below (Nat.lt_asymm back)
  · intro ends
    refine ⟨List.mem_of_getLast? ends, fun record member apart => ?_⟩
    exact ((lineage.before_last ends member).resolve_left apart).2

theorem current_pointed (lineage : Lineage (loadPlanRecords disk.file)) {record : PlanRecord}
    (member : record ∈ loadPlanRecords disk.file) (points : disk.manifest.plan = some record.pointer) :
    getCurrentPlanRecord disk.manifest disk.file = some record := by
  unfold getCurrentPlanRecord
  split
  · rename_i none
    rw [none] at member
    cases member
  · rename_i first rest load
    rw [load] at member lineage
    rw [points]
    simp only
    split
    · rename_i pointed found
      have test := List.find?_some found
      rw [Bool.and_eq_true, beq_iff_eq, beq_iff_eq] at test
      have same : pointed.pointer = record.pointer := PlanPointer.mk.injEq _ _ _ _ ▸ test
      rw [lineage.eq_of_pointer (List.mem_of_find?_eq_some found) member same]
    · rename_i none
      refine absurd ?_ (List.find?_eq_none.mp none record member)
      rw [Bool.and_eq_true, beq_iff_eq, beq_iff_eq]
      exact ⟨rfl, rfl⟩

theorem current_unresolved (lineage : Lineage (loadPlanRecords disk.file))
    (apart : ∀ record ∈ loadPlanRecords disk.file, disk.manifest.plan ≠ some record.pointer) :
    getCurrentPlanRecord disk.manifest disk.file = (loadPlanRecords disk.file).getLast? := by
  unfold getCurrentPlanRecord
  split
  · rename_i none
    rw [none]
    rfl
  · rename_i first rest load
    rw [load] at apart lineage
    rw [load, reduce_lineage lineage]
    split
    · rfl
    · rename_i pointer points
      split
      · rename_i pointed found
        have test := List.find?_some found
        rw [Bool.and_eq_true, beq_iff_eq, beq_iff_eq] at test
        refine absurd (points.trans (congrArg some ?_)) (apart pointed (List.mem_of_find?_eq_some found))
        exact (PlanPointer.mk.injEq _ _ _ _ ▸ test : pointed.pointer = pointer).symm
      · rfl

theorem current_fresh (lineage : Lineage (loadPlanRecords disk.file)) (fresh : Fresh disk) :
    getCurrentPlanRecord disk.manifest disk.file = (loadPlanRecords disk.file).getLast? := by
  by_cases points : ∃ record ∈ loadPlanRecords disk.file, disk.manifest.plan = some record.pointer
  · obtain ⟨record, member, points⟩ := points
    rw [current_pointed lineage member points, fresh record member points]
  · exact current_unresolved lineage fun record member same => points ⟨record, member, same⟩

theorem decides_of_current {record : PlanRecord} {approval : PlanApprovalRecord}
    (current : getCurrentPlanRecord disk.manifest disk.file = some record)
    (decided : record.approval = some approval) :
    isPlanApprovalPendingEffective disk.manifest disk.file = true ↔ approval.status = .pending := by
  rw [isPlanApprovalPendingEffective, current, Option.bind_some, decided]
  exact beq_iff_eq

theorem pointerFirst (lineage : Lineage (loadPlanRecords disk.file)) : PointerFirst disk where
  pointed _ member points := current_pointed lineage member points
  unresolved apart newest is := by
    rw [current_unresolved lineage apart]
    exact (isNewest_iff lineage).mp is
  decides _ _ current decided := decides_of_current current decided
  updated approval now file record set := by
    rcases setApproval_spec set with ⟨-, none, -⟩ | ⟨current, ends, -, updated, -⟩
    · cases none
    · exact ⟨current, (isNewest_iff lineage).mpr ends, Option.some.inj updated⟩

end

section

variable {disk : Disk} (lineage : Lineage (loadPlanRecords disk.file))

include lineage

theorem fresh_replace (fresh : Fresh disk) {last stored : PlanRecord}
    (ends : (loadPlanRecords disk.file).getLast? = some last) :
    Fresh { disk with file := .stored ((loadPlanRecords disk.file).dropLast ++ [stored]) } := by
  intro record member points
  have whole : loadPlanRecords (.stored ((loadPlanRecords disk.file).dropLast ++ [stored]))
      = (loadPlanRecords disk.file).dropLast ++ [stored] := rfl
  rw [whole] at member ⊢
  rw [List.getLast?_concat]
  rcases List.mem_append.mp member with inside | here
  · have old := fresh record (List.dropLast_subset _ inside) points
    obtain ⟨front, split⟩ := List.getLast?_eq_some_iff.mp ends
    have equal : last = record := Option.some.inj (ends.symm.trans old)
    rw [split, List.dropLast_concat] at inside
    rw [split, lineage_iff] at lineage
    have below := ((List.pairwise_append.mp lineage).2.2 record inside last List.mem_cons_self).2
    rw [equal] at below
    exact absurd below (Nat.lt_irrefl _)
  · rw [List.mem_singleton.mp here]

theorem agrees_iff_fresh : Agrees disk ↔ Fresh disk := by
  constructor
  · intro agrees record member points
    cases ends : (loadPlanRecords disk.file).getLast? with
    | none =>
      rw [List.getLast?_eq_none_iff.mp ends] at member
      cases member
    | some last =>
      have current := agrees.current last ((isNewest_iff lineage).mpr ends)
      rw [current_pointed lineage member points] at current
      exact current.symm
  · intro fresh
    have current := current_fresh lineage fresh
    refine ⟨fun newest is => ?_, fun approval now file record set => ?_, ?_⟩
    · rw [current]
      exact (isNewest_iff lineage).mp is
    · rcases setApproval_spec set with ⟨-, none, -⟩ | ⟨last, ends, -, updated, after⟩
      · cases none
      · have pointer : record.pointer = last.pointer := by
          rw [Option.some.inj updated]
          rfl
        rw [← Option.some.inj updated] at after
        refine ⟨last, (isNewest_iff lineage).mpr ends, Option.some.inj updated, ?_⟩
        rw [after]
        have kept : Lineage (loadPlanRecords
            (.stored ((loadPlanRecords disk.file).dropLast ++ [record]))) := lineage.replace ends pointer
        exact (current_fresh kept (fresh_replace lineage fresh ends)).trans List.getLast?_concat
    · rintro newest is ⟨approval, decided, pending⟩
      refine (decides_of_current ?_ decided).mpr pending
      rw [current]
      exact (isNewest_iff lineage).mp is

theorem lineage_write (next : Write) : Lineage (loadPlanRecords (write disk next).file) := by
  rcases write_change disk next with same | ⟨stored, follows, after⟩ | ⟨current, again, ends, same, after⟩
  · rwa [same]
  · rw [after]
    exact lineage.append follows
  · rw [after]
    exact lineage.replace ends same

end

theorem fresh_append {disk : Disk} {stored : PlanRecord}
    (lineage : Lineage (loadPlanRecords disk.file ++ [stored])) :
    Fresh { disk with file := .stored (loadPlanRecords disk.file ++ [stored]) }
      ↔ ∀ old ∈ loadPlanRecords disk.file, disk.manifest.plan ≠ some old.pointer := by
  have whole : loadPlanRecords (.stored (loadPlanRecords disk.file ++ [stored]))
      = loadPlanRecords disk.file ++ [stored] := rfl
  have pairs := (List.pairwise_append.mp (lineage_iff.mp lineage)).2.2
  constructor
  · intro fresh old member points
    have last := fresh old (by rw [whole]; exact List.mem_append_left _ member) points
    rw [whole, List.getLast?_concat] at last
    have below := (pairs old member stored List.mem_cons_self).2
    rw [Option.some.inj last] at below
    exact absurd below (Nat.lt_irrefl _)
  · intro apart record member points
    rw [whole] at member ⊢
    rw [List.getLast?_concat]
    rcases List.mem_append.mp member with inside | here
    · exact absurd points (apart record inside)
    · rw [List.mem_singleton.mp here]

/-- **A write leaves the pointer at the newest revision in exactly the case of the guard.** -/
theorem fresh_step_iff {disk : Disk} (lineage : Lineage (loadPlanRecords disk.file))
    (fresh : Fresh disk) (next : Write) : Fresh (write disk next) ↔ Keeps disk next := by
  cases next with
  | append record =>
    rw [write]
    split
    · rename_i file stored appended
      obtain ⟨after, follows⟩ := append_spec appended
      subst after
      rw [fresh_append (lineage.append follows)]
      constructor
      · intro apart _ _ _
        exact apart
      · intro keeps
        exact keeps _ _ appended
    · rename_i fault refused
      refine iff_of_true fresh fun file stored appended => ?_
      rw [refused] at appended
      cases appended
  | link itemId taskId =>
    refine iff_of_true ?_ trivial
    rw [write]
    rcases link_spec disk.file itemId taskId with same | ⟨current, items, ends, after⟩
    · rw [same]
      exact fresh
    · rw [after]
      exact fresh_replace lineage fresh ends
  | setApproval approval now =>
    refine iff_of_true ?_ trivial
    rw [write]
    split
    · rename_i file updated set
      rcases setApproval_spec set with ⟨-, -, same⟩ | ⟨last, ends, -, -, after⟩
      · rw [same]
        exact fresh
      · rw [after]
        exact fresh_replace lineage fresh ends
    · exact fresh
  | saveManifest manifest =>
    refine forall₃_congr fun record member points => ?_
    exact (isNewest_iff lineage).symm

theorem lineage_along (writes : List Write) : ∀ taken ∈ Runs.transitions write start writes,
    Lineage (loadPlanRecords taken.before.file) ∧ Lineage (loadPlanRecords taken.after.file) := by
  have initial : Lineage (loadPlanRecords start.file) := List.Pairwise.nil
  exact @Runs.forall_transitions _ _ write (fun disk => Lineage (loadPlanRecords disk.file))
    (fun _ _ => True) (fun _ next lineage _ => lineage_write lineage next) start writes initial
    (fun _ _ => trivial)

/-- **In every state of every run the current revision, and with it the gate, is the one that the manifest
points to, if it is stored, and else the newest, which gets the approvals. All look at the newest, and
the gate is closed while that is pending, in exactly the runs in which no revision is appended behind one
that the manifest points to, and no pointer to an older one is saved.** -/
theorem gate_reads_newest_iff (writes : List Write) :
    (∀ taken ∈ Runs.transitions write start writes,
        PointerFirst taken.before ∧ PointerFirst taken.after) ∧
      ((∀ taken ∈ Runs.transitions write start writes, Agrees taken.before ∧ Agrees taken.after)
        ↔ ∀ taken ∈ Runs.transitions write start writes, Keeps taken.before taken.action) := by
  constructor
  · intro taken member
    have kept := lineage_along writes taken member
    exact ⟨pointerFirst kept.1, pointerFirst kept.2⟩
  · have initial : Lineage (loadPlanRecords start.file) ∧ Fresh start :=
      ⟨List.Pairwise.nil, nofun⟩
    refine @Runs.good_iff_guarded _ _ write (fun disk => Lineage (loadPlanRecords disk.file) ∧ Fresh disk)
      Agrees (fun _ _ => True) Keeps ?_ ?_ ?_ start writes initial (fun _ _ => trivial)
    · rintro disk ⟨lineage, fresh⟩
      exact (agrees_iff_fresh lineage).mpr fresh
    · rintro disk next ⟨lineage, fresh⟩ - keeps
      exact ⟨lineage_write lineage next, (fresh_step_iff lineage fresh next).mpr keeps⟩
    · rintro disk next ⟨lineage, fresh⟩ - broken agrees
      have after := (agrees_iff_fresh (lineage_write lineage next)).mp agrees
      exact broken ((fresh_step_iff lineage fresh next).mp after)

/-- **What stays of the revisions**: all but the last one as they are, and all their pointers. -/
def Frozen (before after : List PlanRecord) : Prop :=
  before.dropLast <+: after ∧ before.map PlanRecord.pointer <+: after.map PlanRecord.pointer

theorem frozen_write {before : List PlanRecord} (disk : Disk) (next : Write)
    (frozen : Frozen before (loadPlanRecords disk.file)) :
    Frozen before (loadPlanRecords (write disk next).file) := by
  rcases write_change disk next with same | ⟨stored, -, after⟩ | ⟨current, again, ends, same, after⟩
  · rwa [same]
  · rw [after, Frozen, List.map_append]
    exact ⟨frozen.1.trans (List.prefix_append _ _), frozen.2.trans (List.prefix_append _ _)⟩
  · obtain ⟨front, whole⟩ := List.getLast?_eq_some_iff.mp ends
    rw [whole] at frozen after
    have pointers := frozen.2
    rw [List.map_append, List.map_singleton, ← same] at pointers
    rw [after, List.dropLast_concat, Frozen, List.map_append]
    refine ⟨(List.prefix_of_prefix_length_le frozen.1 (List.prefix_append _ _) ?_).trans
      (List.prefix_append _ _), pointers⟩
    -- the revisions before the last one are fewer than those that are there
    have length := pointers.length_le
    simp only [List.length_map, List.length_append, List.length_singleton] at length
    rw [List.length_dropLast]
    omega

/-- **The history of a plan is frozen**: whatever is written, the revisions that were superseded stay as
they are, in their order, and none is taken away. -/
theorem revisions_frozen (disk : Disk) (writes : List Write) :
    Frozen (loadPlanRecords disk.file) (loadPlanRecords (Runs.finish write disk writes).file) := by
  have initial : Frozen (loadPlanRecords disk.file) (loadPlanRecords disk.file) :=
    ⟨List.dropLast_prefix _, List.prefix_rfl⟩
  exact @Runs.finish_keeps _ _ write (fun after => Frozen _ (loadPlanRecords after.file))
    (fun after next => frozen_write after next) disk initial writes

def revision (version : Nat) (approval : Option PlanApprovalRecord) : PlanRecord where
  id := "plan"
  named := by decide
  version := version
  revisionOf := if version = 1 then none else some ⟨"plan", version - 1⟩
  phases := [⟨"phase-1", ["i1"]⟩]
  items := [⟨"i1", "Write it", [], .pending⟩]
  approval := approval

/-- **The gate is open while the newest revision is pending**: the first one is approved, the second one is
stored and waits for its approval, and the manifest is not saved again. -/
theorem gate_open_behind_pointer :
    let disk := Runs.finish write start [.append (revision 1 none),
      .saveManifest ⟨some ⟨"plan", 1⟩, some ⟨true, .pending⟩⟩, .setApproval ⟨.pending, none, 1⟩ "t1",
      .saveManifest ⟨some ⟨"plan", 1⟩, some ⟨true, .approved⟩⟩, .setApproval ⟨.approved, none, 1⟩ "t2",
      .append (revision 2 none), .setApproval ⟨.pending, none, 2⟩ "t3"]
    IsNewest disk.file (revision 2 (some ⟨.pending, none, "t3", 2⟩)) ∧
      getCurrentPlanRecord disk.manifest disk.file = some (revision 1 (some ⟨.approved, none, "t2", 1⟩)) ∧
      isPlanApprovalPendingEffective disk.manifest disk.file = false := by
  intro disk
  have file : disk.file = .stored [revision 1 (some ⟨.approved, none, "t2", 1⟩),
      revision 2 (some ⟨.pending, none, "t3", 2⟩)] := rfl
  refine ⟨?_, rfl, rfl⟩
  rw [file]
  exact ⟨by decide, by decide⟩

end PiCrew.Plans
