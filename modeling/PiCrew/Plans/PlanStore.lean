/-
**The revisions of a run's plan.**

`state/stores/plan-store.ts`: one file per run with the revisions of its plan, oldest first. Revisions are
appended, and the last one gets the approval and the linked tasks. The manifest has a pointer to the
current revision.

* `reduce_lineage` — the highest version is the last revision.

The file is written as a whole, and is as the store wrote it, or missing, or cannot be read. Ids of plans
are not empty: they are random. Events, and fields that these functions do not read, are left out.
-/

import Mathlib.Algebra.GroupWithZero.Nat
import Mathlib.Data.List.Basic
import Mathlib.Data.List.Pairwise

namespace PiCrew.Plans

structure PlanPointer where
  id : String
  version : Nat
  deriving DecidableEq

inductive ApprovalStatus where
  | pending
  | approved
  | rejected
  deriving DecidableEq

structure PlanApprovalRecord where
  status : ApprovalStatus
  by_ : Option String
  at_ : String
  planVersion : Nat
  deriving DecidableEq

inductive PlanItemStatus where
  | pending
  | active
  | done
  | dropped
  deriving DecidableEq

structure PlanItemRecord where
  id : String
  title : String
  taskIds : List String
  status : PlanItemStatus
  deriving DecidableEq

structure PlanPhaseRecord where
  id : String
  itemIds : List String
  deriving DecidableEq

structure PlanRecord where
  id : String
  named : id ≠ ""
  version : Nat
  revisionOf : Option PlanPointer
  phases : List PlanPhaseRecord
  items : List PlanItemRecord
  approval : Option PlanApprovalRecord
  deriving DecidableEq

def PlanRecord.pointer (record : PlanRecord) : PlanPointer := ⟨record.id, record.version⟩

inductive PlanFile where
  | missing
  | unreadable (fault : String)
  | stored (revisions : List PlanRecord)

/-- The manifest's gate, as it was before there were records. -/
inductive PlanApprovalStatus where
  | pending
  | approved
  | cancelled
  deriving DecidableEq

structure PlanApprovalState where
  required : Bool
  status : PlanApprovalStatus
  deriving DecidableEq

structure TeamRunManifest where
  plan : Option PlanPointer
  planApproval : Option PlanApprovalState
  deriving DecidableEq

/-- The revisions, or none where the file cannot be read. -/
def loadPlanRecords : PlanFile → List PlanRecord
  | .missing => []
  | .unreadable _ => []
  | .stored revisions => revisions

/-- The revisions, for a writer: a file that cannot be read is not overwritten. -/
def loadPlanRecordsStrict : PlanFile → Except String (List PlanRecord)
  | .missing => .ok []
  | .unreadable fault => .error
      ("plan-store: plans.json unreadable (" ++ fault ++ ") — refusing to overwrite existing revisions")
  | .stored revisions => .ok revisions

def highest (first : PlanRecord) (revisions : List PlanRecord) : PlanRecord :=
  revisions.foldl (fun acc record => if record.version > acc.version then record else acc) first

/-- **The current revision**: the one that the manifest points to, if it is there, and else the highest
version. -/
def getCurrentPlanRecord (manifest : TeamRunManifest) (file : PlanFile) : Option PlanRecord :=
  match loadPlanRecords file with
  | [] => none
  | first :: rest =>
    match manifest.plan with
    | none => some (highest first (first :: rest))
    | some pointer =>
      match (first :: rest).find? fun record =>
          record.id == pointer.id && record.version == pointer.version with
      | some pointed => some pointed
      | none => some (highest first (first :: rest))

def titleMax : Nat := 512

def textLength (text : String) : Nat :=
  (text.toList.map fun char => if char.toNat < 0x10000 then 1 else 2).sum

/-- A letter or a digit, then at most 127 letters, digits, dots, underscores and hyphens. -/
def matchesIdPattern (id : String) : Bool :=
  match id.toList with
  | [] => false
  | first :: rest => first.isAlphanum && rest.length ≤ 127 &&
      rest.all fun char => char.isAlphanum || char = '.' || char = '_' || char = '-'

/-- What is wrong with an item of a revision, behind the ids that are there. -/
def itemsFault (version : Nat) : List String → List PlanItemRecord → Option String
  | _, [] => none
  | ids, item :: rest =>
    if ¬ matchesIdPattern item.id then
      some ("plan-store: item id must match [A-Za-z0-9][A-Za-z0-9._-]\x7b0,127\x7d — got \"" ++
        String.ofList (item.id.toList.take 40) ++ "\"")
    else if textLength item.title > titleMax then
      some s!"plan-store: item title exceeds {titleMax} chars"
    else if item.id ∈ ids then
      some ("plan-store: duplicate item id \"" ++ item.id ++ s!"\" in revision v{version}")
    else itemsFault version (item.id :: ids) rest

def phaseFault (known : List String) (phase : PlanPhaseRecord) : Option String :=
  (phase.itemIds.find? fun itemId => itemId ∉ known).map fun itemId =>
    "plan-store: phase \"" ++ phase.id ++ "\" references unknown item \"" ++ itemId ++ "\""

/-- **What is wrong with a revision.** -/
def recordFault (record : PlanRecord) : Option String :=
  (itemsFault record.version [] record.items).orElse fun _ =>
    record.phases.findSome? (phaseFault (record.items.map (·.id)))

/-- The items, each with the tasks that were linked to it in the revision before. -/
def carryForward (last : PlanRecord) (items : List PlanItemRecord) : List PlanItemRecord :=
  items.map fun item =>
    match last.items.reverse.find? (·.id = item.id) with
    | none => item
    | some prior => { item with taskIds := (prior.taskIds ++ item.taskIds).eraseDups }

/-- The revision as it is stored behind the last one, or what breaks the lineage. -/
def follow (last record : PlanRecord) : Except String PlanRecord :=
  if record.id ≠ last.id then
    .error ("plan-store: lineage break — expected id " ++ last.id ++ ", got " ++ record.id)
  else if record.version ≠ last.version + 1 then
    .error s!"plan-store: version must be {last.version + 1}, got {record.version}"
  else
    match record.revisionOf with
    | none => .ok { record with
        revisionOf := some last.pointer
        items := carryForward last record.items }
    | some origin =>
      if origin.id ≠ last.id ∨ origin.version ≠ last.version then
        .error (s!"plan-store: revisionOf must point at v{last.version} of " ++ last.id)
      else .ok { record with items := carryForward last record.items }

/-- The revision as it is stored first. -/
def begin (record : PlanRecord) : Except String PlanRecord :=
  if record.version ≠ 1 then .error s!"plan-store: first revision must be v1, got v{record.version}"
  else if record.revisionOf.isSome then .error "plan-store: first revision must not set revisionOf"
  else .ok record

/-- **Append a revision**: the file, and the revision as it is stored. -/
def appendPlanRevision (file : PlanFile) (record : PlanRecord) : Except String (PlanFile × PlanRecord) :=
  match loadPlanRecordsStrict file with
  | .error fault => .error fault
  | .ok revisions =>
    match (match revisions.getLast? with
      | none => begin record
      | some last => follow last record) with
    | .error fault => .error fault
    | .ok record =>
      match recordFault record with
      | some fault => .error fault
      | none => .ok (.stored (revisions ++ [record]), record)

def linkTaskToPlanItem (file : PlanFile) (itemId taskId : String) : PlanFile × Bool :=
  let revisions := loadPlanRecords file
  match revisions.getLast? with
  | none => (file, false)
  | some current =>
    match current.items.find? (·.id = itemId) with
    | none => (file, false)
    | some item =>
      if item.status = .dropped ∨ taskId ∈ item.taskIds then (file, false)
      else
        let items := current.items.modify (current.items.findIdx (·.id = itemId)) fun item =>
          { item with taskIds := item.taskIds ++ [taskId] }
        (.stored (revisions.dropLast ++ [{ current with items := items }]), true)

structure Decision where
  status : ApprovalStatus
  by_ : Option String
  planVersion : Nat

/-- **Set the approval** of the last revision: the file, and the revision if there is one. -/
def setPlanApproval (file : PlanFile) (approval : Decision) (now : String) :
    Except String (PlanFile × Option PlanRecord) :=
  let revisions := loadPlanRecords file
  match revisions.getLast? with
  | none => .ok (file, none)
  | some current =>
    if approval.planVersion ≠ current.version then
      .error
        s!"plan-store: approval targets v{approval.planVersion} but current is v{current.version}"
    else
      let decided := { current with
        approval := some ⟨approval.status, approval.by_, now, approval.planVersion⟩ }
      .ok (.stored (revisions.dropLast ++ [decided]), some decided)

theorem follow_pointer {last record stored : PlanRecord} (follows : follow last record = .ok stored) :
    stored.id = last.id ∧ stored.version = last.version + 1 := by
  unfold follow at follows
  split at follows
  · cases follows
  · rename_i same
    split at follows
    · cases follows
    · rename_i next
      rw [not_not] at same next
      split at follows
      · cases follows
        exact ⟨same, next⟩
      · split at follows
        · cases follows
        · cases follows
          exact ⟨same, next⟩

theorem append_spec {file after : PlanFile} {record stored : PlanRecord}
    (appended : appendPlanRevision file record = .ok (after, stored)) :
    after = .stored (loadPlanRecords file ++ [stored]) ∧
      ∀ last, (loadPlanRecords file).getLast? = some last →
        stored.id = last.id ∧ stored.version = last.version + 1 := by
  unfold appendPlanRevision at appended
  split at appended
  · cases appended
  · rename_i revisions read
    have same : loadPlanRecords file = revisions := by
      cases file with
      | missing => exact Except.ok.inj read
      | unreadable fault => cases read
      | stored revisions => exact Except.ok.inj read
    rw [same]
    split at appended
    · cases appended
    · rename_i chosen choice
      split at appended
      · cases appended
      · cases appended
        refine ⟨rfl, fun last ends => ?_⟩
        rw [ends] at choice
        exact follow_pointer choice

theorem link_spec (file : PlanFile) (itemId taskId : String) :
    (linkTaskToPlanItem file itemId taskId).1 = file ∨
      ∃ current items, (loadPlanRecords file).getLast? = some current ∧
        (linkTaskToPlanItem file itemId taskId).1
          = .stored ((loadPlanRecords file).dropLast ++ [{ current with items := items }]) := by
  unfold linkTaskToPlanItem
  simp only
  split
  · exact Or.inl rfl
  · rename_i current ends
    split
    · exact Or.inl rfl
    · split
      · exact Or.inl rfl
      · exact Or.inr ⟨current, _, ends, rfl⟩

theorem setApproval_spec {file after : PlanFile} {approval : Decision} {now : String}
    {updated : Option PlanRecord} (set : setPlanApproval file approval now = .ok (after, updated)) :
    ((loadPlanRecords file).getLast? = none ∧ updated = none ∧ after = file) ∨
      ∃ current, (loadPlanRecords file).getLast? = some current ∧
        approval.planVersion = current.version ∧
        updated = some { current with
          approval := some ⟨approval.status, approval.by_, now, approval.planVersion⟩ } ∧
        after = .stored ((loadPlanRecords file).dropLast ++ [{ current with
          approval := some ⟨approval.status, approval.by_, now, approval.planVersion⟩ }]) := by
  unfold setPlanApproval at set
  simp only at set
  split at set
  · rename_i none
    cases set
    exact Or.inl ⟨none, rfl, rfl⟩
  · rename_i current ends
    split at set
    · cases set
    · rename_i version
      cases set
      exact Or.inr ⟨current, ends, not_not.mp version, rfl, rfl⟩

/-- **The revisions of one plan**, with versions that go up. -/
def Lineage (revisions : List PlanRecord) : Prop :=
  (revisions.map PlanRecord.pointer).Pairwise fun first second =>
    first.id = second.id ∧ first.version < second.version

section

variable {revisions : List PlanRecord}

theorem lineage_iff : Lineage revisions ↔
    revisions.Pairwise fun first second => first.id = second.id ∧ first.version < second.version := by
  rw [Lineage, List.pairwise_map]
  rfl

theorem Lineage.before_last (lineage : Lineage revisions)
    {last : PlanRecord} (ends : revisions.getLast? = some last) {record : PlanRecord}
    (member : record ∈ revisions) :
    record = last ∨ (record.id = last.id ∧ record.version < last.version) := by
  obtain ⟨front, whole⟩ := List.getLast?_eq_some_iff.mp ends
  rw [lineage_iff, whole] at lineage
  rw [whole] at member
  rcases List.mem_append.mp member with inside | here
  · exact Or.inr ((List.pairwise_append.mp lineage).2.2 record inside last List.mem_cons_self)
  · exact Or.inl (List.mem_singleton.mp here)

theorem Lineage.append (lineage : Lineage revisions)
    {stored : PlanRecord} (next : ∀ last, revisions.getLast? = some last →
      stored.id = last.id ∧ stored.version = last.version + 1) :
    Lineage (revisions ++ [stored]) := by
  rw [lineage_iff, List.pairwise_append]
  refine ⟨lineage_iff.mp lineage, List.pairwise_singleton _ _, fun record member other here => ?_⟩
  rw [List.mem_singleton.mp here]
  cases ends : revisions.getLast? with
  | none =>
    rw [List.getLast?_eq_none_iff.mp ends] at member
    cases member
  | some last =>
    obtain ⟨same, above⟩ := next last ends
    rcases lineage.before_last ends member with equal | ⟨id, below⟩
    · rw [equal]
      exact ⟨same.symm, by omega⟩
    · exact ⟨id.trans same.symm, by omega⟩

theorem Lineage.replace (lineage : Lineage revisions)
    {last stored : PlanRecord} (ends : revisions.getLast? = some last)
    (same : stored.pointer = last.pointer) : Lineage (revisions.dropLast ++ [stored]) := by
  obtain ⟨front, whole⟩ := List.getLast?_eq_some_iff.mp ends
  rw [whole, List.dropLast_concat]
  rw [whole] at lineage
  rw [Lineage, List.map_append, List.map_singleton] at lineage ⊢
  rwa [same]

theorem Lineage.eq_of_pointer (lineage : Lineage revisions)
    {first second : PlanRecord} (one : first ∈ revisions) (other : second ∈ revisions)
    (same : first.pointer = second.pointer) : first = second := by
  have pairs := lineage_iff.mp lineage
  have forward : revisions.Pairwise fun a b => a.version = b.version → a = b :=
    pairs.imp fun before versions => absurd versions (Nat.ne_of_lt before.2)
  have backward : revisions.Pairwise fun a b => b.version = a.version → b = a :=
    pairs.imp fun before versions => absurd versions.symm (Nat.ne_of_lt before.2)
  exact forward.forall_of_forall_of_flip (fun _ _ _ => rfl) backward one other
    (congrArg PlanPointer.version same)

end

/-- **The highest version is the last revision.** -/
theorem reduce_lineage {first : PlanRecord} {rest : List PlanRecord} (lineage : Lineage (first :: rest)) :
    (first :: rest).getLast? = some (highest first (first :: rest)) := by
  have step : highest first (first :: rest) = highest first rest := by
    rw [highest, List.foldl_cons, if_neg (Nat.lt_irrefl _)]
    rfl
  rw [step]
  clear step
  induction rest generalizing first with
  | nil => rfl
  | cons next rest ih =>
    have pairs := List.pairwise_cons.mp (lineage_iff.mp lineage)
    have above : next.version > first.version := (pairs.1 next List.mem_cons_self).2
    rw [List.getLast?_cons_cons, highest, List.foldl_cons, if_pos above]
    exact ih (lineage_iff.mpr pairs.2)

end PiCrew.Plans
