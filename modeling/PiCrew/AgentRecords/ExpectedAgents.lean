/-
**The agents that the calls say.**

A call on the index of the agents says what becomes of the record of an id: an upsert puts its record in the
place of the one with its id, and a removal takes out those of its task. The index is to contain what the
calls say in their order.

* `follows_merge`, `follows_filter` — a list of the records that the calls say, after a further call.
-/

import PiCrew.AgentRecords.AgentsIndex
import Mathlib.Data.List.Nodup

namespace PiCrew.AgentRecords.AgentsIndex

section

variable {β : Type}

def lookup (records : List (CrewAgentRecord β)) (id : String) : Option (CrewAgentRecord β) :=
  records.find? fun record => record.id = id

def Distinct (records : List (CrewAgentRecord β)) : Prop := (records.map (·.id)).Nodup

variable {records existing : List (CrewAgentRecord β)} {record : CrewAgentRecord β} {id : String}

theorem mem_of_lookup (found : lookup records id = some record) : record ∈ records ∧ record.id = id :=
  ⟨List.mem_of_find?_eq_some found, by simpa using List.find?_some found⟩

theorem lookup_eq_some (distinct : Distinct records) :
    lookup records id = some record ↔ record ∈ records ∧ record.id = id := by
  refine ⟨mem_of_lookup, fun ⟨member, same⟩ => ?_⟩
  cases found : lookup records id with
  | none =>
    have none := List.find?_eq_none.mp found record member
    simp [same] at none
  | some other =>
    obtain ⟨there, equal⟩ := mem_of_lookup found
    rw [List.inj_on_of_nodup_map distinct there member (equal.trans same.symm)]

theorem dedupe_of_distinct (distinct : Distinct records) : dedupe records = records := by
  induction records with
  | nil => rfl
  | cons first rest ih =>
    obtain ⟨fresh, others⟩ := List.nodup_cons.mp distinct
    rw [dedupe, ih others, List.filter_eq_self.mpr]
    intro other member
    have different : other.id ≠ first.id := fun same =>
      fresh (List.mem_map.mpr ⟨other, member, same⟩)
    exact decide_eq_true different

theorem map_id_replaced (existing : List (CrewAgentRecord β)) (record : CrewAgentRecord β) :
    (existing.map fun item => if item.id = record.id then record else item).map (·.id) =
      existing.map (·.id) := by
  rw [List.map_map]
  refine List.map_congr_left fun item _ => ?_
  by_cases same : item.id = record.id
  · simp [same]
  · simp [same]

theorem distinct_merge (distinct : Distinct existing) (record : CrewAgentRecord β) :
    Distinct (merge existing record) := by
  unfold Distinct merge
  dsimp only
  split_ifs with known
  · rw [map_id_replaced]
    exact distinct
  · rw [List.map_append, map_id_replaced, List.map_singleton]
    refine distinct.append (List.nodup_singleton _) ?_
    intro id member own
    obtain ⟨item, there, rfl⟩ := List.mem_map.mp member
    refine known (List.any_eq_true.mpr ⟨item, there, decide_eq_true (List.mem_singleton.mp own)⟩)

theorem mem_merge {other : CrewAgentRecord β} :
    other ∈ merge existing record ↔ other = record ∨ other ∈ existing ∧ other.id ≠ record.id := by
  have replaced : other ∈ existing.map (fun item => if item.id = record.id then record else item) ↔
      (other = record ∧ ∃ item ∈ existing, item.id = record.id) ∨
        other ∈ existing ∧ other.id ≠ record.id := by
    constructor
    · intro member
      obtain ⟨item, there, rfl⟩ := List.mem_map.mp member
      split_ifs with same
      · exact .inl ⟨rfl, item, there, same⟩
      · exact .inr ⟨there, same⟩
    · rintro (⟨rfl, item, there, same⟩ | ⟨there, different⟩)
      · exact List.mem_map.mpr ⟨item, there, if_pos same⟩
      · exact List.mem_map.mpr ⟨other, there, if_neg different⟩
  unfold merge
  dsimp only
  split_ifs with known
  · have there : ∃ item ∈ existing, item.id = record.id := by simpa using known
    rw [replaced]
    exact or_congr_left (and_iff_left there)
  · have absent : ¬ ∃ item ∈ existing, item.id = record.id := by simpa using known
    rw [List.mem_append, replaced, List.mem_singleton]
    tauto

theorem lookup_merge (distinct : Distinct existing) (record : CrewAgentRecord β) (id : String) :
    lookup (merge existing record) id = if record.id = id then some record else lookup existing id := by
  refine Option.ext fun other => ?_
  rw [lookup_eq_some (distinct_merge distinct record), mem_merge]
  split_ifs with own
  · constructor
    · rintro ⟨rfl | ⟨_, different⟩, same⟩
      · rfl
      · exact absurd (same.trans own.symm) different
    · rintro ⟨⟩
      exact ⟨.inl rfl, own⟩
  · rw [lookup_eq_some distinct]
    constructor
    · rintro ⟨rfl | ⟨there, _⟩, same⟩
      · exact absurd same own
      · exact ⟨there, same⟩
    · rintro ⟨there, same⟩
      exact ⟨.inr ⟨there, fun equal => own (equal.symm.trans same)⟩, same⟩

theorem lookup_filter (distinct : Distinct existing) (keeps : CrewAgentRecord β → Bool) (id : String) :
    lookup (existing.filter keeps) id = (lookup existing id).filter keeps := by
  have fewer : Distinct (existing.filter keeps) := List.Nodup.sublist (List.filter_sublist.map _) distinct
  refine Option.ext fun other => ?_
  rw [lookup_eq_some fewer, List.mem_filter, Option.filter_eq_some_iff, lookup_eq_some distinct]
  tauto

end

section

variable {β : Type} (redact : CrewAgentRecord β → CrewAgentRecord β)

def Call.tells (id : String) (known : Option (CrewAgentRecord β)) : Call β → Option (CrewAgentRecord β)
  | .upsertCrewAgent record => if record.id = id then some (redact record) else known
  | .removeCrewAgent taskId => known.filter fun record => record.taskId ≠ taskId

/-- **The record of an id that the calls say**, on top of the one that there was before. -/
def expected (before : String → Option (CrewAgentRecord β)) (history : List (Word β)) (id : String) :
    Option (CrewAgentRecord β) :=
  history.foldr (fun word known => word.call.tells redact id known) (before id)

/-- A record keeps its id when it is redacted, and is redacted once and for all. -/
structure Settles (record : CrewAgentRecord β) : Prop where
  id : (redact record).id = record.id
  again : redact (redact record) = redact record

def Call.Settles (call : Call β) : Prop :=
  match call with
  | .upsertCrewAgent record => AgentsIndex.Settles redact record
  | .removeCrewAgent _ => True

/-- **The records are those that the calls say.** -/
structure Follows (before : String → Option (CrewAgentRecord β)) (history : List (Word β))
    (records : List (CrewAgentRecord β)) : Prop where
  distinct : Distinct records
  redacted : ∀ record ∈ records, redact record = record
  each : ∀ id, lookup records id = expected redact before history id

variable {redact} {before : String → Option (CrewAgentRecord β)} {history : List (Word β)}
  {existing : List (CrewAgentRecord β)}

theorem redactSecrets_of_redacted {records : List (CrewAgentRecord β)}
    (redacted : ∀ record ∈ records, redact record = record) : redactSecrets redact records = records :=
  (List.map_congr_left redacted).trans (List.map_id _)

theorem redactSecrets_merge (redacted : ∀ record ∈ existing, redact record = record)
    {record : CrewAgentRecord β} (settles : Settles redact record) :
    redactSecrets redact (merge existing record) = merge existing (redact record) := by
  have replaced : (existing.map fun item => if item.id = record.id then record else item).map redact =
      existing.map fun item => if item.id = record.id then redact record else item := by
    rw [List.map_map]
    refine List.map_congr_left fun item member => ?_
    by_cases same : item.id = record.id
    · simp [same]
    · simp [same, redacted item member]
  unfold redactSecrets merge
  simp only [settles.id]
  split_ifs
  · exact replaced
  · rw [List.map_append, replaced]
    rfl

/-- **An upsert of what the calls say.** -/
theorem follows_merge (slot : Nat) (follows : Follows redact before history existing)
    {record : CrewAgentRecord β} (settles : Settles redact record) :
    Follows redact before (⟨slot, .upsertCrewAgent record⟩ :: history)
      (redactSecrets redact (merge existing record)) := by
  rw [redactSecrets_merge follows.redacted settles]
  refine ⟨distinct_merge follows.distinct _, fun other member => ?_, fun id => ?_⟩
  · rcases mem_merge.mp member with rfl | ⟨there, -⟩
    · exact settles.again
    · exact follows.redacted other there
  · rw [lookup_merge follows.distinct, settles.id, follows.each]
    rfl

/-- **A removal from what the calls say.** -/
theorem follows_filter (slot : Nat) (follows : Follows redact before history existing) (taskId : String) :
    Follows redact before (⟨slot, .removeCrewAgent taskId⟩ :: history)
      (existing.filter fun record => record.taskId ≠ taskId) := by
  refine ⟨List.Nodup.sublist (List.filter_sublist.map _) follows.distinct, fun other member => ?_,
    fun id => ?_⟩
  · exact follows.redacted other (List.mem_of_mem_filter member)
  · rw [lookup_filter follows.distinct, follows.each]
    rfl

end

end PiCrew.AgentRecords.AgentsIndex
