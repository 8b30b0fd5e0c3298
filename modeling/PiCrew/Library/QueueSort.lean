/-
**Sorting a dependency graph with a queue.**

A node's count is the number of times that it names a known dependency. The nodes whose count is zero wait in a
queue. A node that leaves the queue is placed, and lowers the count of a dependent once for every time that the
dependent names it; a dependent whose count comes to zero joins the queue.

* `queueSort_complete_iff` — all nodes are placed exactly when no chain of dependencies comes back.

A dependency may be named several times: it is counted as often, and lowered as often.
-/

import Mathlib.Algebra.Ring.Int.Defs
import PiCrew.Library.Waves

namespace Waves

section

variable {α : Type*} [DecidableEq α] (nodes : List (Node α))

def followers (id : α) : List α :=
  nodes.flatMap fun node => (node.dependsOn.filter (· = id)).map fun _ => node.id

def inDegree (id : α) : Int :=
  ((nodes.filter (·.id = id)).map fun node => ((known nodes node).length : Int)).sum

def arrive (state : (α → Int) × List α) (dependent : α) : (α → Int) × List α :=
  let degree := state.1 dependent - 1
  (Function.update state.1 dependent degree, if degree = 0 then state.2 ++ [dependent] else state.2)

/-- **Node after node leaves the queue**, until it is empty. -/
def drain : Nat → (α → Int) → List α → List α → List α
  | 0, _, _, placed => placed
  | _ + 1, _, [], placed => placed
  | fuel + 1, counts, id :: queue, placed =>
    drain fuel ((followers nodes id).foldl arrive (counts, queue)).1
      ((followers nodes id).foldl arrive (counts, queue)).2 (placed ++ [id])

/-- **The nodes in the order in which they leave the queue.** -/
def queueSort : List α :=
  drain nodes (nodes.length + 1) (inDegree nodes) ((entered (ids nodes)).filter (inDegree nodes · = 0)) []

end

section

variable {α : Type*} [DecidableEq α]

/-- **Nothing in the queue is lowered to zero again**, so that it is put in as into a wave. -/
theorem foldl_arrive_eq (hits : List α) {counts : α → Int} {queue : List α}
    (spent : ∀ id ∈ queue, counts id ≤ 0) :
    hits.foldl arrive (counts, queue) = hits.foldl lower (counts, queue) := by
  induction hits generalizing counts queue with
  | nil => rfl
  | cons hit rest ih =>
    have once : arrive (counts, queue) hit = lower (counts, queue) hit := by
      unfold arrive lower enter
      dsimp only
      split_ifs with last old
      · have low := spent hit old
        omega
      · rfl
      · rfl
    rw [List.foldl_cons, List.foldl_cons, once]
    refine ih fun id member => ?_
    change (lower (counts, queue) hit).1 id ≤ 0
    rw [lower_fst]
    rcases mem_lower.mp member with old | ⟨rfl, last⟩
    · have low := spent id old
      split <;> omega
    · rw [if_pos rfl]
      omega

/-- **What lowering counts one by one amounts to**: a dependent joins the queue when its count is brought from
above zero to zero or below, and no dependent joins it twice. -/
theorem foldl_arrive (hits : List α) (counts : α → Int) (queue : List α) (spent : ∀ id ∈ queue, counts id ≤ 0)
    (apart : queue.Nodup) :
    (∀ x, (hits.foldl arrive (counts, queue)).1 x = counts x - hits.count x) ∧
      (hits.foldl arrive (counts, queue)).2.Nodup ∧
      ∀ x, x ∈ (hits.foldl arrive (counts, queue)).2 ↔ x ∈ queue ∨ 0 < counts x ∧ counts x ≤ hits.count x := by
  obtain ⟨lowered, gathered⟩ := foldl_lower hits counts queue
  rw [foldl_arrive_eq hits spent]
  exact ⟨lowered, nodup_lower hits counts apart, gathered⟩

end

section

variable {α : Type*} [DecidableEq α] {nodes : List (Node α)}

omit [DecidableEq α] in
theorem apart_of_distinct {before behind : List (Node α)} {node : Node α}
    (distinct : (ids (before ++ node :: behind)).Nodup) :
    ∀ other ∈ before ++ behind, other.id ≠ node.id := by
  have moved : (node.id :: ids (before ++ behind)).Nodup := by
    refine (List.Perm.nodup_iff ?_).mp distinct
    simp only [ids, List.map_append, List.map_cons]
    exact List.perm_middle
  intro other member same
  exact (List.nodup_cons.mp moved).1 (same ▸ List.mem_map_of_mem member)

theorem inDegree_eq (distinct : (ids nodes).Nodup) {node : Node α} (member : node ∈ nodes) :
    inDegree nodes node.id = (known nodes node).length := by
  have only : nodes.filter (·.id = node.id) = [node] := by
    obtain ⟨before, behind, rfl⟩ := List.append_of_mem member
    have others := apart_of_distinct distinct
    have none_before : before.filter (·.id = node.id) = [] := by
      rw [List.filter_eq_nil_iff]
      intro other there
      simpa using others other (List.mem_append_left _ there)
    have none_behind : behind.filter (·.id = node.id) = [] := by
      rw [List.filter_eq_nil_iff]
      intro other there
      simpa using others other (List.mem_append_right _ there)
    simp [none_before, none_behind]
  simp [inDegree, only]

theorem count_followers (distinct : (ids nodes).Nodup) {node : Node α} (member : node ∈ nodes) (id : α) :
    (followers nodes id).count node.id = node.dependsOn.count id := by
  obtain ⟨before, behind, rfl⟩ := List.append_of_mem member
  have others := apart_of_distinct distinct
  have missing : ∀ part : List (Node α), (∀ other ∈ part, other.id ≠ node.id) →
      (followers part id).count node.id = 0 := by
    intro part apart
    rw [List.count_eq_zero]
    intro there
    obtain ⟨other, member, copies⟩ := List.mem_flatMap.mp there
    obtain ⟨_, _, same⟩ := List.mem_map.mp copies
    exact apart other member same
  have none_before := missing before fun other there => others other (List.mem_append_left _ there)
  have none_behind := missing behind fun other there => others other (List.mem_append_right _ there)
  have here : ((node.dependsOn.filter (· = id)).map fun _ => node.id).count node.id =
      node.dependsOn.count id := by
    rw [List.map_const', List.count_replicate_self, ← List.countP_eq_length_filter, List.count]
    refine List.countP_congr fun dependency _ => ?_
    simp
  rw [followers] at none_before none_behind ⊢
  rw [List.flatMap_append, List.flatMap_cons, List.count_append, List.count_append, none_before, none_behind,
    here]
  omega

/-- **The loop so far**: the nodes placed, the counts and the queue. A count is what the placed nodes leave of
the node's dependencies; it is spent exactly on the nodes that are placed or queued. -/
structure Sorted (nodes : List (Node α)) (placed : List α) (counts : α → Int) (queue : List α) : Prop where
  apart : (placed ++ queue).Nodup
  listed : placed ++ queue ⊆ ids nodes
  counted : ∀ node ∈ nodes, counts node.id = (known nodes node).countP (· ∉ placed)
  spent : ∀ id ∈ ids nodes, id ∈ placed ++ queue ↔ counts id ≤ 0
  behind : ∀ before id after, placed = before ++ id :: after → ∀ dependency, Edge nodes id dependency →
    dependency ∈ before

theorem Sorted.first (distinct : (ids nodes).Nodup) :
    Sorted nodes [] (inDegree nodes) ((entered (ids nodes)).filter (inDegree nodes · = 0)) := by
  constructor
  · exact (nodup_entered _).filter _
  · exact fun id member => mem_entered.mp (List.mem_filter.mp member).1
  · intro node member
    simp [inDegree_eq distinct member]
  · intro id member
    obtain ⟨node, there, rfl⟩ := List.mem_map.mp member
    have degree := inDegree_eq distinct there
    rw [List.nil_append, List.mem_filter, mem_entered, and_iff_right member, decide_eq_true_eq]
    omega
  · intro before id after split
    cases before <;> cases split

theorem countP_waiting (node : Node α) {placed : List α} {id : α} (fresh : id ∉ placed) (inside : id ∈ ids nodes) :
    ((known nodes node).countP (· ∉ placed ++ [id]) : Int)
      = (known nodes node).countP (· ∉ placed) - node.dependsOn.count id := by
  have named : (known nodes node).count id = node.dependsOn.count id := by
    rw [known, List.count_filter (by simpa using inside)]
  rw [← named]
  induction known nodes node with
  | nil => simp
  | cons first rest hyp =>
    simp only [List.countP_cons, List.count_cons]
    by_cases same : first = id
    · subst same
      simp [fresh] at hyp ⊢
      omega
    · simp [same] at hyp ⊢
      omega

/-- **One node leaves the queue.** -/
theorem Sorted.next (distinct : (ids nodes).Nodup) {placed queue : List α} {counts : α → Int} {id : α}
    (sorted : Sorted nodes placed counts (id :: queue)) :
    Sorted nodes (placed ++ [id]) ((followers nodes id).foldl arrive (counts, queue)).1
      ((followers nodes id).foldl arrive (counts, queue)).2 := by
  have inside : ∀ other ∈ placed ++ id :: queue, other ∈ ids nodes := fun other member => sorted.listed member
  have spent : ∀ other ∈ placed ++ id :: queue, counts other ≤ 0 := fun other member =>
    (sorted.spent other (inside other member)).mp member
  have here : id ∈ placed ++ id :: queue := by simp
  have fresh : id ∉ placed := fun old =>
    (List.nodup_append.mp sorted.apart).2.2 id old id List.mem_cons_self rfl
  obtain ⟨lowered, fresh_queue, gathered⟩ := foldl_arrive (followers nodes id) counts queue
    (fun other member => spent other (by simp [member]))
    (List.nodup_cons.mp (List.nodup_append.mp sorted.apart).2.1).2
  have joins : ∀ other ∈ ((followers nodes id).foldl arrive (counts, queue)).2, other ∉ queue →
      0 < counts other ∧ counts other ≤ (followers nodes id).count other := fun other member absent =>
    ((gathered other).mp member).resolve_left absent
  constructor
  · rw [List.append_assoc, List.singleton_append]
    have older := List.nodup_append.mp sorted.apart
    have newer : id ∉ ((followers nodes id).foldl arrive (counts, queue)).2 := fun member => by
      have low := spent id here
      have join := joins id member (List.nodup_cons.mp older.2.1).1
      omega
    refine List.nodup_append.mpr ⟨older.1, List.nodup_cons.mpr ⟨newer, fresh_queue⟩, ?_⟩
    rintro other old _ member rfl
    rcases List.mem_cons.mp member with rfl | member
    · exact fresh old
    · have low := spent other (List.mem_append_left _ old)
      have absent : other ∉ queue := fun queued => older.2.2 other old other (List.mem_cons_of_mem _ queued) rfl
      have join := joins other member absent
      omega
  · intro other member
    rcases List.mem_append.mp member with old | new
    · exact inside other (by simpa [or_assoc] using Or.inl (List.mem_append.mp old))
    · rcases (gathered other).mp new with queued | ⟨low, high⟩
      · exact inside other (by simp [queued])
      · have hit : other ∈ followers nodes id := List.count_pos_iff.mp (by omega)
        obtain ⟨node, there, copies⟩ := List.mem_flatMap.mp hit
        obtain ⟨_, _, same⟩ := List.mem_map.mp copies
        exact same ▸ List.mem_map_of_mem there
  · intro node member
    rw [lowered, sorted.counted node member, count_followers distinct member,
      countP_waiting node fresh (inside id here)]
  · intro other member
    rw [lowered, List.append_assoc, List.singleton_append, List.mem_append, List.mem_cons, gathered]
    have before := sorted.spent other member
    rw [List.mem_append, List.mem_cons] at before
    by_cases low : counts other ≤ 0
    · refine iff_of_true ?_ (by omega)
      rcases before.mpr low with old | same | queued
      · exact Or.inl old
      · exact Or.inr (Or.inl same)
      · exact Or.inr (Or.inr (Or.inl queued))
    · have apart := mt before.mp low
      rw [not_or, not_or] at apart
      rw [or_iff_right apart.1, or_iff_right apart.2.1, or_iff_right apart.2.2]
      omega
  · intro before other after split dependency edge
    rcases List.eq_nil_or_concat after with rfl | ⟨after, last, rfl⟩
    · obtain ⟨rfl, same⟩ := List.append_inj' split rfl
      obtain rfl := List.singleton_inj.mp same
      obtain ⟨known_, node, there, rfl, names⟩ := edge
      have none_left := sorted.counted node there
      have low := spent node.id here
      have zero : (known nodes node).countP (· ∉ placed) = 0 := by omega
      simpa using List.countP_eq_zero.mp zero dependency (mem_known.mpr ⟨names, known_⟩)
    · rw [List.concat_eq_append, ← List.cons_append, ← List.append_assoc] at split
      obtain ⟨split, -⟩ := List.append_inj' split rfl
      exact sorted.behind before other after split dependency edge

theorem drain_sorted (distinct : (ids nodes).Nodup) (fuel : Nat) {placed queue : List α} {counts : α → Int}
    (sorted : Sorted nodes placed counts queue) (enough : nodes.length < placed.length + fuel) :
    ∃ counts', Sorted nodes (drain nodes fuel counts queue placed) counts' [] := by
  induction fuel generalizing placed queue counts with
  | zero =>
    have room := (List.subperm_of_subset sorted.apart sorted.listed).length_le
    rw [List.length_append, ids, List.length_map] at room
    omega
  | succ fuel hyp =>
    cases queue with
    | nil => exact ⟨counts, sorted⟩
    | cons id queue => exact hyp (sorted.next distinct) (by simp; omega)

theorem Sorted.closed {placed : List α} {counts : α → Int} (sorted : Sorted nodes placed counts []) {id : α}
    (member : id ∈ ids nodes) (all : ∀ dependency, Edge nodes id dependency → dependency ∈ placed) :
    id ∈ placed := by
  have spent := sorted.spent id member
  rw [List.append_nil] at spent
  obtain ⟨node, there, rfl⟩ := List.mem_map.mp member
  rw [spent, sorted.counted node there]
  have none_left : (known nodes node).countP (· ∉ placed) = 0 := by
    rw [List.countP_eq_zero]
    intro dependency named
    obtain ⟨names, inside⟩ := mem_known.mp named
    simpa using all dependency ⟨inside, node, there, rfl, names⟩
  exact le_of_eq (congrArg Int.ofNat none_left)

theorem queueSort_spec (distinct : (ids nodes).Nodup) :
    (queueSort nodes).Nodup ∧ queueSort nodes ⊆ ids nodes ∧
      (∀ before id after, queueSort nodes = before ++ id :: after → ∀ dependency, Edge nodes id dependency →
        dependency ∈ before) ∧
      ∀ id ∈ ids nodes, (∀ dependency, Edge nodes id dependency → dependency ∈ queueSort nodes) →
        id ∈ queueSort nodes := by
  obtain ⟨counts, sorted⟩ := drain_sorted distinct (nodes.length + 1) (Sorted.first distinct) (by simp)
  have apart := sorted.apart
  have listed := sorted.listed
  rw [List.append_nil] at apart listed
  exact ⟨apart, listed, sorted.behind, fun id member all => sorted.closed member all⟩

theorem idxOf_lt_of_split {order before after : List α} {id earlier : α} (apart : order.Nodup)
    (split : order = before ++ id :: after) (member : earlier ∈ before) :
    order.idxOf earlier < order.idxOf id := by
  have fresh : id ∉ before := fun old =>
    (List.nodup_append.mp (split ▸ apart)).2.2 id old id List.mem_cons_self rfl
  rw [split, List.idxOf_append_of_mem member, List.idxOf_append_of_notMem fresh, List.idxOf_cons_self]
  exact Nat.lt_of_lt_of_le (List.idxOf_lt_length_of_mem member) (Nat.le_add_right _ _)

/-- **All nodes are placed exactly when no chain of dependencies comes back.** -/
theorem queueSort_complete_iff (distinct : (ids nodes).Nodup) :
    ids nodes ⊆ queueSort nodes ↔ Acyclic nodes := by
  obtain ⟨apart, listed, behind, placed⟩ := queueSort_spec distinct
  constructor
  · intro all
    refine acyclic_of_rank (queueSort nodes).idxOf fun node member dependency names known => ?_
    obtain ⟨before, after, split⟩ := List.append_of_mem (all (List.mem_map_of_mem member))
    have earlier := behind before node.id after split dependency ⟨known, node, member, rfl, names⟩
    exact idxOf_lt_of_split apart split earlier
  · intro acyclic id member
    obtain ⟨n, within⟩ := acyclic.bounded member
    induction n generalizing id with
    | zero => exact placed id member fun dependency edge => absurd edge.2 (within dependency edge.1)
    | succ n hyp =>
      exact placed id member fun dependency edge =>
        hyp edge.1 (within dependency edge.1 edge.2)

end

end Waves
