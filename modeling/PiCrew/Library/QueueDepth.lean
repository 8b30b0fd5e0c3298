/-
**The depth of a dependency graph, with a queue.**

As in the sort with a queue, a node joins the queue when its last known dependency has left it. Each node
also has a depth: one for a node without known dependencies, and one more than the deepest of them for any
other. A node that leaves the queue passes its depth on to its dependents.

* `deepest_spec` — without cycles the greatest depth is the number of nodes on the longest chain of
  dependencies.
-/

import PiCrew.Library.QueueSort

namespace Waves

section

variable {α : Type*} [DecidableEq α] (nodes : List (Node α))

structure Depths (α : Type*) where
  depth : α → Option Nat
  counts : α → Int
  queue : List α

/-- Pass a depth on to a dependent, and lower its count. -/
def relax (above : Nat) (state : Depths α) (dependent : α) : Depths α where
  depth :=
    if (state.depth dependent).getD 0 < above + 1 then
      Function.update state.depth dependent (some (above + 1))
    else state.depth
  counts := Function.update state.counts dependent (state.counts dependent - 1)
  queue := if state.counts dependent - 1 = 0 then state.queue ++ [dependent] else state.queue

/-- **Node after node leaves the queue**; the greatest depth so far is kept. -/
def deepen : Nat → Depths α → Nat → Nat
  | 0, _, deepest => deepest
  | fuel + 1, state, deepest =>
    match state.queue with
    | [] => deepest
    | id :: queue =>
      let above := (state.depth id).getD 0
      deepen fuel ((followers nodes id).foldl (relax above) { state with queue := queue })
        (if deepest < above then above else deepest)

def shallow (counts : α → Int) : Depths α where
  depth id := if id ∈ ids nodes ∧ counts id = 0 then some 1 else none
  counts := counts
  queue := (entered (ids nodes)).filter (counts · = 0)

end

section

variable {α : Type*} {nodes : List (Node α)}

/-- A chain of known nodes, each of which names the next. -/
structure Chain (nodes : List (Node α)) (chain : List α) : Prop where
  known : chain ⊆ ids nodes
  linked : chain.IsChain (Edge nodes)

structure LongestChain (nodes : List (Node α)) (size : Nat) : Prop where
  reached : ∃ chain, Chain nodes chain ∧ chain.length = size
  bound : ∀ chain, Chain nodes chain → chain.length ≤ size

theorem chain_cons {id : α} {chain : List α} (whole : Chain nodes (id :: chain)) :
    HasChain nodes chain.length id := by
  induction chain generalizing id with
  | nil => trivial
  | cons next chain ih =>
    obtain ⟨edge, linked⟩ := List.isChain_cons_cons.mp whole.linked
    exact ⟨next, edge, ih ⟨fun other within => whole.known (List.mem_cons_of_mem _ within), linked⟩⟩

theorem exists_chain {n : Nat} {id : α} (known : id ∈ ids nodes) (chained : HasChain nodes n id) :
    ∃ chain, Chain nodes (id :: chain) ∧ chain.length = n := by
  induction n generalizing id with
  | zero => exact ⟨[], ⟨by simpa using known, List.isChain_singleton id⟩, rfl⟩
  | succ n ih =>
    obtain ⟨next, edge, rest⟩ := chained
    obtain ⟨chain, whole, rfl⟩ := ih edge.1 rest
    refine ⟨next :: chain, ⟨?_, List.isChain_cons_cons.mpr ⟨edge, whole.linked⟩⟩, rfl⟩
    exact List.cons_subset.mpr ⟨known, whole.known⟩

end

section

variable {α : Type*} [DecidableEq α] {nodes : List (Node α)}

theorem foldl_relax (above : Nat) (hits : List α) (state : Depths α) :
    (∀ id, (((hits.foldl (relax above) state).depth id).getD 0) =
        if id ∈ hits then max ((state.depth id).getD 0) (above + 1) else (state.depth id).getD 0) ∧
      (∀ id depth, (hits.foldl (relax above) state).depth id = some depth →
        state.depth id = some depth ∨ id ∈ hits ∧ depth = above + 1) ∧
      ((hits.foldl (relax above) state).counts, (hits.foldl (relax above) state).queue) =
        hits.foldl arrive (state.counts, state.queue) := by
  induction hits generalizing state with
  | nil => exact ⟨fun id => by simp, fun id depth same => .inl same, rfl⟩
  | cons hit rest ih =>
    have one : ∀ id, ((relax above state hit).depth id).getD 0 =
        if id = hit then max ((state.depth id).getD 0) (above + 1) else (state.depth id).getD 0 := by
      intro id
      by_cases same : id = hit
      · subst same
        by_cases deeper : (state.depth id).getD 0 < above + 1
        · simp [relax, deeper]
          omega
        · simp [relax, deeper]
          omega
      · by_cases deeper : (state.depth hit).getD 0 < above + 1 <;> simp [relax, deeper, same]
    obtain ⟨values, written, arrived⟩ := ih (relax above state hit)
    refine ⟨fun id => ?_, fun id depth same => ?_, arrived⟩
    · rw [List.foldl_cons, values, one]
      by_cases here : id = hit
      · simp [here]
      · simp [here]
    · rcases written id depth same with old | ⟨later, value⟩
      · by_cases here : id = hit
        · subst here
          by_cases deeper : (state.depth id).getD 0 < above + 1
          · right
            simp [relax, deeper] at old
            exact ⟨List.mem_cons_self, old.symm⟩
          · left
            simpa [relax, deeper] using old
        · left
          by_cases deeper : (state.depth hit).getD 0 < above + 1 <;> simpa [relax, deeper, here] using old
      · exact .inr ⟨List.mem_cons_of_mem _ later, value⟩

/-- **The loop so far**: a depth is that of some chain, and covers every chain over a node that has left the
queue. -/
structure Deep (nodes : List (Node α)) (placed : List α) (state : Depths α) (deepest : Nat) : Prop where
  sorted : Sorted nodes placed state.counts state.queue
  chained : ∀ id depth, state.depth id = some depth → ∃ n, depth = n + 1 ∧ HasChain nodes n id
  covers : ∀ id ∈ ids nodes, ∀ earlier ∈ placed, Edge nodes id earlier → ∀ n, HasChain nodes n earlier →
    n + 2 ≤ (state.depth id).getD 0
  roots : ∀ id ∈ ids nodes, (∀ dependency, ¬ Edge nodes id dependency) → 1 ≤ (state.depth id).getD 0
  bound : ∀ id ∈ placed, ∀ n, HasChain nodes n id → n + 1 ≤ deepest
  reached : deepest = 0 ∨ ∃ id ∈ ids nodes, ∃ n, deepest = n + 1 ∧ HasChain nodes n id

variable {placed : List α}

theorem Deep.head (distinct : (ids nodes).Nodup) {state : Depths α} {deepest : Nat} {id : α}
    {queue : List α} (deep : Deep nodes placed state deepest) (waits : state.queue = id :: queue) :
    id ∈ ids nodes ∧ (∃ n, (state.depth id).getD 0 = n + 1 ∧ HasChain nodes n id) ∧
      ∀ n, HasChain nodes n id → n + 1 ≤ (state.depth id).getD 0 := by
  have sorted := deep.sorted
  rw [waits] at sorted
  have known : id ∈ ids nodes := sorted.listed (by simp)
  have ready : ∀ dependency, Edge nodes id dependency → dependency ∈ placed := fun dependency edge =>
    (sorted.next distinct).behind placed id [] rfl dependency edge
  have covered : ∀ n, HasChain nodes n id → n + 1 ≤ (state.depth id).getD 0 := by
    intro n chain
    by_cases root : ∀ dependency, ¬ Edge nodes id dependency
    · cases n with
      | zero => exact deep.roots id known root
      | succ n =>
        obtain ⟨dependency, edge, -⟩ := chain
        exact absurd edge (root dependency)
    · cases n with
      | zero =>
        push Not at root
        obtain ⟨dependency, edge⟩ := root
        have := deep.covers id known dependency (ready dependency edge) edge 0 trivial
        omega
      | succ n =>
        obtain ⟨dependency, edge, chain⟩ := chain
        exact deep.covers id known dependency (ready dependency edge) edge n chain
  refine ⟨known, ?_, covered⟩
  have some := covered 0 trivial
  cases value : state.depth id with
  | none => simp [value] at some
  | some depth => exact deep.chained id depth value

/-- **One node leaves the queue.** -/
theorem Deep.next (distinct : (ids nodes).Nodup) {state : Depths α} {deepest : Nat} {id : α}
    {queue : List α} (deep : Deep nodes placed state deepest) (waits : state.queue = id :: queue) :
    Deep nodes (placed ++ [id])
      ((followers nodes id).foldl (relax ((state.depth id).getD 0)) { state with queue := queue })
      (if deepest < (state.depth id).getD 0 then (state.depth id).getD 0 else deepest) := by
  obtain ⟨known, ⟨top, depth, highest⟩, covered⟩ := deep.head distinct waits
  obtain ⟨values, written, arrived⟩ := foldl_relax ((state.depth id).getD 0) (followers nodes id)
    { state with queue := queue }
  have hit : ∀ other, other ∈ followers nodes id → Edge nodes other id := by
    intro other within
    obtain ⟨node, member, named⟩ := List.mem_flatMap.mp within
    obtain ⟨dependency, names, rfl⟩ := List.mem_map.mp named
    obtain ⟨names, same⟩ := List.mem_filter.mp names
    exact ⟨known, node, member, rfl, of_decide_eq_true same ▸ names⟩
  have hits : ∀ other, Edge nodes other id → other ∈ followers nodes id := by
    rintro other ⟨-, node, member, rfl, names⟩
    exact List.mem_flatMap.mpr ⟨node, member,
      List.mem_map.mpr ⟨id, List.mem_filter.mpr ⟨names, decide_eq_true rfl⟩, rfl⟩⟩
  have grows : ∀ other, (state.depth other).getD 0 ≤
      (((followers nodes id).foldl (relax ((state.depth id).getD 0))
        { state with queue := queue }).depth other).getD 0 := by
    intro other
    rw [values]
    split
    · exact le_max_left _ _
    · exact le_rfl
  constructor
  · have sorted := deep.sorted
    rw [waits] at sorted
    have next := sorted.next distinct
    rw [← arrived] at next
    exact next
  · intro other depth' value
    rcases written other depth' value with old | ⟨within, rfl⟩
    · exact deep.chained other depth' old
    · exact ⟨top + 1, by rw [depth], id, hit other within, highest⟩
  · intro other member earlier placed edge n chain
    rcases List.mem_append.mp placed with old | new
    · exact (deep.covers other member earlier old edge n chain).trans (grows other)
    · obtain rfl := List.mem_singleton.mp new
      have := covered n chain
      rw [values, if_pos (hits other edge)]
      omega
  · exact fun other member root => (deep.roots other member root).trans (grows other)
  · intro other placed n chain
    rcases List.mem_append.mp placed with old | new
    · have := deep.bound other old n chain
      split <;> omega
    · obtain rfl := List.mem_singleton.mp new
      have := covered n chain
      split <;> omega
  · split
    · exact .inr ⟨id, known, top, depth, highest⟩
    · exact deep.reached

theorem deepen_deep (distinct : (ids nodes).Nodup) (fuel : Nat) {state : Depths α}
    {deepest : Nat} (deep : Deep nodes placed state deepest) (enough : nodes.length < placed.length + fuel) :
    ∃ placed' state', state'.queue = [] ∧ Deep nodes placed' state' (deepen nodes fuel state deepest) := by
  induction fuel generalizing placed state deepest with
  | zero =>
    have room := (List.subperm_of_subset deep.sorted.apart deep.sorted.listed).length_le
    rw [List.length_append, ids, List.length_map] at room
    omega
  | succ fuel ih =>
    rw [deepen]
    split
    · next empty => exact ⟨placed, state, empty, deep⟩
    · next id queue waits =>
        exact ih (deep.next distinct waits) (by simp only [List.length_append, List.length_singleton]; omega)

theorem Sorted.complete {counts : α → Int}
    (sorted : Sorted nodes placed counts []) (acyclic : Acyclic nodes) : ids nodes ⊆ placed := by
  intro id member
  obtain ⟨n, within⟩ := acyclic.bounded member
  induction n generalizing id with
  | zero =>
    exact sorted.closed member fun dependency edge => absurd edge.2 (within dependency edge.1)
  | succ n ih =>
    exact sorted.closed member fun dependency edge => ih edge.1 (within dependency edge.1 edge.2)

theorem Deep.first (distinct : (ids nodes).Nodup) : Deep nodes [] (shallow nodes (inDegree nodes)) 0 := by
  constructor
  · exact Sorted.first distinct
  · intro id depth value
    obtain ⟨-, same⟩ := Option.ite_none_right_eq_some.mp value
    exact ⟨0, (Option.some.inj same).symm, trivial⟩
  · exact fun id _ earlier none => absurd none List.not_mem_nil
  · intro id member root
    obtain ⟨node, there, rfl⟩ := List.mem_map.mp member
    have none : known nodes node = [] := by
      rw [List.eq_nil_iff_forall_not_mem]
      intro dependency named
      obtain ⟨names, inside⟩ := mem_known.mp named
      exact root dependency ⟨inside, node, there, rfl, names⟩
    have zero : inDegree nodes node.id = 0 := by rw [inDegree_eq distinct there, none]; rfl
    simp [shallow, member, zero]
  · exact fun id none => absurd none List.not_mem_nil
  · exact .inl rfl

/-- **Without cycles the greatest depth is the number of nodes on a longest chain.** -/
theorem deepest_spec (distinct : (ids nodes).Nodup) (acyclic : Acyclic nodes) :
    LongestChain nodes (deepen nodes (nodes.length + 1) (shallow nodes (inDegree nodes)) 0) := by
  obtain ⟨placed, state, empty, deep⟩ := deepen_deep distinct (nodes.length + 1) (Deep.first distinct) (by simp)
  have sorted := deep.sorted
  rw [empty] at sorted
  have all := sorted.complete acyclic
  constructor
  · rcases deep.reached with zero | ⟨id, known, n, depth, chained⟩
    · exact ⟨[], ⟨List.nil_subset _, List.isChain_nil⟩, zero.symm⟩
    · obtain ⟨chain, whole, rfl⟩ := exists_chain known chained
      exact ⟨id :: chain, whole, depth.symm⟩
  · intro chain whole
    cases chain with
    | nil => exact Nat.zero_le _
    | cons id chain =>
      exact deep.bound id (all (whole.known List.mem_cons_self)) chain.length (chain_cons whole)

end

end Waves
