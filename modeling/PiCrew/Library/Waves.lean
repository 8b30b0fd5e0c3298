/-
**Waves of a dependency graph, by counting down in-degrees.**

A list of nodes names what every node depends on; a dependency that no node carries is ignored. The
first wave holds the nodes without dependencies. A wave lowers the count of each of its dependents,
and the dependents whose count reaches zero are the next wave.

Independently of that, `Within n x` says that no chain of dependencies from `x` has more than `n`
links, and `AtLevel n x` that the longest has exactly `n`.

* `atLevel_iff` — the longest chain from a node of level `n` has `n` links.
-/

import Mathlib.Data.List.Perm.Subperm
import Mathlib.Data.Fintype.Card
import Mathlib.Data.Nat.Find
import Mathlib.Data.Set.Finite.List
import Mathlib.Logic.Function.Basic
import Mathlib.Logic.Relation
import PiCrew.Library.Bindings

namespace Waves

structure Node (α : Type*) where
  id : α
  dependsOn : List α
  deriving DecidableEq, Repr

section

variable {α : Type*} [DecidableEq α]

def enter (set : List α) (item : α) : List α := if item ∈ set then set else set ++ [item]

def entered (items : List α) : List α := items.foldl enter []

theorem mem_foldl_enter {set items : List α} {x : α} :
    x ∈ items.foldl enter set ↔ x ∈ set ∨ x ∈ items := by
  induction items generalizing set with
  | nil => simp
  | cons item rest ih =>
    rw [List.foldl_cons, ih, enter]
    by_cases known : item ∈ set
    · rw [if_pos known, List.mem_cons]
      constructor
      · exact fun inside => inside.imp_right Or.inr
      · rintro (old | rfl | later)
        · exact Or.inl old
        · exact Or.inl known
        · exact Or.inr later
    · rw [if_neg known, List.mem_append, List.mem_singleton, List.mem_cons, or_assoc]

theorem nodup_foldl_enter {set : List α} (distinct : set.Nodup) (items : List α) :
    (items.foldl enter set).Nodup := by
  induction items generalizing set with
  | nil => exact distinct
  | cons item rest ih =>
    apply ih
    unfold enter
    split
    · exact distinct
    · rename_i fresh
      refine List.nodup_append.mpr ⟨distinct, List.nodup_singleton item, ?_⟩
      rintro other member _ single rfl
      exact fresh (List.mem_singleton.mp single ▸ member)

@[simp]
theorem mem_entered {items : List α} {x : α} : x ∈ entered items ↔ x ∈ items := by
  rw [entered, mem_foldl_enter, or_iff_right List.not_mem_nil]

theorem nodup_entered (items : List α) : (entered items).Nodup :=
  nodup_foldl_enter List.nodup_nil items

end

section

variable {α : Type*} [DecidableEq α] (nodes : List (Node α))

def ids : List α := nodes.map (·.id)

def known (node : Node α) : List α := node.dependsOn.filter fun dependency => dependency ∈ ids nodes

def dependents (id : α) : List α :=
  entered ((nodes.filter fun node => id ∈ node.dependsOn).map (·.id))

/-- The in-degree of an id: the last node that carries it counts. -/
def degree (id : α) : Int :=
  match (Bindings.ofKeyed (·.id) nodes).get id with
  | some node => (known nodes node).length
  | none => 0

/-- Lower the count of a dependent, and put it into the next wave when that brings it to zero. -/
def lower (state : (α → Int) × List α) (dependent : α) : (α → Int) × List α :=
  let current := state.1 dependent - 1
  (Function.update state.1 dependent current,
    if current = 0 then enter state.2 dependent else state.2)

def nextWave (counts : α → Int) (wave : List α) : (α → Int) × List α :=
  (wave.flatMap (dependents nodes)).foldl lower (counts, [])

/-- Wave after wave, until one is empty. -/
def waveLoop : Nat → (α → Int) → List α → List (List α)
  | 0, _, _ => []
  | fuel + 1, counts, wave =>
    if wave = [] then []
    else
      wave :: waveLoop fuel (nextWave nodes counts wave).1 (nextWave nodes counts wave).2

def firstWave : List α := (nodes.filter fun node => degree nodes node.id = 0).map (·.id)

def waves : List (List α) := waveLoop nodes (nodes.length + 1) (degree nodes) (firstWave nodes)

end

section

variable {α : Type*} (nodes : List (Node α))

def DependsOn (id dependency : α) : Prop :=
  ∃ node ∈ nodes, node.id = id ∧ dependency ∈ node.dependsOn

instance [DecidableEq α] (id dependency : α) : Decidable (DependsOn nodes id dependency) :=
  inferInstanceAs (Decidable (∃ node ∈ nodes, node.id = id ∧ dependency ∈ node.dependsOn))

/-- **No chain of known dependencies from a node has more than `n` links.** -/
def Within : Nat → α → Prop
  | 0, id => ∀ dependency ∈ ids nodes, ¬ DependsOn nodes id dependency
  | n + 1, id => ∀ dependency ∈ ids nodes, DependsOn nodes id dependency → Within n dependency

/-- The longest chain of known dependencies from a node has exactly `n` links. -/
def AtLevel (n : Nat) (id : α) : Prop := Within nodes n id ∧ ∀ m < n, ¬ Within nodes m id

variable {nodes}

theorem Within.succ {n : Nat} {id : α} (within : Within nodes n id) : Within nodes (n + 1) id := by
  induction n generalizing id with
  | zero => exact fun dependency member names => absurd names (within dependency member)
  | succ n ih => exact fun dependency member names => ih (within dependency member names)

theorem Within.mono {m n : Nat} {id : α} (within : Within nodes m id) (longer : m ≤ n) :
    Within nodes n id := by
  induction longer with
  | refl => exact within
  | step _ ih => exact ih.succ

theorem Within.not_self {n : Nat} {id : α} (member : id ∈ ids nodes)
    (within : Within nodes n id) : ¬ DependsOn nodes id id := by
  intro names
  induction n with
  | zero => exact within id member names
  | succ n ih => exact ih (within id member names)

theorem exists_shortest {p : α → Prop} (bounded : ∃ n, ∃ id, p id ∧ Within nodes n id) :
    ∃ id n, p id ∧ Within nodes n id ∧ ∀ other, p other → ∀ m < n, ¬ Within nodes m other := by
  classical
  obtain ⟨id, has, within⟩ := Nat.find_spec bounded
  refine ⟨id, Nat.find bounded, has, within, fun other holds m below shorter => ?_⟩
  exact Nat.find_min bounded below ⟨other, holds, shorter⟩

theorem mem_dependents [DecidableEq α] {id dependent : α} :
    dependent ∈ dependents nodes id ↔ DependsOn nodes dependent id := by
  simp only [dependents, mem_entered, List.mem_map, List.mem_filter, decide_eq_true_eq, DependsOn]
  constructor
  · rintro ⟨node, ⟨member, names⟩, same⟩
    exact ⟨node, member, same, names⟩
  · rintro ⟨node, member, same, names⟩
    exact ⟨node, ⟨member, names⟩, same⟩

end

section

variable {α : Type*} (nodes : List (Node α))

def Edge (id dependency : α) : Prop := dependency ∈ ids nodes ∧ DependsOn nodes id dependency

/-- **No chain of known dependencies comes back to where it began.** -/
def Acyclic : Prop := ∀ id, ¬ Relation.TransGen (Edge nodes) id id

variable {nodes}

theorem acyclic_of_rank (rank : α → Nat) (falls : ∀ node ∈ nodes, ∀ dependency ∈ node.dependsOn,
    dependency ∈ ids nodes → rank dependency < rank node.id) : Acyclic nodes := by
  have lower : ∀ {id other : α}, Relation.TransGen (Edge nodes) id other → rank other < rank id := by
    intro id other chain
    induction chain with
    | single edge =>
      obtain ⟨known, node, member, rfl, names⟩ := edge
      exact falls node member _ names known
    | tail _ edge ih =>
      obtain ⟨known, node, member, rfl, names⟩ := edge
      exact (falls node member _ names known).trans ih
  exact fun id chain => Nat.lt_irrefl _ (lower chain)

theorem exists_common_bound {p : α → Prop} {items : List α}
    (each : ∀ id ∈ items, p id → ∃ n, Within nodes n id) :
    ∃ n, ∀ id ∈ items, p id → Within nodes n id := by
  induction items with
  | nil => exact ⟨0, fun id member => absurd member List.not_mem_nil⟩
  | cons first rest ih =>
    obtain ⟨n, bounds⟩ := ih fun id member => each id (List.mem_cons_of_mem _ member)
    by_cases has : p first
    · obtain ⟨m, within⟩ := each first List.mem_cons_self has
      refine ⟨max m n, fun id member holds => ?_⟩
      rcases List.mem_cons.mp member with rfl | later
      · exact within.mono (le_max_left m n)
      · exact (bounds id later holds).mono (le_max_right m n)
    · refine ⟨n, fun id member holds => ?_⟩
      rcases List.mem_cons.mp member with rfl | later
      · exact absurd holds has
      · exact bounds id later holds

theorem Within.no_cycle {n : Nat} {id other : α} (within : Within nodes n id)
    (path : Relation.ReflTransGen (Edge nodes) id other) : ¬ Relation.TransGen (Edge nodes) other other := by
  intro cycle
  induction n generalizing id with
  | zero =>
    rcases Relation.ReflTransGen.cases_head path with rfl | ⟨dependency, edge, -⟩
    · obtain ⟨dependency, edge, -⟩ := Relation.TransGen.head'_iff.mp cycle
      exact within dependency edge.1 edge.2
    · exact within dependency edge.1 edge.2
  | succ n ih =>
    rcases Relation.ReflTransGen.cases_head path with rfl | ⟨dependency, edge, rest⟩
    · -- the first node of the cycle leads back to the node itself
      obtain ⟨dependency, edge, back⟩ := Relation.TransGen.head'_iff.mp cycle
      exact ih (within dependency edge.1 edge.2) back
    · exact ih (within dependency edge.1 edge.2) rest

theorem exists_within_iff {id : α} : (∃ n, Within nodes n id)
    ↔ ∀ other, Relation.ReflTransGen (Edge nodes) id other → ¬ Relation.TransGen (Edge nodes) other other := by
  refine ⟨fun ⟨n, within⟩ other path => within.no_cycle path, fun grounds => ?_⟩
  by_cases member : id ∈ ids nodes
  case neg =>
    refine ⟨0, fun dependency _ ⟨node, there, same, _⟩ => member ?_⟩
    exact same ▸ List.mem_map_of_mem there
  let Reached := {other // other ∈ ids nodes ∧ Relation.ReflTransGen (Edge nodes) id other}
  let below : Reached → Reached → Prop := fun lower upper => Relation.TransGen (Edge nodes) upper.1 lower.1
  have : Finite Reached := ((ids nodes).finite_toSet.subset fun other there => there.1).to_subtype
  have : IsTrans _ below := ⟨fun first second third lower upper => upper.trans lower⟩
  have : Std.Irrefl below := ⟨fun other cycle => grounds other.1 other.2.2 cycle⟩
  have grounded : WellFounded below := Finite.wellFounded_of_trans_of_irrefl below
  suffices all : ∀ other : Reached, ∃ n, Within nodes n other.1 from all ⟨id, member, .refl⟩
  intro other
  induction other using grounded.induction with
  | _ other ih =>
    obtain ⟨n, bounds⟩ := exists_common_bound fun dependency known names =>
      ih ⟨dependency, known, other.2.2.tail ⟨known, names⟩⟩ (Relation.TransGen.single ⟨known, names⟩)
    exact ⟨n + 1, bounds⟩

theorem Acyclic.bounded (acyclic : Acyclic nodes) {id : α} (_ : id ∈ ids nodes) : ∃ n, Within nodes n id :=
  exists_within_iff.mpr fun other _ => acyclic other

theorem acyclic_iff_bounded : Acyclic nodes ↔ ∀ id ∈ ids nodes, ∃ n, Within nodes n id := by
  refine ⟨fun acyclic id member => acyclic.bounded member, fun bounded id cycle => ?_⟩
  obtain ⟨dependency, -, edge⟩ := Relation.TransGen.tail'_iff.mp cycle
  obtain ⟨n, within⟩ := bounded id edge.1
  exact within.no_cycle .refl cycle

def HasChain (nodes : List (Node α)) : Nat → α → Prop
  | 0, _ => True
  | n + 1, id => ∃ dependency, Edge nodes id dependency ∧ HasChain nodes n dependency

theorem within_iff_not_hasChain {n : Nat} {id : α} : Within nodes n id ↔ ¬ HasChain nodes (n + 1) id := by
  induction n generalizing id with
  | zero =>
    constructor
    · rintro within ⟨dependency, edge, -⟩
      exact within dependency edge.1 edge.2
    · exact fun none dependency known names => none ⟨dependency, ⟨known, names⟩, trivial⟩
  | succ n ih =>
    constructor
    · rintro within ⟨dependency, edge, chain⟩
      exact ih.mp (within dependency edge.1 edge.2) chain
    · exact fun none dependency known names => ih.mpr fun chain => none ⟨dependency, ⟨known, names⟩, chain⟩

/-- **The longest chain from a node of level `n` has `n` links.** -/
theorem atLevel_iff {n : Nat} {id : α} :
    AtLevel nodes n id ↔ HasChain nodes n id ∧ ∀ m, HasChain nodes m id → m ≤ n := by
  constructor
  · rintro ⟨within, least⟩
    refine ⟨?_, fun m chain => ?_⟩
    · cases n with
      | zero => trivial
      | succ n =>
        by_contra none
        exact least n (Nat.lt_succ_self n) (within_iff_not_hasChain.mpr none)
    · by_contra longer
      obtain ⟨m, rfl⟩ : ∃ k, m = k + 1 := ⟨m - 1, by omega⟩
      exact within_iff_not_hasChain.mp (within.mono (by omega)) chain
  · rintro ⟨chain, longest⟩
    refine ⟨within_iff_not_hasChain.mpr fun longer => ?_, fun m below within => ?_⟩
    · have bound := longest (n + 1) longer
      omega
    · obtain ⟨k, rfl⟩ : ∃ k, n = k + 1 := ⟨n - 1, by omega⟩
      exact within_iff_not_hasChain.mp (within.mono (by omega)) chain

end

section

variable {α : Type*} [DecidableEq α] {nodes : List (Node α)}

theorem mem_lower {counts : α → Int} {reached : List α} {hit x : α} :
    x ∈ (lower (counts, reached) hit).2 ↔ x ∈ reached ∨ x = hit ∧ counts hit = 1 := by
  have zero : counts hit - 1 = 0 ↔ counts hit = 1 := by omega
  unfold lower
  simp only [zero]
  by_cases last : counts hit = 1
  · rw [if_pos last, enter]
    by_cases old : hit ∈ reached
    · rw [if_pos old, or_iff_left_of_imp]
      rintro ⟨rfl, -⟩
      exact old
    · rw [if_neg old, List.mem_append, List.mem_singleton, and_iff_left last]
  · rw [if_neg last, or_iff_left fun both => last both.2]

theorem lower_fst {counts : α → Int} {reached : List α} {hit : α} (x : α) :
    (lower (counts, reached) hit).1 x = counts x - if x = hit then 1 else 0 := by
  by_cases same : x = hit
  · subst same
    simp [lower]
  · simp [lower, same]

theorem foldl_lower (hits : List α) (counts : α → Int) (reached : List α) :
    (∀ x, (hits.foldl lower (counts, reached)).1 x = counts x - hits.count x) ∧
      ∀ x, x ∈ (hits.foldl lower (counts, reached)).2
        ↔ x ∈ reached ∨ 0 < counts x ∧ counts x ≤ hits.count x := by
  induction hits generalizing counts reached with
  | nil =>
    refine ⟨fun x => ?_, fun x => ?_⟩
    · simp
    · rw [List.foldl_nil, List.count_nil, or_iff_left]
      omega
  | cons hit rest ih =>
    obtain ⟨lowered, gathered⟩ := ih (lower (counts, reached) hit).1 (lower (counts, reached) hit).2
    have total : ∀ x, ((hit :: rest).count x : Int) = rest.count x + if x = hit then 1 else 0 := by
      intro x
      rw [List.count_cons]
      by_cases same : x = hit
      · simp [same]
      · have apart : (hit == x) = false := beq_false_of_ne fun equal => same equal.symm
        simp [same, apart]
    refine ⟨fun x => ?_, fun x => ?_⟩
    · rw [List.foldl_cons, lowered, lower_fst, total]
      omega
    · rw [List.foldl_cons, gathered, mem_lower, lower_fst, total]
      by_cases same : x = hit
      · subst same
        rw [if_pos rfl, or_assoc]
        refine or_congr Iff.rfl ?_
        rw [and_iff_right rfl]
        omega
      · simp only [same, if_false, false_and, or_false, Int.sub_zero, Int.add_zero]

theorem nodup_lower (hits : List α) (counts : α → Int) {reached : List α}
    (distinct : reached.Nodup) : (hits.foldl lower (counts, reached)).2.Nodup := by
  induction hits generalizing counts reached with
  | nil => exact distinct
  | cons hit rest ih =>
    apply ih
    simp only
    split
    · exact nodup_foldl_enter distinct [hit]
    · exact distinct

theorem count_hits (wave : List α) (x : α) :
    (wave.flatMap (dependents nodes)).count x = wave.countP fun id => DependsOn nodes x id := by
  induction wave with
  | nil => rfl
  | cons id rest ih =>
    rw [List.flatMap_cons, List.count_append, ih, List.countP_cons, Nat.add_comm]
    congr 1
    by_cases names : DependsOn nodes x id
    · rw [if_pos (decide_eq_true names)]
      exact List.count_eq_one_of_mem (nodup_entered _) (mem_dependents.mpr names)
    · rw [if_neg (by simpa using names)]
      exact List.count_eq_zero.mpr fun member => names (mem_dependents.mp member)

theorem nextWave_spec (nodes : List (Node α)) (counts : α → Int) (wave : List α) :
    (∀ x, (nextWave nodes counts wave).1 x
        = counts x - (wave.countP fun id => DependsOn nodes x id : Nat)) ∧
      (nextWave nodes counts wave).2.Nodup ∧
      ∀ x, x ∈ (nextWave nodes counts wave).2
        ↔ 0 < counts x ∧ counts x ≤ (wave.countP fun id => DependsOn nodes x id : Nat) := by
  obtain ⟨lowered, gathered⟩ := foldl_lower (wave.flatMap (dependents nodes)) counts []
  refine ⟨fun x => ?_, nodup_lower _ counts List.nodup_nil, fun x => ?_⟩
  · rw [nextWave, lowered, count_hits]
  · rw [nextWave, gathered, count_hits, or_iff_right List.not_mem_nil]

end

section

variable {α : Type*} {nodes : List (Node α)}

theorem mem_known [DecidableEq α] {node : Node α} {dependency : α} :
    dependency ∈ known nodes node ↔ dependency ∈ node.dependsOn ∧ dependency ∈ ids nodes := by
  simp [known]

theorem dependsOn_iff (distinct : (ids nodes).Nodup) {node : Node α} (member : node ∈ nodes)
    {dependency : α} : DependsOn nodes node.id dependency ↔ dependency ∈ node.dependsOn := by
  constructor
  · rintro ⟨other, there, same, names⟩
    rw [List.inj_on_of_nodup_map distinct there member same] at names
    exact names
  · exact fun names => ⟨node, member, rfl, names⟩

variable [DecidableEq α]

variable (distinct : (ids nodes).Nodup) {node : Node α} (member : node ∈ nodes)

include distinct member

theorem degree_eq : degree nodes node.id = (known nodes node).length := by
  rw [degree, Bindings.get_ofKeyed_nodup distinct member]

theorem countP_known {placed : List α} (apart : placed.Nodup) (listed : placed ⊆ ids nodes)
    (many : (known nodes node).length ≤ placed.countP fun id => DependsOn nodes node.id id) :
    (∀ dependency ∈ known nodes node, dependency ∈ placed) ∧ (known nodes node).Nodup := by
  have counted : placed.countP (fun id => DependsOn nodes node.id id)
      = (placed.filter fun id => DependsOn nodes node.id id).length := List.countP_eq_length_filter
  have inside : (placed.filter fun id => DependsOn nodes node.id id) ⊆ known nodes node := by
    intro id chosen
    obtain ⟨there, names⟩ := List.mem_filter.mp chosen
    exact mem_known.mpr ⟨(dependsOn_iff distinct member).mp (of_decide_eq_true names), listed there⟩
  have fits := List.subperm_of_subset (apart.filter _) inside
  rw [counted] at many
  have same := fits.perm_of_length_le many
  refine ⟨fun dependency there => ?_, same.nodup_iff.mp (apart.filter _)⟩
  exact (List.mem_filter.mp (same.mem_iff.mpr there)).1

theorem known_le_countP {placed : List α} (once : (known nodes node).Nodup)
    (all : ∀ dependency ∈ known nodes node, dependency ∈ placed) :
    (known nodes node).length ≤ placed.countP fun id => DependsOn nodes node.id id := by
  rw [List.countP_eq_length_filter]
  refine (List.subperm_of_subset once fun dependency there => ?_).length_le
  refine List.mem_filter.mpr ⟨all dependency there, decide_eq_true ?_⟩
  exact (dependsOn_iff distinct member).mpr (mem_known.mp there).1

end

section

variable {α : Type*} [DecidableEq α] {nodes : List (Node α)}

/-- **The loop so far**: the waves placed, the counts, and the wave to come. The counts are what
the placed nodes leave of the degrees; they are spent exactly on the nodes placed or to come. -/
structure Planned (nodes : List (Node α)) (placed : List (List α)) (counts : α → Int)
    (wave : List α) : Prop where
  apart : (placed.flatten ++ wave).Nodup
  listed : placed.flatten ++ wave ⊆ ids nodes
  filled : ∀ members ∈ placed, members ≠ []
  counted : ∀ x, counts x
    = degree nodes x - (placed.flatten.countP fun id => DependsOn nodes x id : Nat)
  spent : ∀ x ∈ ids nodes, x ∈ placed.flatten ++ wave ↔ counts x ≤ 0
  levels : ∀ k members, placed[k]? = some members → ∀ x ∈ members, AtLevel nodes k x
  current : ∀ x ∈ wave, AtLevel nodes placed.length x

theorem Planned.first (distinct : (ids nodes).Nodup) :
    Planned nodes [] (degree nodes) (firstWave nodes) := by
  have first_iff : ∀ node ∈ nodes, node.id ∈ firstWave nodes ↔ degree nodes node.id ≤ 0 := by
    intro node member
    have degree := degree_eq distinct member
    simp only [firstWave, List.mem_map, List.mem_filter, decide_eq_true_eq]
    constructor
    · rintro ⟨other, ⟨-, zero⟩, same⟩
      rw [← same]
      omega
    · intro low
      exact ⟨node, ⟨member, by omega⟩, rfl⟩
  constructor
  · exact (List.filter_sublist.map _).nodup distinct
  · exact (List.filter_sublist.map _).subset
  · exact fun members member => absurd member List.not_mem_nil
  · intro x
    simp
  · intro x member
    obtain ⟨node, there, rfl⟩ := List.mem_map.mp member
    exact first_iff node there
  · intro k members found
    cases found
  · intro x member
    obtain ⟨node, chosen, rfl⟩ := List.mem_map.mp member
    obtain ⟨there, zero⟩ := List.mem_filter.mp chosen
    have degree := degree_eq distinct there
    have zero := of_decide_eq_true zero
    have nothing : known nodes node = [] := by
      apply List.eq_nil_of_length_eq_zero
      omega
    refine ⟨fun dependency known_ names => ?_, fun m below => absurd below (Nat.not_lt_zero m)⟩
    have inside := mem_known.mpr ⟨(dependsOn_iff distinct there).mp names, known_⟩
    rw [nothing] at inside
    cases inside

variable {placed : List (List α)}

theorem Planned.within {counts : α → Int} {wave : List α}
    (planned : Planned nodes placed counts wave) {x : α} (member : x ∈ placed.flatten ++ wave) :
    Within nodes placed.length x := by
  rcases List.mem_append.mp member with old | new
  · obtain ⟨members, there, inside⟩ := List.mem_flatten.mp old
    obtain ⟨k, short, rfl⟩ := List.getElem_of_mem there
    have level := planned.levels k _ (List.getElem?_eq_getElem short) x inside
    exact level.1.mono (Nat.le_of_lt short)
  · exact (planned.current x new).1

variable (distinct : (ids nodes).Nodup)

include distinct

/-- **One wave keeps the invariant.** -/
theorem Planned.next {counts : α → Int}
    {wave : List α} (planned : Planned nodes placed counts wave) (filled : wave ≠ []) :
    Planned nodes (placed ++ [wave]) (nextWave nodes counts wave).1
      (nextWave nodes counts wave).2 := by
  obtain ⟨lowered, fresh, reached⟩ := nextWave_spec nodes counts wave
  have flat : (placed ++ [wave]).flatten = placed.flatten ++ wave := by simp
  have listed : ∀ x ∈ (nextWave nodes counts wave).2, x ∈ ids nodes := by
    intro x member
    have hit := (reached x).mp member
    have some_hit : 0 < wave.countP fun id => DependsOn nodes x id := by omega
    obtain ⟨id, -, names⟩ := List.countP_pos_iff.mp some_hit
    obtain ⟨node, there, rfl, -⟩ := of_decide_eq_true names
    exact List.mem_map_of_mem there
  constructor
  · rw [flat]
    refine List.nodup_append.mpr ⟨planned.apart, fresh, ?_⟩
    rintro x old other new rfl
    have spent := (planned.spent x (planned.listed old)).mp old
    have hit := (reached x).mp new
    omega
  · rw [flat]
    intro x member
    rcases List.mem_append.mp member with old | new
    · exact planned.listed old
    · exact listed x new
  · intro members member
    rcases List.mem_append.mp member with old | new
    · exact planned.filled members old
    · rw [List.mem_singleton.mp new]
      exact filled
  · intro x
    rw [lowered, planned.counted, flat, List.countP_append]
    omega
  · intro x member
    rw [flat, List.mem_append, planned.spent x member, reached, lowered]
    omega
  · intro k members found
    rcases Nat.lt_or_ge k placed.length with short | long
    · rw [List.getElem?_append_left short] at found
      exact planned.levels k members found
    · rw [List.getElem?_append_right long] at found
      have last : k = placed.length := by
        have bound := (List.getElem?_eq_some_iff.mp found).1
        rw [List.length_singleton] at bound
        omega
      rw [last, Nat.sub_self, List.getElem?_cons_zero, Option.some_inj] at found
      rw [← found, last]
      exact planned.current
  · intro x member
    rw [List.length_append, List.length_singleton]
    have hit := (reached x).mp member
    obtain ⟨node, there, rfl⟩ := List.mem_map.mp (listed x member)
    have counted := planned.counted node.id
    rw [degree_eq distinct there] at counted
    have many : (known nodes node).length
        ≤ (placed.flatten ++ wave).countP fun id => DependsOn nodes node.id id := by
      rw [List.countP_append]
      omega
    obtain ⟨all, once⟩ := countP_known distinct there planned.apart planned.listed many
    refine ⟨fun dependency inside names => ?_, fun m below within => ?_⟩
    · -- every dependency is placed or in the wave that was just counted
      apply planned.within
      exact all dependency (mem_known.mpr ⟨(dependsOn_iff distinct there).mp names, inside⟩)
    · -- some dependency is in that wave: before it the count was not spent
      have left : ∃ dependency ∈ known nodes node, dependency ∉ placed.flatten := by
        by_contra none_left
        push Not at none_left
        have enough := known_le_countP distinct there once none_left
        omega
      obtain ⟨dependency, named, outside⟩ := left
      have inWave := (List.mem_append.mp (all dependency named)).resolve_left outside
      have level := planned.current dependency inWave
      obtain ⟨names, inside⟩ := mem_known.mp named
      have depends := (dependsOn_iff distinct there).mpr names
      cases m with
      | zero => exact within dependency inside depends
      | succ m => exact level.2 m (Nat.lt_of_succ_lt_succ below) (within dependency inside depends)

theorem waveLoop_planned (fuel : Nat)
    {counts : α → Int} {wave : List α} (planned : Planned nodes placed counts wave)
    (enough : nodes.length < placed.length + fuel) :
    ∃ counts', Planned nodes (placed ++ waveLoop nodes fuel counts wave) counts' [] := by
  induction fuel generalizing placed counts wave with
  | zero =>
    -- more waves than nodes cannot have been placed, as none is empty
    have waves : placed.length ≤ placed.flatten.length := by
      have filled := planned.filled
      clear planned enough
      induction placed with
      | nil => exact Nat.le_refl 0
      | cons members rest ih =>
        have first := List.length_pos_iff.mpr (filled members List.mem_cons_self)
        have later := ih fun other member => filled other (List.mem_cons_of_mem _ member)
        rw [List.flatten_cons, List.length_append, List.length_cons]
        omega
    have room : (placed.flatten ++ wave).length ≤ (ids nodes).length :=
      (List.subperm_of_subset planned.apart planned.listed).length_le
    rw [List.length_append, ids, List.length_map] at room
    omega
  | succ fuel ih =>
    by_cases finished : wave = []
    · subst finished
      refine ⟨counts, ?_⟩
      rw [waveLoop, if_pos rfl, List.append_nil]
      exact planned
    · obtain ⟨counts', done⟩ := ih (planned.next distinct finished) (by simp; omega)
      rw [List.append_assoc] at done
      refine ⟨counts', ?_⟩
      rw [waveLoop, if_neg finished]
      exact done

theorem waves_planned : ∃ counts, Planned nodes (waves nodes) counts [] :=
  waveLoop_planned distinct (nodes.length + 1) (Planned.first distinct) (by simp)

/-- **Wave `k` is made of nodes at level `k`.** -/
theorem waves_level {k : Nat} {members : List α}
    (found : (waves nodes)[k]? = some members) {x : α} (member : x ∈ members) :
    AtLevel nodes k x := by
  obtain ⟨counts, planned⟩ := waves_planned distinct
  exact planned.levels k members found x member

theorem mem_waves_iff (once : ∀ node ∈ nodes, (known nodes node).Nodup) {x : α}
    (member : x ∈ ids nodes) : x ∈ (waves nodes).flatten ↔ ∃ n, Within nodes n x := by
  obtain ⟨counts, planned⟩ := waves_planned distinct
  have spent := planned.spent
  rw [List.append_nil] at spent
  constructor
  · refine fun placed => ⟨(waves nodes).length, planned.within ?_⟩
    rw [List.append_nil]
    exact placed
  · -- a node goes into a wave once all that it waits for has
    have follows : ∀ node ∈ nodes,
        (∀ dependency ∈ known nodes node, dependency ∈ (waves nodes).flatten) →
          node.id ∈ (waves nodes).flatten := by
      intro node there all
      rw [spent node.id (List.mem_map_of_mem there), planned.counted, degree_eq distinct there]
      have enough := known_le_countP distinct there (once node there) all
      omega
    rintro ⟨n, within⟩
    induction n generalizing x with
    | zero =>
      obtain ⟨node, there, rfl⟩ := List.mem_map.mp member
      refine follows node there fun dependency named => ?_
      obtain ⟨names, inside⟩ := mem_known.mp named
      exact absurd ((dependsOn_iff distinct there).mpr names) (within dependency inside)
    | succ n ih =>
      obtain ⟨node, there, rfl⟩ := List.mem_map.mp member
      refine follows node there fun dependency named => ?_
      obtain ⟨names, inside⟩ := mem_known.mp named
      exact ih inside (within dependency inside ((dependsOn_iff distinct there).mpr names))

theorem waves_complete_iff : (∀ x ∈ ids nodes, x ∈ (waves nodes).flatten)
      ↔ (∀ node ∈ nodes, (known nodes node).Nodup) ∧ ∀ x ∈ ids nodes, ∃ n, Within nodes n x := by
  obtain ⟨counts, planned⟩ := waves_planned distinct
  have apart := planned.apart
  have listed := planned.listed
  have spent := planned.spent
  rw [List.append_nil] at apart listed spent
  constructor
  · intro all
    refine ⟨fun node there => ?_, fun x member => ⟨(waves nodes).length, ?_⟩⟩
    · have member : node.id ∈ ids nodes := List.mem_map_of_mem there
      have low := (spent node.id member).mp (all node.id member)
      rw [planned.counted, degree_eq distinct there] at low
      exact (countP_known distinct there apart listed (by omega)).2
    · apply planned.within
      rw [List.append_nil]
      exact all x member
  · exact fun ⟨once, bounded⟩ x member => (mem_waves_iff distinct once member).mpr (bounded x member)

end

end Waves
