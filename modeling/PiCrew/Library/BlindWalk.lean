/-
**A depth-first search that does not remember where it has been.**

A search of a graph asks each node when it enters it, goes on to its children one after the other, and asks the
node again when it leaves it. It ends at the first node that says yes. Nothing keeps it from entering a node that
it is inside of, so that it may never end: it has fuel for its depth, and what it comes to is what it comes to
with enough fuel.

* `misses_iff` — it ends without a yes just if all is quiet: no yes is to be reached, and no cycle either;
* `finds_iff` — it ends with a yes just if there is one with nothing but quiet nodes before it.
-/

import Mathlib.Data.Fintype.Card
import Mathlib.Data.Set.Finite.Basic
import Mathlib.Logic.Relation

namespace BlindWalk

open Relation

/-- A graph to be searched, with what its nodes say when they are entered and when they are left. -/
structure Graph (ν : Type*) where
  enter : ν → Bool
  children : ν → List ν
  leave : ν → Bool

variable {ν : Type*}

/-- The first answer that is not `some false`, in the order of a list. -/
def firstOf (answer : ν → Option Bool) : List ν → Option Bool
  | [] => some false
  | node :: rest =>
    match answer node with
    | some false => firstOf answer rest
    | other => other

variable (graph : Graph ν)

def search : Nat → ν → Option Bool
  | 0, _ => none
  | fuel + 1, node =>
    if graph.enter node then some true
    else
      match firstOf (search fuel) (graph.children node) with
      | some false => some (graph.leave node)
      | other => other

def Finds (node : ν) : Prop := ∃ fuel, search graph fuel node = some true

def Misses (node : ν) : Prop := ∃ fuel, search graph fuel node = some false

def Edge (node child : ν) : Prop := child ∈ graph.children node

/-- **All is quiet** from a node on: nothing that is reached says yes, and nothing that is reached is on a cycle. -/
def Quiet (node : ν) : Prop := ∀ other, ReflTransGen (Edge graph) node other →
    graph.enter other = false ∧ graph.leave other = false ∧ ¬ TransGen (Edge graph) other other

/-- **A yes with nothing but quiet nodes before it**: a node says it when it is entered, or a child has one and
the children before it are quiet, or the node says it when it is left and its children are quiet. -/
inductive Found : ν → Prop where
  | enter {node : ν} (yes : graph.enter node = true) : Found node
  | child {node child : ν} {before after : List ν} (split : graph.children node = before ++ child :: after)
      (quiet : ∀ other ∈ before, Quiet graph other) (found : Found child) : Found node
  | leave {node : ν} (quiet : ∀ other ∈ graph.children node, Quiet graph other)
      (yes : graph.leave node = true) : Found node

section

variable {graph}

theorem firstOf_eq_false {answer : ν → Option Bool} {nodes : List ν} :
    firstOf answer nodes = some false ↔ ∀ node ∈ nodes, answer node = some false := by
  induction nodes with
  | nil => exact iff_of_true rfl (List.forall_mem_nil _)
  | cons node rest ih =>
    rw [firstOf, List.forall_mem_cons]
    cases answered : answer node with
    | none => simp
    | some found => cases found <;> simp [ih]

theorem firstOf_eq_true {answer : ν → Option Bool} {nodes : List ν} :
    firstOf answer nodes = some true ↔ ∃ before node after, nodes = before ++ node :: after
      ∧ (∀ other ∈ before, answer other = some false) ∧ answer node = some true := by
  induction nodes with
  | nil => exact iff_of_false nofun fun ⟨before, _, _, split, _⟩ => by cases before <;> cases split
  | cons node rest ih =>
    rw [firstOf]
    constructor
    · intro first
      cases answered : answer node with
      | none => simp [answered] at first
      | some found =>
        cases found with
        | true => exact ⟨[], node, rest, rfl, List.forall_mem_nil _, answered⟩
        | false =>
          rw [answered] at first
          obtain ⟨before, later, after, rfl, missed, found⟩ := ih.mp first
          exact ⟨node :: before, later, after, rfl, List.forall_mem_cons.mpr ⟨answered, missed⟩, found⟩
    · rintro ⟨before, later, after, split, missed, found⟩
      cases before with
      | nil =>
        cases split
        rw [found]
      | cons first before =>
        cases split
        rw [(List.forall_mem_cons.mp missed).1]
        exact ih.mpr ⟨before, later, after, rfl, (List.forall_mem_cons.mp missed).2, found⟩

theorem firstOf_filter (answer : ν → Option Bool) (keep : ν → Prop) [DecidablePred keep] (nodes : List ν) :
    firstOf answer (nodes.filter keep) = firstOf (fun node => if keep node then answer node else some false) nodes := by
  induction nodes with
  | nil => rfl
  | cons node rest ih =>
    by_cases kept : keep node
    · rw [List.filter_cons_of_pos (by simpa using kept), firstOf, firstOf, if_pos kept, ih]
    · rw [List.filter_cons_of_neg (by simpa using kept), firstOf, if_neg kept, ih]

theorem search_succ {fuel : Nat} {node : ν} {found : Bool} (ended : search graph fuel node = some found) :
    search graph (fuel + 1) node = some found := by
  induction fuel generalizing node found with
  | zero => cases ended
  | succ fuel ih =>
    rw [search] at ended ⊢
    split_ifs at ended ⊢ with yes
    · exact ended
    · cases first : firstOf (search graph fuel) (graph.children node) with
      | none => simp [first] at ended
      | some answer =>
        rw [first] at ended
        have again : firstOf (search graph (fuel + 1)) (graph.children node) = some answer := by
          cases answer with
          | false =>
            rw [firstOf_eq_false] at first ⊢
            exact fun child member => ih (first child member)
          | true =>
            rw [firstOf_eq_true] at first ⊢
            obtain ⟨before, child, after, split, missed, found⟩ := first
            exact ⟨before, child, after, split, fun other member => ih (missed other member), ih found⟩
        rw [again]
        exact ended

theorem search_le {fuel more : Nat} {node : ν} {found : Bool} (enough : fuel ≤ more)
    (ended : search graph fuel node = some found) : search graph more node = some found := by
  induction enough with
  | refl => exact ended
  | step _ ih => exact search_succ ih

theorem exists_fuel {nodes : List ν} (misses : ∀ node ∈ nodes, Misses graph node) :
    ∃ fuel, ∀ node ∈ nodes, search graph fuel node = some false := by
  induction nodes with
  | nil => exact ⟨0, List.forall_mem_nil _⟩
  | cons node rest ih =>
    obtain ⟨⟨first, missed⟩, others⟩ := List.forall_mem_cons.mp misses
    obtain ⟨second, missedAll⟩ := ih others
    refine ⟨max first second, List.forall_mem_cons.mpr ⟨search_le (Nat.le_max_left ..) missed, ?_⟩⟩
    exact fun other member => search_le (Nat.le_max_right ..) (missedAll other member)

end

section

variable {graph}

theorem search_missed {fuel : Nat} {node : ν} (missed : search graph (fuel + 1) node = some false) :
    graph.enter node = false ∧ graph.leave node = false
      ∧ ∀ child ∈ graph.children node, search graph fuel child = some false := by
  rw [search] at missed
  split_ifs at missed with yes
  · cases missed
  · cases first : firstOf (search graph fuel) (graph.children node) with
    | none => simp [first] at missed
    | some answer =>
      cases answer with
      | true => simp [first] at missed
      | false =>
        rw [first] at missed
        exact ⟨Bool.eq_false_iff.mpr yes, Option.some.inj missed, firstOf_eq_false.mp first⟩

theorem misses_step {node : ν} :
    Misses graph node ↔ graph.enter node = false ∧ graph.leave node = false
      ∧ ∀ child ∈ graph.children node, Misses graph child := by
  constructor
  · rintro ⟨fuel, missed⟩
    cases fuel with
    | zero => cases missed
    | succ fuel =>
      obtain ⟨entered, left, children⟩ := search_missed missed
      exact ⟨entered, left, fun child member => ⟨fuel, children child member⟩⟩
  · rintro ⟨entered, left, children⟩
    obtain ⟨fuel, missed⟩ := exists_fuel children
    refine ⟨fuel + 1, ?_⟩
    rw [search, entered, firstOf_eq_false.mpr missed, left]
    rfl

theorem misses_reached {node other : ν} (misses : Misses graph node)
    (reached : ReflTransGen (Edge graph) node other) : Misses graph other := by
  induction reached with
  | refl => exact misses
  | tail _ edge ih => exact (misses_step.mp ih).2.2 _ edge

theorem search_reached {node other : ν} (reached : TransGen (Edge graph) node other) :
    ∀ {fuel : Nat}, search graph fuel node = some false →
      ∃ less < fuel, search graph less other = some false := by
  induction reached with
  | single edge =>
    rintro (_ | fuel) missed
    · cases missed
    · exact ⟨fuel, Nat.lt_succ_self _, (search_missed missed).2.2 _ edge⟩
  | tail _ edge ih =>
    intro fuel missed
    obtain ⟨less, smaller, between⟩ := ih missed
    cases less with
    | zero => cases between
    | succ less => exact ⟨less, by omega, (search_missed between).2.2 _ edge⟩

theorem acyclic_of_misses {node : ν} (misses : Misses graph node) : ¬ TransGen (Edge graph) node node := by
  intro cycle
  obtain ⟨fuel, missed⟩ := misses
  induction fuel using Nat.strong_induction_on with
  | _ fuel ih =>
    obtain ⟨less, smaller, again⟩ := search_reached cycle missed
    exact ih less smaller again

variable (finite : ∀ node, {other | ReflTransGen (Edge graph) node other}.Finite)
include finite

/-- **When a search ends without a yes.** -/
theorem misses_iff {node : ν} : Misses graph node ↔ Quiet graph node := by
  constructor
  · intro misses other reached
    have missed := misses_reached misses reached
    exact ⟨(misses_step.mp missed).1, (misses_step.mp missed).2.1, acyclic_of_misses missed⟩
  · intro quiet
    -- an edge leads down in a relation that is well founded on what is reached
    let Reached := {other // ReflTransGen (Edge graph) node other}
    have : Finite Reached := finite node
    let below : Reached → Reached → Prop := fun child parent => TransGen (Edge graph) parent.1 child.1
    have : IsTrans Reached below := ⟨fun _ _ _ first second => second.trans first⟩
    have : Std.Irrefl below := ⟨fun reached cycle => (quiet reached.1 reached.2).2.2 cycle⟩
    have founded : WellFounded below := Finite.wellFounded_of_trans_of_irrefl below
    have all : ∀ reached : Reached, Misses graph reached.1 := by
      intro reached
      induction reached using founded.induction with
      | _ reached ih =>
        obtain ⟨entered, left, -⟩ := quiet reached.1 reached.2
        exact misses_step.mpr ⟨entered, left, fun child edge =>
          ih ⟨child, reached.2.tail edge⟩ (.single edge)⟩
    exact all ⟨node, .refl⟩

/-- **When a search ends with a yes.** -/
theorem finds_iff {node : ν} : Finds graph node ↔ Found graph node := by
  constructor
  · rintro ⟨fuel, found⟩
    induction fuel generalizing node with
    | zero => cases found
    | succ fuel ih =>
      rw [search] at found
      split_ifs at found with yes
      · exact .enter yes
      · cases first : firstOf (search graph fuel) (graph.children node) with
        | none => simp [first] at found
        | some answer =>
          cases answer with
          | true =>
            obtain ⟨before, child, after, split, missed, there⟩ := firstOf_eq_true.mp first
            exact .child split (fun other member => (misses_iff finite).mp ⟨fuel, missed other member⟩)
              (ih there)
          | false =>
            rw [first] at found
            have missed := firstOf_eq_false.mp first
            exact .leave (fun other member => (misses_iff finite).mp ⟨fuel, missed other member⟩)
              (Option.some.inj found)
  · intro found
    induction found with
    | enter yes => exact ⟨1, by rw [search, if_pos yes]⟩
    | @child node child before after split quiet _ ih =>
      obtain ⟨first, found⟩ := ih
      obtain ⟨second, missed⟩ := exists_fuel fun other member => (misses_iff finite).mpr (quiet other member)
      refine ⟨max first second + 1, ?_⟩
      have there := firstOf_eq_true.mpr ⟨before, child, after, split,
        fun other member => search_le (Nat.le_max_right first second) (missed other member),
        search_le (Nat.le_max_left first second) found⟩
      rw [search, there]
      split_ifs <;> rfl
    | @leave node quiet yes =>
      obtain ⟨fuel, missed⟩ := exists_fuel fun other member => (misses_iff finite).mpr (quiet other member)
      refine ⟨fuel + 1, ?_⟩
      rw [search, firstOf_eq_false.mpr missed, yes]
      split_ifs <;> rfl

end

end BlindWalk
