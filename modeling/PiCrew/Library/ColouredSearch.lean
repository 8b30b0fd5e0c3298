/-
**Cycles, by a depth-first search with three colours.**

A white node is not visited, a gray one is on the path of the visit, a black one is done. A visit follows the
edges of its node in turn: one into a gray node closes a cycle, which is recorded, and one into a white node is
visited at once.

* `search_cycles_iff` — a cycle is recorded exactly when there is one.

The depth of a search is bounded by the white nodes that are left.
-/

import Mathlib.Data.List.Chain
import Mathlib.Data.List.Nodup
import Mathlib.Logic.Function.Basic
import Mathlib.Logic.Relation

namespace ColouredSearch

open Relation

inductive Colour where
  | white
  | gray
  | black
  deriving DecidableEq, Repr

/-- **A search so far.** The path ends with the node that is visited now. -/
structure Search (α : Type*) where
  colour : α → Colour
  path : List α
  cycles : List (List α)

section

variable {α : Type*} [DecidableEq α] (next : α → List α)

namespace Search

def start : Search α := { colour := fun _ => .white, path := [], cycles := [] }

variable (state : Search α) (node : α)

def enter : Search α :=
  { state with colour := Function.update state.colour node .gray, path := state.path ++ [node] }

/-- The path from a gray node on. -/
def closeCycle : Search α :=
  if node ∈ state.path then
    { state with cycles := state.cycles ++ [state.path.drop (state.path.idxOf node)] }
  else state

def leave : Search α :=
  { state with colour := Function.update state.colour node .black, path := state.path.dropLast }

end Search

def follow (visit : α → Search α → Search α) (state : Search α) (node : α) : Search α :=
  match state.colour node with
  | .gray => state.closeCycle node
  | .white => visit node state
  | .black => state

/-- **Visit a node**, at most so deep. -/
def visit : Nat → α → Search α → Search α
  | 0, _, state => state
  | depth + 1, node, state => ((next node).foldl (follow (visit depth)) (state.enter node)).leave node

/-- **Search from every node that is still white.** -/
def search (nodes : List α) : Search α :=
  nodes.foldl (fun state node =>
    if state.colour node = .white then visit next nodes.length node state else state) .start

end

section

variable {α : Type*} {next : α → List α}

def Leads (next : α → List α) (node target : α) : Prop := target ∈ next node

structure Visited (next : α → List α) (state : Search α) : Prop where
  gray_iff : ∀ node, state.colour node = .gray ↔ node ∈ state.path
  apart : state.path.Nodup
  linked : state.path.IsChain (Leads next)
  sound : state.cycles ≠ [] → ∃ node, TransGen (Leads next) node node
  closed : state.cycles = [] → ∀ node, state.colour node = .black → ∀ target, Leads next node target →
    state.colour target = .black
  acyclic : state.cycles = [] → ∀ node, state.colour node = .black → ¬ TransGen (Leads next) node node

/-- What a search may do to its state: the path stays, nodes only become black, records only grow. -/
structure Later (state later : Search α) : Prop where
  path : later.path = state.path
  gray_iff : ∀ node, later.colour node = .gray ↔ state.colour node = .gray
  black : ∀ node, state.colour node = .black → later.colour node = .black
  cycles : later.cycles = [] → state.cycles = []

theorem Later.refl (state : Search α) : Later state state := ⟨rfl, fun _ => Iff.rfl, fun _ => id, id⟩

theorem Later.trans {state later last : Search α} (first : Later state later) (second : Later later last) :
    Later state last where
  path := second.path.trans first.path
  gray_iff node := (second.gray_iff node).trans (first.gray_iff node)
  black node done := second.black node (first.black node done)
  cycles none := first.cycles (second.cycles none)

theorem Later.white {state later : Search α} (step : Later state later) {node : α}
    (white : later.colour node = .white) : state.colour node = .white := by
  cases before : state.colour node with
  | white => rfl
  | gray =>
    rw [(step.gray_iff node).mpr before] at white
    cases white
  | black =>
    rw [step.black node before] at white
    cases white

theorem Visited.black_of_reaches {state : Search α} (visited : Visited next state) (none : state.cycles = [])
    {node target : α} (black : state.colour node = .black) (path : ReflTransGen (Leads next) node target) :
    state.colour target = .black := by
  induction path with
  | refl => exact black
  | tail _ edge hyp => exact visited.closed none _ hyp _ edge

theorem Visited.reaches_last {state : Search α} (visited : Visited next state) {before : List α} {last : α}
    (ends : state.path = before ++ [last]) {node : α} (member : node ∈ state.path) :
    ReflTransGen (Leads next) node last := by
  have linked := visited.linked
  rw [ends] at linked member
  rcases List.mem_append.mp member with earlier | atEnd
  · exact linked.backwards_concat_induction (ReflTransGen (Leads next) · last) before
      (fun _ _ edge path => .head edge path) .refl node earlier
  · exact List.mem_singleton.mp atEnd ▸ .refl

theorem visited_start : Visited next (Search.start : Search α) where
  gray_iff node := by simp [Search.start]
  apart := List.nodup_nil
  linked := List.isChain_nil
  sound some := absurd rfl some
  closed _ node black := by cases black
  acyclic _ node black := by cases black

variable [DecidableEq α]

variable {state : Search α} (visited : Visited next state)

include visited

theorem Visited.enter {node : α}
    (white : state.colour node = .white) (linked : (state.path ++ [node]).IsChain (Leads next)) :
    Visited next (state.enter node) := by
  have fresh : node ∉ state.path := by
    rw [← visited.gray_iff, white]
    exact nofun
  have black_iff : ∀ other, (state.enter node).colour other = .black ↔ state.colour other = .black := by
    intro other
    by_cases same : other = node
    · simp [Search.enter, same, white]
    · simp [Search.enter, same]
  constructor
  · intro other
    by_cases same : other = node
    · simp [Search.enter, same]
    · simp [Search.enter, same, visited.gray_iff]
  · refine List.nodup_append.mpr ⟨visited.apart, List.nodup_singleton node, ?_⟩
    rintro other member _ single rfl
    exact fresh (List.mem_singleton.mp single ▸ member)
  · exact linked
  · exact visited.sound
  · intro none other black target edge
    exact (black_iff target).mpr (visited.closed none other ((black_iff other).mp black) target edge)
  · exact fun none other black => visited.acyclic none other ((black_iff other).mp black)

/-- **A node is left** once all that it leads to is black. -/
theorem Visited.leave {before : List α} {node : α} (ends : state.path = before ++ [node])
    (done : state.cycles = [] → ∀ target, Leads next node target → state.colour target = .black) :
    Visited next (state.leave node) := by
  have apart := visited.apart
  rw [ends] at apart
  have fresh : node ∉ before := fun member =>
    (List.nodup_append.mp apart).2.2 node member node (List.mem_singleton_self node) rfl
  have gray : state.colour node = .gray := (visited.gray_iff node).mpr (by simp [ends])
  have shorter : (state.leave node).path = before := by simp [Search.leave, ends]
  have colours : ∀ other,
      (state.leave node).colour other = if other = node then .black else state.colour other := by
    intro other
    simp [Search.leave, Function.update_apply]
  constructor
  · intro other
    rw [shorter, colours]
    split
    case isTrue same => exact iff_of_false nofun (same ▸ fresh)
    case isFalse other_node =>
        rw [visited.gray_iff, ends, List.mem_append, List.mem_singleton, or_iff_left other_node]
  · rw [shorter]
    exact (List.nodup_append.mp apart).1
  · rw [shorter]
    exact (ends ▸ visited.linked).left_of_append
  · exact visited.sound
  · intro none other black target edge
    have below : state.colour target = .black := by
      by_cases same : other = node
      · exact done none target (same ▸ edge)
      · rw [colours, if_neg same] at black
        exact visited.closed none other black target edge
    rw [colours, below, ite_self]
  · intro none other black cycle
    by_cases same : other = node
    · -- the first edge of the cycle leads to a black node, and black nodes do not lead back to a gray one
      subst same
      obtain ⟨target, edge, back⟩ := TransGen.head'_iff.mp cycle
      have reached := visited.black_of_reaches none (done none target edge) back
      rw [gray] at reached
      cases reached
    · rw [colours, if_neg same] at black
      exact visited.acyclic none other black cycle

theorem Visited.closeCycle {before : List α} {node target : α}
    (ends : state.path = before ++ [node]) (edge : Leads next node target)
    (gray : state.colour target = .gray) :
    Visited next (state.closeCycle target) ∧ Later state (state.closeCycle target)
      ∧ (state.closeCycle target).cycles ≠ [] := by
  have member : target ∈ state.path := (visited.gray_iff target).mp gray
  have closes : TransGen (Leads next) target target :=
    TransGen.tail' (visited.reaches_last ends member) edge
  rw [Search.closeCycle, if_pos member]
  refine ⟨?_, ⟨rfl, fun _ => Iff.rfl, fun _ => id, ?_⟩, ?_⟩
  · exact
      { gray_iff := visited.gray_iff
        apart := visited.apart
        linked := visited.linked
        sound := fun _ => ⟨target, closes⟩
        closed := fun none => absurd none (by simp)
        acyclic := fun none => absurd none (by simp) }
  · exact fun none => absurd none (by simp)
  · simp

end

section

variable {α : Type*} [DecidableEq α] {next : α → List α} {nodes : List α}

def whites (nodes : List α) (state : Search α) : Nat := nodes.countP (state.colour · = .white)

omit [DecidableEq α] in
theorem Later.whites_le {state later : Search α} (step : Later state later) (nodes : List α) :
    whites nodes later ≤ whites nodes state := by
  refine List.countP_mono_left fun node _ white => ?_
  exact decide_eq_true (step.white (of_decide_eq_true white))

theorem whites_enter_lt {state : Search α} {node : α} (member : node ∈ nodes)
    (white : state.colour node = .white) : whites nodes (state.enter node) < whites nodes state := by
  have colours : ∀ other,
      (state.enter node).colour other = if other = node then .gray else state.colour other := by
    intro other
    simp [Search.enter, Function.update_apply]
  have no_more : ∀ others : List α, whites others (state.enter node) ≤ whites others state := by
    refine fun others => List.countP_mono_left fun other _ white' => ?_
    by_cases same : other = node
    · exact decide_eq_true (same ▸ white)
    · simpa [colours, same] using white'
  obtain ⟨before, behind, rfl⟩ := List.append_of_mem member
  have first := no_more before
  have last := no_more behind
  simp only [whites, List.countP_append, List.countP_cons, colours, white] at first last ⊢
  simp
  omega

theorem Later.leave {state inner : Search α} {node : α} (later : Later (state.enter node) inner)
    (white : state.colour node = .white) : Later state (inner.leave node) := by
  have left : ∀ other,
      (inner.leave node).colour other = if other = node then .black else inner.colour other := by
    intro other
    simp [Search.leave, Function.update_apply]
  have entered : ∀ other, other ≠ node → (state.enter node).colour other = state.colour other := by
    intro other apart
    simp [Search.enter, apart]
  constructor
  · change inner.path.dropLast = state.path
    rw [later.path]
    exact List.dropLast_concat
  · intro other
    by_cases same : other = node
    · rw [left, if_pos same, same, white]
      exact iff_of_false nofun nofun
    · rw [left, if_neg same, later.gray_iff, entered other same]
  · intro other black
    by_cases same : other = node
    · rw [left, if_pos same]
    · rw [left, if_neg same]
      exact later.black other ((entered other same).trans black)
  · exact later.cycles

/-- What a visit of a white node does, if it may go as deep as there are white nodes. -/
def VisitKeeps (next : α → List α) (nodes : List α) (depth : Nat) : Prop :=
  ∀ node ∈ nodes, ∀ state, Visited next state → state.colour node = .white → whites nodes state ≤ depth →
    (state.path ++ [node]).IsChain (Leads next) →
    Visited next (visit next depth node state) ∧ Later state (visit next depth node state)
      ∧ (visit next depth node state).colour node = .black

/-- **Following the edges of a visited node in turn.** -/
theorem foldl_follow_spec {depth : Nat} (hyp : VisitKeeps next nodes depth) {before : List α} {node : α}
    (targets : List α) (edges : ∀ target ∈ targets, target ∈ nodes ∧ Leads next node target)
    {state : Search α} (visited : Visited next state) (ends : state.path = before ++ [node])
    (enough : whites nodes state ≤ depth) :
    Visited next (targets.foldl (follow (visit next depth)) state)
      ∧ Later state (targets.foldl (follow (visit next depth)) state)
      ∧ ((targets.foldl (follow (visit next depth)) state).cycles = [] →
          ∀ target ∈ targets, (targets.foldl (follow (visit next depth)) state).colour target = .black) := by
  induction targets generalizing state with
  | nil => exact ⟨visited, Later.refl state, fun _ target member => absurd member List.not_mem_nil⟩
  | cons target rest ih =>
    obtain ⟨known, edge⟩ := edges target List.mem_cons_self
    have one : Visited next (follow (visit next depth) state target)
        ∧ Later state (follow (visit next depth) state target)
        ∧ ((follow (visit next depth) state target).cycles = [] →
            (follow (visit next depth) state target).colour target = .black) := by
      cases colour : state.colour target with
      | white =>
        have linked : (state.path ++ [target]).IsChain (Leads next) := by
          refine visited.linked.append (List.isChain_singleton target) fun last atEnd first atStart => ?_
          have isLast : node = last := by simpa [ends] using atEnd
          have isFirst : target = first := by simpa using atStart
          exact isLast ▸ isFirst ▸ edge
        obtain ⟨kept, later, black⟩ := hyp target known state visited colour enough linked
        simp only [follow, colour]
        exact ⟨kept, later, fun _ => black⟩
      | gray =>
        obtain ⟨kept, later, recorded⟩ := visited.closeCycle ends edge colour
        simp only [follow, colour]
        exact ⟨kept, later, fun none => absurd none recorded⟩
      | black =>
        have stays : follow (visit next depth) state target = state := by simp only [follow, colour]
        rw [stays]
        exact ⟨visited, Later.refl state, fun _ => colour⟩
    obtain ⟨kept, later, black⟩ := one
    obtain ⟨kept', later', blacks⟩ := ih (fun other member => edges other (List.mem_cons_of_mem _ member))
      kept (later.path.trans ends) ((later.whites_le nodes).trans enough)
    refine ⟨kept', later.trans later', fun none other member => ?_⟩
    rcases List.mem_cons.mp member with rfl | member
    · exact later'.black other (black (later'.cycles none))
    · exact blacks none other member

theorem visit_spec (inside : ∀ node ∈ nodes, ∀ target, Leads next node target → target ∈ nodes) (depth : Nat) :
    VisitKeeps next nodes depth := by
  induction depth with
  | zero =>
    intro node member state visited white enough linked
    have some_white : 0 < whites nodes state := List.countP_pos_iff.mpr ⟨node, member, decide_eq_true white⟩
    omega
  | succ depth hyp =>
    intro node member state visited white enough linked
    have entered := visited.enter white linked
    have fewer := whites_enter_lt member white
    have path : (state.enter node).path = state.path ++ [node] := rfl
    obtain ⟨kept, later, blacks⟩ := foldl_follow_spec hyp (next node)
      (fun target edge => ⟨inside node member target edge, edge⟩) entered path (by omega)
    refine ⟨kept.leave (later.path.trans rfl) blacks, later.leave white, ?_⟩
    simp [visit, Search.leave]

theorem foldl_search_spec (inside : ∀ node ∈ nodes, ∀ target, Leads next node target → target ∈ nodes)
    (roots : List α) (known : roots ⊆ nodes) {state : Search α} (visited : Visited next state)
    (bare : state.path = []) :
    let ended := roots.foldl (fun state node =>
      if state.colour node = .white then visit next nodes.length node state else state) state
    Visited next ended ∧ Later state ended ∧ ∀ node ∈ roots, ended.colour node = .black := by
  induction roots generalizing state with
  | nil => exact ⟨visited, Later.refl state, fun node member => absurd member List.not_mem_nil⟩
  | cons root rest hyp =>
    have one : ∃ after, (if state.colour root = .white then visit next nodes.length root state else state) = after
        ∧ Visited next after ∧ Later state after ∧ after.colour root = .black := by
      cases colour : state.colour root with
      | white =>
        have linked : (state.path ++ [root]).IsChain (Leads next) := by simp [bare]
        exact ⟨_, rfl, visit_spec inside nodes.length root (known List.mem_cons_self) state visited colour
          List.countP_le_length linked⟩
      | gray =>
        have member := (visited.gray_iff root).mp colour
        rw [bare] at member
        cases member
      | black => exact ⟨state, by simp, visited, Later.refl state, colour⟩
    obtain ⟨after, reached, kept, later, black⟩ := one
    rw [List.foldl_cons, reached]
    obtain ⟨kept', later', blacks⟩ := hyp (fun node member => known (List.mem_cons_of_mem _ member)) kept
      (later.path.trans bare)
    refine ⟨kept', later.trans later', fun node member => ?_⟩
    rcases List.mem_cons.mp member with rfl | member
    · exact later'.black node black
    · exact blacks node member

/-- **A cycle is recorded exactly when there is one.** -/
theorem search_cycles_iff (only : ∀ node target, Leads next node target → node ∈ nodes ∧ target ∈ nodes) :
    (search next nodes).cycles ≠ [] ↔ ∃ node, TransGen (Leads next) node node := by
  obtain ⟨visited, -, blacks⟩ := foldl_search_spec (fun node _ target edge => (only node target edge).2) nodes
    (List.Subset.refl nodes) visited_start rfl
  refine ⟨visited.sound, ?_⟩
  rintro ⟨node, cycle⟩ none
  obtain ⟨target, edge, -⟩ := TransGen.head'_iff.mp cycle
  exact visited.acyclic none node (blacks node (only node target edge).1) cycle

end

end ColouredSearch
