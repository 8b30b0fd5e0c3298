/-
**A depth-first walk with an explicit stack.**

A walk pops the top of a stack, ignores it when it is unwanted or already seen, and otherwise marks
it and pushes its children. The walk is run on a fuel, and `potential` — what is on the stack plus
what the unseen nodes can still push — bounds the pops it makes.

* `mem_walk_iff` — so a walk from a stack marks exactly what is reachable from it.
-/

import Mathlib.Algebra.GroupWithZero.Nat
import Mathlib.Data.List.Basic
import Mathlib.Logic.Relation

namespace Walk

section

variable {α : Type*} [DecidableEq α] (children : α → List α) (unwanted : α → Bool)

/-- Pop, mark and push, until the stack is empty. The children go on top of the stack one by one,
so that the last child is popped first. -/
def walk : Nat → List α → List α → List α
  | 0, _, seen => seen
  | _ + 1, [], seen => seen
  | fuel + 1, current :: rest, seen =>
    if unwanted current || seen.contains current then walk fuel rest seen
    else walk fuel ((children current).reverse ++ rest) (current :: seen)

def Edge (parent child : α) : Prop := child ∈ children parent ∧ unwanted child = false

def potential (nodes stack seen : List α) : Nat :=
  stack.length + ((nodes.filter fun node => node ∉ seen).map fun node => (children node).length).sum

theorem potential_mark (nodes seen : List α) {current : α} (fresh : current ∉ seen)
    (known : current ∈ nodes ∨ children current = []) :
    ((nodes.filter fun node => node ∉ current :: seen).map fun node => (children node).length).sum
        + (children current).length
      ≤ ((nodes.filter fun node => node ∉ seen).map fun node => (children node).length).sum := by
  have shrinks : ∀ list : List α,
      ((list.filter fun node => node ∉ current :: seen).map fun node => (children node).length).sum
        ≤ ((list.filter fun node => node ∉ seen).map fun node => (children node).length).sum := by
    intro list
    induction list with
    | nil => simp
    | cons head rest ih =>
      by_cases same : head = current
      all_goals by_cases old : head ∈ seen
      all_goals simp_all
      all_goals omega
  rcases known with member | leaf
  · induction nodes with
    | nil => cases member
    | cons head rest ih =>
      by_cases same : head = current
      · subst same
        have rest_le := shrinks rest
        simp only [List.mem_cons, true_or, not_true, decide_false, Bool.false_eq_true,
          not_false_eq_true, List.filter_cons_of_neg, fresh, decide_true,
          List.filter_cons_of_pos, List.map_cons, List.sum_cons] at rest_le ⊢
        omega
      · have later := ih ((List.mem_cons.mp member).resolve_left fun equal => same equal.symm)
        by_cases old : head ∈ seen
        all_goals simp_all
        all_goals omega
  · simpa [leaf] using shrinks nodes

theorem mem_walk_reaches {fuel : Nat} {stack seen : List α} {item : α}
    (marked : item ∈ walk children unwanted fuel stack seen) :
    item ∈ seen ∨ ∃ start ∈ stack, unwanted start = false ∧
      Relation.ReflTransGen (Edge children unwanted) start item := by
  induction fuel generalizing stack seen with
  | zero => exact Or.inl marked
  | succ fuel ih =>
    cases stack with
    | nil => exact Or.inl marked
    | cons current rest =>
      simp only [walk] at marked
      split at marked
      · rcases ih marked with old | ⟨start, member, wanted, path⟩
        · exact Or.inl old
        · exact Or.inr ⟨start, List.mem_cons_of_mem _ member, wanted, path⟩
      · rename_i visit
        have wanted : unwanted current = false := by
          cases value : unwanted current <;> simp_all
        rcases ih marked with old | ⟨start, member, accepted, path⟩
        · rcases List.mem_cons.mp old with rfl | older
          · exact Or.inr ⟨_, List.mem_cons_self, wanted, .refl⟩
          · exact Or.inl older
        · rcases List.mem_append.mp member with child | below
          · exact Or.inr ⟨current, List.mem_cons_self, wanted,
              .head ⟨List.mem_reverse.mp child, accepted⟩ path⟩
          · exact Or.inr ⟨start, List.mem_cons_of_mem _ below, accepted, path⟩

/-- **With enough fuel nothing is left out.** If every child of a seen node is seen or on the
stack, the marked set holds the seen nodes and the stack, and every child of a marked node. -/
theorem walk_covers (nodes : List α) (known : ∀ node, node ∈ nodes ∨ children node = [])
    {fuel : Nat} {stack seen : List α} (enough : potential children nodes stack seen ≤ fuel)
    (pending : ∀ node ∈ seen, ∀ child ∈ children node, unwanted child = false →
      child ∈ seen ∨ child ∈ stack) :
    (∀ node, node ∈ seen ∨ node ∈ stack → unwanted node = false ∨ node ∈ seen →
        node ∈ walk children unwanted fuel stack seen) ∧
      ∀ node ∈ walk children unwanted fuel stack seen, ∀ child, Edge children unwanted node child →
        child ∈ walk children unwanted fuel stack seen := by
  induction fuel generalizing stack seen with
  | zero =>
    have empty : stack = [] := List.eq_nil_of_length_eq_zero (by simp only [potential] at enough; omega)
    subst empty
    refine ⟨fun node present _ => present.resolve_right List.not_mem_nil, ?_⟩
    intro node member child edge
    exact (pending node member child edge.1 edge.2).resolve_right List.not_mem_nil
  | succ fuel ih =>
    cases stack with
    | nil =>
      refine ⟨fun node present _ => present.resolve_right List.not_mem_nil, ?_⟩
      intro node member child edge
      exact (pending node member child edge.1 edge.2).resolve_right List.not_mem_nil
    | cons current rest =>
      simp only [walk]
      split
      · rename_i ignored
        have old : unwanted current = true ∨ current ∈ seen := by simpa using ignored
        have smaller : potential children nodes rest seen ≤ fuel := by
          simp only [potential, List.length_cons] at enough ⊢
          omega
        obtain ⟨holds, closed⟩ := ih smaller fun node member child edge wanted => by
          rcases pending node member child edge wanted with seenChild | stacked
          · exact Or.inl seenChild
          · rcases List.mem_cons.mp stacked with rfl | below
            · exact Or.inl (old.resolve_left (by simp [wanted]))
            · exact Or.inr below
        refine ⟨fun node present wanted => holds node ?_ wanted, closed⟩
        rcases present with seenNode | stacked
        · exact Or.inl seenNode
        · rcases List.mem_cons.mp stacked with rfl | below
          · exact Or.inl (wanted.elim (fun free => old.resolve_left (by simp [free])) id)
          · exact Or.inr below
      · rename_i visit
        have fresh : unwanted current = false ∧ current ∉ seen := by simpa using visit
        have smaller : potential children nodes ((children current).reverse ++ rest)
            (current :: seen) ≤ fuel := by
          have paid := potential_mark children nodes seen fresh.2 (known current)
          simp only [potential, List.length_cons, List.length_append, List.length_reverse]
            at enough ⊢
          omega
        obtain ⟨holds, closed⟩ := ih smaller fun node member child edge wanted => by
          rcases List.mem_cons.mp member with rfl | older
          · exact Or.inr (List.mem_append.mpr (Or.inl (List.mem_reverse.mpr edge)))
          · rcases pending node older child edge wanted with seenChild | stacked
            · exact Or.inl (List.mem_cons_of_mem _ seenChild)
            · rcases List.mem_cons.mp stacked with rfl | below
              · exact Or.inl List.mem_cons_self
              · exact Or.inr (List.mem_append.mpr (Or.inr below))
        refine ⟨fun node present wanted => holds node ?_ (wanted.imp id (List.mem_cons_of_mem _)),
          closed⟩
        rcases present with seenNode | stacked
        · exact Or.inl (List.mem_cons_of_mem _ seenNode)
        · rcases List.mem_cons.mp stacked with rfl | below
          · exact Or.inl List.mem_cons_self
          · exact Or.inr (List.mem_append.mpr (Or.inr below))

/-- **A walk from a stack marks exactly what is reachable from it.** -/
theorem mem_walk_iff (nodes : List α) (known : ∀ node, node ∈ nodes ∨ children node = [])
    {fuel : Nat} {stack : List α} (enough : potential children nodes stack [] ≤ fuel) (item : α) :
    item ∈ walk children unwanted fuel stack [] ↔ ∃ start ∈ stack, unwanted start = false ∧
      Relation.ReflTransGen (Edge children unwanted) start item := by
  constructor
  · intro marked
    exact (mem_walk_reaches children unwanted marked).resolve_left List.not_mem_nil
  · rintro ⟨start, member, wanted, path⟩
    obtain ⟨holds, closed⟩ := walk_covers children unwanted nodes known enough
      fun node absent => absurd absent List.not_mem_nil
    induction path with
    | refl => exact holds start (Or.inr member) (Or.inl wanted)
    | tail _ edge ih => exact closed _ ih _ edge

end

end Walk
