/-
**Accounts that are seeded from one grant.**

A pool of accounts. An account that was never spent from has the whole grant of the pool, and no more is
spent from it than it has left. What is spent is drawn, or wasted.

* `drawn_le` — it is at most the limit, once for every account that was drawn from.
-/

import Mathlib.Algebra.BigOperators.Group.Finset.Piecewise
import Mathlib.Algebra.Order.BigOperators.Group.Finset
import Mathlib.Algebra.GroupWithZero.Nat
import Mathlib.Algebra.Ring.Int.Defs

namespace Allotment

variable {κ : Type*} [DecidableEq κ]

structure Draw (κ : Type*) where
  key : κ
  amount : Nat

def drawnBy (draws : List (Draw κ)) (key : κ) : Nat :=
  ((draws.filter (·.key = key)).map (·.amount)).sum

def drawn (draws : List (Draw κ)) : Nat := (draws.map (·.amount)).sum

def drawers (draws : List (Draw κ)) : Finset κ := (draws.map (·.key)).toFinset

theorem drawnBy_cons (draw : Draw κ) (draws : List (Draw κ)) (key : κ) :
    drawnBy (draw :: draws) key = (if draw.key = key then draw.amount else 0) + drawnBy draws key := by
  unfold drawnBy
  by_cases own : draw.key = key
  · simp [own]
  · simp [own]

theorem drawnBy_append (draws : List (Draw κ)) (draw : Draw κ) (key : κ) :
    drawnBy (draws ++ [draw]) key = drawnBy draws key + if draw.key = key then draw.amount else 0 := by
  unfold drawnBy
  by_cases own : draw.key = key
  · simp [own]
  · simp [own]

theorem drawn_eq_sum (draws : List (Draw κ)) {keys : Finset κ}
    (among : ∀ draw ∈ draws, draw.key ∈ keys) : drawn draws = ∑ key ∈ keys, drawnBy draws key := by
  induction draws with
  | nil => simp [drawn, drawnBy]
  | cons draw rest ih =>
    have later := ih fun other member => among other (List.mem_cons_of_mem _ member)
    calc drawn (draw :: rest) = draw.amount + drawn rest := by simp [drawn]
      _ = (∑ key ∈ keys, if draw.key = key then draw.amount else 0)
            + ∑ key ∈ keys, drawnBy rest key := by
          rw [Finset.sum_ite_eq, if_pos (among draw List.mem_cons_self), later]
      _ = ∑ key ∈ keys, drawnBy (draw :: rest) key := by
          rw [← Finset.sum_add_distrib]
          exact Finset.sum_congr rfl fun key _ => (drawnBy_cons draw rest key).symm

/-- **A limit on the accounts is a limit on the pool**, once for every account that was drawn from. -/
theorem drawn_le {draws : List (Draw κ)} {limit : Nat} (within : ∀ key, drawnBy draws key ≤ limit) :
    drawn draws ≤ (drawers draws).card * limit := by
  have among : ∀ draw ∈ draws, draw.key ∈ drawers draws :=
    fun draw member => List.mem_toFinset.mpr (List.mem_map_of_mem member)
  calc drawn draws = ∑ key ∈ drawers draws, drawnBy draws key := drawn_eq_sum draws among
    _ ≤ (drawers draws).card • limit := Finset.sum_le_card_nsmul _ _ _ fun key _ => within key
    _ = (drawers draws).card * limit := Nat.nsmul_eq_mul _ _

section

structure Account where
  granted : Int
  spent : Int

/-- **A pool of accounts**, that are seeded with a grant. -/
@[ext]
structure Pool (κ : Type*) where
  grant : Int
  accounts : κ → Option Account

namespace Pool

def account (pool : Pool κ) (key : κ) : Account :=
  (pool.accounts key).getD { granted := pool.grant, spent := 0 }

/-- A pool with an amount spent from an account. -/
def spend (pool : Pool κ) (key : κ) (amount : Nat) : Pool κ where
  grant := pool.grant
  accounts := Function.update pool.accounts key
      (some { granted := (pool.account key).granted, spent := (pool.account key).spent + amount })

theorem account_spend (pool : Pool κ) (key other : κ) (amount : Nat) :
    (pool.spend key amount).account other = if other = key then
          { granted := (pool.account key).granted, spent := (pool.account key).spent + amount }
        else pool.account other := by
  by_cases own : other = key
  · subst own
    rw [if_pos rfl, account, spend]
    dsimp only
    rw [Function.update_self]
    rfl
  · rw [if_neg own, account, spend]
    dsimp only
    rw [Function.update_of_ne own]
    rfl

def left (pool : Pool κ) (key : κ) : Int := (pool.account key).granted - (pool.account key).spent

end Pool

/-- A pool, until it is closed, and what was drawn from it. -/
structure Book (κ : Type*) where
  pool : Option (Pool κ)
  draws : List (Draw κ)

/-- **A step**: what is spent from an account is at most what it has left. -/
inductive Step : Book κ → Book κ → Prop
  | idle (book : Book κ) : Step book book
  | close (book : Book κ) : Step book { pool := none, draws := book.draws }
  | waste {pool : Pool κ} {draws : List (Draw κ)} {key : κ} {amount : Nat}
      (enough : (amount : Int) ≤ pool.left key) :
      Step { pool := some pool, draws := draws }
        { pool := some (pool.spend key amount), draws := draws }
  | draw {pool : Pool κ} {draws : List (Draw κ)} {key : κ} {amount : Nat}
      (enough : (amount : Int) ≤ pool.left key) :
      Step { pool := some pool, draws := draws }
        { pool := some (pool.spend key amount), draws := draws ++ [{ key := key, amount := amount }] }
  | free {pool : Option (Pool κ)} {draws : List (Draw κ)} {key : κ} :
      Step { pool := pool, draws := draws }
        { pool := pool, draws := draws ++ [{ key := key, amount := 0 }] }

/-- **The accounts are within a limit**: each is granted no more, and has spent what was drawn from it. -/
structure Within (limit : Nat) (book : Book κ) : Prop where
  granted : ∀ pool ∈ book.pool, ∀ key, (pool.account key).granted ≤ limit
  covered : ∀ pool ∈ book.pool, ∀ key, (drawnBy book.draws key : Int) ≤ (pool.account key).spent
  drawn : ∀ key, drawnBy book.draws key ≤ limit

variable {limit : Nat} {book after : Book κ}

theorem Within.spend {pool : Pool κ} {draws : List (Draw κ)}
    (within : Within limit { pool := some pool, draws := draws }) (key : κ) (amount : Nat) :
    (∀ other, ((pool.spend key amount).account other).granted ≤ limit) ∧
      ∀ other, (drawnBy draws other : Int) + (if key = other then amount else 0 : Nat)
        ≤ ((pool.spend key amount).account other).spent := by
  refine ⟨fun other => ?_, fun other => ?_⟩
  · rw [Pool.account_spend]
    split_ifs
    · exact within.granted pool rfl key
    · exact within.granted pool rfl other
  · have covered := within.covered pool rfl other
    rw [Pool.account_spend]
    by_cases own : other = key
    · subst own
      rw [if_pos rfl, if_pos rfl]
      exact Int.add_le_add_right covered _
    · rw [if_neg own, if_neg fun same => own same.symm, Nat.cast_zero, add_zero]
      exact covered

theorem Step.within (step : Step book after) (within : Within limit book) : Within limit after := by
  cases step with
  | idle => exact within
  | close => exact ⟨nofun, nofun, within.drawn⟩
  | @waste pool draws key amount enough =>
    obtain ⟨granted, covered⟩ := within.spend key amount
    refine ⟨fun spent same => ?_, fun spent same other => ?_, within.drawn⟩
    · obtain rfl := Option.some.inj same
      exact granted
    · obtain rfl := Option.some.inj same
      exact (Int.le_add_of_nonneg_right (Int.natCast_nonneg _)).trans (covered other)
  | @draw pool draws key amount enough =>
    obtain ⟨granted, covered⟩ := within.spend key amount
    refine ⟨fun spent same => ?_, fun spent same other => ?_, fun other => ?_⟩
    · obtain rfl := Option.some.inj same
      exact granted
    · obtain rfl := Option.some.inj same
      rw [drawnBy_append, Nat.cast_add]
      exact covered other
    · rw [drawnBy_append]
      by_cases own : key = other
      · subst own
        have before : (drawnBy draws key : Int) ≤ _ := within.covered pool rfl key
        have most := within.granted pool rfl key
        rw [Pool.left] at enough
        simp only [if_true]
        omega
      · rw [if_neg own, add_zero]
        exact within.drawn other
  | @free pool draws key =>
    have same : ∀ other, drawnBy (draws ++ [{ key := key, amount := 0 }]) other
        = drawnBy draws other := by
      intro other
      rw [drawnBy_append, ite_self, add_zero]
    refine ⟨within.granted, fun kept there other => ?_, fun other => ?_⟩
    · rw [same]
      exact within.covered kept there other
    · rw [same]
      exact within.drawn other

theorem Within.unopened {pool : Option (Pool κ)} (grant : ∀ opened ∈ pool, opened.grant ≤ limit)
    (unopened : ∀ opened ∈ pool, ∀ key, opened.accounts key = none) :
    Within limit { pool := pool, draws := [] } where
  granted opened there key := by
    rw [Pool.account, unopened opened there key]
    exact grant opened there
  covered opened there key := by
    rw [Pool.account, unopened opened there key]
    exact le_refl _
  drawn _ := Nat.zero_le _

end

end Allotment
