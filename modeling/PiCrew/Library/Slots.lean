/-
**Slots that holders take and give back.**

A set of slots is held by a list of holders: every holder holds one slot, and nobody else holds any.

* `HeldBy.move` — the order of the holders does not matter.
-/

import Mathlib.Data.Finset.Card
import Mathlib.Data.List.Nodup

namespace Slots

variable {ι : Type*} [DecidableEq ι] {held : Finset ι} {holders others : List ι} {holder : ι}

/-- **The slots are held by these holders**, one each. -/
structure HeldBy (held : Finset ι) (holders : List ι) : Prop where
  distinct : holders.Nodup
  exact : holders.toFinset = held

namespace HeldBy

theorem nobody : HeldBy (∅ : Finset ι) [] := ⟨List.nodup_nil, rfl⟩

section

variable (byHolders : HeldBy held holders)

include byHolders

theorem mem_iff : holder ∈ held ↔ holder ∈ holders := by
  rw [← byHolders.exact, List.mem_toFinset]

theorem card_eq : held.card = holders.length := by
  rw [← byHolders.exact, List.toFinset_card_of_nodup byHolders.distinct]

theorem move (same : holders.Perm others) : HeldBy held others where
  distinct := same.nodup_iff.mp byHolders.distinct
  exact := by rw [← List.toFinset_eq_of_perm _ _ same, byHolders.exact]

theorem acquire (new : holder ∉ held) : HeldBy (insert holder held) (holder :: holders) where
  distinct := List.nodup_cons.mpr ⟨fun there => new (byHolders.mem_iff.mpr there), byHolders.distinct⟩
  exact := by rw [List.toFinset_cons, byHolders.exact]

end

theorem release (byHolders : HeldBy held (holder :: holders)) : HeldBy (held.erase holder) holders where
  distinct := (List.nodup_cons.mp byHolders.distinct).2
  exact := by
    have absent : holder ∉ holders.toFinset :=
      fun there => (List.nodup_cons.mp byHolders.distinct).1 (List.mem_toFinset.mp there)
    rw [← byHolders.exact, List.toFinset_cons, Finset.erase_insert absent]

end HeldBy

end Slots
