/-
**Merging a stream of updates through a gate.**

An index holds one version of every key. An update of a known key is *offered* to the version held:
if the gate accepts it, it takes the place of that version, and otherwise nothing happens. Updates
of unknown keys are ignored.

* `offers_dominant`, `offers_sole` — one update that beats all others wins from any position, and
  one that is the only one not rejected is judged as if it were alone.
-/

import PiCrew.Library.Bindings

namespace GuardedMerge

section

variable {α : Type*} (accept : α → α → Bool)

def offer (current updated : α) : α := if accept current updated then updated else current

def offers (current : α) (updates : List α) : α := updates.foldl (offer accept) current

@[simp] theorem offers_nil (current : α) : offers accept current [] = current := rfl

@[simp] theorem offers_cons (current updated : α) (rest : List α) :
    offers accept current (updated :: rest) = offers accept (offer accept current updated) rest :=
  rfl

theorem offers_append (current : α) (first second : List α) :
    offers accept current (first ++ second) = offers accept (offers accept current first) second :=
  List.foldl_append ..

theorem offers_keep (holds : α → Prop) {updates : List α}
    (step : ∀ current, holds current → ∀ updated ∈ updates, accept current updated = true →
      holds updated) {current : α} (start : holds current) : holds (offers accept current updates) := by
  induction updates generalizing current with
  | nil => exact start
  | cons updated rest ih =>
    rw [offers_cons]
    refine ih (fun held good other member => step held good other (List.mem_cons_of_mem _ member)) ?_
    unfold offer
    split
    · rename_i accepted
      exact step current start updated List.mem_cons_self accepted
    · exact start

theorem offers_rejected {current : α} {updates : List α}
    (rejected : ∀ updated ∈ updates, accept current updated = false) :
    offers accept current updates = current := by
  induction updates with
  | nil => rfl
  | cons updated rest ih =>
    rw [offers_cons, offer, rejected updated List.mem_cons_self, if_neg Bool.false_ne_true]
    exact ih fun other member => rejected other (List.mem_cons_of_mem _ member)

/-- **A dominant update wins**: it is accepted from every version the earlier updates can leave,
and rejects all later ones. -/
theorem offers_dominant (holds : α → Prop) {current top : α} {first second : List α}
    (start : holds current)
    (step : ∀ held, holds held → ∀ updated ∈ first, accept held updated = true → holds updated)
    (wins : ∀ held, holds held → accept held top = true)
    (stays : ∀ updated ∈ second, accept top updated = false) :
    offers accept current (first ++ top :: second) = top := by
  rw [offers_append, offers_cons, offer, wins _ (offers_keep accept holds step start), if_pos rfl]
  exact offers_rejected accept stays

/-- **A sole candidate is judged alone**: all other updates are rejected before and after it. -/
theorem offers_sole {current top : α} {first second : List α}
    (before : ∀ updated ∈ first ++ second, accept current updated = false)
    (after : ∀ updated ∈ second, accept top updated = false) :
    offers accept current (first ++ top :: second) = offer accept current top := by
  rw [offers_append, offers_rejected accept fun updated member =>
    before updated (List.mem_append.mpr (Or.inl member)), offers_cons]
  unfold offer
  split
  · exact offers_rejected accept after
  · exact offers_rejected accept fun updated member =>
      before updated (List.mem_append.mpr (Or.inr member))

end

section

variable {α β : Type*} [DecidableEq β] {accept : α → α → Bool} {view : α → β}
  {verdict : β → β → Bool}

theorem view_offer (judged : ∀ current updated, view current ≠ view updated →
      accept current updated = verdict (view current) (view updated))
    (current updated : α) :
    view (offer accept current updated)
      = if verdict (view current) (view updated) then view updated else view current := by
  by_cases same : view current = view updated
  · unfold offer
    split <;> simp [same]
  · unfold offer
    rw [judged current updated same]
    split <;> rfl

theorem view_offers_uniform (judged : ∀ current updated, view current ≠ view updated →
      accept current updated = verdict (view current) (view updated))
    {looks : β} {updates : List α} (uniform : ∀ updated ∈ updates, view updated = looks)
    (current : α) :
    view (offers accept current updates)
      = if updates ≠ [] ∧ verdict (view current) looks then looks else view current := by
  induction updates generalizing current with
  | nil => simp
  | cons updated rest ih =>
    have first := view_offer judged current updated
    rw [uniform updated List.mem_cons_self] at first
    rw [offers_cons, ih (fun other member => uniform other (List.mem_cons_of_mem _ member)), first]
    by_cases accepted : verdict (view current) looks = true
    · simp [accepted]
    · simp [accepted]

end

section

variable {κ α : Type*} [DecidableEq κ] (key : α → κ) (accept : α → α → Bool)

/-- Offer an update to the version its key holds. -/
def put (index : Bindings κ α) (updated : α) : Bindings κ α :=
  match index.get (key updated) with
  | none => index
  | some current => if accept current updated then index.set (key updated) updated else index

theorem get_put (index : Bindings κ α) (updated : α) (wanted : κ) :
    (put key accept index updated).get wanted
      = if key updated = wanted then (index.get wanted).map (offer accept · updated)
        else index.get wanted := by
  unfold put
  cases held : index.get (key updated) with
  | none =>
    by_cases same : key updated = wanted
    · subst same
      simp [held]
    · simp [same]
  | some current =>
    by_cases same : key updated = wanted
    · subst same
      by_cases accepted : accept current updated = true
      · simp [held, offer, accepted]
      · simp [held, offer, accepted]
    · have other : ¬ wanted = key updated := fun equal => same equal.symm
      by_cases accepted : accept current updated = true
      · simp [same, other, accepted]
      · simp [same, accepted]

theorem get_fold (updates : List α) (index : Bindings κ α) (wanted : κ) :
    (updates.foldl (put key accept) index).get wanted = (index.get wanted).map
          (offers accept · (updates.filter fun updated => key updated == wanted)) := by
  induction updates generalizing index with
  | nil => simp
  | cons updated rest ih =>
    rw [List.foldl_cons, ih, get_put]
    by_cases same : key updated = wanted
    · simp [same, Function.comp_def]
    · simp [same]

end

end GuardedMerge
