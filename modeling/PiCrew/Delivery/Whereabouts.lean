/-
**Where a delivery is.**

A delivery was taken by a callback, is queued, is in the hands of code that has called a callback, or was
dropped. Two things go wrong. A delivery that fails during a flush is kept out of the queue, so that it is nowhere.
And only the flush looks at the owner of a delivery: a direct one, and the event after a notification, go to
whatever session is active.

* `flushLoop_holds`, `enqueue_holds`, … — the pieces of the code move deliveries from place to place;
* `delivered_of_regular` — every run without the two is as it should be;
* `foreign_and_lost` — two runs with them.
-/

import PiCrew.Delivery.Coordinator
import Mathlib.Data.List.Count

namespace PiCrew.Delivery

open Runs

variable {ρ : Type} {coordinator next : DeliveryCoordinator ρ} {delivery : PendingDelivery ρ}
  {loose rest retryLater : List (PendingDelivery ρ)}

/-- The deliveries that the code after a callback has in its variables. -/
def Frame.held : Frame ρ → List (PendingDelivery ρ)
  | .direct delivery => [delivery]
  | .event _ => []
  | .flush delivery rest retryLater => delivery :: (rest ++ retryLater)
  | .flushEvent _ rest retryLater => rest ++ retryLater

def DeliveryCoordinator.underway (coordinator : DeliveryCoordinator ρ) : List (PendingDelivery ρ) :=
  coordinator.stack.flatMap Frame.held

def timesIn (deliveries : List (PendingDelivery ρ)) (ordinal : Nat) : Nat :=
  (deliveries.map (·.ordinal)).count ordinal

def DeliveryCoordinator.places (coordinator : DeliveryCoordinator ρ) (ordinal : Nat) : Nat :=
  coordinator.handed.count ordinal + timesIn coordinator.pending ordinal +
    timesIn coordinator.underway ordinal + timesIn (coordinator.dropped.map Drop.delivery) ordinal

/-- **Why a delivery may be dropped**: it is a steer of an earlier session generation, it was the oldest
over the cap, or its time was over. -/
def Drop.Allowed : Drop ρ → Prop
  | .stale delivery generation =>
    (∃ message, delivery.payload = .steer message) ∧ ∃ early < generation, delivery.generation = some early
  | .overCap _ length => maxPending < length
  | .expired delivery now => delivery.timestamp + pendingTtlMs ≤ now

def HostCall.Rightful (call : HostCall ρ) : Prop :=
  ∀ owner ∈ call.delivery.owner, ∀ session ∈ call.session, session = owner

/-- **The coordinator keeps its promise**: every delivery is in one place, what was dropped was allowed to
be, and no callback was called for the wrong session. -/
structure Delivered (coordinator : DeliveryCoordinator ρ) : Prop where
  once : ∀ ordinal < coordinator.issued, coordinator.places ordinal = 1
  allowed : ∀ drop ∈ coordinator.dropped, drop.Allowed
  rightful : ∀ call ∈ coordinator.calls, call.Rightful

/-- **The invariant**, where the code at hand has these deliveries in its variables. -/
structure Holds (coordinator : DeliveryCoordinator ρ) (loose : List (PendingDelivery ρ)) : Prop where
  placed : ∀ ordinal, coordinator.places ordinal + timesIn loose ordinal =
    if ordinal < coordinator.issued then 1 else 0
  allowed : ∀ drop ∈ coordinator.dropped, drop.Allowed
  rightful : ∀ call ∈ coordinator.calls, call.Rightful
  early : ∀ delivery ∈ coordinator.pending ++ coordinator.underway ++ loose,
    ∀ generation ∈ delivery.generation, generation ≤ coordinator.generation
  named : coordinator.active → ∃ session, coordinator.activeSessionId = some session ∧ session ≠ ""

theorem Holds.delivered (holds : Holds coordinator []) : Delivered coordinator where
  once ordinal issued := by
    have placed := holds.placed ordinal
    rwa [if_pos issued] at placed
  allowed := holds.allowed
  rightful := holds.rightful

@[simp] theorem timesIn_nil (ordinal : Nat) : timesIn ([] : List (PendingDelivery ρ)) ordinal = 0 := rfl

@[simp] theorem timesIn_cons (ordinal : Nat) : timesIn (delivery :: loose) ordinal =
    timesIn loose ordinal + if delivery.ordinal = ordinal then 1 else 0 := by
  simp [timesIn, List.count_cons]

@[simp] theorem timesIn_append (early late : List (PendingDelivery ρ)) (ordinal : Nat) :
    timesIn (early ++ late) ordinal = timesIn early ordinal + timesIn late ordinal := by
  simp [timesIn]

theorem Holds.perm (holds : Holds coordinator loose) {other : List (PendingDelivery ρ)}
    (perm : other.Perm loose) : Holds coordinator other where
  placed ordinal := by
    rw [← holds.placed ordinal]
    exact congrArg _ ((perm.map _).count_eq ordinal)
  allowed := holds.allowed
  rightful := holds.rightful
  early delivery there := holds.early delivery (((List.Perm.refl _).append perm).mem_iff.mp there)
  named := holds.named

theorem Holds.renewed (holds : Holds coordinator (delivery :: loose)) {renewed : PendingDelivery ρ}
    (same : renewed.ordinal = delivery.ordinal)
    (early : ∀ generation ∈ renewed.generation, generation ≤ coordinator.generation) :
    Holds coordinator (renewed :: loose) where
  placed ordinal := by
    rw [← holds.placed ordinal, timesIn_cons, timesIn_cons, same]
  allowed := holds.allowed
  rightful := holds.rightful
  early other there := by
    rcases List.mem_append.mp there with old | new
    · exact holds.early other (List.mem_append_left _ old)
    · rcases List.mem_cons.mp new with rfl | old
      · exact early
      · exact holds.early other (List.mem_append_right _ (List.mem_cons_of_mem _ old))
  named := holds.named

section

open DeliveryCoordinator

theorem callHost_holds {sent : Sent ρ} {frame : Frame ρ} (holds : Holds coordinator (frame.held ++ loose))
    (rightful : ∀ owner ∈ delivery.owner, ∀ session ∈ coordinator.session, session = owner) :
    Holds (coordinator.callHost delivery sent frame) loose where
  placed ordinal := by
    have placed := holds.placed ordinal
    have underway : (coordinator.callHost delivery sent frame).underway = frame.held ++ coordinator.underway := rfl
    rw [timesIn_append] at placed
    rw [places, underway, timesIn_append]
    rw [places] at placed
    show coordinator.handed.count ordinal + timesIn coordinator.pending ordinal + _ + _ + _ =
      if ordinal < coordinator.issued then 1 else 0
    rw [← placed]
    show _ + timesIn (coordinator.dropped.map Drop.delivery) ordinal + _ = _
    omega
  allowed := holds.allowed
  rightful call there := by
    rcases List.mem_append.mp there with old | new
    · exact holds.rightful call old
    · rw [List.mem_singleton.mp new]
      exact rightful
  early other there := by
    refine holds.early other ?_
    have there : other ∈ coordinator.pending ++ (frame.held ++ coordinator.underway) ++ loose := there
    simp only [List.mem_append] at there ⊢
    tauto
  named := holds.named

theorem popped_holds {frame : Frame ρ} {stack : List (Frame ρ)} (holds : Holds coordinator [])
    (top : coordinator.stack = frame :: stack) : Holds (coordinator.popped stack) frame.held where
  placed ordinal := by
    have placed := holds.placed ordinal
    have underway : coordinator.underway = frame.held ++ (coordinator.popped stack).underway := by
      rw [DeliveryCoordinator.underway, top]
      rfl
    rw [places, underway, timesIn_append, timesIn_nil] at placed
    rw [places]
    show coordinator.handed.count ordinal + timesIn coordinator.pending ordinal + _ +
      timesIn (coordinator.dropped.map Drop.delivery) ordinal + _ =
      if ordinal < coordinator.issued then 1 else 0
    omega
  allowed := holds.allowed
  rightful := holds.rightful
  early other there := by
    refine holds.early other ?_
    have underway : coordinator.underway = frame.held ++ (coordinator.popped stack).underway := by
      rw [DeliveryCoordinator.underway, top]
      rfl
    have there : other ∈ coordinator.pending ++ (coordinator.popped stack).underway ++ frame.held := there
    rw [underway]
    simp only [List.mem_append] at there ⊢
    tauto
  named := holds.named

theorem taken_holds (holds : Holds coordinator (delivery :: loose)) : Holds (coordinator.taken delivery) loose where
  placed ordinal := by
    have placed := holds.placed ordinal
    rw [places, timesIn_cons] at placed
    rw [places]
    show (coordinator.handed ++ [delivery.ordinal]).count ordinal + timesIn coordinator.pending ordinal +
      timesIn coordinator.underway ordinal + timesIn (coordinator.dropped.map Drop.delivery) ordinal + _ =
      if ordinal < coordinator.issued then 1 else 0
    rw [List.count_append, List.count_singleton]
    simp only [beq_iff_eq]
    omega
  allowed := holds.allowed
  rightful := holds.rightful
  early other there := by
    refine holds.early other ?_
    have there : other ∈ coordinator.pending ++ coordinator.underway ++ loose := there
    simp only [List.mem_append, List.mem_cons] at there ⊢
    tauto
  named := holds.named

theorem dropped_holds {drop : Drop ρ} (holds : Holds coordinator (drop.delivery :: loose)) (allowed : drop.Allowed) :
    Holds { coordinator with dropped := coordinator.dropped ++ [drop] } loose where
  placed ordinal := by
    have placed := holds.placed ordinal
    rw [places, timesIn_cons] at placed
    rw [places]
    show coordinator.handed.count ordinal + timesIn coordinator.pending ordinal + timesIn coordinator.underway ordinal +
      timesIn ((coordinator.dropped ++ [drop]).map Drop.delivery) ordinal + _ =
      if ordinal < coordinator.issued then 1 else 0
    rw [List.map_append, timesIn_append, List.map_singleton, timesIn_cons, timesIn_nil]
    omega
  allowed other there := by
    rcases List.mem_append.mp there with old | new
    · exact holds.allowed other old
    · exact List.mem_singleton.mp new ▸ allowed
  rightful := holds.rightful
  early other there := by
    refine holds.early other ?_
    have there : other ∈ coordinator.pending ++ coordinator.underway ++ loose := there
    simp only [List.mem_append, List.mem_cons] at there ⊢
    tauto
  named := holds.named

theorem requeued_holds {pending : List (PendingDelivery ρ)} {drops : List (Drop ρ)} (flushing : Bool)
    (holds : Holds coordinator loose)
    (perm : (pending ++ drops.map Drop.delivery).Perm (coordinator.pending ++ loose))
    (allowed : ∀ drop ∈ drops, drop.Allowed) :
    Holds { coordinator with
      pending := pending, dropped := coordinator.dropped ++ drops, flushing := flushing } [] where
  placed ordinal := by
    have placed := holds.placed ordinal
    have moved : timesIn (pending ++ drops.map Drop.delivery) ordinal =
        timesIn (coordinator.pending ++ loose) ordinal := (perm.map _).count_eq ordinal
    rw [timesIn_append, timesIn_append] at moved
    rw [places] at placed
    rw [places]
    show coordinator.handed.count ordinal + timesIn pending ordinal + timesIn coordinator.underway ordinal +
      timesIn ((coordinator.dropped ++ drops).map Drop.delivery) ordinal + 0 =
      if ordinal < coordinator.issued then 1 else 0
    rw [List.map_append, timesIn_append]
    omega
  allowed other there := by
    rcases List.mem_append.mp there with old | new
    · exact holds.allowed other old
    · exact allowed other new
  rightful := holds.rightful
  early other there := by
    refine holds.early other ?_
    have there : other ∈ pending ++ coordinator.underway ++ [] := there
    rw [List.append_nil, List.mem_append] at there
    rcases there with queued | held
    · have moved := perm.mem_iff.mp (List.mem_append_left _ queued)
      rw [List.mem_append] at moved
      simp only [List.mem_append]
      tauto
    · exact List.mem_append_left _ (List.mem_append_right _ held)
  named := holds.named

end

section

open DeliveryCoordinator

theorem rightful_of_not_foreign (holds : Holds coordinator loose)
    (native : coordinator.foreign delivery = false) :
    ∀ owner ∈ delivery.owner, ∀ session ∈ coordinator.session, session = owner := by
  intro owner owned session active
  unfold DeliveryCoordinator.session at active
  split_ifs at active with on
  · obtain ⟨named, known, nonempty⟩ := holds.named on
    have same : named = session := Option.some.inj (known.symm.trans active)
    unfold DeliveryCoordinator.foreign at native
    rw [show delivery.owner = some owner from owned, known,
      Option.filter_some_pos (by simpa using nonempty)] at native
    exact same ▸ (not_not.mp (of_decide_eq_false native)).symm
  · cases active

theorem refreshed_holds (holds : Holds coordinator (delivery :: (rest ++ retryLater))) :
    Holds coordinator (rest ++ (retryLater ++ [coordinator.refreshed delivery])) := by
  have renewed : Holds coordinator (coordinator.refreshed delivery :: (rest ++ retryLater)) :=
    holds.renewed rfl fun generation same => Nat.le_of_eq (Option.some.inj same).symm
  refine renewed.perm ?_
  rw [← List.append_assoc]
  exact List.perm_append_singleton _ (rest ++ retryLater)

/-- **The flush** hands on, drops or keeps what it has taken from the queue. -/
theorem flushLoop_holds (rest retryLater : List (PendingDelivery ρ)) (coordinator : DeliveryCoordinator ρ)
    (holds : Holds coordinator (rest ++ retryLater)) : Holds (flushLoop rest retryLater coordinator) [] := by
  induction rest generalizing retryLater coordinator with
  | nil =>
    have back : (retryLater ++ coordinator.pending ++ ([] : List (Drop ρ)).map Drop.delivery).Perm
        (coordinator.pending ++ retryLater) := by
      rw [List.map_nil, List.append_nil]
      exact List.perm_append_comm
    have requeued := requeued_holds false holds back nofun
    rw [List.append_nil] at requeued
    exact requeued
  | cons delivery rest ih =>
    have later : (rest ++ (retryLater ++ [delivery])).Perm (delivery :: rest ++ retryLater) := by
      rw [← List.append_assoc]
      exact List.perm_append_singleton delivery (rest ++ retryLater)
    rw [flushLoop]
    by_cases foreign : coordinator.foreign delivery = true
    · rw [if_pos foreign]
      exact ih _ _ (holds.perm later)
    rw [if_neg foreign]
    by_cases stale : coordinator.stale delivery = true
    · rw [if_pos stale]
      refine ih _ _ (dropped_holds holds ?_)
      unfold DeliveryCoordinator.stale at stale
      split at stale
      · rename_i message steer
        obtain ⟨early, generation, differs⟩ := (Option.any_eq_true _ _).mp stale
        have before := holds.early delivery (List.mem_append_right _ List.mem_cons_self) early generation
        exact ⟨⟨message, steer⟩, early, Nat.lt_of_le_of_ne before (of_decide_eq_true differs), generation⟩
      all_goals exact absurd stale Bool.false_ne_true
    rw [if_neg stale]
    split_ifs
    · have kept : Holds coordinator ((Frame.flush delivery rest retryLater).held ++ []) := by
        rw [List.append_nil]
        exact holds
      exact callHost_holds kept (rightful_of_not_foreign holds (Bool.eq_false_iff.mpr foreign))
    · exact ih _ _ (refreshed_holds holds)

/-- **The queue takes a delivery**, and drops the oldest over the cap. -/
theorem enqueue_holds (holds : Holds coordinator [delivery]) : Holds (coordinator.enqueue delivery) [] := by
  let queued : PendingDelivery ρ := { delivery with generation := some coordinator.generation }
  have renewed : Holds coordinator [queued] := holds.renewed rfl fun generation same =>
    Nat.le_of_eq (Option.some.inj same).symm
  refine requeued_holds coordinator.flushing renewed ?_ fun drop there => ?_
  · rw [List.map_map]
    show (List.drop _ _ ++ (List.take _ _).map id).Perm _
    rw [List.map_id]
    refine List.perm_append_comm.trans ?_
    rw [List.take_append_drop]
  · obtain ⟨oldest, dropped, rfl⟩ := List.mem_map.mp there
    show maxPending < (coordinator.pending ++ [queued]).length
    by_contra within
    have none : (coordinator.pending ++ [queued]).length - maxPending = 0 :=
      Nat.sub_eq_zero_of_le (Nat.not_lt.mp within)
    rw [none] at dropped
    exact List.not_mem_nil dropped

theorem keepUndelivered_holds (now : Nat) (holds : Holds coordinator [delivery])
    (idle : coordinator.flushing = false) : Holds (coordinator.keepUndelivered delivery now) [] := by
  rw [keepUndelivered, idle, if_neg Bool.false_ne_true]
  refine enqueue_holds (holds.renewed rfl fun generation same => ?_)
  exact holds.early delivery (List.mem_append_right _ List.mem_cons_self) generation same

end

section

open DeliveryCoordinator

def DeliveryCoordinator.MayTell (coordinator : DeliveryCoordinator ρ) (delivery : PendingDelivery ρ) : Prop :=
  coordinator.deps.event delivery.payload ≠ none →
    ∀ owner ∈ delivery.owner, ∀ session ∈ coordinator.session, session = owner

/-- **A delivery can be made**: it names no other session than the active one, if it is handed on at once,
and else no flush is running. -/
def DeliveryCoordinator.MayDeliver (coordinator : DeliveryCoordinator ρ) (payload : Payload ρ)
    (ownerSessionId : Option String) : Prop :=
  if coordinator.active && coordinator.deps.take payload then
    ∀ owner ∈ ownerSessionId.filter (· ≠ ""), ∀ session ∈ coordinator.session, session = owner
  else coordinator.flushing = false

/-- **A step of a regular run**: a session has an id, as the callers of `activate` see to; a direct delivery
names no other session than the active one; no delivery that is made during a flush fails; and a callback
that takes a notification does not switch to a session that does not own it. -/
def Regular (coordinator : DeliveryCoordinator ρ) : Step ρ → Prop
  | .activate sessionId => sessionId ≠ ""
  | .deliverResult _ result owner _ => coordinator.MayDeliver (.result result) owner
  | .deliverNotification notification owner _ => coordinator.MayDeliver (.notification notification) owner
  | .deliverSteer _ message owner _ => coordinator.MayDeliver (.steer message) owner
  | .returned =>
    match coordinator.stack with
    | .direct delivery :: _ | .flush delivery _ _ :: _ => coordinator.MayTell delivery
    | [] | .event _ :: _ | .flushEvent _ _ _ :: _ => True
  | .threw _ =>
    match coordinator.stack with
    | .direct _ :: _ => coordinator.flushing = false
    | [] | .flush _ _ _ :: _ | .event _ :: _ | .flushEvent _ _ _ :: _ => True
  | .deactivate | .flushQueuedResults | .evictExpired _ => True

section

variable (holds : Holds coordinator [])

include holds

theorem deliver_holds (runId : String) (payload : Payload ρ)
    (owner : Option String) (now : Nat) (may : coordinator.MayDeliver payload owner) :
    Holds (coordinator.deliver runId payload owner now) [] := by
  have issued : ∀ delivery : PendingDelivery ρ, delivery.ordinal = coordinator.issued →
      delivery.generation = none → Holds { coordinator with issued := coordinator.issued + 1 } [delivery] := by
    intro delivery number fresh
    refine { holds with placed := fun ordinal => ?_, early := fun other there => ?_ }
    · have placed := holds.placed ordinal
      rw [timesIn_nil] at placed
      rw [timesIn_cons, timesIn_nil, number]
      show coordinator.places ordinal + _ = if ordinal < coordinator.issued + 1 then 1 else 0
      split_ifs at placed ⊢ <;> omega
    · rcases List.mem_append.mp there with old | new
      · exact holds.early other (List.mem_append_left _ old)
      · rw [List.mem_singleton.mp new, fresh]
        exact nofun
  unfold deliver
  unfold DeliveryCoordinator.MayDeliver at may
  dsimp only
  split_ifs at may ⊢
  · exact callHost_holds (issued _ rfl rfl) may
  · exact keepUndelivered_holds now (issued _ rfl rfl) may

theorem flushQueuedResults_holds : Holds coordinator.flushQueuedResults [] := by
  unfold flushQueuedResults
  split_ifs
  · exact holds
  · exact holds
  · refine flushLoop_holds _ _ _ { holds with placed := fun ordinal => ?_, early := fun other there => ?_ }
    · have placed := holds.placed ordinal
      rw [places, timesIn_nil] at placed
      rw [places, List.append_nil]
      show coordinator.handed.count ordinal + 0 + timesIn coordinator.underway ordinal +
        timesIn (coordinator.dropped.map Drop.delivery) ordinal + timesIn coordinator.pending ordinal =
        if ordinal < coordinator.issued then 1 else 0
      omega
    · refine holds.early other ?_
      have there : other ∈ [] ++ coordinator.underway ++ (coordinator.pending ++ []) := there
      simp only [List.mem_append, List.not_mem_nil, false_or, or_false] at there ⊢
      exact there.symm

theorem activate_holds {sessionId : String} (nonempty : sessionId ≠ "") :
    Holds (coordinator.activate sessionId) [] :=
  flushQueuedResults_holds { holds with named := fun _ => ⟨sessionId, rfl, nonempty⟩ }

theorem deactivate_holds : Holds coordinator.deactivate [] := { holds with
    early := fun other there generation same => Nat.le_succ_of_le (holds.early other there generation same)
    named := nofun }

theorem evictExpired_holds (now : Nat) : Holds (coordinator.evictExpired now) [] := by
  refine requeued_holds coordinator.flushing holds ?_ fun drop there => ?_
  · rw [List.map_map, List.append_nil]
    show (_ ++ (List.filter _ _).map id).Perm _
    rw [List.map_id]
    exact List.filter_append_perm _ _
  · obtain ⟨delivery, expired, rfl⟩ := List.mem_map.mp there
    have late := (List.mem_filter.mp expired).2
    exact Nat.not_lt.mp (of_decide_eq_false (Bool.not_eq_true' _ ▸ late))

end

theorem told_holds (holds : Holds coordinator (delivery :: loose)) (may : coordinator.MayTell delivery)
    {sent : Sent ρ} (event : coordinator.deps.event delivery.payload = some sent) {frame : Frame ρ}
    (kept : frame.held = loose) : Holds ((coordinator.taken delivery).callHost delivery sent frame) [] := by
  have taken : Holds (coordinator.taken delivery) (frame.held ++ []) := by
    rw [kept, List.append_nil]
    exact taken_holds holds
  exact callHost_holds taken (may (by rw [event]; exact nofun))

theorem returned_holds (holds : Holds coordinator []) (regular : Regular coordinator .returned) :
    Holds coordinator.returned [] := by
  unfold DeliveryCoordinator.returned
  cases top : coordinator.stack with
  | nil => exact holds
  | cons frame stack =>
    have back := popped_holds holds top
    have may : match frame with
        | .direct delivery | .flush delivery _ _ => coordinator.MayTell delivery
        | .event _ | .flushEvent _ _ _ => True := by
      unfold Regular at regular
      rw [top] at regular
      cases frame <;> exact regular
    cases frame with
    | direct delivery =>
      dsimp only
      cases event : coordinator.deps.event delivery.payload with
      | none => exact taken_holds back
      | some sent => exact told_holds back may event rfl
    | event delivery => exact back
    | flush delivery rest retryLater =>
      dsimp only
      cases event : coordinator.deps.event delivery.payload with
      | none => exact flushLoop_holds _ _ _ (taken_holds back)
      | some sent => exact told_holds back may event rfl
    | flushEvent delivery rest retryLater => exact flushLoop_holds _ _ _ back

theorem threw_holds (holds : Holds coordinator []) (now : Nat) (regular : Regular coordinator (.threw now)) :
    Holds (coordinator.threw now) [] := by
  unfold DeliveryCoordinator.threw
  cases top : coordinator.stack with
  | nil => exact holds
  | cons frame stack =>
    have back := popped_holds holds top
    cases frame with
    | direct delivery =>
      unfold Regular at regular
      rw [top] at regular
      exact keepUndelivered_holds now back regular
    | event delivery => exact back
    | flush delivery rest retryLater => exact flushLoop_holds _ _ _ (refreshed_holds back)
    | flushEvent delivery rest retryLater => exact flushLoop_holds _ _ _ back

theorem step_holds (coordinator : DeliveryCoordinator ρ) (step : Step ρ) (holds : Holds coordinator [])
    (regular : Regular coordinator step) : Holds (coordinator.step step) [] := by
  cases step with
  | activate sessionId => exact activate_holds holds regular
  | deactivate => exact deactivate_holds holds
  | flushQueuedResults => exact flushQueuedResults_holds holds
  | deliverResult runId result owner now | deliverNotification notification owner now
  | deliverSteer runId message owner now => exact deliver_holds holds _ _ _ _ regular
  | returned => exact returned_holds holds regular
  | threw now => exact threw_holds holds now regular
  | evictExpired now =>
    rw [DeliveryCoordinator.step]
    split_ifs
    · exact evictExpired_holds holds now
    · exact holds

end

def DeliveryCoordinator.new (deps : DeliveryCoordinatorDeps) : DeliveryCoordinator ρ := { deps := deps }

theorem new_holds (deps : DeliveryCoordinatorDeps) : Holds (.new deps : DeliveryCoordinator ρ) [] where
  placed _ := rfl
  allowed := List.forall_mem_nil _
  rightful := List.forall_mem_nil _
  early := List.forall_mem_nil _
  named := nofun

/-- **The coordinator keeps its promise in every regular run**, whatever its callbacks do: they may throw,
and call it again while a flush is running. -/
theorem delivered_of_regular (deps : DeliveryCoordinatorDeps) (steps : List (Step ρ))
    (regular : ∀ taken ∈ transitions DeliveryCoordinator.step (.new deps) steps,
      Regular taken.before taken.action) :
    Delivered (finish DeliveryCoordinator.step (.new deps) steps) :=
  (finish_guarded DeliveryCoordinator.step step_holds (new_holds deps) regular).delivered

def retriedRun : List (Step String) :=
  [.deliverResult "r" "done" (some "a") 0, .activate "a", .activate "a", .threw 1, .activate "a", .returned]

theorem retried_delivered : Delivered (finish DeliveryCoordinator.step (.new {}) retriedRun) := by
  have named : "a" ≠ "" := by decide
  refine delivered_of_regular {} retriedRun fun taken member => ?_
  simp only [retriedRun, transitions, List.mem_cons, List.not_mem_nil, or_false] at member
  rcases member with rfl | rfl | rfl | rfl | rfl | rfl
  · rfl
  · exact named
  · exact named
  · trivial
  · exact named
  · exact fun event => absurd rfl event

def foreignRun : List (Step String) := [.activate "b", .deliverResult "r" "done" (some "a") 0]

def lostRun : List (Step String) :=
  [.deliverResult "r" "first" none 0, .activate "a", .deliverResult "r" "second" none 1, .threw 2, .returned]

/-- **Neither promise is kept in every run.** -/
theorem foreign_and_lost :
    ¬ Delivered (finish DeliveryCoordinator.step (.new {}) foreignRun) ∧
      ¬ Delivered (finish DeliveryCoordinator.step (.new {}) lostRun) := by
  constructor
  · intro delivered
    have wrong := delivered.rightful
      { delivery := { ordinal := 0, runId := "r", payload := .result "done", timestamp := 0,
                      ownerSessionId := some "a" }
        sent := .runResult "done", session := some "b" } (by decide) "a" (by decide) "b" rfl
    exact absurd wrong (by decide)
  · intro delivered
    exact absurd (delivered.once 1 (by decide)) (by decide)

end PiCrew.Delivery
