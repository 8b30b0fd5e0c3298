/-
**The anchors of sessions stay reachable.**

Beside the manager runs a record of what each session may expect: its anchor is the one that was set last,
until that anchor is gone, and the handoffs of that anchor are those that came since. The manager agrees
with it as long as an anchor that goes takes no entry of another anchor with it. It does so where a session
sets a second anchor: the entry is the second one's, and the first one deletes it when it is cleared,
expires or is evicted. The eviction for an implicit anchor leaves an entry behind instead.

* `Agrees` — the manager agrees with the expectation;
* `kept_of_tidy` — in every tidy run, sessions get what they expect;
* `second_anchor_lost` — a run in which a session loses its second anchor with the first.
-/

import PiCrew.Handoffs.Anchors
import Mathlib.Data.List.Nodup

namespace PiCrew.Handoffs

open Runs

variable {manager next : AnchorManager}

/-- **What sessions may expect**: the anchor that a session has set last, if it is still there, and the
handoffs that have come since. -/
structure Expectation where
  latest : String → Option String := fun _ => none
  received : String → List HandoffSummary := fun _ => []

def Expectation.surviving (expectation : Expectation) (next : AnchorManager) : Expectation :=
  { expectation with
    latest := fun sessionId => (expectation.latest sessionId).filter fun id => (next.anchorOf id).isSome }

def Expectation.renewed (expectation : Expectation) (sessionId anchorId : String)
    (received : List HandoffSummary) : Expectation where
  latest := Function.update expectation.latest sessionId (some anchorId)
  received := Function.update expectation.received sessionId received

def Expectation.given (expectation : Expectation) (anchorId : String) (handoff : HandoffSummary) :
    Expectation :=
  { expectation with
    received := fun sessionId =>
      if expectation.latest sessionId = some anchorId then expectation.received sessionId ++ [handoff]
      else expectation.received sessionId }

/-- **What an operation changes**, with the manager that it leads to. -/
def Expectation.after (expectation : Expectation) (next : AnchorManager) : Operation → Expectation
  | .setAnchor sessionId generated _ _ => (expectation.surviving next).renewed sessionId generated []
  | .accumulateHandoff anchorId handoff _ => (expectation.given anchorId handoff).surviving next
  | .accumulateHandoffBySession sessionId handoff generated _ _ =>
    match expectation.latest sessionId with
    | none => (expectation.surviving next).renewed sessionId generated [handoff]
    | some anchorId => (expectation.given anchorId handoff).surviving next
  | .getAnchor _ _ | .clearAnchor _ _ | .clearAnchorBySession _ _ => expectation.surviving next

structure Observed where
  manager : AnchorManager := {}
  expectation : Expectation := {}

def Observed.step (observed : Observed) (operation : Operation) : Observed where
  manager := observed.manager.step operation
  expectation := observed.expectation.after (observed.manager.step operation) operation

def recent (handoffs : List HandoffSummary) : List HandoffSummary :=
  handoffs.drop (handoffs.length - maxHandoffsPerAnchor)

def TidyExpiry (manager : AnchorManager) (now : Nat) : Prop :=
  ∀ anchor ∈ manager.anchors, anchor.expired now → ∀ id ∈ manager.sessionAnchors anchor.sessionId,
    ∃ current ∈ manager.anchors, current.id = id ∧ current.expired now

def TidyDrop (manager : AnchorManager) (anchor : Anchor) : Prop :=
  ∀ id ∈ manager.sessionAnchors anchor.sessionId, id = anchor.id

/-- An anchor can be set: its id is new, and what is evicted is tidy. -/
def MaySet (manager : AnchorManager) (generated : String) (now : Nat) : Prop :=
  manager.anchorOf generated = none ∧ TidyExpiry manager now ∧
    (maxAnchors ≤ (manager.evictExpiredAnchors now).anchors.length →
      ∀ anchor ∈ (manager.evictExpiredAnchors now).oldest, TidyDrop (manager.evictExpiredAnchors now) anchor)

def TidyRoom (manager : AnchorManager) : Prop := maxAnchorsImplicit ≤ manager.anchors.length →
    ∀ first ∈ manager.anchors.head?, ∀ sessionId, manager.sessionAnchors sessionId ≠ some first.id

/-- **A tidy operation**: an anchor that goes takes its own entry with it, and no other one, and a
generated id is new. -/
def Tidy (manager : AnchorManager) : Operation → Prop
  | .setAnchor _ generated now _ => MaySet manager generated now
  | .getAnchor _ now => TidyExpiry manager now
  | .accumulateHandoff anchorId _ _ => manager.anchorOf anchorId = none → TidyRoom manager
  | .accumulateHandoffBySession sessionId _ generated now _ =>
    manager.sessionAnchors sessionId = none → MaySet manager generated now
  | .clearAnchor anchorId _ => ∀ anchor ∈ manager.anchorOf anchorId, anchor.handoffs ≠ [] → TidyDrop manager anchor
  | .clearAnchorBySession _ _ => True

section

/-- **The manager agrees with what is expected of it.** -/
structure Agrees (manager : AnchorManager) (expectation : Expectation) : Prop where
  ids : (manager.anchors.map (·.id)).Nodup
  same : ∀ sessionId, manager.sessionAnchors sessionId = expectation.latest sessionId
  own : ∀ sessionId id, expectation.latest sessionId = some id → ∃ anchor ∈ manager.anchors,
    anchor.id = id ∧ anchor.sessionId = sessionId ∧ anchor.handoffs = recent (expectation.received sessionId)

variable {expectation : Expectation}

variable {anchor : Anchor} {id : String}

theorem anchorOf_of_mem (ids : (manager.anchors.map (·.id)).Nodup)
    (there : anchor ∈ manager.anchors) : manager.anchorOf anchor.id = some anchor := by
  have found : (manager.anchorOf anchor.id).isSome :=
    List.find?_isSome.mpr ⟨anchor, there, beq_self_eq_true _⟩
  obtain ⟨other, found⟩ := Option.isSome_iff_exists.mp found
  have same : other.id = anchor.id := beq_iff_eq.mp
    (List.find?_some (p := fun other : Anchor => other.id == anchor.id) found)
  rw [found, List.inj_on_of_nodup_map ids (List.mem_of_find?_eq_some found) there same]

theorem anchorOf_isSome :
    (manager.anchorOf id).isSome ↔ ∃ anchor ∈ manager.anchors, anchor.id = id := by
  simp [AnchorManager.anchorOf, List.find?_isSome]

theorem surviving_surviving {middle : AnchorManager}
    (fewer : ∀ id, (next.anchorOf id).isSome → (middle.anchorOf id).isSome) :
    (expectation.surviving middle).surviving next = expectation.surviving next := by
  unfold Expectation.surviving
  congr 1
  funext sessionId
  dsimp only
  rw [Option.filter_filter]
  congr 1
  funext id
  cases still : (next.anchorOf id).isSome with
  | false => exact Bool.and_false _
  | true => rw [Bool.and_true, fewer id still]

theorem removed_agrees (agrees : Agrees manager expectation) (keep : Anchor → Bool)
    {entries : String → Option String}
    (tidy : ∀ anchor ∈ manager.anchors, manager.sessionAnchors anchor.sessionId = some anchor.id →
      entries anchor.sessionId = if keep anchor then some anchor.id else none)
    (absent : ∀ sessionId, manager.sessionAnchors sessionId = none → entries sessionId = none) :
    Agrees { anchors := manager.anchors.filter keep, sessionAnchors := entries }
      (expectation.surviving { anchors := manager.anchors.filter keep, sessionAnchors := entries }) := by
  have still : ∀ anchor ∈ manager.anchors,
      (AnchorManager.anchorOf { anchors := manager.anchors.filter keep, sessionAnchors := entries }
        anchor.id).isSome = keep anchor := by
    intro anchor there
    rw [Bool.eq_iff_iff, anchorOf_isSome]
    refine ⟨fun ⟨other, kept, same⟩ => ?_, fun kept => ⟨anchor, List.mem_filter.mpr ⟨there, kept⟩, rfl⟩⟩
    obtain ⟨was, kept⟩ := List.mem_filter.mp kept
    exact List.inj_on_of_nodup_map agrees.ids was there same ▸ kept
  refine ⟨(List.filter_sublist.map _).nodup agrees.ids, fun sessionId => ?_, fun sessionId id latest => ?_⟩
  · show entries sessionId = (expectation.latest sessionId).filter _
    cases latest : expectation.latest sessionId with
    | none => exact absent sessionId ((agrees.same sessionId).trans latest)
    | some id =>
      obtain ⟨anchor, there, rfl, rfl, -⟩ := agrees.own sessionId id latest
      rw [tidy anchor there ((agrees.same _).trans latest), Option.filter, still anchor there]
  · obtain ⟨latest, kept⟩ := Option.filter_eq_some_iff.mp latest
    obtain ⟨anchor, there, rfl, mine, handoffs⟩ := agrees.own sessionId id latest
    rw [still anchor there] at kept
    exact ⟨anchor, List.mem_filter.mpr ⟨there, kept⟩, rfl, mine, handoffs⟩

theorem drop_agrees (agrees : Agrees manager expectation) (there : anchor ∈ manager.anchors)
    (tidy : TidyDrop manager anchor) :
    Agrees (manager.drop anchor) (expectation.surviving (manager.drop anchor)) := by
  refine removed_agrees agrees _ (fun other member entry => ?_) fun sessionId none => ?_
  · by_cases same : other.id = anchor.id
    · have this : other = anchor := List.inj_on_of_nodup_map agrees.ids member there same
      rw [this, Function.update_self]
      simp
    · rw [if_pos (by simpa using same), Function.update_of_ne, entry]
      intro session
      exact same (tidy other.id (session ▸ entry))
  · by_cases mine : sessionId = anchor.sessionId
    · rw [mine, Function.update_self]
    · rw [Function.update_of_ne mine, none]

theorem evictExpiredAnchors_agrees (agrees : Agrees manager expectation) (now : Nat)
    (tidy : TidyExpiry manager now) :
    Agrees (manager.evictExpiredAnchors now) (expectation.surviving (manager.evictExpiredAnchors now)) := by
  refine removed_agrees agrees _ (fun anchor there entry => ?_) fun sessionId none => ?_
  · by_cases expired : anchor.expired now = true
    · rw [if_pos, expired]
      · rfl
      · exact List.any_eq_true.mpr ⟨anchor, there, by rw [expired, beq_self_eq_true]; rfl⟩
    · rw [if_neg, entry, Bool.eq_false_iff.mpr expired]
      · rfl
      · intro any
        obtain ⟨other, member, both⟩ := List.any_eq_true.mp any
        obtain ⟨lapsed, session⟩ := (Bool.and_eq_true _ _).mp both
        obtain ⟨current, known, same, gone⟩ :=
          tidy other member lapsed anchor.id ((beq_iff_eq.mp session).symm ▸ entry)
        exact expired (List.inj_on_of_nodup_map agrees.ids known there same ▸ gone)
  · split_ifs
    · rfl
    · exact none

theorem foldl_pick {pick : Option Anchor → Anchor → Option Anchor}
    (either : ∀ known anchor, pick known anchor = known ∨ pick known anchor = some anchor) {found : Anchor} :
    ∀ (anchors : List Anchor) (known : Option Anchor),
      anchors.foldl pick known = some found → found ∈ anchors ∨ known = some found := by
  intro anchors
  induction anchors with
  | nil => exact fun known same => Or.inr same
  | cons first rest ih =>
    intro known same
    rcases ih _ same with later | now
    · exact Or.inl (List.mem_cons_of_mem _ later)
    · rcases either known first with kept | taken
      · exact Or.inr (kept.symm.trans now)
      · exact Or.inl (Option.some.inj (taken.symm.trans now) ▸ List.mem_cons_self)

theorem oldest_mem (oldest : manager.oldest = some anchor) : anchor ∈ manager.anchors := by
  refine (foldl_pick (fun known other => ?_) manager.anchors none oldest).resolve_right nofun
  cases known with
  | none => exact Or.inr rfl
  | some known =>
    dsimp only
    split_ifs
    · exact Or.inr rfl
    · exact Or.inl rfl

theorem surviving_congr {middle : AnchorManager}
    (same : ∀ sessionId id, expectation.latest sessionId = some id →
      (next.anchorOf id).isSome = (middle.anchorOf id).isSome) :
    expectation.surviving next = expectation.surviving middle := by
  unfold Expectation.surviving
  congr 1
  funext sessionId
  cases latest : expectation.latest sessionId with
  | none => rfl
  | some id => rw [Option.filter_some, Option.filter_some, same sessionId id latest]

theorem Agrees.surviving_eq (agrees : Agrees manager expectation)
    (still : ∀ id, (manager.anchorOf id).isSome → (next.anchorOf id).isSome) :
    expectation.surviving next = expectation := by
  show (⟨fun _ => _, _⟩ : Expectation) = _
  congr 1
  funext sessionId
  cases latest : expectation.latest sessionId with
  | none => rfl
  | some id =>
    obtain ⟨anchor, there, same, -⟩ := agrees.own sessionId id latest
    exact Option.filter_some_pos (still id (anchorOf_isSome.mpr ⟨anchor, there, same⟩))

theorem given_of_absent (absent : ∀ sessionId, expectation.latest sessionId ≠ some id)
    (handoff : HandoffSummary) : expectation.given id handoff = expectation := by
  show (⟨_, fun sessionId => _⟩ : Expectation) = _
  congr 1
  funext sessionId
  exact if_neg (absent sessionId)

theorem Agrees.absent (agrees : Agrees manager expectation) (new : manager.anchorOf id = none)
    (sessionId : String) : expectation.latest sessionId ≠ some id := by
  intro latest
  obtain ⟨anchor, there, same, -⟩ := agrees.own sessionId id latest
  have found := anchorOf_isSome.mpr ⟨anchor, there, same⟩
  rw [new] at found
  cases found

theorem evict_agrees (agrees : Agrees manager expectation) {generated : String} {now : Nat}
    (may : MaySet manager generated now) :
    Agrees (manager.evict now) (expectation.surviving (manager.evict now)) ∧
      (manager.evict now).anchors.Sublist manager.anchors := by
  obtain ⟨-, expiry, oldest⟩ := may
  have unexpired := evictExpiredAnchors_agrees agrees now expiry
  have fewer : (manager.evictExpiredAnchors now).anchors.Sublist manager.anchors := List.filter_sublist
  unfold AnchorManager.evict
  dsimp only
  split_ifs with full
  · unfold AnchorManager.evictOldestAnchor
    cases found : (manager.evictExpiredAnchors now).oldest with
    | none => exact ⟨unexpired, fewer⟩
    | some anchor =>
      dsimp only
      split_ifs
      · exact ⟨unexpired, fewer⟩
      · have dropped := drop_agrees unexpired (oldest_mem found) (oldest full anchor found)
        rw [surviving_surviving] at dropped
        · exact ⟨dropped, List.filter_sublist.trans fewer⟩
        · intro id still
          obtain ⟨other, there, same⟩ := anchorOf_isSome.mp still
          exact anchorOf_isSome.mpr ⟨other, List.mem_of_mem_filter there, same⟩
  · exact ⟨unexpired, fewer⟩

theorem anchorOf_fewer (new : manager.anchorOf id = none)
    (fewer : next.anchors.Sublist manager.anchors) : next.anchorOf id = none := by
  rw [← Option.not_isSome_iff_eq_none, anchorOf_isSome] at new ⊢
  exact fun ⟨anchor, there, same⟩ => new ⟨anchor, fewer.subset there, same⟩

theorem anchorOf_added (differs : id ≠ anchor.id) (added : next.anchors = manager.anchors ++ [anchor]) :
    (next.anchorOf id).isSome = (manager.anchorOf id).isSome := by
  simp [AnchorManager.anchorOf, added, List.find?_append, differs.symm]

theorem put_of_new (new : manager.anchorOf anchor.id = none) :
    manager.put anchor = manager.anchors ++ [anchor] := by
  rw [AnchorManager.put, new]
  rfl

theorem implicit_agrees (agrees : Agrees manager expectation)
    (new : manager.anchorOf anchor.id = none) :
    Agrees { manager with anchors := manager.anchors ++ [anchor] } expectation := by
  refine ⟨?_, agrees.same, fun sessionId id latest => ?_⟩
  · rw [List.map_append, List.nodup_append]
    refine ⟨agrees.ids, List.nodup_singleton _, fun id there other same => ?_⟩
    rintro rfl
    obtain ⟨old, member, mine⟩ := List.mem_map.mp there
    have found := anchorOf_isSome.mpr ⟨old, member, mine.trans (List.mem_singleton.mp same)⟩
    rw [new] at found
    cases found
  · obtain ⟨other, there, same⟩ := agrees.own sessionId id latest
    exact ⟨other, List.mem_append_left _ there, same⟩

theorem put_agrees (agrees : Agrees manager expectation) (new : manager.anchorOf anchor.id = none)
    (empty : anchor.handoffs = []) :
    Agrees { anchors := manager.put anchor
             sessionAnchors := Function.update manager.sessionAnchors anchor.sessionId (some anchor.id) }
      (expectation.renewed anchor.sessionId anchor.id []) := by
  have added := implicit_agrees agrees new
  rw [put_of_new new]
  refine ⟨added.ids, fun sessionId => ?_, fun sessionId id latest => ?_⟩
  · show Function.update _ _ _ _ = Function.update _ _ _ _
    rw [show manager.sessionAnchors = expectation.latest from funext agrees.same]
  · have latest : Function.update expectation.latest anchor.sessionId (some anchor.id) sessionId = some id := latest
    show ∃ other ∈ manager.anchors ++ [anchor], other.id = id ∧ other.sessionId = sessionId ∧
      other.handoffs = recent (Function.update expectation.received anchor.sessionId [] sessionId)
    by_cases mine : sessionId = anchor.sessionId
    · subst mine
      rw [Function.update_self] at latest ⊢
      exact ⟨anchor, List.mem_append_right _ List.mem_cons_self, Option.some.inj latest, rfl, empty⟩
    · rw [Function.update_of_ne mine] at latest ⊢
      exact added.own sessionId id latest

theorem setAnchor_agrees (agrees : Agrees manager expectation) (sessionId : String) {generated : String} {now : Nat}
    (createdAt : Nat) (may : MaySet manager generated now) :
    Agrees (manager.setAnchor sessionId generated now createdAt)
      ((expectation.surviving (manager.setAnchor sessionId generated now createdAt)).renewed sessionId generated []) := by
  obtain ⟨evicted, fewer⟩ := evict_agrees agrees may
  have new : (manager.evict now).anchorOf generated = none := anchorOf_fewer may.1 fewer
  have same : expectation.surviving (manager.setAnchor sessionId generated now createdAt) =
      expectation.surviving (manager.evict now) := by
    refine surviving_congr fun other id latest => ?_
    have differs : id ≠ generated := fun same => agrees.absent may.1 other (same ▸ latest)
    exact anchorOf_added differs (put_of_new new)
  rw [same]
  exact put_agrees evicted new rfl

end

section

variable {expectation : Expectation}

theorem push_recent {anchor : Anchor} {handoffs : List HandoffSummary} (handoff : HandoffSummary)
    (kept : anchor.handoffs = recent handoffs) : (anchor.push handoff).handoffs = recent (handoffs ++ [handoff]) := by
  show (if maxHandoffsPerAnchor ≤ anchor.handoffs.length then anchor.handoffs.tail else anchor.handoffs) ++ [handoff] = _
  rw [kept, recent, recent, List.length_drop, List.length_append, List.length_singleton]
  by_cases full : maxHandoffsPerAnchor ≤ handoffs.length
  · have more : handoffs.length + 1 - maxHandoffsPerAnchor = handoffs.length - maxHandoffsPerAnchor + 1 := by omega
    rw [if_pos (by omega), List.tail_drop, more, List.drop_append_of_le_length]
    have positive : 0 < maxHandoffsPerAnchor := by decide
    omega
  · have none : handoffs.length + 1 - maxHandoffsPerAnchor = 0 := by omega
    have fewer : handoffs.length - maxHandoffsPerAnchor = 0 := by omega
    rw [if_neg (by omega), none, fewer]
    rfl

def AnchorManager.pushed (manager : AnchorManager) (anchorId : String) (handoff : HandoffSummary) : AnchorManager :=
  { manager with
    anchors := manager.anchors.map fun anchor => if anchor.id = anchorId then anchor.push handoff else anchor }

theorem pushed_isSome (anchorId : String) (handoff : HandoffSummary) (id : String) :
    ((manager.pushed anchorId handoff).anchorOf id).isSome = (manager.anchorOf id).isSome := by
  have ids : ∀ anchor : Anchor, (if anchor.id = anchorId then anchor.push handoff else anchor).id = anchor.id :=
    fun anchor => by split_ifs <;> rfl
  rw [Bool.eq_iff_iff, anchorOf_isSome, anchorOf_isSome]
  constructor
  · rintro ⟨anchor, there, same⟩
    obtain ⟨old, member, rfl⟩ := List.mem_map.mp there
    exact ⟨old, member, (ids old).symm.trans same⟩
  · rintro ⟨anchor, there, same⟩
    exact ⟨_, List.mem_map_of_mem there, (ids anchor).trans same⟩

section

variable (agrees : Agrees manager expectation)

include agrees

theorem pushed_agrees (anchorId : String) (handoff : HandoffSummary) :
    Agrees (manager.pushed anchorId handoff) (expectation.given anchorId handoff) := by
  refine ⟨?_, agrees.same, fun sessionId id latest => ?_⟩
  · have same : (manager.pushed anchorId handoff).anchors.map (·.id) = manager.anchors.map (·.id) := by
      show (manager.anchors.map _).map _ = _
      rw [List.map_map]
      refine List.map_congr_left fun anchor _ => ?_
      show (if anchor.id = anchorId then anchor.push handoff else anchor).id = anchor.id
      split_ifs <;> rfl
    exact same ▸ agrees.ids
  · have latest : expectation.latest sessionId = some id := latest
    obtain ⟨anchor, there, rfl, rfl, handoffs⟩ := agrees.own sessionId id latest
    refine ⟨_, List.mem_map_of_mem there, ?_⟩
    show _ ∧ _ ∧ _ = recent (if expectation.latest anchor.sessionId = some anchorId then _ else _)
    by_cases mine : anchor.id = anchorId
    · rw [if_pos mine, if_pos (latest.trans (congrArg some mine))]
      exact ⟨rfl, rfl, push_recent handoff handoffs⟩
    · rw [if_neg mine, if_neg fun same => mine (Option.some.inj (latest.symm.trans same))]
      exact ⟨rfl, rfl, handoffs⟩

theorem makeRoom_agrees (tidy : TidyRoom manager) :
    Agrees manager.makeRoom (expectation.surviving manager.makeRoom) ∧
      manager.makeRoom.anchors.Sublist manager.anchors := by
  have stays : expectation.surviving manager = expectation := agrees.surviving_eq fun _ there => there
  unfold AnchorManager.makeRoom
  split_ifs with full
  · cases found : manager.anchors.head? with
    | none => exact ⟨stays.symm ▸ agrees, List.Sublist.refl _⟩
    | some first =>
      dsimp only
      split_ifs
      · exact ⟨stays.symm ▸ agrees, List.Sublist.refl _⟩
      · refine ⟨removed_agrees agrees _ (fun anchor _ entry => ?_) fun _ none => none, List.filter_sublist⟩
        have other : anchor.id ≠ first.id := fun same => tidy full first found anchor.sessionId (same ▸ entry)
        rw [if_pos (by simpa using other), entry]
  · exact ⟨stays.symm ▸ agrees, List.Sublist.refl _⟩

/-- **A handoff is accumulated.** -/
theorem accumulateHandoff_agrees (anchorId : String) (handoff : HandoffSummary)
    (createdAt : Nat) (tidy : manager.anchorOf anchorId = none → TidyRoom manager) :
    Agrees (manager.accumulateHandoff anchorId handoff createdAt)
      ((expectation.given anchorId handoff).surviving (manager.accumulateHandoff anchorId handoff createdAt)) := by
  cases found : manager.anchorOf anchorId with
  | some anchor =>
    have ensured : manager.ensure anchorId handoff.runId createdAt = manager := by
      rw [AnchorManager.ensure, found]
      rfl
    rw [AnchorManager.accumulateHandoff, ensured]
    have pushed := pushed_agrees agrees anchorId handoff
    have stays : (expectation.given anchorId handoff).surviving (manager.pushed anchorId handoff) =
        expectation.given anchorId handoff := pushed.surviving_eq fun _ there => there
    exact stays.symm ▸ pushed
  | none =>
    obtain ⟨room, fewer⟩ := makeRoom_agrees agrees (tidy found)
    have new : manager.makeRoom.anchorOf anchorId = none := anchorOf_fewer found fewer
    let implicit : Anchor := { id := anchorId, sessionId := handoff.runId, createdAt := createdAt }
    have made : Agrees { manager.makeRoom with anchors := manager.makeRoom.anchors ++ [implicit] }
        (expectation.surviving manager.makeRoom) := implicit_agrees room new
    have ensured : manager.ensure anchorId handoff.runId createdAt =
        { manager.makeRoom with anchors := manager.makeRoom.anchors ++ [implicit] } := by
      rw [AnchorManager.ensure, found]
      rfl
    have pushed := pushed_agrees made anchorId handoff
    rw [given_of_absent (room.absent new)] at pushed
    have accumulated : manager.accumulateHandoff anchorId handoff createdAt =
        AnchorManager.pushed { manager.makeRoom with anchors := manager.makeRoom.anchors ++ [implicit] }
          anchorId handoff := by
      rw [AnchorManager.accumulateHandoff, ensured]
      rfl
    have same : expectation.surviving (manager.accumulateHandoff anchorId handoff createdAt) =
        expectation.surviving manager.makeRoom := by
      refine surviving_congr fun sessionId id latest => ?_
      have differs : id ≠ anchorId := fun same => agrees.absent found sessionId (same ▸ latest)
      rw [accumulated, pushed_isSome]
      exact anchorOf_added differs rfl
    rw [given_of_absent (agrees.absent found), same, accumulated]
    exact pushed

end

theorem renewed_given {id : String} (absent : ∀ sessionId, expectation.latest sessionId ≠ some id)
    (sessionId : String) (handoff : HandoffSummary) :
    (expectation.renewed sessionId id []).given id handoff = expectation.renewed sessionId id [handoff] := by
  show (⟨_, fun other => _⟩ : Expectation) = _
  congr 1
  funext other
  show (if Function.update expectation.latest sessionId (some id) other = some id then
    Function.update expectation.received sessionId [] other ++ [handoff]
    else Function.update expectation.received sessionId [] other) = _
  by_cases mine : other = sessionId
  · subst mine
    rw [Function.update_self, if_pos rfl, Function.update_self, Function.update_self]
    rfl
  · rw [Function.update_of_ne mine, if_neg (absent other), Function.update_of_ne mine, Function.update_of_ne mine]

theorem accumulateHandoffNew_agrees (agrees : Agrees manager expectation) (sessionId : String)
    (handoff : HandoffSummary) {generated : String} {now : Nat} (createdAt : Nat)
    (may : MaySet manager generated now) :
    Agrees ((manager.setAnchor sessionId generated now createdAt).accumulateHandoff generated handoff createdAt)
      ((expectation.surviving ((manager.setAnchor sessionId generated now createdAt).accumulateHandoff generated
        handoff createdAt)).renewed sessionId generated [handoff]) := by
  let set := manager.setAnchor sessionId generated now createdAt
  have agreesSet : Agrees set ((expectation.surviving set).renewed sessionId generated []) :=
    setAnchor_agrees agrees sessionId createdAt may
  have there : (set.anchorOf generated).isSome := by
    obtain ⟨anchor, member, same, -⟩ := agreesSet.own sessionId generated (Function.update_self _ _ _)
    exact anchorOf_isSome.mpr ⟨anchor, member, same⟩
  have accumulated : set.accumulateHandoff generated handoff createdAt = set.pushed generated handoff := by
    rw [AnchorManager.accumulateHandoff, AnchorManager.ensure, if_pos there]
    rfl
  have survivors : expectation.surviving (set.pushed generated handoff) = expectation.surviving set :=
    surviving_congr fun _ id _ => pushed_isSome generated handoff id
  have absent : ∀ other, (expectation.surviving set).latest other ≠ some generated := fun other latest =>
    agrees.absent may.1 other (Option.filter_eq_some_iff.mp latest).1
  have pushed := pushed_agrees agreesSet generated handoff
  rw [renewed_given absent, ← survivors] at pushed
  exact accumulated.symm ▸ pushed

theorem accumulateHandoffBySession_agrees (agrees : Agrees manager expectation) (sessionId : String)
    (handoff : HandoffSummary) (generated : String) (now createdAt : Nat)
    (may : manager.sessionAnchors sessionId = none → MaySet manager generated now) :
    Agrees (manager.accumulateHandoffBySession sessionId handoff generated now createdAt)
      (expectation.after (manager.accumulateHandoffBySession sessionId handoff generated now createdAt)
        (.accumulateHandoffBySession sessionId handoff generated now createdAt)) := by
  cases entry : manager.sessionAnchors sessionId with
  | some anchorId =>
    have latest : expectation.latest sessionId = some anchorId := (agrees.same sessionId).symm.trans entry
    have accumulates : manager.accumulateHandoffBySession sessionId handoff generated now createdAt =
        manager.accumulateHandoff anchorId handoff createdAt := by
      rw [AnchorManager.accumulateHandoffBySession, entry]
    rw [accumulates, Expectation.after, latest]
    exact accumulateHandoff_agrees agrees anchorId handoff createdAt fun none =>
      absurd latest (agrees.absent none sessionId)
  | none =>
    have latest : expectation.latest sessionId = none := (agrees.same sessionId).symm.trans entry
    have accumulates : manager.accumulateHandoffBySession sessionId handoff generated now createdAt =
        (manager.setAnchor sessionId generated now createdAt).accumulateHandoff generated handoff createdAt := by
      rw [AnchorManager.accumulateHandoffBySession, entry]
    rw [accumulates, Expectation.after, latest]
    exact accumulateHandoffNew_agrees agrees sessionId handoff createdAt (may entry)

end

section

variable {expectation : Expectation}

theorem accumulateHandoffs_ok {handoffs : List HandoffSummary} (some : handoffs ≠ []) (now : Nat) :
    ∃ summary, accumulateHandoffs handoffs now = .ok summary := by
  cases handoffs with
  | nil => exact absurd rfl some
  | cons first rest => exact ⟨_, rfl⟩

theorem clearAnchor_agrees (agrees : Agrees manager expectation) (anchorId : String) (now : Nat)
    (tidy : ∀ anchor ∈ manager.anchorOf anchorId, anchor.handoffs ≠ [] → TidyDrop manager anchor) :
    Agrees (manager.clearAnchor anchorId now).2 (expectation.surviving (manager.clearAnchor anchorId now).2) := by
  have stays : expectation.surviving manager = expectation := agrees.surviving_eq fun _ there => there
  unfold AnchorManager.clearAnchor
  cases found : manager.anchorOf anchorId with
  | none => exact stays.symm ▸ agrees
  | some anchor =>
    dsimp only
    cases summary : accumulateHandoffs anchor.handoffs now with
    | error error => exact stays.symm ▸ agrees
    | ok accumulated =>
      refine drop_agrees agrees (List.mem_of_find?_eq_some found) (tidy anchor found fun empty => ?_)
      rw [empty] at summary
      cases summary

theorem clearAnchorBySession_agrees (agrees : Agrees manager expectation) (sessionId : String) (now : Nat) :
    Agrees (manager.clearAnchorBySession sessionId now).2
      (expectation.surviving (manager.clearAnchorBySession sessionId now).2) := by
  unfold AnchorManager.clearAnchorBySession
  cases entry : manager.sessionAnchors sessionId with
  | none => exact (agrees.surviving_eq fun _ there => there).symm ▸ agrees
  | some anchorId =>
    refine clearAnchor_agrees agrees anchorId now fun anchor found _ id current => ?_
    -- the anchor is the session's own, so that the entry that goes is its entry
    obtain ⟨mine, there, same, owner, -⟩ := agrees.own sessionId anchorId ((agrees.same sessionId).symm.trans entry)
    have this : mine = anchor :=
      Option.some.inj ((same ▸ anchorOf_of_mem agrees.ids there).symm.trans found)
    subst this
    rw [owner] at current
    exact (Option.some.inj (current.symm.trans entry)).trans same.symm

end

theorem step_agrees (observed : Observed) (operation : Operation)
    (agrees : Agrees observed.manager observed.expectation) (tidy : Tidy observed.manager operation) :
    Agrees (observed.step operation).manager (observed.step operation).expectation := by
  cases operation with
  | setAnchor sessionId generated now createdAt => exact setAnchor_agrees agrees sessionId createdAt tidy
  | getAnchor sessionId now => exact evictExpiredAnchors_agrees agrees now tidy
  | accumulateHandoff anchorId handoff createdAt =>
    exact accumulateHandoff_agrees agrees anchorId handoff createdAt tidy
  | accumulateHandoffBySession sessionId handoff generated now createdAt =>
    exact accumulateHandoffBySession_agrees agrees sessionId handoff generated now createdAt tidy
  | clearAnchor anchorId now => exact clearAnchor_agrees agrees anchorId now tidy
  | clearAnchorBySession sessionId now => exact clearAnchorBySession_agrees agrees sessionId now

/-- **Sessions get what they expect.** A session's latest anchor is there, and is what a reading gives that
finds it unexpired and expires no anchor untidily; no session has an anchor that is gone or another
session's; and what is returned when a session clears its anchor is the summary of its handoffs. -/
structure Kept (observed : Observed) : Prop where
  current : ∀ sessionId id, observed.expectation.latest sessionId = some id →
    ∃ anchor, observed.manager.anchorOf id = some anchor ∧ anchor.sessionId = sessionId ∧
      ∀ now, TidyExpiry observed.manager now → anchor.expired now = false →
        (observed.manager.getAnchor sessionId now).1 = some anchor
  existing : ∀ sessionId id, observed.manager.getAnchorId sessionId = some id →
    ∃ anchor, observed.manager.anchorOf id = some anchor ∧ anchor.sessionId = sessionId
  summarised : ∀ sessionId now, observed.expectation.latest sessionId ≠ none →
    observed.expectation.received sessionId ≠ [] →
      (observed.manager.clearAnchorBySession sessionId now).1 =
        (accumulateHandoffs (recent (observed.expectation.received sessionId)) now).map some

theorem recent_ne_nil {handoffs : List HandoffSummary} (some : handoffs ≠ []) : recent handoffs ≠ [] := by
  have positive : 0 < maxHandoffsPerAnchor := by decide
  have length := List.length_pos_iff.mpr some
  refine List.ne_nil_of_length_pos ?_
  rw [recent, List.length_drop]
  omega

theorem Agrees.kept {observed : Observed} (agrees : Agrees observed.manager observed.expectation) :
    Kept observed := by
  have own : ∀ sessionId id, observed.expectation.latest sessionId = some id →
      ∃ anchor, observed.manager.anchorOf id = some anchor ∧ anchor ∈ observed.manager.anchors ∧
        anchor.id = id ∧ anchor.sessionId = sessionId ∧
        anchor.handoffs = recent (observed.expectation.received sessionId) := by
    intro sessionId id latest
    obtain ⟨anchor, there, rfl, mine⟩ := agrees.own sessionId id latest
    exact ⟨anchor, anchorOf_of_mem agrees.ids there, there, rfl, mine⟩
  refine ⟨fun sessionId id latest => ?_, fun sessionId id entry => ?_, fun sessionId now latest received => ?_⟩
  · obtain ⟨anchor, found, there, rfl, owner, -⟩ := own sessionId id latest
    refine ⟨anchor, found, owner, fun now tidy unexpired => ?_⟩
    have later := evictExpiredAnchors_agrees agrees now tidy
    have kept : anchor ∈ (observed.manager.evictExpiredAnchors now).anchors :=
      List.mem_filter.mpr ⟨there, by rw [unexpired]; rfl⟩
    have found := anchorOf_of_mem later.ids kept
    have entry : (observed.manager.evictExpiredAnchors now).sessionAnchors sessionId = some anchor.id := by
      rw [later.same]
      show (observed.expectation.latest sessionId).filter _ = _
      rw [latest]
      exact Option.filter_some_pos (by rw [found]; rfl)
    show ((observed.manager.evictExpiredAnchors now).sessionAnchors sessionId).bind _ = _
    rw [entry]
    exact found
  · obtain ⟨anchor, found, -, -, owner, -⟩ := own sessionId id ((agrees.same sessionId).symm.trans entry)
    exact ⟨anchor, found, owner⟩
  · obtain ⟨id, known⟩ := Option.ne_none_iff_exists'.mp latest
    obtain ⟨anchor, found, -, -, -, handoffs⟩ := own sessionId id known
    obtain ⟨summary, accumulated⟩ := accumulateHandoffs_ok (recent_ne_nil received) now
    have entry : observed.manager.sessionAnchors sessionId = some id := (agrees.same sessionId).trans known
    rw [AnchorManager.clearAnchorBySession, entry]
    dsimp only
    rw [AnchorManager.clearAnchor, found, ← handoffs]
    dsimp only
    rw [handoffs, accumulated]

/-- **In every tidy run, sessions get what they expect.** -/
theorem kept_of_tidy (operations : List Operation)
    (tidy : ∀ taken ∈ transitions Observed.step {} operations, Tidy taken.before.manager taken.action) :
    Kept (finish Observed.step {} operations) := by
  have agrees : Agrees (finish Observed.step {} operations).manager (finish Observed.step {} operations).expectation :=
    finish_guarded Observed.step step_agrees ⟨List.nodup_nil, fun _ => rfl, nofun⟩ tidy
  exact agrees.kept

def someHandoff : HandoffSummary :=
  { taskId := "t", runId := "r", timestamp := 0, task := "build", outcome := .success }

def oneAnchor : List Operation :=
  [.setAnchor "s" "anchor-1" 0 0, .accumulateHandoffBySession "s" someHandoff "anchor-2" 1 1,
    .getAnchor "s" 2, .clearAnchorBySession "s" 3]

theorem oneAnchor_kept : Kept (finish Observed.step {} oneAnchor) := by
  have set : Tidy {} (.setAnchor "s" "anchor-1" 0 0) :=
    ⟨rfl, nofun, fun full => absurd full (by decide)⟩
  have unexpired : ∀ anchor ∈ (finish Observed.step {} (oneAnchor.take 2)).manager.anchors,
      anchor.expired 2 = false := by decide
  exact kept_of_tidy oneAnchor
    (List.forall_mem_cons.mpr ⟨set, List.forall_mem_cons.mpr ⟨fun none => absurd none (by decide),
      List.forall_mem_cons.mpr ⟨fun anchor there lapsed => absurd ((unexpired anchor there).symm.trans lapsed) nofun,
        List.forall_mem_cons.mpr ⟨trivial, List.forall_mem_nil _⟩⟩⟩⟩)

def twoAnchors : List Operation :=
  [.setAnchor "s" "anchor-1" 0 0, .setAnchor "s" "anchor-2" 1 1, .accumulateHandoff "anchor-1" someHandoff 2,
    .clearAnchor "anchor-1" 3]

/-- **The second anchor of a session is lost** when the first one is cleared. -/
theorem second_anchor_lost : ¬ Kept (finish Observed.step {} twoAnchors) := by
  intro kept
  obtain ⟨anchor, found, -, read⟩ := kept.current "s" "anchor-2" (by decide)
  have unexpired : ∀ anchor ∈ (finish Observed.step {} twoAnchors).manager.anchors, anchor.expired 4 = false := by
    decide
  have there : anchor ∈ (finish Observed.step {} twoAnchors).manager.anchors := List.mem_of_find?_eq_some found
  have got := read 4 (fun other member lapsed => absurd ((unexpired other member).symm.trans lapsed) nofun)
    (unexpired anchor there)
  have none : ((finish Observed.step {} twoAnchors).manager.getAnchor "s" 4).1 = none := by decide
  exact nomatch none.symm.trans got

end PiCrew.Handoffs
