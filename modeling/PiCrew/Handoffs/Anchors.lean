/-
**The anchor manager.**

`runtime/anchor-manager.ts` (`AnchorManager`). A session sets an anchor, handoffs accumulate at it, and
clearing it returns them as one summary. There are two maps, the anchors by their id in the order of
insertion, and the anchor of each session. Anchors expire, and two rules evict an anchor when there are too
many: `setAnchor` evicts the one that was created first, and `accumulateHandoff`, where it makes an
implicit anchor, the one that was inserted first.

* `accumulateHandoffs` — the summary of some handoffs.

A generated id and the readings of the clock are arguments. A generated id starts with `anchor-`, so that it
is never the empty string. Left out: the contexts of the anchors, which none of these reads, and the events.
-/

import PiCrew.Library.Runs
import Mathlib.Logic.Function.Basic

namespace PiCrew.Handoffs

inductive HandoffOutcome where
  | success | failure | partially
  deriving DecidableEq, Repr

structure Decision where
  rationale : String
  outcome : String
  alternativesConsidered : List String
  deriving DecidableEq, Repr

structure HandoffMetrics where
  tokensUsed : Nat := 0
  duration : Nat := 0
  iterations : Nat := 0
  toolsUsed : List String := []
  deriving DecidableEq, Repr

structure HandoffSummary where
  taskId : String
  runId : String
  timestamp : Nat
  task : String
  outcome : HandoffOutcome
  filesCreated : List String := []
  filesModified : List String := []
  filesDeleted : List String := []
  decisions : List Decision := []
  blockers : List String := []
  nextSteps : List String := []
  metrics : HandoffMetrics := {}
  contextSnapshot : String := ""
  deriving DecidableEq, Repr

/-- `AnchorNotFoundError`, `NoHandoffsError` -/
inductive AnchorError where
  | anchorNotFound (anchorId : String)
  | noHandoffs
  deriving DecidableEq, Repr

def outcomeOf (handoffs : List HandoffSummary) : HandoffOutcome :=
  if handoffs.all (·.outcome == .success) then .success
  else if handoffs.any (·.outcome == .failure) then .failure
  else .partially

def metricsOf (handoffs : List HandoffSummary) : HandoffMetrics where
  tokensUsed := handoffs.foldl (fun total handoff => total + handoff.metrics.tokensUsed) 0
  duration := handoffs.foldl (fun total handoff => total + handoff.metrics.duration) 0
  iterations := handoffs.foldl (fun total handoff => total + handoff.metrics.iterations) 0
  toolsUsed := (handoffs.flatMap (·.metrics.toolsUsed)).eraseDups

def accumulateHandoffs (handoffs : List HandoffSummary) (now : Nat) : Except AnchorError HandoffSummary :=
  match handoffs with
  | [] => .error .noHandoffs
  | first :: _ => .ok
      { taskId := "anchor-" ++ first.taskId
        runId := first.runId
        timestamp := now
        task := "Accumulated: " ++ " → ".intercalate (handoffs.map (·.task))
        outcome := outcomeOf handoffs
        filesCreated := (handoffs.flatMap (·.filesCreated)).eraseDups
        filesModified := (handoffs.flatMap (·.filesModified)).eraseDups
        filesDeleted := (handoffs.flatMap (·.filesDeleted)).eraseDups
        decisions := handoffs.flatMap (·.decisions)
        blockers := (handoffs.flatMap (·.blockers)).eraseDups
        nextSteps := handoffs.flatMap (·.nextSteps)
        metrics := metricsOf handoffs
        contextSnapshot := "\n---\n".intercalate (handoffs.map (·.contextSnapshot)) }

/-- An anchor, without its context. -/
structure Anchor where
  id : String
  sessionId : String
  createdAt : Nat
  handoffs : List HandoffSummary := []
  deriving DecidableEq, Repr

/-- **The two maps.** The anchors are in the order of insertion. -/
structure AnchorManager where
  anchors : List Anchor := []
  sessionAnchors : String → Option String := fun _ => none

/-- `AnchorManager.MAX_ANCHORS`, the limit of `setAnchor` -/
def maxAnchors : Nat := 1000

/-- The constant `MAX_ANCHORS` of the module, the limit for implicit anchors -/
def maxAnchorsImplicit : Nat := 50

def maxHandoffsPerAnchor : Nat := 100

def ttlMs : Nat := 300000

def Anchor.expired (now : Nat) (anchor : Anchor) : Bool := anchor.createdAt + ttlMs < now

def Anchor.push (anchor : Anchor) (handoff : HandoffSummary) : Anchor :=
  { anchor with
    handoffs :=
      (if maxHandoffsPerAnchor ≤ anchor.handoffs.length then anchor.handoffs.tail else anchor.handoffs)
        ++ [handoff] }

namespace AnchorManager

variable (manager : AnchorManager)

/-- `this.anchors.get` -/
def anchorOf (anchorId : String) : Option Anchor := manager.anchors.find? (·.id == anchorId)

/-- `this.anchors.set`: a key that is there keeps its place. -/
def put (anchor : Anchor) : List Anchor :=
  if (manager.anchorOf anchor.id).isSome then
    manager.anchors.map fun other => if other.id = anchor.id then anchor else other
  else manager.anchors ++ [anchor]

def drop (anchor : Anchor) : AnchorManager where
  anchors := manager.anchors.filter (·.id ≠ anchor.id)
  sessionAnchors := Function.update manager.sessionAnchors anchor.sessionId none

/-- **Evict expired anchors**, and the entries of their sessions. -/
def evictExpiredAnchors (now : Nat) : AnchorManager where
  anchors := manager.anchors.filter fun anchor => !anchor.expired now
  sessionAnchors sessionId :=
    if manager.anchors.any fun anchor => anchor.expired now && anchor.sessionId == sessionId then none
    else manager.sessionAnchors sessionId

/-- The anchor that was created first, and of these the one inserted first. -/
def oldest : Option Anchor :=
  manager.anchors.foldl (fun oldest anchor =>
    match oldest with
    | none => some anchor
    | some known => if anchor.createdAt < known.createdAt then some anchor else some known) none

/-- **Evict the oldest anchor**, unless its id is the empty string. -/
def evictOldestAnchor : AnchorManager :=
  match manager.oldest with
  | some anchor => if anchor.id = "" then manager else manager.drop anchor
  | none => manager

def evict (now : Nat) : AnchorManager :=
  let unexpired := manager.evictExpiredAnchors now
  if maxAnchors ≤ unexpired.anchors.length then unexpired.evictOldestAnchor else unexpired

def setAnchor (sessionId generated : String) (now createdAt : Nat) : AnchorManager :=
  let evicted := manager.evict now
  { anchors := evicted.put { id := generated, sessionId := sessionId, createdAt := createdAt }
    sessionAnchors := Function.update evicted.sessionAnchors sessionId (some generated) }

def getAnchorId (sessionId : String) : Option String := manager.sessionAnchors sessionId

def getAnchor (sessionId : String) (now : Nat) : Option Anchor × AnchorManager :=
  let evicted := manager.evictExpiredAnchors now
  ((evicted.sessionAnchors sessionId).bind evicted.anchorOf, evicted)

def clearAnchor (anchorId : String) (now : Nat) : Except AnchorError HandoffSummary × AnchorManager :=
  match manager.anchorOf anchorId with
  | none => (.error (.anchorNotFound anchorId), manager)
  | some anchor =>
    match accumulateHandoffs anchor.handoffs now with
    | .error error => (.error error, manager)
    | .ok accumulated => (.ok accumulated, manager.drop anchor)

def clearAnchorBySession (sessionId : String) (now : Nat) :
    Except AnchorError (Option HandoffSummary) × AnchorManager :=
  match manager.sessionAnchors sessionId with
  | none => (.ok none, manager)
  | some anchorId => ((manager.clearAnchor anchorId now).1.map some, (manager.clearAnchor anchorId now).2)

/-- Make room for an implicit anchor: the anchor goes that was inserted first, and no entry with it. -/
def makeRoom : AnchorManager :=
  if maxAnchorsImplicit ≤ manager.anchors.length then
    match manager.anchors.head? with
    | some first =>
      if first.id = "" then manager
      else { manager with anchors := manager.anchors.filter (·.id ≠ first.id) }
    | none => manager
  else manager

/-- The manager with an anchor of this id: an implicit one, for the run of the handoff, where there is
none. -/
def ensure (anchorId runId : String) (createdAt : Nat) : AnchorManager :=
  if (manager.anchorOf anchorId).isSome then manager
  else
    { manager.makeRoom with
      anchors := manager.makeRoom.anchors ++ [{ id := anchorId, sessionId := runId, createdAt := createdAt }] }

def accumulateHandoff (anchorId : String) (handoff : HandoffSummary) (createdAt : Nat) : AnchorManager :=
  let ensured := manager.ensure anchorId handoff.runId createdAt
  { ensured with
    anchors := ensured.anchors.map fun anchor => if anchor.id = anchorId then anchor.push handoff else anchor }

/-- **Accumulate a handoff** to the anchor of a session, a new one where it has none. -/
def accumulateHandoffBySession (sessionId : String) (handoff : HandoffSummary) (generated : String)
    (now createdAt : Nat) : AnchorManager :=
  match manager.sessionAnchors sessionId with
  | none => (manager.setAnchor sessionId generated now createdAt).accumulateHandoff generated handoff createdAt
  | some anchorId => manager.accumulateHandoff anchorId handoff createdAt

end AnchorManager

inductive Operation where
  | setAnchor (sessionId generated : String) (now createdAt : Nat)
  | getAnchor (sessionId : String) (now : Nat)
  | accumulateHandoff (anchorId : String) (handoff : HandoffSummary) (createdAt : Nat)
  | accumulateHandoffBySession (sessionId : String) (handoff : HandoffSummary) (generated : String)
      (now createdAt : Nat)
  | clearAnchor (anchorId : String) (now : Nat)
  | clearAnchorBySession (sessionId : String) (now : Nat)
  deriving DecidableEq, Repr

def AnchorManager.step (manager : AnchorManager) : Operation → AnchorManager
  | .setAnchor sessionId generated now createdAt => manager.setAnchor sessionId generated now createdAt
  | .getAnchor sessionId now => (manager.getAnchor sessionId now).2
  | .accumulateHandoff anchorId handoff createdAt => manager.accumulateHandoff anchorId handoff createdAt
  | .accumulateHandoffBySession sessionId handoff generated now createdAt =>
    manager.accumulateHandoffBySession sessionId handoff generated now createdAt
  | .clearAnchor anchorId now => (manager.clearAnchor anchorId now).2
  | .clearAnchorBySession sessionId now => (manager.clearAnchorBySession sessionId now).2

end PiCrew.Handoffs
