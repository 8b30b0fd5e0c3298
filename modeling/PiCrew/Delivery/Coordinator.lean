/-
**The delivery coordinator.**

`runtime/delivery-coordinator.ts` (`DeliveryCoordinator`): results, notifications and steers for the host
session. A delivery is handed to a callback of the host while a session is active, and else it is queued;
`activate` flushes the queue.

The callbacks may call the coordinator again. So a state has a stack of the callbacks that are open, each with
what the code does after it, and a step is a call, a callback that returns or throws, or the timer that looks for
old entries. A delivery is known by the number of its call. The log and `dispose` are left out.
-/

import PiCrew.Library.Runs

namespace PiCrew.Delivery

variable {ρ : Type}

structure NotificationDescriptor where
  runId : Option String := none
  title : String
  body : Option String := none
  deriving DecidableEq, Repr

inductive Payload (ρ : Type) where
  | result (result : ρ)
  | notification (notification : NotificationDescriptor)
  | steer (message : String)
  deriving DecidableEq, Repr

/-- A delivery, with the number of the call that has made it. -/
structure PendingDelivery (ρ : Type) where
  ordinal : Nat
  runId : String
  payload : Payload ρ
  timestamp : Nat
  generation : Option Nat := none
  ownerSessionId : Option String := none
  deriving DecidableEq, Repr

def PendingDelivery.owner (delivery : PendingDelivery ρ) : Option String :=
  delivery.ownerSessionId.filter (· ≠ "")

/-- Which of its callbacks the host has given. -/
structure DeliveryCoordinatorDeps where
  emit : Bool := true
  sendFollowUp : Bool := true
  sendWakeUp : Bool := true
  deriving DecidableEq, Repr

inductive Sent (ρ : Type) where
  | runResult (result : ρ)
  | followUp (title body : String)
  | wakeUp (message : String)
  | notificationEvent (notification : NotificationDescriptor)
  deriving DecidableEq, Repr

def Payload.sent : Payload ρ → Sent ρ
  | .result value => .runResult value
  | .notification descriptor => .followUp descriptor.title (descriptor.body.getD "")
  | .steer message => .wakeUp message

def DeliveryCoordinatorDeps.take (deps : DeliveryCoordinatorDeps) : Payload ρ → Bool
  | .result _ => deps.emit
  | .notification _ => deps.sendFollowUp
  | .steer _ => deps.sendWakeUp

def DeliveryCoordinatorDeps.event (deps : DeliveryCoordinatorDeps) : Payload ρ → Option (Sent ρ)
  | .notification notification => if deps.emit then some (.notificationEvent notification) else none
  | .result _ | .steer _ => none

structure HostCall (ρ : Type) where
  delivery : PendingDelivery ρ
  sent : Sent ρ
  session : Option String
  deriving DecidableEq, Repr

/-- **An open callback**, with what comes after it: `direct` and `flush` hand a delivery on, and `event`
and `flushEvent` are the events that follow a notification. -/
inductive Frame (ρ : Type) where
  | direct (delivery : PendingDelivery ρ)
  | event (delivery : PendingDelivery ρ)
  | flush (delivery : PendingDelivery ρ) (rest retryLater : List (PendingDelivery ρ))
  | flushEvent (delivery : PendingDelivery ρ) (rest retryLater : List (PendingDelivery ρ))
  deriving DecidableEq, Repr

inductive Drop (ρ : Type) where
  | stale (delivery : PendingDelivery ρ) (generation : Nat)
  | overCap (delivery : PendingDelivery ρ) (length : Nat)
  | expired (delivery : PendingDelivery ρ) (now : Nat)
  deriving DecidableEq, Repr

def Drop.delivery : Drop ρ → PendingDelivery ρ
  | .stale delivery _ | .overCap delivery _ | .expired delivery _ => delivery

/-- **The coordinator**, with the stack of open callbacks. The last four fields say what was observed: how
many deliveries there were, which of them a callback has taken, which were dropped, and every call. -/
structure DeliveryCoordinator (ρ : Type) where
  deps : DeliveryCoordinatorDeps
  active : Bool := false
  generation : Nat := 0
  pending : List (PendingDelivery ρ) := []
  flushing : Bool := false
  activeSessionId : Option String := none
  stack : List (Frame ρ) := []
  issued : Nat := 0
  handed : List Nat := []
  dropped : List (Drop ρ) := []
  calls : List (HostCall ρ) := []

/-- `DeliveryCoordinator.MAX_PENDING` -/
def maxPending : Nat := 1000

def pendingTtlMs : Nat := 24 * 60 * 60 * 1000

namespace DeliveryCoordinator

section

variable (coordinator : DeliveryCoordinator ρ) (delivery : PendingDelivery ρ)

def session : Option String := if coordinator.active then coordinator.activeSessionId else none

def callHost (sent : Sent ρ) (frame : Frame ρ) : DeliveryCoordinator ρ := { coordinator with
    stack := frame :: coordinator.stack
    calls := coordinator.calls ++ [{ delivery := delivery, sent := sent, session := coordinator.session }] }

/-- **Queue a delivery**, and drop the oldest over the cap. -/
def enqueue : DeliveryCoordinator ρ :=
  let pending := coordinator.pending ++ [{ delivery with generation := some coordinator.generation }]
  let excess := pending.length - maxPending
  { coordinator with
    pending := pending.drop excess
    dropped := coordinator.dropped ++ (pending.take excess).map (.overCap · pending.length) }

def keepUndelivered (now : Nat) : DeliveryCoordinator ρ :=
  if coordinator.flushing then coordinator else coordinator.enqueue { delivery with timestamp := now }

def deliver (runId : String) (payload : Payload ρ) (ownerSessionId : Option String) (now : Nat) :
    DeliveryCoordinator ρ :=
  let delivery := { ordinal := coordinator.issued, runId := runId, payload := payload
                    timestamp := now, ownerSessionId := ownerSessionId }
  let counted := { coordinator with issued := coordinator.issued + 1 }
  if coordinator.active && coordinator.deps.take payload then
    counted.callHost delivery payload.sent (.direct delivery)
  else counted.keepUndelivered delivery now

def deliverResult (runId : String) (result : ρ) (ownerSessionId : Option String) (now : Nat) :
    DeliveryCoordinator ρ :=
  coordinator.deliver runId (.result result) ownerSessionId now

def deliverNotification (notification : NotificationDescriptor) (ownerSessionId : Option String)
    (now : Nat) : DeliveryCoordinator ρ :=
  coordinator.deliver (notification.runId.getD "") (.notification notification) ownerSessionId now

def deliverSteer (runId message : String) (ownerSessionId : Option String) (now : Nat) :
    DeliveryCoordinator ρ :=
  coordinator.deliver runId (.steer message) ownerSessionId now

end

section

variable (coordinator : DeliveryCoordinator ρ)

def foreign (delivery : PendingDelivery ρ) : Bool :=
  match delivery.owner, coordinator.activeSessionId.filter (· ≠ "") with
  | some owner, some session => owner ≠ session
  | _, _ => false

def stale (delivery : PendingDelivery ρ) : Bool :=
  match delivery.payload with
  | .steer _ => delivery.generation.any (· ≠ coordinator.generation)
  | .result _ | .notification _ => false

def refreshed (delivery : PendingDelivery ρ) : PendingDelivery ρ :=
  { delivery with generation := some coordinator.generation }

/-- **The loop of the flush**, up to the next callback. -/
def flushLoop : List (PendingDelivery ρ) → List (PendingDelivery ρ) → DeliveryCoordinator ρ →
    DeliveryCoordinator ρ
  | [], retryLater, coordinator =>
    { coordinator with pending := retryLater ++ coordinator.pending, flushing := false }
  | delivery :: rest, retryLater, coordinator =>
    if coordinator.foreign delivery then flushLoop rest (retryLater ++ [delivery]) coordinator
    else if coordinator.stale delivery then
      flushLoop rest retryLater
        { coordinator with dropped := coordinator.dropped ++ [.stale delivery coordinator.generation] }
    else if coordinator.deps.take delivery.payload then
      coordinator.callHost delivery delivery.payload.sent (.flush delivery rest retryLater)
    else flushLoop rest (retryLater ++ [coordinator.refreshed delivery]) coordinator

/-- **Flush the queue**, unless a flush is running. -/
def flushQueuedResults : DeliveryCoordinator ρ :=
  if !coordinator.active || coordinator.pending.isEmpty then coordinator
  else if coordinator.flushing then coordinator
  else flushLoop coordinator.pending [] { coordinator with flushing := true, pending := [] }

def activate (sessionId : String) : DeliveryCoordinator ρ :=
  flushQueuedResults { coordinator with active := true, activeSessionId := some sessionId }

def deactivate : DeliveryCoordinator ρ :=
  { coordinator with active := false, generation := coordinator.generation + 1 }

def evictExpired (now : Nat) : DeliveryCoordinator ρ := { coordinator with
    pending := coordinator.pending.filter fun delivery => now < delivery.timestamp + pendingTtlMs
    dropped := coordinator.dropped ++
      (coordinator.pending.filter fun delivery => !decide (now < delivery.timestamp + pendingTtlMs)).map
        (.expired · now) }

end

section

variable (coordinator : DeliveryCoordinator ρ)

def popped (stack : List (Frame ρ)) : DeliveryCoordinator ρ := { coordinator with stack := stack }

def taken (delivery : PendingDelivery ρ) : DeliveryCoordinator ρ :=
  { coordinator with handed := coordinator.handed ++ [delivery.ordinal] }

def returned : DeliveryCoordinator ρ :=
  match coordinator.stack with
  | [] => coordinator
  | .direct delivery :: stack =>
    let taken := (coordinator.popped stack).taken delivery
    match coordinator.deps.event delivery.payload with
    | some sent => taken.callHost delivery sent (.event delivery)
    | none => taken
  | .event _ :: stack => coordinator.popped stack
  | .flush delivery rest retryLater :: stack =>
    let taken := (coordinator.popped stack).taken delivery
    match coordinator.deps.event delivery.payload with
    | some sent => taken.callHost delivery sent (.flushEvent delivery rest retryLater)
    | none => flushLoop rest retryLater taken
  | .flushEvent _ rest retryLater :: stack => flushLoop rest retryLater (coordinator.popped stack)

/-- **The open callback throws.** -/
def threw (now : Nat) : DeliveryCoordinator ρ :=
  match coordinator.stack with
  | [] => coordinator
  | .direct delivery :: stack => (coordinator.popped stack).keepUndelivered delivery now
  | .event _ :: stack => coordinator.popped stack
  | .flush delivery rest retryLater :: stack =>
    flushLoop rest (retryLater ++ [coordinator.refreshed delivery]) (coordinator.popped stack)
  | .flushEvent _ rest retryLater :: stack => flushLoop rest retryLater (coordinator.popped stack)

end

end DeliveryCoordinator

/-- **A step**, with the time where the code reads the clock. -/
inductive Step (ρ : Type) where
  | activate (sessionId : String)
  | deactivate
  | flushQueuedResults
  | deliverResult (runId : String) (result : ρ) (ownerSessionId : Option String) (now : Nat)
  | deliverNotification (notification : NotificationDescriptor) (ownerSessionId : Option String) (now : Nat)
  | deliverSteer (runId message : String) (ownerSessionId : Option String) (now : Nat)
  | returned
  | threw (now : Nat)
  | evictExpired (now : Nat)
  deriving DecidableEq, Repr

/-- **One step.** The timer fires only when no code runs. -/
def DeliveryCoordinator.step (coordinator : DeliveryCoordinator ρ) : Step ρ → DeliveryCoordinator ρ
  | .activate sessionId => coordinator.activate sessionId
  | .deactivate => coordinator.deactivate
  | .flushQueuedResults => coordinator.flushQueuedResults
  | .deliverResult runId result owner now => coordinator.deliverResult runId result owner now
  | .deliverNotification notification owner now => coordinator.deliverNotification notification owner now
  | .deliverSteer runId message owner now => coordinator.deliverSteer runId message owner now
  | .returned => coordinator.returned
  | .threw now => coordinator.threw now
  | .evictExpired now => if coordinator.stack.isEmpty then coordinator.evictExpired now else coordinator

end PiCrew.Delivery
