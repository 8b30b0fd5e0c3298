/-
**The outbound queue of a broker connection.**

`runtime/broker/protocol/connection-state.ts`. A frame is put at the end of the queue, and the queue is
written to the socket from its front. When `socket.write` answers false, a listener is armed that goes on
writing at the next `drain` event.

* `delivered_iff_unblocked` — the frames are handed to the socket once and in order in exactly the runs
  in which nothing is written after a false answer;
* `frame_written_again` — the frame with the false answer is still at the front of the queue.

`socket.write` is given by its answers, and takes the whole buffer also when it answers false.
-/

import PiCrew.Library.Runs
import Mathlib.Algebra.GroupWithZero.Nat
import Mathlib.Logic.Function.Iterate

namespace PiCrew.Broker.Outbound

section

/-- An encoded frame. Its serial tells it from the other frames. -/
structure Buffer where
  serial : Nat
  length : Nat
  deriving DecidableEq

/-- What a call of `socket.write` comes to. -/
inductive WriteAnswer where
  | true
  | false
  | throws
  deriving DecidableEq

inductive OutboundAdmission where
  | false
  | true
  | response
  deriving DecidableEq

structure OutboundQueueOpts where
  outboundQueueCap : Option Nat := none
  outboundQueueBytesCap : Option Nat := none

def defaultOutboundQueueCap : Nat := 256

def defaultOutboundQueueBytes : Nat := 4 * 1024 * 1024

/-- The length of the `protocol.close` frame. -/
def protocolCloseBytes : Nat := 72

/-- **A connection**: its queue, the listeners armed for `drain`, and what the socket has been called
with. `handed` are the buffers that the socket took, `accepted` the frames that were put in the queue. -/
structure ServerConnection where
  outbound : List Buffer := []
  queuedBytes : Nat := 0
  needsResync : Bool := false
  closed : Bool := false
  outboundSeq : Nat := 0
  drainListeners : Nat := 0
  writes : Nat := 0
  handed : List Buffer := []
  accepted : List Buffer := []
  encoded : Nat := 0

def closeConnection (conn : ServerConnection) : ServerConnection := { conn with closed := true }

def ServerConnection.took (conn : ServerConnection) (buf : Buffer) : ServerConnection :=
  { conn with writes := conn.writes + 1, handed := conn.handed ++ [buf] }

def ServerConnection.threw (conn : ServerConnection) : ServerConnection :=
  { conn with writes := conn.writes + 1 }

variable (answers : Nat → WriteAnswer)

/-- A write whose answer is ignored. -/
def writeDirect (conn : ServerConnection) (buf : Buffer) : ServerConnection :=
  match answers conn.writes with
  | .throws => conn.threw
  | _ => conn.took buf

/-- **Write the queue** from its front. -/
def drainFrom : List Buffer → ServerConnection → ServerConnection
  | [], conn => conn
  | buf :: rest, conn =>
    match answers conn.writes with
    | .true =>
      drainFrom rest
        { conn.took buf with
          outbound := rest
          queuedBytes := conn.queuedBytes - buf.length
          outboundSeq := conn.outboundSeq + 1 }
    | .false => { conn.took buf with drainListeners := conn.drainListeners + 1 }
    | .throws => closeConnection conn.threw

def drainOutboundFrames (conn : ServerConnection) : ServerConnection :=
  drainFrom answers conn.outbound conn

def handleOutboundOverflowFrame (conn : ServerConnection) : ServerConnection :=
  if conn.needsResync then conn
  else
    closeConnection
      (writeDirect answers
        { conn with needsResync := true, encoded := conn.encoded + 1 }
        { serial := conn.encoded, length := protocolCloseBytes })

def pushFrame (conn : ServerConnection) (buf : Buffer) : ServerConnection :=
  drainOutboundFrames answers
    { conn with
      outbound := conn.outbound ++ [buf]
      queuedBytes := conn.queuedBytes + buf.length
      accepted := conn.accepted ++ [buf] }

variable (opts : OutboundQueueOpts)

def OutboundQueueOpts.cap : Nat := opts.outboundQueueCap.getD defaultOutboundQueueCap

def OutboundQueueOpts.bytesCap : Nat := opts.outboundQueueBytesCap.getD defaultOutboundQueueBytes

def writeOrQueueFrame (conn : ServerConnection) (buf : Buffer) (force : OutboundAdmission) :
    ServerConnection :=
  if conn.closed then conn
  else if opts.bytesCap < conn.queuedBytes + buf.length then handleOutboundOverflowFrame answers conn
  else if opts.cap ≤ conn.outbound.length then
    match force with
    | .response => pushFrame answers conn buf
    | .true => writeDirect answers conn buf
    | .false => handleOutboundOverflowFrame answers conn
  else pushFrame answers conn buf

/-- A listener for `drain`. -/
def onDrain (conn : ServerConnection) : ServerConnection :=
  if conn.closed then conn else drainOutboundFrames answers conn

/-- What happens to a connection. A `drain` event runs the listeners that are armed when it comes. -/
inductive Event where
  | send (length : Nat) (force : OutboundAdmission)
  | drain
  | close

def ServerConnection.step (conn : ServerConnection) : Event → ServerConnection
  | .send length force =>
    writeOrQueueFrame answers opts { conn with encoded := conn.encoded + 1 }
      { serial := conn.encoded, length := length } force
  | .drain => (onDrain answers)^[conn.drainListeners] { conn with drainListeners := 0 }
  | .close => closeConnection conn

def frameBytes (frames : List Buffer) : Nat := (frames.map (·.length)).sum

/-- **The accepted frames are handed to the socket once each, in their order**, all of them when the
queue is empty, and the bytes of the queue are counted right. -/
def Delivered (conn : ServerConnection) : Prop :=
  conn.handed <+: conn.accepted ∧ (conn.outbound = [] → conn.handed = conn.accepted) ∧
    conn.queuedBytes = frameBytes conn.outbound

instance decidableDelivered (conn : ServerConnection) : Decidable (Delivered conn) :=
  inferInstanceAs (Decidable (_ ∧ (_ → _) ∧ _))

/-- A frame is sent within the caps. A response is within the cap on the number of frames. -/
def WithinCaps (conn : ServerConnection) : Event → Prop
  | .send length force =>
    conn.closed = true ∨
      conn.queuedBytes + length ≤ opts.bytesCap ∧
        (conn.outbound.length < opts.cap ∨ force = .response)
  | _ => True

/-- **Nothing is written while a listener is armed.** -/
def Unblocked (conn : ServerConnection) : Event → Prop
  | .send _ _ | .drain => conn.closed = true ∨ conn.drainListeners = 0
  | .close => True

instance decidableWithinCaps (conn : ServerConnection) (event : Event) :
    Decidable (WithinCaps opts conn event) := by
  cases event <;> (dsimp only [WithinCaps]; infer_instance)

instance decidableUnblocked (conn : ServerConnection) (event : Event) :
    Decidable (Unblocked conn event) := by
  cases event <;> (dsimp only [Unblocked]; infer_instance)

end

section

variable {answers : Nat → WriteAnswer} {opts : OutboundQueueOpts}

def Counted (conn : ServerConnection) : Prop := conn.queuedBytes = frameBytes conn.outbound

theorem writeDirect_counted {conn : ServerConnection} (counted : Counted conn) (buf : Buffer) :
    Counted (writeDirect answers conn buf) := by
  unfold writeDirect
  split <;> exact counted

theorem drainFrom_counted {frames : List Buffer} {conn : ServerConnection}
    (front : conn.outbound = frames) (counted : Counted conn) :
    Counted (drainFrom answers frames conn) := by
  induction frames generalizing conn with
  | nil => exact counted
  | cons buf rest ih =>
    simp only [drainFrom]
    split
    case h_1 =>
      have shifted : conn.queuedBytes - buf.length = frameBytes rest := by
        have sum : conn.queuedBytes = buf.length + frameBytes rest := by
          rw [counted, front]
          exact List.sum_cons
        rw [sum, Nat.add_sub_cancel_left]
      exact ih rfl shifted
    case h_2 => exact counted
    case h_3 => exact counted

section

variable {conn : ServerConnection} (counted : Counted conn)

include counted

theorem drainOutboundFrames_counted :
    Counted (drainOutboundFrames answers conn) :=
  drainFrom_counted rfl counted

theorem pushFrame_counted (buf : Buffer) :
    Counted (pushFrame answers conn buf) := by
  refine drainOutboundFrames_counted ?_
  simp only [Counted, frameBytes, List.map_append, List.sum_append, List.map_cons, List.map_nil,
    List.sum_singleton]
  rw [counted, frameBytes]

theorem handleOutboundOverflowFrame_counted :
    Counted (handleOutboundOverflowFrame answers conn) := by
  unfold handleOutboundOverflowFrame
  split_ifs
  · exact counted
  · have flagged : Counted { conn with needsResync := true, encoded := conn.encoded + 1 } := counted
    exact writeDirect_counted flagged _

theorem onDrain_counted :
    Counted (onDrain answers conn) := by
  unfold onDrain
  split_ifs
  · exact counted
  · exact drainOutboundFrames_counted counted

end

theorem step_counted (conn : ServerConnection) (event : Event) (counted : Counted conn) :
    Counted (conn.step answers opts event) := by
  cases event with
  | send length force =>
    have encoded : Counted { conn with encoded := conn.encoded + 1 } := counted
    simp only [ServerConnection.step, writeOrQueueFrame]
    split_ifs
    · exact encoded
    · exact handleOutboundOverflowFrame_counted encoded
    · cases force with
      | response => exact pushFrame_counted encoded _
      | true => exact writeDirect_counted encoded _
      | false => exact handleOutboundOverflowFrame_counted encoded
    · exact pushFrame_counted encoded _
  | drain =>
    have disarmed : Counted { conn with drainListeners := 0 } := counted
    exact Function.Iterate.rec Counted disarmed (fun _ => onDrain_counted) conn.drainListeners
  | close => exact counted

theorem drainFrom_bytes (frames : List Buffer) (conn : ServerConnection) :
    (drainFrom answers frames conn).queuedBytes ≤ conn.queuedBytes := by
  induction frames generalizing conn with
  | nil => exact Nat.le_refl _
  | cons buf rest ih =>
    simp only [drainFrom]
    split
    · exact Nat.le_trans (ih _) (Nat.sub_le _ _)
    · exact Nat.le_refl _
    · exact Nat.le_refl _

theorem step_bytes (conn : ServerConnection) (event : Event)
    (within : conn.queuedBytes ≤ opts.bytesCap) :
    (conn.step answers opts event).queuedBytes ≤ opts.bytesCap := by
  have direct : ∀ (conn : ServerConnection) buf,
      (writeDirect answers conn buf).queuedBytes = conn.queuedBytes := by
    intro conn buf
    unfold writeDirect
    split <;> rfl
  have overflow : ∀ conn, (handleOutboundOverflowFrame answers conn).queuedBytes = conn.queuedBytes := by
    intro conn
    unfold handleOutboundOverflowFrame
    split_ifs
    · rfl
    · exact direct _ _
  cases event with
  | send length force =>
    simp only [ServerConnection.step, writeOrQueueFrame]
    split_ifs with closed more
    · exact within
    · rwa [overflow]
    · cases force with
      | response => exact Nat.le_trans (drainFrom_bytes _ _) (Nat.le_of_not_lt more)
      | true => rwa [direct]
      | false => rwa [overflow]
    · exact Nat.le_trans (drainFrom_bytes _ _) (Nat.le_of_not_lt more)
  | drain =>
    refine Function.Iterate.rec (fun conn : ServerConnection => conn.queuedBytes ≤ opts.bytesCap)
      (show { conn with drainListeners := 0 }.queuedBytes ≤ _ from within) (fun conn within => ?_)
      conn.drainListeners
    unfold onDrain
    split_ifs
    · exact within
    · exact Nat.le_trans (drainFrom_bytes _ _) within
  | close => exact within

/-- **The queue is counted and bounded** in every run, whatever the socket answers, responses that go
past the cap on the number of frames included. -/
theorem queue_bounded (answers : Nat → WriteAnswer) (opts : OutboundQueueOpts) (events : List Event) :
    let conn := Runs.finish (ServerConnection.step answers opts) {} events
    conn.queuedBytes = frameBytes conn.outbound ∧ frameBytes conn.outbound ≤ opts.bytesCap := by
  have counted := Runs.finish_keeps (ServerConnection.step answers opts) step_counted
    (show Counted {} from rfl) events
  have within := Runs.finish_keeps (ServerConnection.step answers opts) step_bytes
    (show ({} : ServerConnection).queuedBytes ≤ opts.bytesCap from Nat.zero_le _) events
  exact ⟨counted, counted ▸ within⟩

end

section

variable {answers : Nat → WriteAnswer} {opts : OutboundQueueOpts}

/-- **The invariant**: every accepted frame has been handed to the socket, and a frame that is still
queued has been answered with false, so that a listener is armed. -/
structure Settled (conn : ServerConnection) : Prop where
  counted : Counted conn
  all : conn.handed = conn.accepted
  older : ∀ buf ∈ conn.accepted, buf.serial < conn.encoded
  blocked : conn.closed = true ∨ conn.outbound = [] ∧ conn.drainListeners = 0 ∨
    0 < conn.drainListeners ∧ ∃ buf ∈ conn.accepted, conn.outbound = [buf]

theorem Settled.delivered {conn : ServerConnection} (settled : Settled conn) : Delivered conn :=
  ⟨settled.all ▸ List.prefix_rfl, fun _ => settled.all, settled.counted⟩

theorem start_settled : Settled {} where
  counted := rfl
  all := rfl
  older _ member := absurd member List.not_mem_nil
  blocked := Or.inr (Or.inl ⟨rfl, rfl⟩)

theorem writeOrQueueFrame_within (conn : ServerConnection) {length : Nat} {force : OutboundAdmission}
    (opened : conn.closed ≠ true) (within : WithinCaps opts conn (.send length force)) (serial : Nat) :
    writeOrQueueFrame answers opts conn { serial := serial, length := length } force
      = pushFrame answers conn { serial := serial, length := length } := by
  obtain ⟨bytes, frames⟩ := within.resolve_left opened
  simp only [writeOrQueueFrame, if_neg opened, if_neg (Nat.not_lt_of_le bytes)]
  rcases frames with room | rfl
  · rw [if_neg (Nat.not_le_of_lt room)]
  · split_ifs <;> rfl

theorem drainFrom_handed (taken : ∀ call, answers call ≠ .throws) (frames : List Buffer)
    (conn : ServerConnection) :
    conn.handed ++ frames.take 1 <+: (drainFrom answers frames conn).handed ∧
      (drainFrom answers frames conn).accepted = conn.accepted := by
  induction frames generalizing conn with
  | nil => exact ⟨by rw [List.take_nil, List.append_nil]; exact List.prefix_rfl, rfl⟩
  | cons buf rest ih =>
    simp only [drainFrom, List.take_succ_cons, List.take_zero]
    split
    case h_1 =>
      obtain ⟨later, same⟩ := ih
        { conn.took buf with
          outbound := rest
          queuedBytes := conn.queuedBytes - buf.length
          outboundSeq := conn.outboundSeq + 1 }
      exact ⟨(List.prefix_append _ _).trans later, same⟩
    case h_2 => exact ⟨List.prefix_rfl, rfl⟩
    case h_3 throws => exact absurd throws (taken _)

theorem onDrain_handed (taken : ∀ call, answers call ≠ .throws) (conn : ServerConnection) :
    conn.handed <+: (onDrain answers conn).handed ∧
      (onDrain answers conn).accepted = conn.accepted := by
  unfold onDrain
  split_ifs
  · exact ⟨List.prefix_rfl, rfl⟩
  · obtain ⟨later, same⟩ := drainFrom_handed taken conn.outbound conn
    exact ⟨(List.prefix_append _ _).trans later, same⟩

theorem onDrain_iterate_handed (taken : ∀ call, answers call ≠ .throws) (count : Nat)
    (conn : ServerConnection) :
    conn.handed <+: ((onDrain answers)^[count] conn).handed ∧
      ((onDrain answers)^[count] conn).accepted = conn.accepted := by
  induction count generalizing conn with
  | zero => exact ⟨List.prefix_rfl, rfl⟩
  | succ count ih =>
    obtain ⟨first, same⟩ := onDrain_handed taken conn
    obtain ⟨later, others⟩ := ih (onDrain answers conn)
    rw [Function.iterate_succ_apply]
    exact ⟨first.trans later, others.trans same⟩

theorem onDrain_iterate_closed (conn : ServerConnection) (closed : conn.closed = true)
    (count : Nat) : (onDrain answers)^[count] conn = conn :=
  Function.iterate_fixed (by rw [onDrain, if_pos closed]) count

section

variable (taken : ∀ call, answers call ≠ .throws) (conn : ServerConnection)

include taken conn

theorem pushFrame_settled (counted : Counted conn) (all : conn.handed = conn.accepted)
    (older : ∀ buf ∈ conn.accepted, buf.serial < conn.encoded) (empty : conn.outbound = [])
    (disarmed : conn.drainListeners = 0) {buf : Buffer} (fresh : buf.serial < conn.encoded) :
    Settled (pushFrame answers conn buf) := by
  have pushed : Counted (pushFrame answers conn buf) := pushFrame_counted counted buf
  have olderPushed : ∀ other ∈ conn.accepted ++ [buf], other.serial < conn.encoded := by
    intro other member
    rcases List.mem_append.mp member with before | here
    · exact older other before
    · exact List.mem_singleton.mp here ▸ fresh
  have handed : conn.handed ++ [buf] = conn.accepted ++ [buf] := by rw [all]
  simp only [pushFrame, drainOutboundFrames, empty, List.nil_append, drainFrom] at pushed ⊢
  cases answer : answers conn.writes with
  | true =>
    simp only [answer] at pushed ⊢
    exact
      { counted := pushed
        all := handed
        older := olderPushed
        blocked := Or.inr (Or.inl ⟨rfl, disarmed⟩) }
  | false =>
    simp only [answer] at pushed ⊢
    exact
      { counted := pushed
        all := handed
        older := olderPushed
        blocked := Or.inr (Or.inr ⟨Nat.succ_pos _, buf,
          List.mem_append_right _ (List.mem_singleton_self buf), rfl⟩) }
  | throws => exact absurd answer (taken _)

theorem step_settled (event : Event) (settled : Settled conn) (within : WithinCaps opts conn event)
    (unblocked : Unblocked conn event) : Settled (conn.step answers opts event) := by
  have counted : Counted (conn.step answers opts event) := step_counted conn event settled.counted
  have older : ∀ buf ∈ conn.accepted, buf.serial < conn.encoded + 1 :=
    fun buf member => Nat.lt_succ_of_lt (settled.older buf member)
  cases event with
  | close => exact { settled with counted := counted, blocked := Or.inl rfl }
  | drain =>
    rcases unblocked with closed | none
    · simp only [ServerConnection.step] at counted ⊢
      rw [onDrain_iterate_closed { conn with drainListeners := 0 } closed] at counted ⊢
      exact { settled with counted := counted, blocked := Or.inl closed }
    · simp only [ServerConnection.step, none, Function.iterate_zero, id] at counted ⊢
      have same : { conn with drainListeners := 0 } = conn := by rw [← none]
      rw [same]
      exact settled
  | send length force =>
    by_cases closed : conn.closed = true
    · simp only [ServerConnection.step, writeOrQueueFrame, closed, if_true] at counted ⊢
      exact { settled with counted := counted, older := older, blocked := Or.inl rfl }
    · have idle := (settled.blocked.resolve_left closed).resolve_right fun pending =>
        absurd (unblocked.resolve_left closed) (Nat.pos_iff_ne_zero.mp pending.1)
      simp only [ServerConnection.step] at counted ⊢
      rw [writeOrQueueFrame_within { conn with encoded := conn.encoded + 1 } closed within]
      exact pushFrame_settled taken { conn with encoded := conn.encoded + 1 }
        settled.counted settled.all older idle.1 idle.2 (Nat.lt_succ_self _)

/-- **A step that writes while a listener is armed** hands a frame to the socket again. -/
theorem step_repeats (event : Event) (settled : Settled conn) (within : WithinCaps opts conn event)
    (blocked : ¬ Unblocked conn event) : ¬ Delivered (conn.step answers opts event) := by
  intro delivered
  cases event with
  | close => exact blocked trivial
  | drain =>
    obtain ⟨opened, armed⟩ := not_or.mp blocked
    obtain ⟨-, buf, -, queued⟩ :=
      (settled.blocked.resolve_left opened).resolve_left fun idle => armed idle.2
    obtain ⟨count, listeners⟩ := Nat.exists_eq_succ_of_ne_zero armed
    let disarmed : ServerConnection := { conn with drainListeners := 0 }
    have first : disarmed.handed ++ [buf] <+: (onDrain answers disarmed).handed ∧
        (onDrain answers disarmed).accepted = disarmed.accepted := by
      have written := drainFrom_handed taken disarmed.outbound disarmed
      rw [show disarmed.outbound.take 1 = [buf] by simp only [disarmed, queued, List.take_succ_cons,
        List.take_zero]] at written
      rw [onDrain, if_neg (show ¬ disarmed.closed = true from opened)]
      exact written
    have rest := onDrain_iterate_handed taken count (onDrain answers disarmed)
    have same : conn.step answers opts .drain
        = (onDrain answers)^[count] (onDrain answers disarmed) := by
      simp only [ServerConnection.step, listeners, Function.iterate_succ_apply]
      rfl
    have twice : conn.handed ++ [buf] <+: conn.accepted := by
      have reached := first.1.trans (rest.1.trans (same ▸ delivered.1))
      rw [rest.2, first.2] at reached
      exact reached
    rw [settled.all] at twice
    have shorter := twice.length_le
    rw [List.length_append, List.length_singleton] at shorter
    exact Nat.not_succ_le_self _ shorter
  | send length force =>
    obtain ⟨opened, armed⟩ := not_or.mp blocked
    obtain ⟨-, buf, member, queued⟩ :=
      (settled.blocked.resolve_left opened).resolve_left fun idle => armed idle.2
    let fresh : Buffer := { serial := conn.encoded, length := length }
    let pushed : ServerConnection :=
      { conn with
        encoded := conn.encoded + 1
        outbound := [buf, fresh]
        queuedBytes := conn.queuedBytes + length
        accepted := conn.accepted ++ [fresh] }
    have written := drainFrom_handed taken pushed.outbound pushed
    have same : conn.step answers opts (.send length force)
        = drainFrom answers pushed.outbound pushed := by
      simp only [ServerConnection.step]
      rw [writeOrQueueFrame_within { conn with encoded := conn.encoded + 1 } opened within]
      simp only [pushFrame, drainOutboundFrames, queued]
      rfl
    have twice : conn.handed ++ [buf] <+: conn.accepted ++ [fresh] := by
      have reached := written.1.trans (same ▸ delivered.1)
      rw [written.2] at reached
      exact reached
    rw [settled.all] at twice
    have equal : buf = fresh := by
      have heads := (List.prefix_append_right_inj conn.accepted).mp twice
      exact (List.cons_prefix_cons.mp heads).1
    exact absurd (settled.older buf member) (equal ▸ Nat.lt_irrefl _)

end

/-- **Delivery, exactly**: while the socket throws nothing and the frames are sent within the caps, every
accepted frame is handed to the socket once and in order in exactly the runs in which nothing is written
while a listener is armed. -/
theorem delivered_iff_unblocked (answers : Nat → WriteAnswer) (opts : OutboundQueueOpts)
    (events : List Event) (taken : ∀ call, answers call ≠ .throws)
    (within : ∀ step ∈ Runs.transitions (ServerConnection.step answers opts) {} events,
      WithinCaps opts step.before step.action) :
    (∀ step ∈ Runs.transitions (ServerConnection.step answers opts) {} events,
        Delivered step.before ∧ Delivered step.after)
      ↔ ∀ step ∈ Runs.transitions (ServerConnection.step answers opts) {} events,
          Unblocked step.before step.action :=
  Runs.good_iff_guarded _ (fun _ (settled : Settled _) => settled.delivered) (step_settled taken)
    (step_repeats taken) start_settled within

theorem delivered_iff_unblocked_last :
    let answers := fun call => if call < 2 then WriteAnswer.true else .false
    let steps := Runs.transitions (ServerConnection.step answers {}) {}
      [.send 40 .true, .send 120 .response, .send 300 .false, .close]
    (∀ step ∈ steps, Unblocked step.before step.action) ∧
      ((∀ step ∈ steps, Delivered step.before ∧ Delivered step.after)
        ↔ ∀ step ∈ steps, Unblocked step.before step.action) := by
  refine ⟨by decide +kernel, ?_⟩
  refine delivered_iff_unblocked _ _ _ (fun call => ?_) (by decide +kernel)
  split_ifs <;> exact fun equal => WriteAnswer.noConfusion equal

/-- **A frame is written again**: the socket takes it, answering false, and drains. -/
theorem frame_written_again :
    let answers := fun call => if call = 0 then WriteAnswer.false else .true
    let steps := Runs.transitions (ServerConnection.step answers {}) {} [.send 40 .response, .drain]
    (∀ step ∈ steps, WithinCaps {} step.before step.action) ∧
      (∃ step ∈ steps, step.after.accepted = [⟨0, 40⟩] ∧ step.after.handed = [⟨0, 40⟩, ⟨0, 40⟩]) ∧
      ¬ ∀ step ∈ steps, Delivered step.before ∧ Delivered step.after := by
  decide +kernel

end

end PiCrew.Broker.Outbound
