/-
**The semaphore that hands out worker slots.**

`runtime/scheduling/semaphore.ts` (`Semaphore`). `acquire` takes a slot, or queues a waiter, or is
refused; `release` hands the slot to the first waiter, or frees it; an abort takes the waiters of
its signal out of the queue. Each of them runs without a break, so a run is a sequence of calls. A
waiter owns its slot from the call that grants it on, whenever it resumes.

* `acquire_keeps`, `abort_keeps`, `release_keeps` — what one call keeps (`Orderly`);
* `semaphore_safe` — after every run of calls: the slots that are held are counted and within the
  limit, waiters queue only for a full semaphore, slots go out in the order of arrival, an aborted
  waiter gets none, and no slot is lost.

A caller releases what it was granted and has not released yet. Waiters are known by the order of
their arrival.
-/

import PiCrew.Library.Runs
import Mathlib.Data.List.Nodup
import Mathlib.Tactic.ByContra

namespace PiCrew.Scheduling

section

structure Waiter (σ : Type) where
  arrival : Nat
  signal : Option σ
  settled : Bool := false
  deriving DecidableEq, Repr

/-- The limit, the slots that are taken, and the queue. -/
structure Semaphore (σ : Type) where
  max : Int
  current : Nat := 0
  queue : List (Waiter σ) := []
  deriving DecidableEq, Repr

def Semaphore.new (σ : Type) (slots : Int) : Semaphore σ := { max := Max.max 1 slots }

/-- How many waiters may queue (`MAX_QUEUE`). -/
def maxQueue : Nat := 10000

/-- What a call of `acquire` comes to at once. -/
inductive AcquireOutcome where
  | granted | waiting | aborted | queueFull
  deriving DecidableEq, Repr

variable {σ : Type} [DecidableEq σ]

/-- **Acquire a slot.** The signal is read once more after the counter went up; nothing runs in
between, so it still reads the same. -/
def Semaphore.acquire (semaphore : Semaphore σ) (arrival : Nat) (signal : Option σ)
    (signalAborted : Bool) : AcquireOutcome × Semaphore σ :=
  if signalAborted then (.aborted, semaphore)
  else if (semaphore.current : Int) < semaphore.max then
    (.granted, { semaphore with current := semaphore.current + 1 })
  else if maxQueue ≤ semaphore.queue.length then (.queueFull, semaphore)
  else
    (.waiting, { semaphore with queue := semaphore.queue ++ [{ arrival := arrival, signal := signal }] })

def Waiter.listens (waiter : Waiter σ) (signal : σ) : Bool :=
  !waiter.settled && waiter.signal == some signal

/-- **A signal fires**: its listeners take their waiters out of the queue and settle them. -/
def Semaphore.abort (semaphore : Semaphore σ) (signal : σ) : List (Waiter σ) × Semaphore σ :=
  (semaphore.queue.filter (·.listens signal),
    { semaphore with queue := semaphore.queue.filter fun waiter => !waiter.listens signal })

def shiftAlive : List (Waiter σ) → Option (Waiter σ) × List (Waiter σ)
  | [] => (none, [])
  | next :: rest => if next.settled then shiftAlive rest else (some next, rest)

/-- **Release a slot**: to the first waiter alive, else back. A release too many frees nothing. -/
def Semaphore.release (semaphore : Semaphore σ) : Option (Waiter σ) × Semaphore σ :=
  match shiftAlive semaphore.queue with
  | (some next, rest) => (some next, { semaphore with queue := rest })
  | (none, rest) => (none, { semaphore with current := semaphore.current - 1, queue := rest })

end

section

/-- **A semaphore in use**: the signals that fired, how many acquires there were, and which of them
were granted, released, aborted, or refused for a full queue. -/
structure SlotPool (σ : Type) where
  semaphore : Semaphore σ
  fired : List σ := []
  arrivals : Nat := 0
  granted : List Nat := []
  released : List Nat := []
  aborted : List Nat := []
  refused : List Nat := []
  deriving DecidableEq, Repr

/-- A call on the semaphore, or a signal that fires. -/
inductive SlotCall (σ : Type) where
  | acquire (signal : Option σ)
  | abort (signal : σ)
  | release (arrival : Nat)
  deriving DecidableEq, Repr

variable {σ : Type}

def SlotPool.held (pool : SlotPool σ) : List Nat :=
  pool.granted.filter fun arrival => !pool.released.contains arrival

def SlotPool.waiting (pool : SlotPool σ) : List Nat := pool.semaphore.queue.map (·.arrival)

variable [DecidableEq σ]

/-- One call. Only an acquire that holds a slot releases it. -/
def SlotPool.step (pool : SlotPool σ) : SlotCall σ → SlotPool σ
  | .acquire signal =>
    let acquired := pool.semaphore.acquire pool.arrivals signal (signal.any pool.fired.contains)
    let next := { pool with semaphore := acquired.2, arrivals := pool.arrivals + 1 }
    match acquired.1 with
    | .granted => { next with granted := pool.granted ++ [pool.arrivals] }
    | .waiting => next
    | .aborted => { next with aborted := pool.aborted ++ [pool.arrivals] }
    | .queueFull => { next with refused := pool.refused ++ [pool.arrivals] }
  | .abort signal =>
    let removed := pool.semaphore.abort signal
    { pool with
      semaphore := removed.2, fired := signal :: pool.fired
      aborted := pool.aborted ++ removed.1.map (·.arrival) }
  | .release arrival =>
    if arrival ∈ pool.held then
      let freed := pool.semaphore.release
      { pool with
        semaphore := freed.2, released := pool.released ++ [arrival]
        granted := pool.granted ++ (freed.1.map (·.arrival)).toList }
    else pool

def SlotPool.start (σ : Type) (slots : Int) : SlotPool σ := { semaphore := Semaphore.new σ slots }

/-- **A semaphore is safe**, given how many slots it has. -/
structure SlotsSafe (slots : Int) (pool : SlotPool σ) : Prop where
  counted : pool.held.length = pool.semaphore.current
  bounded : (pool.semaphore.current : Int) ≤ slots
  full : pool.semaphore.queue ≠ [] → (pool.semaphore.current : Int) = slots
  inOrder : pool.granted.Pairwise (· < ·)
  fair : ∀ arrival ∈ pool.granted, ∀ earlier < arrival,
    earlier ∈ pool.granted ∨ earlier ∈ pool.aborted ∨ earlier ∈ pool.refused
  neverGranted : ∀ arrival ∈ pool.aborted, arrival ∉ pool.granted
  noneLost : pool.held = [] → pool.semaphore.current = 0 ∧ pool.semaphore.queue = []

end

section

variable {σ : Type}

/-- **A semaphore in order.** Granted and waiting acquires, in this order, stand in the order of
their arrival; every acquire is one of these or was turned away; and the slots are counted. -/
structure Orderly (slots : Int) (pool : SlotPool σ) : Prop where
  limit : pool.semaphore.max = slots
  counted : pool.held.length = pool.semaphore.current
  bounded : (pool.semaphore.current : Int) ≤ slots
  full : pool.semaphore.queue ≠ [] → (pool.semaphore.current : Int) = slots
  alive : ∀ waiter ∈ pool.semaphore.queue, waiter.settled = false
  line : (pool.granted ++ pool.waiting).Pairwise (· < ·)
  arrived : ∀ arrival ∈ pool.granted ++ pool.waiting, arrival < pool.arrivals
  away : ∀ arrival ∈ pool.aborted ++ pool.refused,
    arrival < pool.arrivals ∧ arrival ∉ pool.granted ++ pool.waiting
  accounted : ∀ arrival < pool.arrivals,
    arrival ∈ pool.granted ++ pool.waiting ∨ arrival ∈ pool.aborted ++ pool.refused
  owned : pool.released ⊆ pool.granted

/-- **The arrivals in line**: who is served or waits, in the order of arrival, and who was turned away. -/
structure InLine (arrivals : Nat) (served turned : List Nat) : Prop where
  line : served.Pairwise (· < ·)
  arrived : ∀ arrival ∈ served, arrival < arrivals
  away : ∀ arrival ∈ turned, arrival < arrivals ∧ arrival ∉ served
  accounted : ∀ arrival < arrivals, arrival ∈ served ∨ arrival ∈ turned

section

variable {arrivals : Nat} {served turned : List Nat}

theorem InLine.join (inLine : InLine arrivals served turned) :
    InLine (arrivals + 1) (served ++ [arrivals]) turned where
  line := by
    refine List.pairwise_append.mpr ⟨inLine.line, List.pairwise_singleton _ _, fun earlier there newest same => ?_⟩
    exact List.mem_singleton.mp same ▸ inLine.arrived earlier there
  arrived arrival there := by
    rcases List.mem_append.mp there with before | newest
    · exact Nat.lt_succ_of_lt (inLine.arrived arrival before)
    · exact List.mem_singleton.mp newest ▸ Nat.lt_succ_self _
  away arrival gone := by
    obtain ⟨known, unserved⟩ := inLine.away arrival gone
    refine ⟨Nat.lt_succ_of_lt known, fun there => ?_⟩
    rcases List.mem_append.mp there with before | newest
    · exact unserved before
    · exact Nat.lt_irrefl _ (List.mem_singleton.mp newest ▸ known)
  accounted arrival known := by
    rcases Nat.lt_succ_iff_lt_or_eq.mp known with before | rfl
    · exact (inLine.accounted arrival before).imp_left (List.mem_append_left _)
    · exact .inl (List.mem_append_right _ (List.mem_singleton_self _))

theorem InLine.turn (inLine : InLine arrivals served turned) {more : List Nat}
    (moved : ∀ arrival, arrival ∈ more ↔ arrival ∈ turned ∨ arrival = arrivals) :
    InLine (arrivals + 1) served more where
  line := inLine.line
  arrived arrival there := Nat.lt_succ_of_lt (inLine.arrived arrival there)
  away arrival gone := by
    rcases (moved arrival).mp gone with before | rfl
    · exact (inLine.away arrival before).imp_left Nat.lt_succ_of_lt
    · exact ⟨Nat.lt_succ_self _, fun there => Nat.lt_irrefl _ (inLine.arrived _ there)⟩
  accounted arrival known := by
    rcases Nat.lt_succ_iff_lt_or_eq.mp known with before | newest
    · exact (inLine.accounted arrival before).imp_right fun gone => (moved arrival).mpr (.inl gone)
    · exact .inr ((moved arrival).mpr (.inr newest))

theorem InLine.leave (inLine : InLine arrivals served turned) {left more : List Nat}
    (fewer : left.Sublist served) (before : turned ⊆ more)
    (kept : ∀ arrival ∈ served, arrival ∈ left ∨ arrival ∈ more)
    (gone : ∀ arrival ∈ more, arrival ∈ turned ∨ arrival ∈ served ∧ arrival ∉ left) :
    InLine arrivals left more where
  line := inLine.line.sublist fewer
  arrived arrival there := inLine.arrived arrival (fewer.subset there)
  away arrival member := by
    rcases gone arrival member with old | ⟨there, now⟩
    · obtain ⟨known, unserved⟩ := inLine.away arrival old
      exact ⟨known, fun again => unserved (fewer.subset again)⟩
    · exact ⟨inLine.arrived arrival there, now⟩
  accounted arrival known := by
    rcases inLine.accounted arrival known with there | old
    · exact kept arrival there
    · exact .inr (before old)

end

variable {slots : Int} {pool : SlotPool σ}

theorem Orderly.inLine (orderly : Orderly slots pool) :
    InLine pool.arrivals (pool.granted ++ pool.waiting) (pool.aborted ++ pool.refused) :=
  ⟨orderly.line, orderly.arrived, orderly.away, orderly.accounted⟩

theorem Orderly.safe (positive : 1 ≤ slots) (orderly : Orderly slots pool) :
    SlotsSafe slots pool where
  counted := orderly.counted
  bounded := orderly.bounded
  full := orderly.full
  inOrder := (List.pairwise_append.mp orderly.line).1
  fair := by
    intro arrival granted earlier before
    have known := orderly.arrived arrival (List.mem_append_left _ granted)
    rcases orderly.accounted earlier (Nat.lt_trans before known) with served | turned
    · rcases List.mem_append.mp served with first | waits
      · exact Or.inl first
      · -- whoever waits came after everyone who was granted
        have later := (List.pairwise_append.mp orderly.line).2.2 arrival granted earlier waits
        exact absurd later (Nat.lt_asymm before)
    · exact Or.inr (List.mem_append.mp turned)
  neverGranted := by
    intro arrival aborted granted
    exact (orderly.away arrival (List.mem_append_left _ aborted)).2 (List.mem_append_left _ granted)
  noneLost := by
    intro idle
    have none_taken : pool.semaphore.current = 0 := by rw [← orderly.counted, idle]; rfl
    refine ⟨none_taken, ?_⟩
    by_contra queued
    have taken := orderly.full queued
    rw [none_taken] at taken
    omega

theorem start_orderly (positive : 1 ≤ slots) : Orderly slots (SlotPool.start σ slots) where
  limit := Int.max_eq_right positive
  counted := rfl
  bounded := by
    show (0 : Int) ≤ slots
    omega
  full := fun queued => absurd rfl queued
  alive := nofun
  line := List.Pairwise.nil
  arrived := nofun
  away := nofun
  accounted := nofun
  owned := List.nil_subset _

end

section

variable {σ : Type} [DecidableEq σ] {slots : Int} {pool : SlotPool σ}

theorem held_append {granted released : List Nat} {arrival : Nat} (fresh : arrival ∉ released) :
    (granted ++ [arrival]).filter (fun other => !released.contains other)
      = granted.filter (fun other => !released.contains other) ++ [arrival] := by
  rw [List.filter_append]
  simp [fresh]

theorem held_release {granted released : List Nat} {arrival : Nat} (distinct : granted.Nodup)
    (held : arrival ∈ granted.filter fun other => !released.contains other) :
    (granted.filter fun other => !(released ++ [arrival]).contains other).length + 1
      = (granted.filter fun other => !released.contains other).length := by
  have erased : (granted.filter fun other => !(released ++ [arrival]).contains other)
      = (granted.filter fun other => !released.contains other).erase arrival := by
    rw [(distinct.filter _).erase_eq_filter, List.filter_filter]
    congr 1
    funext other
    by_cases same : other = arrival
    · simp [same]
    · simp [same]
  rw [erased, List.length_erase_of_mem held]
  have some_held := List.length_pos_of_mem held
  omega

/-- **What an acquire does**: it takes a free slot, joins the queue of a full semaphore, or is
turned away. -/
theorem acquire_cases (pool : SlotPool σ) (signal : Option σ) :
    ((pool.semaphore.current : Int) < pool.semaphore.max ∧ pool.step (.acquire signal) = { pool with
            semaphore := { pool.semaphore with current := pool.semaphore.current + 1 }
            arrivals := pool.arrivals + 1, granted := pool.granted ++ [pool.arrivals] }) ∨
      (¬ (pool.semaphore.current : Int) < pool.semaphore.max ∧ pool.step (.acquire signal) =
          { pool with
            semaphore := { pool.semaphore with
                queue := pool.semaphore.queue ++ [{ arrival := pool.arrivals, signal := signal }] }
            arrivals := pool.arrivals + 1 }) ∨
      ∃ aborted refused, aborted ++ refused = [pool.arrivals] ∧ pool.step (.acquire signal) =
          { pool with
            arrivals := pool.arrivals + 1, aborted := pool.aborted ++ aborted
            refused := pool.refused ++ refused } := by
  have refuse : ∀ outcome, pool.semaphore.acquire pool.arrivals signal
        (signal.any pool.fired.contains) = (outcome, pool.semaphore) →
      (outcome = .aborted ∨ outcome = .queueFull) →
        ∃ aborted refused, aborted ++ refused = [pool.arrivals] ∧ pool.step (.acquire signal) =
            { pool with
              arrivals := pool.arrivals + 1, aborted := pool.aborted ++ aborted
              refused := pool.refused ++ refused } := by
    rintro outcome acquired (rfl | rfl)
    · refine ⟨[pool.arrivals], [], rfl, ?_⟩
      rw [SlotPool.step, acquired, List.append_nil]
    · refine ⟨[], [pool.arrivals], rfl, ?_⟩
      rw [SlotPool.step, acquired, List.append_nil]
  by_cases fired : signal.any pool.fired.contains = true
  · exact Or.inr (Or.inr (refuse .aborted (if_pos fired) (Or.inl rfl)))
  · by_cases free : (pool.semaphore.current : Int) < pool.semaphore.max
    · refine Or.inl ⟨free, ?_⟩
      rw [SlotPool.step, Semaphore.acquire, if_neg fired, if_pos free]
    · refine Or.inr ?_
      by_cases crowded : maxQueue ≤ pool.semaphore.queue.length
      · refine Or.inr (refuse .queueFull ?_ (Or.inr rfl))
        rw [Semaphore.acquire, if_neg fired, if_neg free, if_pos crowded]
      · refine Or.inl ⟨free, ?_⟩
        rw [SlotPool.step, Semaphore.acquire, if_neg fired, if_neg free, if_neg crowded]

/-- **An acquire keeps the semaphore in order.** -/
theorem acquire_keeps (orderly : Orderly slots pool) (signal : Option σ) :
    Orderly slots (pool.step (.acquire signal)) := by
  rcases acquire_cases pool signal with ⟨free, stepped⟩ | ⟨taken, stepped⟩ |
    ⟨aborted, refused, turned, stepped⟩
  · rw [stepped]
    rw [orderly.limit] at free
    -- a free slot means that nobody waits
    have idle : pool.semaphore.queue = [] := by
      by_contra queued
      have taken := orderly.full queued
      omega
    have none_waiting : pool.waiting = [] := by rw [SlotPool.waiting, idle]; rfl
    have fresh : pool.arrivals ∉ pool.released := fun released =>
      Nat.lt_irrefl _ (orderly.arrived _ (List.mem_append_left _ (orderly.owned released)))
    have joined := orderly.inLine.join
    have whole : pool.granted ++ pool.waiting ++ [pool.arrivals]
        = pool.granted ++ [pool.arrivals] ++ pool.waiting := by
      rw [none_waiting, List.append_nil, List.append_nil]
    rw [whole] at joined
    refine ⟨orderly.limit, ?_, ?_, fun queued => absurd idle queued, orderly.alive, joined.line,
      joined.arrived, joined.away, joined.accounted, ?_⟩
    · show (List.filter _ (pool.granted ++ [pool.arrivals])).length = pool.semaphore.current + 1
      rw [held_append fresh, List.length_append]
      exact congrArg (· + 1) orderly.counted
    · show ((pool.semaphore.current + 1 : Nat) : Int) ≤ slots
      omega
    · exact fun arrival released => List.mem_append_left _ (orderly.owned released)
  · rw [stepped]
    rw [orderly.limit] at taken
    have filled : (pool.semaphore.current : Int) = slots := by
      have bound := orderly.bounded
      omega
    have joined := orderly.inLine.join
    have whole : pool.granted ++ pool.waiting ++ [pool.arrivals]
        = pool.granted ++ (pool.semaphore.queue ++
          [({ arrival := pool.arrivals, signal := signal } : Waiter σ)]).map Waiter.arrival := by
      rw [List.map_append, List.append_assoc]
      rfl
    rw [whole] at joined
    refine ⟨orderly.limit, orderly.counted, orderly.bounded, fun _ => filled, fun waiter queued => ?_,
      joined.line, joined.arrived, joined.away, joined.accounted, orderly.owned⟩
    rcases List.mem_append.mp queued with before | newest
    · exact orderly.alive waiter before
    · rw [List.mem_singleton.mp newest]
  · rw [stepped]
    have moved : ∀ arrival, arrival ∈ (pool.aborted ++ aborted) ++ (pool.refused ++ refused) ↔
        arrival ∈ pool.aborted ++ pool.refused ∨ arrival = pool.arrivals := by
      intro arrival
      have newest : arrival ∈ aborted ++ refused ↔ arrival = pool.arrivals := by
        rw [turned, List.mem_singleton]
      rw [← newest]
      simp only [List.mem_append]
      tauto
    have inLine := orderly.inLine.turn moved
    exact ⟨orderly.limit, orderly.counted, orderly.bounded, orderly.full, orderly.alive, inLine.line,
      inLine.arrived, inLine.away, inLine.accounted, orderly.owned⟩

/-- **An abort keeps the semaphore in order**: who leaves the queue is accounted for. -/
theorem abort_keeps (orderly : Orderly slots pool) (signal : σ) :
    Orderly slots (pool.step (.abort signal)) := by
  have kept : ∀ arrival, arrival ∈ (pool.step (.abort signal)).waiting ↔
      ∃ waiter ∈ pool.semaphore.queue, waiter.listens signal = false ∧ waiter.arrival = arrival := by
    intro arrival
    simp [SlotPool.waiting, SlotPool.step, Semaphore.abort, and_assoc]
  have removed : ∀ arrival, arrival ∈ (pool.semaphore.abort signal).1.map (·.arrival) ↔
      ∃ waiter ∈ pool.semaphore.queue, waiter.listens signal = true ∧ waiter.arrival = arrival := by
    intro arrival
    simp [Semaphore.abort, and_assoc]
  have shorter : (pool.step (.abort signal)).waiting.Sublist pool.waiting :=
    List.filter_sublist.map _
  obtain ⟨-, queued, ahead⟩ := List.pairwise_append.mp orderly.line
  have distinct : (pool.semaphore.queue.map (·.arrival)).Nodup := queued.imp Nat.ne_of_lt
  have moved : ∀ arrival, arrival ∈ (pool.step (.abort signal)).aborted ++ pool.refused ↔
      arrival ∈ pool.aborted ++ pool.refused
        ∨ arrival ∈ (pool.semaphore.abort signal).1.map (·.arrival) := by
    intro arrival
    simp only [SlotPool.step, List.mem_append]
    tauto
  have inLine : InLine pool.arrivals (pool.granted ++ (pool.step (.abort signal)).waiting)
      ((pool.step (.abort signal)).aborted ++ pool.refused) := by
    refine orderly.inLine.leave ((List.Sublist.refl _).append shorter)
      (fun arrival old => (moved arrival).mpr (.inl old)) (fun arrival there => ?_) fun arrival gone => ?_
    · rcases List.mem_append.mp there with granted | waits
      · exact .inl (List.mem_append_left _ granted)
      · obtain ⟨waiter, member, rfl⟩ := List.mem_map.mp waits
        cases listens : waiter.listens signal with
        | true => exact .inr ((moved _).mpr (.inr ((removed _).mpr ⟨waiter, member, listens, rfl⟩)))
        | false => exact .inl (List.mem_append_right _ ((kept _).mpr ⟨waiter, member, listens, rfl⟩))
    · refine ((moved arrival).mp gone).imp_right fun now => ?_
      obtain ⟨waiter, member, listens, rfl⟩ := (removed arrival).mp now
      have waits : waiter.arrival ∈ pool.waiting := List.mem_map_of_mem member
      refine ⟨List.mem_append_right _ waits, fun again => ?_⟩
      rcases List.mem_append.mp again with granted | still
      · exact Nat.lt_irrefl _ (ahead _ granted _ waits)
      · obtain ⟨other, present, deaf, same⟩ := (kept _).mp still
        rw [List.inj_on_of_nodup_map distinct present member same, listens] at deaf
        cases deaf
  refine ⟨orderly.limit, orderly.counted, orderly.bounded, fun left => orderly.full fun empty => left ?_,
    fun waiter member => orderly.alive waiter (List.mem_filter.mp member).1, inLine.line, inLine.arrived,
    inLine.away, inLine.accounted, orderly.owned⟩
  show pool.semaphore.queue.filter _ = []
  rw [empty, List.filter_nil]

/-- **A release keeps the semaphore in order**: the slot goes to the first in line, or is free. -/
theorem release_keeps (orderly : Orderly slots pool) (arrival : Nat) :
    Orderly slots (pool.step (.release arrival)) := by
  by_cases held : arrival ∈ pool.held
  · have granted : arrival ∈ pool.granted := (List.mem_filter.mp held).1
    have distinct : pool.granted.Nodup := (List.pairwise_append.mp orderly.line).1.imp Nat.ne_of_lt
    have fewer := held_release distinct held
    have counted : (pool.granted.filter fun other => !pool.released.contains other).length
        = pool.semaphore.current := orderly.counted
    have owned : pool.released ++ [arrival] ⊆ pool.granted := by
      intro other released
      rcases List.mem_append.mp released with before | now
      · exact orderly.owned before
      · exact List.mem_singleton.mp now ▸ granted
    rw [SlotPool.step, if_pos held]
    cases queue : pool.semaphore.queue with
    | nil =>
      have freed : pool.semaphore.release =
          (none, { pool.semaphore with current := pool.semaphore.current - 1, queue := [] }) := by
        rw [Semaphore.release, queue]
        rfl
      have none_waiting : pool.waiting = [] := by rw [SlotPool.waiting, queue]; rfl
      have inLine := orderly.inLine
      rw [none_waiting] at inLine
      rw [freed]
      dsimp only [Option.map_none, Option.toList_none]
      rw [List.append_nil]
      refine ⟨orderly.limit, ?_, ?_, fun left => absurd rfl left, nofun, inLine.line,
        inLine.arrived, inLine.away, inLine.accounted, owned⟩
      · show (pool.granted.filter fun other => !(pool.released ++ [arrival]).contains other).length
          = pool.semaphore.current - 1
        omega
      · show ((pool.semaphore.current - 1 : Nat) : Int) ≤ slots
        have bound := orderly.bounded
        omega
    | cons next rest =>
      have alive := orderly.alive next (by rw [queue]; exact List.mem_cons_self)
      have freed : pool.semaphore.release = (some next, { pool.semaphore with queue := rest }) := by
        rw [Semaphore.release, queue, shiftAlive, alive]
        rfl
      have waits : pool.waiting = next.arrival :: rest.map (·.arrival) := by
        rw [SlotPool.waiting, queue]
        rfl
      have moved : pool.granted ++ [next.arrival] ++ rest.map (·.arrival)
          = pool.granted ++ pool.waiting := by
        rw [waits, List.append_assoc, List.singleton_append]
      have fresh : next.arrival ∉ pool.released ++ [arrival] := fun released => by
        have ahead := (List.pairwise_append.mp orderly.line).2.2 _ (owned released) next.arrival
          (by rw [waits]; exact List.mem_cons_self)
        exact Nat.lt_irrefl _ ahead
      rw [freed]
      refine ⟨orderly.limit, ?_, orderly.bounded, fun _ => orderly.full ?_, ?_, ?_, ?_, ?_, ?_, ?_⟩
      · show (List.filter _ (pool.granted ++ [next.arrival])).length = pool.semaphore.current
        rw [held_append fresh, List.length_append, List.length_singleton]
        omega
      · rw [queue]
        exact List.cons_ne_nil _ _
      · exact fun waiter member =>
          orderly.alive waiter (by rw [queue]; exact List.mem_cons_of_mem _ member)
      · exact moved ▸ orderly.line
      · exact moved ▸ orderly.arrived
      · exact moved ▸ orderly.away
      · exact moved ▸ orderly.accounted
      · exact fun other released => List.mem_append_left _ (owned released)
  · rw [SlotPool.step, if_neg held]
    exact orderly

/-- **The semaphore is safe.** For every limit of at least one and every run of acquires, aborts and
paired releases: the slots that are held are counted and within the limit, acquires wait only while
all slots are taken, slots go out in the order of arrival and past nobody who was not turned away,
an aborted acquire gets none, and with all slots released the counter is zero. -/
theorem semaphore_safe (slots : Int) (positive : 1 ≤ slots) (calls : List (SlotCall σ)) :
    SlotsSafe slots (Runs.finish SlotPool.step (SlotPool.start σ slots) calls) := by
  have keeps : ∀ (pool : SlotPool σ) (call : SlotCall σ), Orderly slots pool →
      Orderly slots (pool.step call) := by
    intro pool call orderly
    cases call with
    | acquire signal => exact acquire_keeps orderly signal
    | abort signal => exact abort_keeps orderly signal
    | release arrival => exact release_keeps orderly arrival
  exact (Runs.finish_keeps SlotPool.step keeps (start_orderly positive) calls).safe positive

theorem semaphore_safe_abort :
    let pool := Runs.finish SlotPool.step (SlotPool.start Nat 1)
      [.acquire none, .acquire (some 7), .acquire none, .abort 7, .release 0]
    SlotsSafe 1 pool ∧ pool.held = [2] ∧ pool.aborted = [1] :=
  ⟨semaphore_safe 1 (Int.le_refl 1) _, by decide, by decide⟩

end

end PiCrew.Scheduling
