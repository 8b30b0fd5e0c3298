/-
**The retry loop, and the exit that forgets its hook.**

`executeWithRetry` calls `fn` once for each attempt. After a failed attempt it gives up, or it tells
`onAttemptFailed`, sleeps and goes round again. The abort signal is read at three places of an
attempt (`Check`): before `fn` is called, after `fn` has thrown, and all through the backoff sleep.

* `loop_cancelled_iff` — the cancellation is the case exactly where the signal is read as aborted
  after a number of attempts that each wanted another one;
* `executeWithRetry_contract_iff` — the contract of the loop holds exactly where no abort falls
  between a failed attempt that is to be repeated and the start of the next one. There
  `throwIfCancelled` leaves the loop, and `onRetryGivenUp` is not called, as it is on the exit of
  an abort seen right after an attempt.
-/

import Mathlib.Data.List.Basic

namespace PiCrew.Recovery.RetryExecutor

/-! ### Policy, hooks and the moments of an abort -/

/-- The part of the policy that decides the number of attempts. The configuration admits integers
only. -/
structure RetryPolicy where
  maxAttempts : Int := 3
  retryableErrors : List String := []
  deriving DecidableEq, Repr

def RetryPolicy.normalizedAttempts (policy : RetryPolicy) : Nat := (max 1 policy.maxAttempts).toNat

/-- Where `executeWithRetry` reads the abort signal. -/
inductive Check where
  | top (attempt : Nat)
  | caught (attempt : Nat)
  | asleep (attempt : Nat)
  deriving DecidableEq, Repr

def Check.clock : Check → Nat
  | .top attempt => 3 * attempt
  | .caught attempt => 3 * attempt + 1
  | .asleep attempt => 3 * attempt + 2

/-- The answer of a hook that decides. One that throws, or does not settle in time, gives `soft`. -/
inductive HookAnswer where
  | answered (decision : Bool)
  | soft
  deriving DecidableEq, Repr

/-- **What surrounds the loop**: the outcome of each call of `fn`, the text of an error, the test of
a glob against it, the two deciding hooks, and the clock at which the signal is first read as
aborted, if it ever is. -/
structure RetryHost (α ε : Type) where
  fn : Nat → Except ε α
  message : ε → String
  globTest : String → String → Bool := fun _ _ => false
  shouldRetry : Option (Nat → ε → HookAnswer) := none
  noProgress : Option (Nat → ε → Option ε → HookAnswer) := none
  abortAt : Option Nat := none

/-- What `executeWithRetry` throws. -/
inductive RetryError (ε : Type) where
  | original (error : ε)
  | noProgress (attempt : Nat) (error : ε)
  | cancelled
  | withoutError
  deriving DecidableEq, Repr

section

variable {α ε : Type} (host : RetryHost α ε) (policy : RetryPolicy)

/-- `signal.aborted` at a check. An aborted signal stays aborted. -/
def RetryHost.aborted (check : Check) : Bool :=
  match host.abortAt with
  | none => false
  | some clock => decide (clock ≤ check.clock)

/-- `isRetryable`: with no patterns every error is. -/
def isRetryable (error : ε) : Bool :=
  policy.retryableErrors.isEmpty
    || policy.retryableErrors.any fun pattern => host.globTest pattern (host.message error)

/-- The pre-gate refuses. A gate that throws is taken to agree. -/
def refusesRetry (attempt : Nat) (error : ε) : Bool :=
  match host.shouldRetry with
  | none => false
  | some gate => gate attempt error == .answered false

/-- The detector sees no progress. One that throws or hangs is taken to see some. -/
def seesNoProgress (attempt : Nat) (error : ε) (previous : Option ε) : Bool :=
  match host.noProgress with
  | none => false
  | some detector => detector attempt error previous == .answered true

inductive Verdict (ε : Type) where
  | giveUp (thrown : RetryError ε)
  | again
  deriving DecidableEq, Repr

/-- **The body of the `catch`**, up to the backoff sleep. -/
def verdict (attempt : Nat) (error : ε) (previous : Option ε) : Verdict ε :=
  if host.aborted (.caught attempt) then .giveUp (.original error)
  else if attempt ≥ policy.normalizedAttempts ∨ isRetryable host policy error = false then
    .giveUp (.original error)
  else if refusesRetry host attempt error then .giveUp (.original error)
  else if seesNoProgress host attempt error previous then .giveUp (.noProgress attempt error)
  else .again

/-- A run of the loop: the attempts it started, those reported to `onAttemptFailed` and to
`onRetryGivenUp`, and what it returned or threw. -/
structure RetryRun (α ε : Type) where
  started : List Nat := []
  attemptFailed : List Nat := []
  givenUp : List Nat := []
  result : Except (RetryError ε) α

def RetryRun.after (attempt : Nat) (rest : RetryRun α ε) : RetryRun α ε :=
  { rest with started := attempt :: rest.started, attemptFailed := attempt :: rest.attemptFailed }

/-- **The `for` loop**, with the number of turns it has left. -/
def loop : Nat → Nat → Option ε → RetryRun α ε
  | 0, _, lastError => { result := .error (lastError.elim .withoutError .original) }
  | left + 1, attempt, previous =>
    if host.aborted (.top attempt) then { result := .error .cancelled }
    else
      match host.fn attempt with
      | .ok value => { started := [attempt], result := .ok value }
      | .error error =>
        match verdict host policy attempt error previous with
        | .giveUp thrown =>
          { started := [attempt], givenUp := [attempt], result := .error thrown }
        | .again =>
          if host.aborted (.asleep attempt) then
            { started := [attempt], attemptFailed := [attempt], result := .error .cancelled }
          else (loop left (attempt + 1) (some error)).after attempt

def executeWithRetry : RetryRun α ε := loop host policy policy.normalizedAttempts 1 none

/-! ### One turn of the loop -/

/-- The ways a turn of the loop ends. -/
inductive Turn (left attempt : Nat) (previous : Option ε) : RetryRun α ε → Prop where
  | cancelledBefore (seen : host.aborted (.top attempt) = true) :
      Turn left attempt previous { result := .error .cancelled }
  | returned {value : α} (quiet : host.aborted (.top attempt) = false)
      (outcome : host.fn attempt = .ok value) :
      Turn left attempt previous { started := [attempt], result := .ok value }
  | gaveUp {error : ε} {thrown : RetryError ε} (quiet : host.aborted (.top attempt) = false)
      (outcome : host.fn attempt = .error error)
      (decided : verdict host policy attempt error previous = .giveUp thrown) :
      Turn left attempt previous { started := [attempt], givenUp := [attempt], result := .error thrown }
  | cancelledAsleep {error : ε} (quiet : host.aborted (.top attempt) = false)
      (outcome : host.fn attempt = .error error)
      (decided : verdict host policy attempt error previous = .again)
      (seen : host.aborted (.asleep attempt) = true) :
      Turn left attempt previous
        { started := [attempt], attemptFailed := [attempt], result := .error .cancelled }
  | again {error : ε} (quiet : host.aborted (.top attempt) = false)
      (outcome : host.fn attempt = .error error)
      (decided : verdict host policy attempt error previous = .again)
      (awake : host.aborted (.asleep attempt) = false) :
      Turn left attempt previous ((loop host policy left (attempt + 1) (some error)).after attempt)

theorem loop_turn (left attempt : Nat) (previous : Option ε) :
    Turn host policy left attempt previous (loop host policy (left + 1) attempt previous) := by
  by_cases seen : host.aborted (.top attempt) = true
  · simp only [loop, seen, if_true]
    exact .cancelledBefore seen
  · have quiet : host.aborted (.top attempt) = false := Bool.eq_false_iff.mpr seen
    cases outcome : host.fn attempt with
    | ok value =>
      simp only [loop, quiet, outcome, Bool.false_eq_true, if_false]
      exact .returned quiet outcome
    | error error =>
      cases decided : verdict host policy attempt error previous with
      | giveUp thrown =>
        simp only [loop, quiet, outcome, decided, Bool.false_eq_true, if_false]
        exact .gaveUp quiet outcome decided
      | again =>
        by_cases asleep : host.aborted (.asleep attempt) = true
        · simp only [loop, quiet, outcome, decided, asleep, Bool.false_eq_true, if_false, if_true]
          exact .cancelledAsleep quiet outcome decided asleep
        · have awake : host.aborted (.asleep attempt) = false := Bool.eq_false_iff.mpr asleep
          simp only [loop, quiet, outcome, decided, awake, Bool.false_eq_true, if_false]
          exact .again quiet outcome decided awake

/-! ### What every run keeps -/

@[simp] theorem after_started (attempt : Nat) (rest : RetryRun α ε) :
    (rest.after attempt).started = attempt :: rest.started := rfl

@[simp] theorem after_result (attempt : Nat) (rest : RetryRun α ε) :
    (rest.after attempt).result = rest.result := rfl

theorem loop_started_le (left attempt : Nat) (previous : Option ε) :
    (loop host policy left attempt previous).started.length ≤ left := by
  induction left generalizing attempt previous with
  | zero => simp [loop]
  | succ left ih =>
    have turn := loop_turn host policy left attempt previous
    generalize loop host policy (left + 1) attempt previous = run at turn ⊢
    cases turn with
    | again _ _ _ _ =>
      have rest := ih (attempt + 1) (some ‹ε›)
      simp only [after_started, List.length_cons]
      omega
    | _ => simp

theorem loop_started_quiet (left attempt : Nat) (previous : Option ε) :
    ∀ other ∈ (loop host policy left attempt previous).started,
      host.aborted (.top other) = false := by
  induction left generalizing attempt previous with
  | zero => simp [loop]
  | succ left ih =>
    have turn := loop_turn host policy left attempt previous
    generalize loop host policy (left + 1) attempt previous = run at turn ⊢
    cases turn with
    | cancelledBefore _ => simp
    | again quiet _ _ _ =>
      intro other member
      rcases List.mem_cons.mp member with rfl | later
      · exact quiet
      · exact ih (attempt + 1) _ other later
    | returned quiet _ | gaveUp quiet _ _ | cancelledAsleep quiet _ _ _ => simpa using quiet

variable {left attempt : Nat}

theorem loop_failed_of_thrown {previous : Option ε} {thrown : RetryError ε}
    (result : (loop host policy left attempt previous).result = .error thrown) :
    ∀ other ∈ (loop host policy left attempt previous).started, ∃ error, host.fn other = .error error := by
  induction left generalizing attempt previous with
  | zero => simp [loop]
  | succ left ih =>
    have turn := loop_turn host policy left attempt previous
    generalize loop host policy (left + 1) attempt previous = run at turn result ⊢
    cases turn with
    | cancelledBefore _ => simp
    | returned _ _ => cases result
    | @gaveUp error _ _ outcome _ | @cancelledAsleep error _ outcome _ _ => simp [outcome]
    | @again error _ outcome _ _ =>
      intro other member
      rcases List.mem_cons.mp member with rfl | later
      · exact ⟨error, outcome⟩
      · exact ih result other later

theorem verdict_not_cancelled {error : ε} {previous : Option ε} {thrown : RetryError ε}
    (decided : verdict host policy attempt error previous = .giveUp thrown) : thrown ≠ .cancelled := by
  rintro rfl
  unfold verdict at decided
  split_ifs at decided <;> simp at decided

theorem attempt_lt_of_again {error : ε} {previous : Option ε}
    (decided : verdict host policy attempt error previous = .again) :
    attempt < policy.normalizedAttempts := by
  unfold verdict at decided
  split_ifs at decided with _ last
  rw [not_or] at last
  omega

/-- **How a run ends**: with a value and no hook, thrown with the hook called once, or cancelled and
no hook. -/
inductive Ending : RetryRun α ε → Prop where
  | returned {run : RetryRun α ε} {value : α} (result : run.result = .ok value)
      (silent : run.givenUp = []) : Ending run
  | gaveUp {run : RetryRun α ε} {thrown : RetryError ε} (result : run.result = .error thrown)
      (other : thrown ≠ .cancelled) (told : run.givenUp.length = 1) : Ending run
  | cancelled {run : RetryRun α ε} (result : run.result = .error .cancelled)
      (silent : run.givenUp = []) : Ending run

theorem loop_ending (last : attempt + left = policy.normalizedAttempts + 1)
    (some_left : 0 < left) (previous : Option ε) : Ending (loop host policy left attempt previous) := by
  induction left generalizing attempt previous with
  | zero => exact absurd some_left (Nat.lt_irrefl 0)
  | succ left ih =>
    have turn := loop_turn host policy left attempt previous
    generalize loop host policy (left + 1) attempt previous = run at turn ⊢
    cases turn with
    | cancelledBefore _ => exact .cancelled rfl rfl
    | returned _ _ => exact .returned rfl rfl
    | gaveUp _ _ decided => exact .gaveUp rfl (verdict_not_cancelled host policy decided) rfl
    | cancelledAsleep _ _ _ _ => exact .cancelled rfl rfl
    | @again error _ _ decided _ =>
      have before := attempt_lt_of_again host policy decided
      have next : attempt + 1 + left = policy.normalizedAttempts + 1 := by omega
      cases ih next (by omega) (some error) with
      | returned result silent => exact .returned result silent
      | gaveUp result other told => exact .gaveUp result other told
      | cancelled result silent => exact .cancelled result silent

/-! ### When a run is cancelled -/

/-- The error of the attempt before this one, as `noProgress` is told it. -/
def previousError : Nat → Option ε
  | 0 | 1 => none
  | attempt + 2 =>
    match host.fn (attempt + 1) with
    | .ok _ => none
    | .error error => some error

def WantsAnother (attempt : Nat) : Prop := ∃ error, host.fn attempt = .error error
    ∧ verdict host policy attempt error (previousError host attempt) = .again

/-- **An abort in the backoff**: attempts that were each to be repeated, and the signal aborted by
the time the next one would start. -/
def AbortInBackoff : Prop :=
  ∃ attempt, 1 ≤ attempt ∧ (∀ earlier, 1 ≤ earlier → earlier ≤ attempt → WantsAnother host policy earlier)
    ∧ host.aborted (.top (attempt + 1)) = true

theorem previousError_succ (first : 1 ≤ attempt) {error : ε}
    (outcome : host.fn attempt = .error error) : previousError host (attempt + 1) = some error := by
  obtain ⟨before, rfl⟩ : ∃ before, attempt = before + 1 := ⟨attempt - 1, by omega⟩
  simp only [previousError, outcome]

theorem aborted_mono {check later : Check} (order : check.clock ≤ later.clock)
    (seen : host.aborted check = true) : host.aborted later = true := by
  unfold RetryHost.aborted at seen ⊢
  cases moment : host.abortAt with
  | none => simp [moment] at seen
  | some clock =>
    simp only [moment, decide_eq_true_eq] at seen ⊢
    exact Nat.le_trans seen order

theorem quiet_of_wants (wants : WantsAnother host policy attempt) :
    host.aborted (.top attempt) = false := by
  obtain ⟨error, _, decided⟩ := wants
  by_contra seen
  have top : host.aborted (.top attempt) = true := by simpa using seen
  have caught : host.aborted (.caught attempt) = true :=
    aborted_mono host (by simp [Check.clock]) top
  simp [verdict, caught] at decided

/-- The signal is aborted at the start of an attempt from this one on, and every attempt before it wanted
another one. -/
def AbortedFrom (attempt : Nat) : Prop := ∃ next, attempt ≤ next + 1
    ∧ (∀ earlier, attempt ≤ earlier → earlier ≤ next → WantsAnother host policy earlier)
    ∧ host.aborted (.top (next + 1)) = true

theorem not_abortedFrom (quiet : host.aborted (.top attempt) = false)
    (content : ¬ WantsAnother host policy attempt) : ¬ AbortedFrom host policy attempt := by
  rintro ⟨next, reached, wants, seen⟩
  rcases Nat.lt_or_ge next attempt with before | later
  · rw [show next + 1 = attempt by omega, quiet] at seen
    exact Bool.false_ne_true seen
  · exact content (wants attempt (Nat.le_refl _) later)

theorem abortedFrom_succ (quiet : host.aborted (.top attempt) = false)
    (another : WantsAnother host policy attempt) :
    AbortedFrom host policy (attempt + 1) ↔ AbortedFrom host policy attempt := by
  constructor
  · rintro ⟨next, reached, wants, seen⟩
    refine ⟨next, by omega, fun earlier low high => ?_, seen⟩
    rcases Nat.eq_or_lt_of_le low with rfl | later
    · exact another
    · exact wants earlier later high
  · rintro ⟨next, reached, wants, seen⟩
    rcases Nat.lt_or_ge next attempt with early | later
    · rw [show next + 1 = attempt by omega, quiet] at seen
      exact absurd seen Bool.false_ne_true
    · exact ⟨next, by omega, fun earlier low high => wants earlier (by omega) high, seen⟩

/-- **A run is cancelled** exactly where the signal is aborted at the start of an attempt, and every
attempt before it wanted another one. -/
theorem loop_cancelled_iff (first : 1 ≤ attempt)
    (last : attempt + left = policy.normalizedAttempts + 1) (some_left : 0 < left) :
    (loop host policy left attempt (previousError host attempt)).result = .error .cancelled ↔
      AbortedFrom host policy attempt := by
  induction left generalizing attempt with
  | zero => exact absurd some_left (Nat.lt_irrefl 0)
  | succ left ih =>
    have turn := loop_turn host policy left attempt (previousError host attempt)
    generalize loop host policy (left + 1) attempt (previousError host attempt) = run at turn ⊢
    cases turn with
    | cancelledBefore seen =>
      refine iff_of_true rfl ⟨attempt - 1, by omega, fun earlier low high => by omega, ?_⟩
      rw [Nat.sub_add_cancel first]
      exact seen
    | returned quiet outcome =>
      refine iff_of_false (by simp) (not_abortedFrom host policy quiet ?_)
      rintro ⟨error, failed, _⟩
      rw [outcome] at failed
      cases failed
    | gaveUp quiet outcome decided =>
      refine iff_of_false ?_ (not_abortedFrom host policy quiet ?_)
      · simpa using verdict_not_cancelled host policy decided
      · rintro ⟨other, failed, again⟩
        rw [outcome] at failed
        cases failed
        rw [decided] at again
        cases again
    | @cancelledAsleep error quiet outcome decided seen =>
      refine iff_of_true rfl ⟨attempt, by omega, fun earlier low high => ?_, ?_⟩
      · obtain rfl : earlier = attempt := by omega
        exact ⟨error, outcome, decided⟩
      · exact aborted_mono host (by simp only [Check.clock]; omega) seen
    | @again error quiet outcome decided awake =>
      have before := attempt_lt_of_again host policy decided
      have next : attempt + 1 + left = policy.normalizedAttempts + 1 := by omega
      rw [after_result, ← previousError_succ host first outcome,
        ih (Nat.le_succ_of_le first) next (by omega)]
      exact abortedFrom_succ host policy quiet ⟨error, outcome, decided⟩

theorem loop_started_eq_nil_iff (previous : Option ε) :
    (loop host policy (left + 1) attempt previous).started = [] ↔ host.aborted (.top attempt) = true := by
  have turn := loop_turn host policy left attempt previous
  generalize loop host policy (left + 1) attempt previous = run at turn ⊢
  cases turn with
  | cancelledBefore seen => exact iff_of_true rfl seen
  | returned quiet _ | gaveUp quiet _ _ | cancelledAsleep quiet _ _ _ | again quiet _ _ _ => simp [quiet]

/-! ### The contract -/

/-- **What the loop promises of a run.** -/
structure RetryContract (run : RetryRun α ε) : Prop where
  bounded : (run.started.length : Int) ≤ policy.maxAttempts
  quiet : ∀ attempt ∈ run.started, host.aborted (.top attempt) = false
  thrown : ∀ error, run.result = .error error → run.started ≠ [] → run.givenUp.length = 1
  returned : ∀ value, run.result = .ok value → run.givenUp = []

theorem normalizedAttempts_pos : 0 < policy.normalizedAttempts := by
  unfold RetryPolicy.normalizedAttempts
  omega

/-- **The contract holds exactly where no abort falls in a backoff.** -/
theorem executeWithRetry_contract_iff (admitted : 1 ≤ policy.maxAttempts) :
    RetryContract host policy (executeWithRetry host policy) ↔ ¬ AbortInBackoff host policy := by
  have positive := normalizedAttempts_pos policy
  have ending := loop_ending host policy (Nat.add_comm 1 policy.normalizedAttempts) positive none
  have cancelled := loop_cancelled_iff host policy (Nat.le_refl 1) (Nat.add_comm 1 policy.normalizedAttempts)
    positive
  have started : (executeWithRetry host policy).started = [] ↔ host.aborted (.top 1) = true := by
    obtain ⟨left, turns⟩ := Nat.exists_eq_add_of_lt positive
    rw [executeWithRetry, turns, show 0 + left + 1 = left + 1 by omega]
    exact loop_started_eq_nil_iff host policy none
  change (executeWithRetry host policy).result = _ ↔ _ at cancelled
  change Ending (executeWithRetry host policy) at ending
  constructor
  · rintro contract ⟨attempt, first, wants, seen⟩
    have result := cancelled.mpr
      ⟨attempt, by omega, fun earlier low high => wants earlier low high, seen⟩
    have quiet := quiet_of_wants host policy (wants 1 (Nat.le_refl 1) first)
    have told := contract.thrown _ result (fun none => by simp [started.mp none] at quiet)
    cases ending with
    | returned value _ => rw [result] at value; cases value
    | gaveUp thrown other _ => rw [result] at thrown; cases thrown; exact other rfl
    | cancelled _ silent => rw [silent] at told; cases told
  · intro outside
    refine ⟨?_, loop_started_quiet host policy _ 1 none, ?_, ?_⟩
    · have short := loop_started_le host policy policy.normalizedAttempts 1 none
      rw [executeWithRetry]
      unfold RetryPolicy.normalizedAttempts at short ⊢
      omega
    · intro error result nonempty
      cases ending with
      | returned value _ => rw [result] at value; cases value
      | gaveUp _ _ told => exact told
      | cancelled thrown _ =>
        obtain ⟨next, _, wants, seen⟩ := cancelled.mp thrown
        rcases Nat.eq_zero_or_pos next with rfl | later
        · exact absurd (started.mpr seen) nonempty
        · exact absurd ⟨next, later, wants, seen⟩ outside
    · intro value result
      cases ending with
      | returned _ silent => exact silent
      | gaveUp thrown _ _ => rw [result] at thrown; cases thrown
      | cancelled _ silent => exact silent

end

/-- A host whose calls all fail with a transient error, and whose signal is aborted while the loop
sleeps after the first one. -/
def abortedWhileAsleep : RetryHost Unit String where
  fn _ := .error "ChildTimeout"
  message error := error
  abortAt := some (Check.asleep 1).clock

theorem contract_fails_asleep :
    1 ≤ ({} : RetryPolicy).maxAttempts
      ∧ (executeWithRetry abortedWhileAsleep {}).started = [1]
      ∧ (executeWithRetry abortedWhileAsleep {}).givenUp = []
      ∧ ¬ RetryContract abortedWhileAsleep {} (executeWithRetry abortedWhileAsleep {}) := by
  refine ⟨by decide, rfl, rfl, fun contract => ?_⟩
  have told := contract.thrown .cancelled rfl (by decide)
  exact absurd told (by decide)

def recoversOnce : RetryHost Nat String where
  fn attempt := if attempt = 1 then .error "ChildTimeout" else .ok attempt
  message error := error

theorem contract_recovers :
    (executeWithRetry recoversOnce {}).started = [1, 2]
      ∧ (RetryContract recoversOnce {} (executeWithRetry recoversOnce {})
        ↔ ¬ AbortInBackoff recoversOnce {}) :=
  ⟨rfl, executeWithRetry_contract_iff recoversOnce {} (by decide)⟩

end PiCrew.Recovery.RetryExecutor
