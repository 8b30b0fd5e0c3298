/-
**A model that refuses is not asked again, nor is another.**

`runtime/model/model-fallback.ts` (`isSafetyRefusalStopReason`, `hasStructuredSafetyRefusal`,
`isRetryableModelFailure`, `isRetryableModelFailureFrom`). An error is an object with links to further ones, or a
text. It is searched for a stop reason that is a refusal, in the fields of the objects and behind a marker in the
texts; then its message is classified by two lists of patterns. The search does not remember where it has been,
and a text is looked at for its first marker only.

* `hasStructuredSafetyRefusal_eq` — the source's search is a depth-first one that does not end on a cycle;
* `neverRetried_iff` — when an error with a refusal in it is not retried.
-/

import PiCrew.Broker.SpawnPolicy
import PiCrew.Library.BlindWalk
import PiCrew.Library.FlatRegex
import Mathlib.Data.Set.Finite.Range

namespace PiCrew.Models

open FlatRegex Relation
open Broker.SpawnPolicy (isSpace)

/-- The units of a text. No pattern and no reason has the half of a pair in it, so that it may stand as any
character that they do not have. -/
abbrev Text := List Char

def trim (text : Text) : Text := ((text.dropWhile isSpace).reverse.dropWhile isSpace).reverse

/-- `toLowerCase`, for the characters whose lower case is one of the basic Latin letters. -/
def toLowerCase (text : Text) : Text :=
  text.map fun char => if char = '\u212A' then 'k' else char.toLower

/-- A text in a pattern with the flag `i`. Without the flag `u` only the basic Latin letters are folded. -/
def insensitive (text : String) : List Item :=
  text.toList.map fun wanted => .chars (·.toLower == wanted) 1 (some 1) false none

def repeated (test : Char → Bool) (least : Nat) (most : Option Nat) : Item := .chars test least most false none

def dot (char : Char) : Bool := !(char = '\n' || char = '\r' || char = '\u2028' || char = '\u2029')

def isWord (char : Char) : Bool := char.isAlphanum || char = '_'

/-- `\b`. -/
def wordBoundary : Item := .anchor fun before after => before.any isWord != after.any isWord

def gap : List Char := ['_', ' ']

/-- An HTTP status, as in `/\b429\b/`. -/
def status (code : String) : List Item := wordBoundary :: literal code.toList ++ [wordBoundary]

/-- Two texts with anything of one line between them, as in `/model.*disabled/i`. -/
def apart (first last : String) : List Item := insensitive first ++ repeated dot 0 none :: insensitive last

/-- `RETRYABLE_MODEL_FAILURE_PATTERNS`, two of them as their alternatives. -/
def retryableModelFailurePatterns : List (List Item) :=
  [insensitive "rate" ++ repeated dot 0 (some 1) :: insensitive "limit",
    insensitive "too many requests",
    status "429",
    insensitive "rate_limit_error",
    insensitive "quota",
    apart "provider" "unavailable",
    apart "model" "unavailable",
    apart "model" "disabled",
    apart "model" "not found",
    insensitive "unknown model",
    insensitive "overloaded",
    insensitive "service unavailable",
    insensitive "temporar unavailable", insensitive "temporarily unavailable",
    insensitive "connection refused",
    insensitive "fetch failed",
    insensitive "network error",
    insensitive "socket hang up",
    insensitive "upstream",
    insensitive "time" ++ repeated (·.toLower == 'd') 0 (some 1) :: insensitive " out",
    insensitive "timeout",
    status "502",
    status "503",
    status "504",
    status "500",
    status "501",
    insensitive "api_error",
    insensitive "unknown error",
    insensitive "internal" ++ repeated gap.contains 1 (some 1) :: insensitive "error",
    insensitive "internal_server" ++ repeated gap.contains 1 (some 1) :: insensitive "error",
    insensitive "server error",
    insensitive "bad gateway",
    insensitive "provider" ++ repeated gap.contains 0 (some 1) :: insensitive "error",
    insensitive "context" ++ repeated gap.contains 0 (some 1) :: insensitive "length"
      ++ repeated gap.contains 0 (some 1) :: insensitive "exceeded",
    insensitive "safety",
    insensitive "is" ++ repeated gap.contains 0 (some 1) :: insensitive "overloaded",
    status "408",
    insensitive "epipe",
    insensitive "broken pipe"]

/-- `NON_RETRYABLE_MODEL_FAILURE_PATTERNS`, the first one as its alternatives. -/
def nonRetryableModelFailurePatterns : List (List Item) :=
  [insensitive "authentication", insensitive "auth",
    insensitive "unauthori" ++ repeated (fun char => char.toLower = 's' || char.toLower = 'z') 1 (some 1) ::
      insensitive "ed",
    insensitive "forbidden",
    insensitive "api key",
    insensitive "token expired",
    insensitive "invalid key",
    insensitive "billing",
    insensitive "credit"]

def safetyRefusalStopReasons : List Text :=
  ["refusal", "refused", "safety", "safety_block", "safety_block_consumed", "content_policy",
    "content_policy_violation", "content_filter"].map String.toList

/-- `isSafetyRefusalStopReason`, of a value that may be no text. -/
def isSafetyRefusalStopReason (reason : Option Text) : Bool :=
  reason.any fun text => safetyRefusalStopReasons.contains (toLowerCase (trim text))

/-- `["':=\s]`. -/
def isSeparator (char : Char) : Bool := char = '"' || char = '\'' || char = ':' || char = '=' || isSpace char

/-- `["']`. -/
def isQuote (char : Char) : Bool := char = '"' || char = '\''

/-- `[a-z_\- ]`. -/
def isReasonChar (char : Char) : Bool := char.isAlpha || char = '_' || char = '-' || char = ' '

/-- What stands in `SERIALIZED_STOP_REASON_MARKER` behind the name. -/
def markerTail : List Item :=
  [repeated isSeparator 1 none, repeated isQuote 0 (some 1), .chars isReasonChar 1 none false (some 1)]

/-- `SERIALIZED_STOP_REASON_MARKER`. Its three names differ in what stands between their words. -/
def serializedStopReasonMarker : List Item :=
  insensitive "stop" ++ repeated gap.contains 0 (some 1) :: (insensitive "reason" ++ markerTail)

/-- `SERIALIZED_STOP_REASON_MARKER.exec(text)?.[1]`. -/
def serializedStopReason (text : Text) : Option Text :=
  (searchFrom serializedStopReasonMarker none 0 text).map (·.found.group 1)

section

variable {ρ : Type}

/-- The value of a link: an object, a text, or something else that is not looked at. -/
inductive ErrorValue (ρ : Type) where
  | other
  | text (text : Text)
  | object (reference : ρ)
  deriving DecidableEq

/-- The fields of an object that are looked at. A field that should be a text is `none` where it is not. -/
structure ErrorObject (ρ : Type) where
  stopReason : Option Text := none
  stop_reason : Option Text := none
  error : ErrorValue ρ := .other
  cause : ErrorValue ρ := .other
  message : Option Text := none
  instanceofError : Bool := false

/-- A text whose first marker has a reason that is a refusal. -/
def refusesByMarker (text : Text) : Bool := isSafetyRefusalStopReason (serializedStopReason text)

variable [DecidableEq ρ] (objects : ρ → ErrorObject ρ)

/-- `hasStructuredSafetyRefusal`, with fuel for the depth of its calls; `none` where they do not come back. -/
def hasStructuredSafetyRefusal : Nat → ErrorValue ρ → Option Bool
  | 0, _ => none
  | _ + 1, .other => some false
  | _ + 1, .text text => some (text ≠ [] && refusesByMarker text)
  | fuel + 1, .object self => do
    let obj := objects self
    let linked (link : ErrorValue ρ) : Option Bool :=
      if link = .object self then some false else hasStructuredSafetyRefusal fuel link
    if isSafetyRefusalStopReason obj.stopReason then return true
    if isSafetyRefusalStopReason obj.stop_reason then return true
    if ← linked obj.error then return true
    if ← linked obj.cause then return true
    return obj.message.any refusesByMarker

def isRetryableModelFailure (error : Option Text) : Bool :=
  match error with
  | none => false
  | some text =>
    if text = [] then false
    else if refusesByMarker text then false
    else if nonRetryableModelFailurePatterns.any (FlatRegex.test · text) then false
    else retryableModelFailurePatterns.any (FlatRegex.test · text)

/-- `message ?? (cause instanceof Error ? cause.message : undefined)`. The message of an `Error` is a text. -/
def classifiedText (cause : ErrorValue ρ) (message : Option Text) : Option Text := message.or <|
    match cause with
    | .object reference => if (objects reference).instanceofError then (objects reference).message else none
    | _ => none

def isRetryableModelFailureFrom (fuel : Nat) (cause : ErrorValue ρ) (message : Option Text) : Option Bool := do
  if ← hasStructuredSafetyRefusal objects fuel cause then return false
  return isRetryableModelFailure (classifiedText objects cause message)

end

/-! ### The search -/

section

variable {ρ : Type} [DecidableEq ρ] (objects : ρ → ErrorObject ρ)

def links : ErrorValue ρ → List (ErrorValue ρ)
  | .object self => [(objects self).error, (objects self).cause].filter (· ≠ .object self)
  | _ => []

def refusesItself : ErrorValue ρ → Bool
  | .other => false
  | .text text => text ≠ [] && refusesByMarker text
  | .object self =>
    isSafetyRefusalStopReason (objects self).stopReason || isSafetyRefusalStopReason (objects self).stop_reason

/-- What is looked at behind the links of a value: the message of an object. -/
def refusesInMessage : ErrorValue ρ → Bool
  | .object self => (objects self).message.any refusesByMarker
  | _ => false

/-- The values of an error, as a graph. -/
def errorGraph : BlindWalk.Graph (ErrorValue ρ) where
  enter := refusesItself objects
  children := links objects
  leave := refusesInMessage objects

/-- **The search for a refusal** is a depth-first one, which does not remember where it has been. -/
theorem hasStructuredSafetyRefusal_eq (fuel : Nat) (value : ErrorValue ρ) :
    hasStructuredSafetyRefusal objects fuel value = BlindWalk.search (errorGraph objects) fuel value := by
  induction fuel generalizing value with
  | zero => rfl
  | succ fuel ih =>
    cases value with
    | other => rfl
    | text text =>
      rw [hasStructuredSafetyRefusal, BlindWalk.search]
      change _ = if (text ≠ [] && refusesByMarker text) = true then some true else some false
      cases (text ≠ [] && refusesByMarker text : Bool) <;> rfl
    | object self =>
      rw [hasStructuredSafetyRefusal, BlindWalk.search]
      by_cases first : isSafetyRefusalStopReason (objects self).stopReason = true
      · have enters : (errorGraph objects).enter (.object self) = true :=
          Bool.or_eq_true_iff.mpr (.inl first)
        rw [if_pos enters]
        simp [first]
      by_cases second : isSafetyRefusalStopReason (objects self).stop_reason = true
      · have enters : (errorGraph objects).enter (.object self) = true :=
          Bool.or_eq_true_iff.mpr (.inr second)
        rw [if_pos enters]
        simp [first, second]
      have stays : ¬ (errorGraph objects).enter (.object self) = true := fun enters =>
        (Bool.or_eq_true_iff.mp enters).elim first second
      have children : (errorGraph objects).children (.object self)
          = [(objects self).error, (objects self).cause].filter (· ≠ .object self) := rfl
      have left : (errorGraph objects).leave (.object self) = (objects self).message.any refusesByMarker := rfl
      rw [if_neg stays, children, BlindWalk.firstOf_filter, left]
      simp only [BlindWalk.firstOf, ih, if_neg first, if_neg second, ne_eq, ite_not]
      generalize (if (objects self).error = .object self then some false
        else BlindWalk.search (errorGraph objects) fuel (objects self).error) = alongError
      generalize (if (objects self).cause = .object self then some false
        else BlindWalk.search (errorGraph objects) fuel (objects self).cause) = alongCause
      rcases alongError with _ | _ | _
      · rfl
      · rcases alongCause with _ | _ | _ <;> rfl
      · rfl

theorem finite_reached [Finite ρ] (value : ErrorValue ρ) :
    {last | ReflTransGen (BlindWalk.Edge (errorGraph objects)) value last}.Finite := by
  have ends : (insert value (Set.range (fun self => (objects self).error)
      ∪ Set.range (fun self => (objects self).cause))).Finite :=
    ((Set.finite_range _).union (Set.finite_range _)).insert value
  refine ends.subset fun last reached => ?_
  rcases reached.cases_tail with same | ⟨before, -, edge⟩
  · exact .inl same
  · cases before with
    | other | text _ => cases edge
    | object self =>
      have linked := (List.mem_filter.mp edge).1
      rcases List.mem_cons.mp linked with rfl | later
      · exact .inr (.inl ⟨self, rfl⟩)
      · exact .inr (.inr ⟨self, (List.mem_singleton.mp later).symm⟩)

end

/-! ### What is claimed -/

/-- A name of the field: `stop_reason`, `stopReason` or `stop reason`, in any case of its letters. -/
def MarkerName (name : Text) : Prop :=
  ∃ first between last, name = first ++ between ++ last ∧ first.map Char.toLower = "stop".toList
    ∧ (between = [] ∨ ∃ char ∈ gap, between = [char]) ∧ last.map Char.toLower = "reason".toList

/-- **A refusal that is written out** at a place of a text: the name of the field, something that separates, and a
reason that is a refusal, with no further letter of it behind. -/
structure RefusalAt (text before name separators reason after : Text) : Prop where
  split : text = before ++ (name ++ (separators ++ (reason ++ after)))
  named : MarkerName name
  separated : separators ≠ []
  separates : ∀ char ∈ separators, isSeparator char = true
  refuses : reason.map Char.toLower ∈ safetyRefusalStopReasons
  ends : ∀ char ∈ after.head?, isReasonChar char = true → char = ' '

/-- **A refusal is written out** somewhere in a text. -/
def SerializedRefusal (text : Text) : Prop :=
  ∃ before name separators reason after, RefusalAt text before name separators reason after

section

variable {ρ : Type} [DecidableEq ρ] (objects : ρ → ErrorObject ρ)

/-- A value that is reached from another through `error` and `cause`. -/
def Reached : ErrorValue ρ → ErrorValue ρ → Prop := ReflTransGen fun value link =>
    ∃ self, value = .object self ∧ (link = (objects self).error ∨ link = (objects self).cause)

/-- A text that is examined: the one that is classified, one that is reached, or the message of an object that is
reached. -/
def Examined (cause : ErrorValue ρ) (message : Option Text) (text : Text) : Prop :=
  classifiedText objects cause message = some text ∨ Reached objects cause (.text text)
    ∨ ∃ self, Reached objects cause (.object self) ∧ (objects self).message = some text

/-- **The model has refused**: an object that is reached says so, or a text that is examined. -/
def Refused (cause : ErrorValue ρ) (message : Option Text) : Prop :=
  (∃ self, Reached objects cause (.object self)
      ∧ (isSafetyRefusalStopReason (objects self).stopReason = true
        ∨ isSafetyRefusalStopReason (objects self).stop_reason = true))
    ∨ ∃ text, Examined objects cause message text ∧ SerializedRefusal text

/-- **A refusal is never retried**: the classification comes back, and it says no. -/
def NeverRetried (cause : ErrorValue ρ) (message : Option Text) : Prop :=
  Refused objects cause message → ∃ fuel, isRetryableModelFailureFrom objects fuel cause message = some false

/-- **A text by itself is not retried**: its first marker is a refusal, a pattern says that a retry is of no use,
or no pattern says that it is of use. -/
def Dismissed (text : Text) : Prop :=
  (∃ reason, serializedStopReason text = some reason ∧ isSafetyRefusalStopReason (some reason) = true)
    ∨ (∃ pattern ∈ nonRetryableModelFailurePatterns, FlatRegex.test pattern text = true)
    ∨ ∀ pattern ∈ retryableModelFailurePatterns, FlatRegex.test pattern text = false

theorem refusesByMarker_iff (text : Text) : refusesByMarker text = true
      ↔ ∃ reason, serializedStopReason text = some reason ∧ isSafetyRefusalStopReason (some reason) = true := by
  rw [refusesByMarker]
  cases serializedStopReason text with
  | none => exact iff_of_false nofun nofun
  | some reason => exact ⟨fun refuses => ⟨reason, rfl, refuses⟩, fun ⟨_, same, refuses⟩ => same ▸ refuses⟩

theorem isRetryableModelFailure_eq_false (error : Option Text) :
    isRetryableModelFailure error = false ↔ ∀ text ∈ error, text = [] ∨ Dismissed text := by
  cases error with
  | none => exact iff_of_true rfl nofun
  | some text =>
    rw [isRetryableModelFailure]
    simp only [Option.mem_some_iff, forall_eq', Dismissed, ← refusesByMarker_iff]
    by_cases empty : text = []
    · simp [empty]
    by_cases marked : refusesByMarker text = true
    · simp [marked]
    by_cases useless : nonRetryableModelFailurePatterns.any (FlatRegex.test · text) = true
    · have matched := List.any_eq_true.mp useless
      simp [empty, marked, useless, matched]
    · have unmatched : ¬ ∃ pattern ∈ nonRetryableModelFailurePatterns, FlatRegex.test pattern text = true :=
        fun matched => useless (List.any_eq_true.mpr matched)
      simp only [empty, marked, useless, Bool.false_eq_true, if_false, unmatched, List.any_eq_false, false_or,
        Bool.not_eq_true]

theorem isRetryableModelFailureFrom_eq_false {fuel : Nat} {cause : ErrorValue ρ} {message : Option Text} :
    isRetryableModelFailureFrom objects fuel cause message = some false ↔
      BlindWalk.search (errorGraph objects) fuel cause = some true
        ∨ BlindWalk.search (errorGraph objects) fuel cause = some false
          ∧ isRetryableModelFailure (classifiedText objects cause message) = false := by
  rw [isRetryableModelFailureFrom, hasStructuredSafetyRefusal_eq]
  rcases BlindWalk.search (errorGraph objects) fuel cause with _ | _ | _ <;> simp

/-- **When an error with a refusal in it is not retried**: the search comes to a refusal before it goes round a
cycle; or there is neither to be found, and the text that is classified is dismissed. -/
theorem neverRetried_iff [Finite ρ] (cause : ErrorValue ρ) (message : Option Text) :
    NeverRetried objects cause message ↔
      (Refused objects cause message →
        BlindWalk.Found (errorGraph objects) cause
          ∨ BlindWalk.Quiet (errorGraph objects) cause
            ∧ ∀ text ∈ classifiedText objects cause message, text = [] ∨ Dismissed text) := by
  refine imp_congr_right fun _ => ?_
  rw [← BlindWalk.finds_iff (finite_reached objects), ← BlindWalk.misses_iff (finite_reached objects),
    ← isRetryableModelFailure_eq_false]
  simp only [isRetryableModelFailureFrom_eq_false, exists_or, exists_and_right]
  rfl

/-- An error that says itself that it is a refusal, with a message that is worth a retry. -/
theorem neverRetried_own :
    NeverRetried (fun _ : Unit => { stopReason := some "Refusal ".toList }) (.object ())
      (some "overloaded".toList) :=
  (neverRetried_iff _ _ _).mpr fun _ => .inl (.enter (by decide))

/-- The errors of a cycle that a refusal is linked to. -/
def cyclicErrors : Bool → ErrorObject Bool
  | true => { error := .object false, cause := .text "stop_reason: refusal".toList }
  | false => { error := .object true }

theorem cyclicErrors_endless (fuel : Nat) (reference : Bool) :
    hasStructuredSafetyRefusal cyclicErrors fuel (.object reference) = none := by
  induction fuel generalizing reference with
  | zero => rfl
  | succ fuel ih => cases reference <;> simp [hasStructuredSafetyRefusal, cyclicErrors, ih, isSafetyRefusalStopReason]

/-- **A refusal that is retried**: behind one marker more is written on, and another is not the first one. The
objects of a third error refer to one another, and its search does not come back. -/
theorem refusal_retried :
    (¬ NeverRetried (fun _ : Unit => {}) .other (some "stop_reason: refusal while overloaded".toList))
      ∧ (¬ NeverRetried (fun _ : Unit => {}) .other
        (some "stop_reason: end_turn; overloaded; stop_reason: refusal".toList))
      ∧ ¬ NeverRetried cyclicErrors (.object true) none := by
  have retried : ∀ {text : Text}, isRetryableModelFailure (some text) = true → SerializedRefusal text →
      ¬ NeverRetried (fun _ : Unit => {}) .other (some text) := by
    intro text retryable refusal never
    obtain ⟨fuel, stopped⟩ := never (.inr ⟨text, .inl rfl, refusal⟩)
    rcases (isRetryableModelFailureFrom_eq_false _).mp stopped with found | ⟨-, dismissed⟩
    · cases fuel <;> cases found
    · exact absurd (retryable.symm.trans dismissed) nofun
  have named : MarkerName "stop_reason".toList :=
    ⟨"stop".toList, ['_'], "reason".toList, rfl, by decide, .inr ⟨'_', by decide, rfl⟩, by decide⟩
  refine ⟨retried (by decide +kernel) ⟨[], "stop_reason".toList, ": ".toList, "refusal".toList,
    " while overloaded".toList, ?_⟩, retried (by decide +kernel) ⟨"stop_reason: end_turn; overloaded; ".toList,
    "stop_reason".toList, ": ".toList, "refusal".toList, [], ?_⟩, fun never => ?_⟩
  · exact ⟨by decide, named, by decide, List.all_eq_true.mp (by decide), by decide, by rintro _ ⟨⟩ _; rfl⟩
  · exact ⟨by decide, named, by decide, List.all_eq_true.mp (by decide), by decide, nofun⟩
  · have reached : Reached cyclicErrors (.object true) (.text "stop_reason: refusal".toList) :=
      .single ⟨true, rfl, .inr rfl⟩
    obtain ⟨fuel, stopped⟩ := never (.inr ⟨_, .inr (.inl reached), [], "stop_reason".toList, ": ".toList,
      "refusal".toList, [], by decide, named, by decide, List.all_eq_true.mp (by decide), by decide, nofun⟩)
    rw [isRetryableModelFailureFrom, cyclicErrors_endless] at stopped
    cases stopped

end

end PiCrew.Models
