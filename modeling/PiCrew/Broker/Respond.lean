/-
**The respond methods of the broker.**

`runtime/broker/protocol/broker-respond.ts` and the parsers in `request-parsers.ts`. The dispatcher asks for a
nonce, signs it with the fields of its response, and sends both with `respond.append`. A response to a task that
waits for it now needs no signature with `respond.force`. Both append a row to the inbox of the task, unless a row
with the same request id is found there.

* `step_effect` — every step comes to one of a few effects, with all that it checks.

A handler that waits is a request in flight, which goes on in a later step. `issued` are the nonces that were
given out, `signed` is what the key of the dispatcher has signed, and `rows` are the rows that were appended. The
verification of a signature and the redaction of a row are parameters. The audit event is left out.
-/

import PiCrew.Broker.Tokens
import PiCrew.Library.JsonTails
import PiCrew.Mailbox.Signature
import PiCrew.State.Contracts
import Mathlib.Data.Option.Basic

set_option linter.unusedSectionVars false

namespace PiCrew.Broker.Respond

open JsonText Mailbox
open State (TeamTaskStatus)

instance textLawful : LawfulBEq Text := inferInstance

section

structure RespondCommonParams where
  runId : Text
  taskId : Text
  questionId : Text
  body : Text
  replyTo : Option Text := none
  priority : Option MailboxMessagePriority := none
  deliveryMode : Option MailboxDeliveryMode := none
  requestId : Option Text := none
  deriving DecidableEq

structure RespondAppendParams extends RespondCommonParams where
  nonce : Text
  sig : Text
  deriving DecidableEq

def respondBodyMaxChars : Nat := 65536

def respondNonceMinChars : Nat := 16

def respondNonceMaxChars : Nat := 128

def respondSigMaxChars : Nat := 256

variable {ν α : Type}

def boundedString (least most : Nat) (value : Option (Value ν)) : Option Text :=
  (stringOf value).filter fun text => least ≤ text.length && text.length ≤ most

def optionalField (check : Option (Value ν) → Option α) : Option (Value ν) → Option (Option α)
  | none => some none
  | some value => (check (some value)).map some

/-- A letter, a digit, or one of `_`, `:`, `.` and `-`. -/
def isRequestIdUnit (unit : UInt16) : Bool :=
  (0x30 ≤ unit && unit ≤ 0x39) || (0x41 ≤ unit && unit ≤ 0x5A) || (0x61 ≤ unit && unit ≤ 0x7A)
    || unit = 0x5F || unit = 0x3A || unit = 0x2E || unit = 0x2D

def requestIdString (value : Option (Value ν)) : Option Text :=
  (boundedString 1 256 value).filter fun text => text.all isRequestIdUnit

def parseRespondCommonFields (row : Row ν) : Option RespondCommonParams := do
  let runId ← boundedString 1 256 (Row.at row "runId")
  let taskId ← boundedString 1 256 (Row.at row "taskId")
  let questionId ← boundedString 1 128 (Row.at row "questionId")
  let body ← boundedString 1 respondBodyMaxChars (Row.at row "body")
  let replyTo ← optionalField (boundedString 1 256) (Row.at row "replyTo")
  let priority ← optionalField isPriority (Row.at row "priority")
  let deliveryMode ← optionalField isDeliveryMode (Row.at row "deliveryMode")
  let requestId ← optionalField requestIdString (Row.at row "requestId")
  some {
    runId := runId, taskId := taskId, questionId := questionId, body := body, replyTo := replyTo
    priority := priority, deliveryMode := deliveryMode, requestId := requestId }

def parseRespondChallengeParams : Value ν → Option Text
  | .object row => boundedString 1 256 (Row.at row "runId")
  | _ => none

def parseRespondAppendParams : Value ν → Option RespondAppendParams
  | .object row => do
      let common ← parseRespondCommonFields row
      let nonce ← boundedString respondNonceMinChars respondNonceMaxChars (Row.at row "nonce")
      let sig ← boundedString 1 respondSigMaxChars (Row.at row "sig")
      some { toRespondCommonParams := common, nonce := nonce, sig := sig }
  | _ => none

def parseRespondForceParams : Value ν → Option RespondCommonParams
  | .object row => parseRespondCommonFields row
  | _ => none

end

instance noNumbers : NumberFormat Empty where
  text := Empty.elim
  read _ := none
  starts number := number.elim
  numeric number := number.elim
  read_text number := number.elim

def priorityText : MailboxMessagePriority → Text
  | .urgent => units "urgent"
  | .normal => units "normal"
  | .low => units "low"

def deliveryModeText : MailboxDeliveryMode → Text
  | .interrupt => units "interrupt"
  | .nextTurn => units "next_turn"

/-- A string, or `null` where it is missing. -/
def pick : Option Text → Value Empty
  | some text => .string text
  | none => .null

/-- The fields that are signed. The run is not one of them. -/
def signedItems (params : RespondCommonParams) : List (Value Empty) :=
  [.string params.taskId, .string params.questionId, .string params.body, pick params.replyTo,
    pick (params.priority.map priorityText), pick (params.deliveryMode.map deliveryModeText),
    pick params.requestId]

def canonicalRespondAppendPayload (params : RespondCommonParams) : Text :=
  stringify (.array (signedItems params))

def respondAppendSignInput (nonce : Text) (params : RespondCommonParams) : Text :=
  nonce ++ canonicalRespondAppendPayload params

def RespondCommonParams.withRun (params : RespondCommonParams) (runId : Text) :
    RespondCommonParams :=
  { params with runId := runId }

theorem pick_inj {first second : Option Text} (same : pick first = pick second) : first = second := by
  cases first with
  | none =>
    cases second with
    | none => rfl
    | some text => cases same
  | some text =>
    cases second with
    | none => cases same
    | some other => exact congrArg some (Value.string.inj same)

theorem priorityText_injective : Function.Injective priorityText := by
  intro first second same
  cases first <;> cases second <;> first | rfl | exact absurd same (by decide)

theorem deliveryModeText_injective : Function.Injective deliveryModeText := by
  intro first second same
  cases first <;> cases second <;> first | rfl | exact absurd same (by decide)

theorem signedItems_simple (params : RespondCommonParams) :
    ∀ item ∈ signedItems params, item.Simple := by
  have picked : ∀ value, (pick value).Simple := fun value => by cases value <;> trivial
  simp only [signedItems, List.forall_mem_cons]
  exact ⟨trivial, trivial, trivial, picked _, picked _, picked _, picked _, List.forall_mem_nil _⟩

theorem canonical_eq_iff (params others : RespondCommonParams) :
    canonicalRespondAppendPayload params = canonicalRespondAppendPayload others
      ↔ params.withRun others.runId = others := by
  constructor
  · intro same
    have nullFree : ∀ value, plain (pick value) = pick value := fun value => by cases value <;> rfl
    have items := Value.array.inj (plain_of_stringify same)
    simp only [signedItems, plainItems, plain, nullFree, List.cons.injEq, Value.string.injEq,
      and_true] at items
    obtain ⟨taskId, questionId, body, replied, urgent, delivered, requested⟩ := items
    have replyTo := pick_inj replied
    have priority := Option.map_injective priorityText_injective (pick_inj urgent)
    have deliveryMode := Option.map_injective deliveryModeText_injective (pick_inj delivered)
    have requestId := pick_inj requested
    clear replied urgent delivered requested
    cases params
    cases others
    dsimp only at taskId questionId body replyTo priority deliveryMode requestId
    subst taskId questionId body replyTo priority deliveryMode requestId
    rfl
  · intro same
    rw [← same]
    rfl

theorem signInput_eq_iff (nonce other : Text) (params others : RespondCommonParams) :
    respondAppendSignInput nonce params = respondAppendSignInput other others
      ↔ nonce = other ∧ params.withRun others.runId = others := by
  rw [← canonical_eq_iff]
  constructor
  · exact append_array_inj (signedItems_simple params) (signedItems_simple others)
  · rintro ⟨nonces, payloads⟩
    rw [respondAppendSignInput, nonces, payloads]
    rfl

inductive Auth where
  | challengeResponse
  | forced
  deriving DecidableEq

structure ResponseRow where
  id : Text
  runId : Text
  direction : MailboxDirection
  «from» : Text
  «to» : Text
  taskId : Text
  body : Text
  kind : MailboxMessageKind
  priority : MailboxMessagePriority
  deliveryMode : MailboxDeliveryMode
  questionId : Text
  replyTo : Option Text
  data : List (Text × Text)
  requestId : Text
  deriving DecidableEq

def effectiveRequestId (params : RespondCommonParams) : Text :=
  params.requestId.getD params.questionId

def messageIdOf (auth : Auth) (stamp : Text) : Text :=
  units (if auth = .forced then "respf_" else "resp_") ++ stamp

/-- **The row of a response**, with defaults for what is missing. -/
def responseRow (auth : Auth) (runId messageId : Text) (params : RespondCommonParams) :
    ResponseRow where
  id := messageId
  runId := runId
  direction := .inbox
  «from» := units (if auth = .forced then "leader-forced" else "leader")
  «to» := params.taskId
  taskId := params.taskId
  body := params.body
  kind := .response
  priority := params.priority.getD .normal
  deliveryMode := params.deliveryMode.getD .nextTurn
  questionId := params.questionId
  replyTo := params.replyTo
  data :=
    [(units "action", units "respond"), (units "kind", units "response"),
      (units "questionId", params.questionId), (units "via", units "broker")]
      ++ if auth = .forced then [(units "tag", units "forced")] else []
  requestId := effectiveRequestId params

structure RespondChallengeRecord where
  nonce : Text
  runId : Text
  expiresAt : Nat

def respondChallengeTtlMs : Nat := 30000

def respondChallengeMaxPerConn : Nat := 16

structure Connection where
  role : Option Tokens.Role := none
  authed : Bool := false
  runId : Option Text := none

/-- What the handlers read of a task: its status, the question it waits for and the process of its
worker. -/
structure RunTask where
  id : Text
  status : TeamTaskStatus
  waitsFor : Option Text := none
  workerPid : Option Nat := none

/-- Where a request in flight is: before the check of a forced response, before the append, or behind it. -/
inductive Phase where
  | gating
  | appending
  | written (messageId : Text) (deduped : Bool)
  deriving DecidableEq

structure Request (γ : Type) where
  conn : γ
  auth : Auth
  params : RespondCommonParams
  nonce : Option Text := none
  stamp : Text
  phase : Phase
  workerPid : Option Nat := none

/-- A nonce, with the connection and the run that it was given out for. -/
structure Issued (γ : Type) where
  conn : γ
  runId : Text
  nonce : Text

/-- What the key of the dispatcher signs: a response with a nonce, or the digest of a row. -/
inductive Signed where
  | response (nonce : Text) (params : RespondCommonParams)
  | digest (digits : List (Fin 16))
  deriving DecidableEq

def Signed.text : Signed → Text
  | .response nonce params => toWellFormed (respondAppendSignInput nonce params)
  | .digest digits => digits.map fun digit => hexDigit digit.val

/-- A row that was appended, and the request it was appended for. -/
structure Appended (γ : Type) where
  conn : γ
  auth : Auth
  nonce : Option Text
  runId : Text
  questionId : Text
  row : ResponseRow

inductive Reply where
  | error (code : String) (message : Text)
  | challenge (nonce : Text) (expiresInMs : Nat) (runId : Text)
  | appended (messageId requestId : Text) (deduped : Bool) (auth : Auth) (workerPid : Option Nat)

/-- **The broker and what it works on.** `runs` are the tasks of the runs that load, and `inbox` has, for a
run and a task, the request ids by which a row of the inbox is found, with the ids of the rows. -/
structure CrewBroker (γ : Type) where
  conns : γ → Connection := fun _ => {}
  respondChallenges : γ → Option RespondChallengeRecord := fun _ => none
  respondChallengeCounts : γ → Nat := fun _ => 0
  respondedQuestionIds : List Text := []
  runs : Text → Option (List RunTask) := fun _ => none
  inbox : Text → Text → List (Text × Text) := fun _ _ => []
  requests : List (Request γ) := []
  sent : List (γ × Reply) := []
  issued : List (Issued γ) := []
  signed : List Signed := []
  rows : List (Appended γ) := []

def respondedKey (params : RespondCommonParams) : Text :=
  params.runId ++ 0x3A :: params.questionId

section

variable {γ ν κ : Type}

namespace CrewBroker

def send (broker : CrewBroker γ) (conn : γ) (reply : Reply) : CrewBroker γ :=
  { broker with sent := broker.sent ++ [(conn, reply)] }

def sendError (broker : CrewBroker γ) (conn : γ) (code : String) (message : Text) : CrewBroker γ :=
  broker.send conn (.error code message)

def suspend (broker : CrewBroker γ) (request : Request γ) : CrewBroker γ :=
  { broker with requests := broker.requests ++ [request] }

def proceed (broker : CrewBroker γ) (index : Nat) (request : Request γ) : CrewBroker γ :=
  { broker with requests := broker.requests.set index request }

def finish (broker : CrewBroker γ) (index : Nat) : CrewBroker γ :=
  { broker with requests := broker.requests.eraseIdx index }

variable [DecidableEq γ]

def burn (broker : CrewBroker γ) (conn : γ) : CrewBroker γ :=
  { broker with respondChallenges := Function.update broker.respondChallenges conn none }

def issue (broker : CrewBroker γ) (conn : γ) (record : RespondChallengeRecord) : CrewBroker γ :=
  { broker with
    respondChallenges := Function.update broker.respondChallenges conn (some record)
    issued := broker.issued ++ [{ conn := conn, runId := record.runId, nonce := record.nonce }] }

def handleRespondChallenge (broker : CrewBroker γ) (conn : γ) (params : Value ν) (nonce : Text)
    (now : Nat) : CrewBroker γ :=
  match parseRespondChallengeParams params with
  | none => broker.sendError conn "bad-params" (units "respond.challenge: invalid params")
  | some runId =>
    let issued := broker.respondChallengeCounts conn + 1
    let counted : CrewBroker γ :=
      { broker with
        respondChallengeCounts := Function.update broker.respondChallengeCounts conn issued }
    if respondChallengeMaxPerConn < issued then
      counted.sendError conn "rate-limited"
        (units "respond.challenge: too many challenges on this connection")
    else
      (counted.issue conn
          { nonce := nonce, runId := runId, expiresAt := now + respondChallengeTtlMs }).send conn
        (.challenge nonce respondChallengeTtlMs runId)

def otherRun (broker : CrewBroker γ) (conn : γ) (runId : Text) : Bool :=
  (broker.conns conn).authed && (broker.conns conn).runId.any (· ≠ runId)

def runNotFound (runId : Text) : Text := units "run '" ++ runId ++ units "' not found"

def taskNotFound (method : String) (taskId : Text) : Text :=
  units method ++ units ": task '" ++ taskId ++ units "' not found"

variable (dispatcherVerifyKey : Option κ) (verify : κ → Text → Text → Bool)

def verifyDispatcherSignature (key : κ) (parsed : RespondAppendParams) : Bool :=
  verify key (toWellFormed (respondAppendSignInput parsed.nonce parsed.toRespondCommonParams)) parsed.sig

/-- **Append a signed response**, up to the append. -/
def handleRespondAppend (broker : CrewBroker γ) (conn : γ) (params : Value ν) (now : Nat)
    (stamp : Text) : CrewBroker γ :=
  if (broker.conns conn).role = some .worker then
    broker.sendError conn "forbidden"
      (units "respond.append requires the dispatcher identity, not a worker token")
  else
    match parseRespondAppendParams params with
    | none => broker.sendError conn "bad-params" (units "respond.append: invalid params")
    | some parsed =>
      if broker.otherRun conn parsed.runId then
        broker.sendError conn "forbidden"
          (units "respond.append: runId does not match the authenticated run")
      else
        match dispatcherVerifyKey with
        | none =>
          broker.sendError conn "auth"
            (units "respond.append: no dispatcher key bound on this broker")
        | some key =>
          match broker.respondChallenges conn with
          | none =>
            broker.sendError conn "auth"
              (units "respond.append: no active challenge (call respond.challenge first)")
          | some record =>
            let burned := broker.burn conn
            if record.expiresAt < now then
              burned.sendError conn "auth" (units "respond.append: challenge expired")
            else if record.nonce ≠ parsed.nonce ∨ record.runId ≠ parsed.runId then
              burned.sendError conn "auth" (units "respond.append: challenge mismatch")
            else if verifyDispatcherSignature verify key parsed = false then
              burned.sendError conn "auth"
                (units "respond.append: signature verification failed")
            else
              match burned.runs parsed.runId with
              | none => burned.sendError conn "no-manifest" (runNotFound parsed.runId)
              | some tasks =>
                if tasks.any (·.id = parsed.taskId) then
                  burned.suspend
                    { conn := conn, auth := .challengeResponse
                      params := parsed.toRespondCommonParams, nonce := some parsed.nonce
                      stamp := stamp, phase := .appending }
                else
                  burned.sendError conn "no-task" (taskNotFound "respond.append" parsed.taskId)

/-- **Append a response to a task that waits for it**, up to the check under the lock. -/
def handleRespondForce (broker : CrewBroker γ) (conn : γ) (params : Value ν) (stamp : Text) : CrewBroker γ :=
  if (broker.conns conn).role = some .worker then
    broker.sendError conn "forbidden" (units "respond.force is not available to worker tokens")
  else
    match parseRespondForceParams params with
    | none => broker.sendError conn "bad-params" (units "respond.force: invalid params")
    | some parsed =>
      if broker.otherRun conn parsed.runId then
        broker.sendError conn "forbidden"
          (units "respond.force: runId does not match the authenticated run")
      else if respondedKey parsed ∈ broker.respondedQuestionIds then
        broker.sendError conn "already-answered"
          (units "respond.force: question '" ++ parsed.questionId
            ++ units "' already has a broker response")
      else
        match broker.runs parsed.runId with
        | none => broker.sendError conn "no-manifest" (runNotFound parsed.runId)
        | some _ =>
          broker.suspend
            { conn := conn, auth := .forced, params := parsed, stamp := stamp, phase := .gating }

def fail (broker : CrewBroker γ) (index : Nat) (request : Request γ) (code : String) (message : Text) :
    CrewBroker γ :=
  (broker.finish index).sendError request.conn code message

/-- **The check of a forced response**, under the lock of the run, which may be `busy`. -/
def gate (broker : CrewBroker γ) (index : Nat) (request : Request γ) (busy : Option Text) : CrewBroker γ :=
  match busy with
  | some message => broker.fail index request "busy" message
  | none =>
    match broker.runs request.params.runId with
    | none => broker.fail index request "no-manifest" (runNotFound request.params.runId)
    | some tasks =>
      match tasks.find? (·.id = request.params.taskId) with
      | none =>
        broker.fail index request "no-task" (taskNotFound "respond.force" request.params.taskId)
      | some task =>
        if task.status ≠ .waiting ∨ task.waitsFor ≠ some request.params.questionId then
          broker.fail index request "no-park"
            (units "respond.force: no live park for question '" ++ request.params.questionId
              ++ units "' on task '" ++ request.params.taskId ++ units "'")
        else
          broker.proceed index
            { request with phase := .appending, workerPid := task.workerPid }

variable (redactSecrets : ResponseRow → ResponseRow)

def rowOf (request : Request γ) : ResponseRow :=
  redactSecrets (responseRow request.auth request.params.runId
    (messageIdOf request.auth request.stamp) request.params)

def stored (broker : CrewBroker γ) (params : RespondCommonParams) : Option Text :=
  (broker.inbox params.runId params.taskId).lookup (effectiveRequestId params)

def appendedOf (request : Request γ) : Appended γ where
  conn := request.conn
  auth := request.auth
  nonce := request.nonce
  runId := request.params.runId
  questionId := request.params.questionId
  row := rowOf redactSecrets request

def appendRow (broker : CrewBroker γ) (request : Request γ) : CrewBroker γ :=
  let row := rowOf redactSecrets request
  let inbox := broker.inbox request.params.runId
  { broker with
    inbox := Function.update broker.inbox request.params.runId
      (Function.update inbox request.params.taskId
        (inbox request.params.taskId ++ [(row.requestId, row.id)]))
    rows := broker.rows ++ [appendedOf redactSecrets request] }

/-- **Append the row of a response**, under the lock of the inbox, unless its request id is found. -/
def write (broker : CrewBroker γ) (index : Nat) (request : Request γ) : CrewBroker γ :=
  match broker.stored request.params with
  | some messageId => broker.proceed index { request with phase := .written messageId true }
  | none =>
    (broker.appendRow redactSecrets request).proceed index
      { request with phase := .written (messageIdOf request.auth request.stamp) false }

def settle (broker : CrewBroker γ) (index : Nat) (request : Request γ) (messageId : Text)
    (deduped : Bool) : CrewBroker γ :=
  ({ broker.finish index with
      respondedQuestionIds := respondedKey request.params :: broker.respondedQuestionIds }).send
    request.conn
      (.appended messageId (effectiveRequestId request.params) deduped request.auth request.workerPid)

end CrewBroker

def stringParams (fields : List (String × Text)) : Value Empty :=
  .object (fields.map fun field => (units field.1, .string field.2))

/-- **A step**: what a connection sends, what a request in flight goes on with, or what others do. -/
inductive Action (γ ν : Type) where
  | hello (conn : γ) (connection : Connection)
  | challenge (conn : γ) (params : Value ν) (nonce : Text) (now : Nat)
  | append (conn : γ) (params : Value ν) (now : Nat) (stamp : Text)
  | force (conn : γ) (params : Value ν) (stamp : Text)
  | gate (index : Nat) (busy : Option Text)
  | write (index : Nat)
  | settle (index : Nat)
  | fail (index : Nat) (message : Text)
  | sign (what : Signed)
  | run (runId : Text) (tasks : Option (List RunTask))
  | mailbox (runId taskId : Text) (found : List (Text × Text))

variable [DecidableEq γ] (dispatcherVerifyKey : Option κ) (verify : κ → Text → Text → Bool)
  (redactSecrets : ResponseRow → ResponseRow)

def CrewBroker.resume (broker : CrewBroker γ) (index : Nat) (go : Request γ → CrewBroker γ) : CrewBroker γ :=
  match broker.requests[index]? with
  | some request => go request
  | none => broker

/-- **One step.** A request that is elsewhere does not move. -/
def CrewBroker.step (broker : CrewBroker γ) : Action γ ν → CrewBroker γ
  | .hello conn connection =>
    { broker with conns := Function.update broker.conns conn connection }
  | .challenge conn params nonce now => broker.handleRespondChallenge conn params nonce now
  | .append conn params now stamp =>
    broker.handleRespondAppend dispatcherVerifyKey verify conn params now stamp
  | .force conn params stamp => broker.handleRespondForce conn params stamp
  | .gate index busy =>
    broker.resume index fun request =>
      if request.phase = .gating then broker.gate index request busy else broker
  | .write index =>
    broker.resume index fun request =>
      if request.phase = .appending then broker.write redactSecrets index request else broker
  | .settle index =>
    broker.resume index fun request =>
      match request.phase with
      | .written messageId deduped => broker.settle index request messageId deduped
      | _ => broker
  | .fail index message =>
    -- The append throws, before its row is written or behind that.
    broker.resume index fun request =>
      if request.phase = .gating then broker
      else broker.fail index request "respond-failed" message
  | .sign what => { broker with signed := broker.signed ++ [what] }
  | .run runId tasks => { broker with runs := Function.update broker.runs runId tasks }
  | .mailbox runId taskId found =>
    { broker with
      inbox := Function.update broker.inbox runId
        (Function.update (broker.inbox runId) taskId found) }

end

section

variable {γ ν κ : Type} [DecidableEq γ] (broker : CrewBroker γ)

theorem handleRespondChallenge_cases (conn : γ) (params : Value ν) (nonce : Text) (now : Nat) :
    ∃ counts sent,
      broker.handleRespondChallenge conn params nonce now
          = { broker with respondChallengeCounts := counts, sent := sent } ∨
      ∃ record : RespondChallengeRecord, record.nonce = nonce ∧
        broker.handleRespondChallenge conn params nonce now
          = { broker.issue conn record with respondChallengeCounts := counts, sent := sent } := by
  unfold CrewBroker.handleRespondChallenge
  cases parseRespondChallengeParams params with
  | none => exact ⟨_, _, Or.inl rfl⟩
  | some runId =>
    dsimp only
    split_ifs
    · exact ⟨_, _, Or.inl rfl⟩
    · exact ⟨_, _, Or.inr ⟨{ nonce := nonce, runId := runId, expiresAt := _ }, rfl, rfl⟩⟩

def requestOf (conn : γ) (parsed : RespondAppendParams) (stamp : Text) : Request γ where
  conn := conn
  auth := .challengeResponse
  params := parsed.toRespondCommonParams
  nonce := some parsed.nonce
  stamp := stamp
  phase := .appending

def forcedOf (conn : γ) (parsed : RespondCommonParams) (stamp : Text) : Request γ where
  conn := conn
  auth := .forced
  params := parsed
  stamp := stamp
  phase := .gating

/-- **What lets a signed response in.** -/
structure Admitted (dispatcherVerifyKey : Option κ) (verify : κ → Text → Text → Bool)
    (conn : γ) (params : Value ν) (now : Nat) (given : RespondAppendParams) : Prop where
  parsed : parseRespondAppendParams params = some given
  challenge : ∃ record, broker.respondChallenges conn = some record ∧ now ≤ record.expiresAt ∧
    record.nonce = given.nonce ∧ record.runId = given.runId
  verified : ∃ key, dispatcherVerifyKey = some key ∧
    CrewBroker.verifyDispatcherSignature verify key given = true

theorem handleRespondAppend_cases (dispatcherVerifyKey : Option κ) (verify : κ → Text → Text → Bool)
    (conn : γ) (params : Value ν) (now : Nat) (stamp : Text) :
    let after := broker.handleRespondAppend dispatcherVerifyKey verify conn params now stamp
    (∃ reply, after = broker.send conn reply) ∨ (∃ reply, after = (broker.burn conn).send conn reply) ∨
      ∃ parsed, Admitted broker dispatcherVerifyKey verify conn params now parsed ∧
        after = (broker.burn conn).suspend (requestOf conn parsed stamp) := by
  intro after
  unfold after CrewBroker.handleRespondAppend
  split_ifs with worker
  · exact Or.inl ⟨_, rfl⟩
  cases parse : parseRespondAppendParams params with
  | none => exact Or.inl ⟨_, rfl⟩
  | some parsed =>
  dsimp only
  split_ifs with other
  · exact Or.inl ⟨_, rfl⟩
  cases bound : dispatcherVerifyKey with
  | none => exact Or.inl ⟨_, rfl⟩
  | some key =>
  cases live : broker.respondChallenges conn with
  | none => exact Or.inl ⟨_, rfl⟩
  | some record =>
  dsimp only
  split_ifs with expired mismatch unverified
  · exact Or.inr (Or.inl ⟨_, rfl⟩)
  · exact Or.inr (Or.inl ⟨_, rfl⟩)
  · exact Or.inr (Or.inl ⟨_, rfl⟩)
  cases (broker.burn conn).runs parsed.runId with
  | none => exact Or.inr (Or.inl ⟨_, rfl⟩)
  | some tasks =>
  dsimp only
  split_ifs
  · obtain ⟨nonce, run⟩ := not_or.mp mismatch
    refine Or.inr (Or.inr ⟨parsed, ?_, rfl⟩)
    exact {
      parsed := parse
      challenge := ⟨record, live, Nat.not_lt.mp expired, not_not.mp nonce, not_not.mp run⟩
      verified := ⟨key, rfl, (Bool.not_eq_false _).mp unverified⟩ }
  · exact Or.inr (Or.inl ⟨_, rfl⟩)

theorem handleRespondForce_cases (conn : γ) (params : Value ν) (stamp : Text) :
    (∃ reply, broker.handleRespondForce conn params stamp = broker.send conn reply) ∨
      ∃ parsed, parseRespondForceParams params = some parsed ∧
        broker.handleRespondForce conn params stamp = broker.suspend (forcedOf conn parsed stamp) := by
  unfold CrewBroker.handleRespondForce
  split_ifs
  · exact Or.inl ⟨_, rfl⟩
  cases parse : parseRespondForceParams params with
  | none => exact Or.inl ⟨_, rfl⟩
  | some parsed =>
  dsimp only
  split_ifs
  · exact Or.inl ⟨_, rfl⟩
  · exact Or.inl ⟨_, rfl⟩
  cases broker.runs parsed.runId with
  | none => exact Or.inl ⟨_, rfl⟩
  | some tasks => exact Or.inr ⟨parsed, rfl, rfl⟩

theorem gate_cases (index : Nat) (request : Request γ) (busy : Option Text) :
    (∃ reply, broker.gate index request busy = (broker.finish index).send request.conn reply) ∨
      ∃ pid, broker.gate index request busy
        = broker.proceed index { request with phase := .appending, workerPid := pid } := by
  unfold CrewBroker.gate
  cases busy with
  | some message => exact Or.inl ⟨_, rfl⟩
  | none =>
  dsimp only
  cases broker.runs request.params.runId with
  | none => exact Or.inl ⟨_, rfl⟩
  | some tasks =>
  dsimp only
  cases tasks.find? (·.id = request.params.taskId) with
  | none => exact Or.inl ⟨_, rfl⟩
  | some task =>
  dsimp only
  split_ifs
  · exact Or.inl ⟨_, rfl⟩
  · exact Or.inr ⟨_, rfl⟩

theorem split_at {α : Type} {items : List α} {index : Nat} {item : α}
    (found : items[index]? = some item) :
    ∃ before behind, items = before ++ item :: behind ∧
      (∀ other, items.set index other = before ++ other :: behind) ∧
      items.eraseIdx index = before ++ behind := by
  obtain ⟨bound, rfl⟩ := List.getElem?_eq_some_iff.mp found
  refine ⟨items.take index, items.drop (index + 1), ?_, fun other => ?_, ?_⟩
  · rw [← List.drop_eq_getElem_cons bound, List.take_append_drop]
  · rw [List.set_eq_take_append_cons_drop, if_pos bound]
  · exact List.eraseIdx_eq_take_drop_succ items index

/-- Two brokers differ at most in their connections, counts, runs, marks and replies. -/
structure Alike (broker after : CrewBroker γ) : Prop where
  challenges : after.respondChallenges = broker.respondChallenges
  inbox : after.inbox = broker.inbox
  requests : after.requests = broker.requests
  issued : after.issued = broker.issued
  signed : after.signed = broker.signed
  rows : after.rows = broker.rows

/-- One request is another one, in whatever phase. -/
structure Continues (request other : Request γ) : Prop where
  conn : other.conn = request.conn
  auth : other.auth = request.auth
  params : other.params = request.params
  nonce : other.nonce = request.nonce

variable (dispatcherVerifyKey : Option κ) (verify : κ → Text → Text → Bool)
  (redactSecrets : ResponseRow → ResponseRow)

inductive Effect : Action γ ν → CrewBroker γ → Prop where
  | idle {action : Action γ ν} {after : CrewBroker γ} (alike : Alike broker after) :
      Effect action after
  | issue {conn : γ} {params : Value ν} {now : Nat} {record : RespondChallengeRecord}
      {after : CrewBroker γ} (alike : Alike (broker.issue conn record) after) :
      Effect (.challenge conn params record.nonce now) after
  | burn {action : Action γ ν} {after : CrewBroker γ} (conn : γ)
      (alike : Alike (broker.burn conn) after) : Effect action after
  | enter {conn : γ} {params : Value ν} {now : Nat} {stamp : Text} {parsed : RespondAppendParams}
      (admitted : Admitted broker dispatcherVerifyKey verify conn params now parsed) :
      Effect (.append conn params now stamp)
        ((broker.burn conn).suspend (requestOf conn parsed stamp))
  | force {conn : γ} {params : Value ν} {stamp : Text} {parsed : RespondCommonParams}
      (parse : parseRespondForceParams params = some parsed) :
      Effect (.force conn params stamp) (broker.suspend (forcedOf conn parsed stamp))
  | finish {action : Action γ ν} {after : CrewBroker γ} (index : Nat)
      (alike : Alike (broker.finish index) after) : Effect action after
  | proceed {action : Action γ ν} {index : Nat} {request next : Request γ}
      (found : broker.requests[index]? = some request) (continues : Continues next request)
      (phase : request.phase = .gating ∧ next.phase = .appending ∨
        ∃ messageId deduped, next.phase = .written messageId deduped) :
      Effect action (broker.proceed index next)
  | append {index : Nat} {request : Request γ} (messageId : Text)
      (found : broker.requests[index]? = some request) (appending : request.phase = .appending)
      (missing : broker.stored request.params = none) :
      Effect (.write index) ((broker.appendRow redactSecrets request).proceed index
        { request with phase := .written messageId false })
  | sign (what : Signed) :
      Effect (.sign what) { broker with signed := broker.signed ++ [what] }
  | mailbox (runId taskId : Text) (found : List (Text × Text)) :
      Effect (.mailbox runId taskId found)
        { broker with
          inbox := Function.update broker.inbox runId
            (Function.update (broker.inbox runId) taskId found) }

theorem Alike.refl : Alike broker broker := ⟨rfl, rfl, rfl, rfl, rfl, rfl⟩

theorem resume_cases (index : Nat) (go : Request γ → CrewBroker γ) :
    broker.resume index go = broker ∨
      ∃ request, broker.requests[index]? = some request ∧ broker.resume index go = go request := by
  unfold CrewBroker.resume
  cases broker.requests[index]? with
  | none => exact Or.inl rfl
  | some request => exact Or.inr ⟨request, rfl, rfl⟩

/-- **Every step comes to one of the effects.** -/
theorem step_effect (action : Action γ ν) :
    Effect broker dispatcherVerifyKey verify redactSecrets action
      (broker.step dispatcherVerifyKey verify redactSecrets action) := by
  have idle : Alike broker broker := Alike.refl broker
  cases action with
  | hello conn connection => exact .idle ⟨rfl, rfl, rfl, rfl, rfl, rfl⟩
  | challenge conn params nonce now =>
    obtain ⟨counts, sent, cases⟩ := handleRespondChallenge_cases broker conn params nonce now
    rcases cases with refused | ⟨record, rfl, given⟩
    · rw [CrewBroker.step, refused]
      exact .idle ⟨rfl, rfl, rfl, rfl, rfl, rfl⟩
    · rw [CrewBroker.step, given]
      exact .issue ⟨rfl, rfl, rfl, rfl, rfl, rfl⟩
  | append conn params now stamp =>
    rw [CrewBroker.step]
    rcases handleRespondAppend_cases broker dispatcherVerifyKey verify conn params now stamp with
      ⟨reply, refused⟩ | ⟨reply, burned⟩ | ⟨parsed, admitted, suspended⟩
    · rw [refused]
      exact .idle ⟨rfl, rfl, rfl, rfl, rfl, rfl⟩
    · rw [burned]
      exact .burn conn ⟨rfl, rfl, rfl, rfl, rfl, rfl⟩
    · rw [suspended]
      exact .enter admitted
  | force conn params stamp =>
    rw [CrewBroker.step]
    rcases handleRespondForce_cases broker conn params stamp with
      ⟨reply, refused⟩ | ⟨parsed, parse, suspended⟩
    · rw [refused]
      exact .idle ⟨rfl, rfl, rfl, rfl, rfl, rfl⟩
    · rw [suspended]
      exact .force parse
  | gate index busy =>
    rw [CrewBroker.step]
    rcases resume_cases broker index _ with none | ⟨request, found, here⟩
    · rw [none]
      exact .idle idle
    rw [here]
    split_ifs with gating
    · rcases gate_cases broker index request busy with ⟨reply, refused⟩ | ⟨pid, passed⟩
      · rw [refused]
        exact .finish index ⟨rfl, rfl, rfl, rfl, rfl, rfl⟩
      · rw [passed]
        exact .proceed found ⟨rfl, rfl, rfl, rfl⟩ (Or.inl ⟨gating, rfl⟩)
    · exact .idle idle
  | write index =>
    rw [CrewBroker.step]
    rcases resume_cases broker index _ with none | ⟨request, found, here⟩
    · rw [none]
      exact .idle idle
    rw [here]
    split_ifs with appending
    · unfold CrewBroker.write
      cases missing : broker.stored request.params with
      | some messageId =>
        exact .proceed found ⟨rfl, rfl, rfl, rfl⟩ (Or.inr ⟨messageId, true, rfl⟩)
      | none => exact .append _ found appending missing
    · exact .idle idle
  | settle index =>
    rw [CrewBroker.step]
    rcases resume_cases broker index _ with none | ⟨request, found, here⟩
    · rw [none]
      exact .idle idle
    rw [here]
    cases request.phase with
    | written messageId deduped => exact .finish index ⟨rfl, rfl, rfl, rfl, rfl, rfl⟩
    | gating | appending => exact .idle idle
  | fail index message =>
    rw [CrewBroker.step]
    rcases resume_cases broker index _ with none | ⟨request, found, here⟩
    · rw [none]
      exact .idle idle
    rw [here]
    split_ifs
    · exact .idle idle
    · exact .finish index ⟨rfl, rfl, rfl, rfl, rfl, rfl⟩
  | sign what => exact .sign what
  | run runId tasks => exact .idle ⟨rfl, rfl, rfl, rfl, rfl, rfl⟩
  | mailbox runId taskId found => exact .mailbox runId taskId found

end

end PiCrew.Broker.Respond
