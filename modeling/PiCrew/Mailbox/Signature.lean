/-
**What the signature of a row binds.**

`state/coordination/mailbox.ts`. A row is signed over `canonicalMailboxPayload`, the text of an array of
its fields; a reader verifies the row and delivers what `parseMailboxMessage` makes of it. The payload
has neither `repliedAt` nor `replyContent`, gives an object as the string of its text, and like every
text gives a number that overflows as `null`:

* `verify_written` — a row that is written verifies after it is read back;
* `signature_binds` — both;
* `reply_is_not_signed` — two replies under one signature.

The redaction of a row before it is written is any function of rows, the signature scheme any that
accepts its own signatures. Functions among the data of a message are not part of the model.
-/

import PiCrew.Library.JsonText
import PiCrew.Mailbox.Files

namespace PiCrew.Mailbox

open JsonText

section

inductive MailboxMessageKind where
  | message
  | notify
  | steer
  | followUp
  | response
  | groupJoin
  deriving DecidableEq, Repr

inductive MailboxMessagePriority where
  | urgent
  | normal
  | low
  deriving DecidableEq, Repr

inductive MailboxDeliveryMode where
  | interrupt
  | nextTurn
  deriving DecidableEq, Repr

inductive MailboxReason where
  | needDecision
  | progressUpdate
  | interviewRequest
  deriving DecidableEq, Repr

abbrev Row (ν : Type) := List (Text × Value ν)

structure MailboxMessage (ν : Type) where
  id : Text
  runId : Text
  direction : MailboxDirection
  «from» : Text
  «to» : Text
  body : Text
  createdAt : Text
  status : MailboxMessageStatus
  kind : Option MailboxMessageKind
  priority : Option MailboxMessagePriority
  deliveryMode : Option MailboxDeliveryMode
  taskId : Option Text
  reason : Option MailboxReason
  questionId : Option Text
  requestId : Option Text
  acknowledgedAt : Option Text
  data : Option (Row ν)
  replyTo : Option Text
  replyFrom : Option Text
  replyDeadline : Option (JsNumber ν)
  repliedAt : Option Text
  replyContent : Option Text

variable {ν : Type}

def Row.at (row : Row ν) (key : String) : Option (Value ν) := row.lookup (units key)

def stringOf : Option (Value ν) → Option Text
  | some (.string text) => some text
  | _ => none

def numberOf : Option (Value ν) → Option (JsNumber ν)
  | some (.number number) => some number
  | _ => none

def dataOf : Option (Value ν) → Option (Row ν)
  | some (.object members) => some members
  | _ => none

def namedBy {κ : Type} (names : List (String × κ)) (value : Option (Value ν)) : Option κ :=
  (stringOf value).bind fun text => (names.find? fun name => units name.1 = text).map (·.2)

def isDirection (value : Option (Value ν)) : Option MailboxDirection :=
  namedBy [("inbox", .inbox), ("outbox", .outbox)] value

def isStatus (value : Option (Value ν)) : Option MailboxMessageStatus :=
  namedBy [("queued", .queued), ("delivered", .delivered), ("acknowledged", .acknowledged)] value

def isKind (value : Option (Value ν)) : Option MailboxMessageKind :=
  namedBy [("message", .message), ("notify", .notify), ("steer", .steer), ("follow-up", .followUp),
    ("response", .response), ("group_join", .groupJoin)] value

def isPriority (value : Option (Value ν)) : Option MailboxMessagePriority :=
  namedBy [("urgent", .urgent), ("normal", .normal), ("low", .low)] value

def isDeliveryMode (value : Option (Value ν)) : Option MailboxDeliveryMode :=
  namedBy [("interrupt", .interrupt), ("next_turn", .nextTurn)] value

def isReason (value : Option (Value ν)) : Option MailboxReason :=
  namedBy [("need_decision", .needDecision), ("progress_update", .progressUpdate),
    ("interview_request", .interviewRequest)] value

/-- **Make a message of a value**, if it is a row of the expected direction. -/
def parseMailboxMessage (raw : Value ν) (expectedDirection : MailboxDirection) :
    Option (MailboxMessage ν) :=
  match raw with
  | .object row => do
      let id ← stringOf (Row.at row "id")
      let runId ← stringOf (Row.at row "runId")
      let direction ← isDirection (Row.at row "direction")
      let sender ← stringOf (Row.at row "from")
      let recipient ← stringOf (Row.at row "to")
      let body ← stringOf (Row.at row "body")
      let createdAt ← stringOf (Row.at row "createdAt")
      let status ← isStatus (Row.at row "status")
      if direction ≠ expectedDirection then none
      else
        let data := dataOf (Row.at row "data")
        some {
          id := id, runId := runId, direction := direction, «from» := sender, «to» := recipient
          body := body, createdAt := createdAt, status := status
          kind := (isKind (Row.at row "kind")).orElse fun _ =>
            data.bind fun members => isKind (Row.at members "kind")
          priority := isPriority (Row.at row "priority")
          deliveryMode := isDeliveryMode (Row.at row "deliveryMode")
          taskId := stringOf (Row.at row "taskId")
          reason := isReason (Row.at row "reason")
          questionId := stringOf (Row.at row "questionId")
          requestId := stringOf (Row.at row "requestId")
          acknowledgedAt := stringOf (Row.at row "acknowledgedAt")
          data := data
          replyTo := stringOf (Row.at row "replyTo")
          replyFrom := stringOf (Row.at row "replyFrom")
          replyDeadline := numberOf (Row.at row "replyDeadline")
          repliedAt := stringOf (Row.at row "repliedAt")
          replyContent := stringOf (Row.at row "replyContent") }
  | _ => none

/-- The fields that every message has are there. -/
def hasRequiredFields (row : Row ν) (expectedDirection : MailboxDirection) : Bool :=
  (stringOf (Row.at row "id")).isSome && (stringOf (Row.at row "runId")).isSome &&
    isDirection (Row.at row "direction") = some expectedDirection &&
    (stringOf (Row.at row "from")).isSome && (stringOf (Row.at row "to")).isSome &&
    (stringOf (Row.at row "body")).isSome && (stringOf (Row.at row "createdAt")).isSome &&
    (isStatus (Row.at row "status")).isSome

variable [NumberFormat ν]

/-- The fields that the payload gives as they are. -/
def signedFields : List String :=
  ["id", "runId", "direction", "from", "to", "body", "createdAt", "status", "kind", "priority",
    "deliveryMode", "taskId", "questionId", "requestId", "reason", "replyTo", "replyFrom",
    "replyDeadline", "acknowledgedAt"]

omit [NumberFormat ν] in
/-- A field, `null` where it is missing. -/
def pick (row : Row ν) (key : String) : Value ν := (Row.at row key).getD .null

/-- The data as the payload gives it: an object or an array as the string of its text. -/
def dataText : Option (Value ν) → Value ν
  | some (.object members) => .string (stringify (.object members))
  | some (.array items) => .string (stringify (.array items))
  | other => other.getD .null

def canonicalMailboxPayload (row : Row ν) : Text :=
  stringify (.array (signedFields.map (pick row) ++ [dataText (Row.at row "data")]))

end

section

/-- **A signature scheme** that accepts its own signatures. They are not empty. -/
structure SignatureScheme (π κ : Type) where
  verifyKey : π → κ
  sign : π → Text → Text
  verify : κ → Text → Text → Bool
  correct : ∀ process hash, verify (verifyKey process) hash (sign process hash) = true
  sign_ne_nil : ∀ process hash, sign process hash ≠ []

variable {π κ ν : Type} [NumberFormat ν] (scheme : SignatureScheme π κ)
  (coordinationPayloadHash : Text → Text)

def verifyMailboxRowSig (row : Row ν) (verifyKeys : List κ) : Bool :=
  match stringOf (Row.at row "sig") with
  | none => false
  | some sig =>
    sig ≠ [] && verifyKeys.any fun key =>
      scheme.verify key (coordinationPayloadHash (canonicalMailboxPayload row)) sig

def withSig (row : Row ν) (sig : Text) : Row ν := Ledger.written row (units "sig") (.string sig)

def signMailboxMessage (process : π) (row : Row ν) : Row ν :=
  withSig row (scheme.sign process (coordinationPayloadHash (canonicalMailboxPayload row)))

/-- **The text of a row as it is written**: redacted, then signed. -/
def serializeMailboxRow (redactSecrets : Row ν → Row ν) (process : π) (message : Row ν) : Text :=
  stringify (.object
    (signMailboxMessage scheme coordinationPayloadHash process (redactSecrets message)))

end

section

variable {π κ ν : Type}

def overflowOf : Option (Value ν) → Option (JsNumber ν)
  | some (.number (.finite _)) => none
  | some (.number number) => some number
  | _ => none

/-- **Two rows agree on what is not signed**: on the strings of the reply, on whether the data are an
object, and on the numbers that overflow. -/
structure UnsignedAgree (first second : Row ν) : Prop where
  repliedAt : stringOf (Row.at first "repliedAt") = stringOf (Row.at second "repliedAt")
  replyContent : stringOf (Row.at first "replyContent") = stringOf (Row.at second "replyContent")
  replyDeadline :
    overflowOf (Row.at first "replyDeadline") = overflowOf (Row.at second "replyDeadline")
  data : (dataOf (Row.at first "data")).map nullsMembers
    = (dataOf (Row.at second "data")).map nullsMembers

/-- **How far a signature binds what is delivered.** -/
structure SignatureBinds (ν : Type) [NumberFormat ν] (scheme : SignatureScheme π κ)
    (coordinationPayloadHash : Text → Text) : Prop where
  /-- Rows with one payload are delivered alike exactly if they agree on what is not signed, unless
  they are not delivered at all. -/
  delivered : ∀ (first second : Row ν) expectedDirection,
    canonicalMailboxPayload first = canonicalMailboxPayload second →
      (parseMailboxMessage (.object first) expectedDirection
          = parseMailboxMessage (.object second) expectedDirection
        ↔ (hasRequiredFields first expectedDirection → UnsignedAgree first second))
  /-- A row that is written stands on one line, and verifies after it is read back. -/
  written : ∀ redactSecrets process (message : Row ν) verifyKeys,
    scheme.verifyKey process ∈ verifyKeys →
      Printed (serializeMailboxRow scheme coordinationPayloadHash redactSecrets process message) ∧
      ∃ row : Row ν, parse (serializeMailboxRow scheme coordinationPayloadHash redactSecrets process
          message) = some (.object row) ∧
        verifyMailboxRowSig scheme coordinationPayloadHash row verifyKeys = true

end

section

variable {ν : Type}

theorem stringOf_plain (value : Option (Value ν)) :
    stringOf value = stringOf (some (plain (value.getD .null))) := by
  cases value with
  | none => rfl
  | some value =>
    cases value with
    | number number => cases number <;> rfl
    | _ => rfl

variable {value other : Option (Value ν)}

theorem stringOf_of_plain (same : plain (value.getD .null) = plain (other.getD .null)) :
    stringOf value = stringOf other := by
  rw [stringOf_plain value, same, ← stringOf_plain other]

theorem numberOf_plain (value : Option (Value ν)) : numberOf value
      = (overflowOf value).orElse fun _ => numberOf (some (plain (value.getD .null))) := by
  cases value with
  | none => rfl
  | some value =>
    cases value with
    | number number => cases number <;> rfl
    | _ => rfl

theorem numberOf_of_plain (same : plain (value.getD .null) = plain (other.getD .null))
    (overflow : overflowOf value = overflowOf other) : numberOf value = numberOf other := by
  rw [numberOf_plain value, same, overflow, ← numberOf_plain other]

theorem overflowOf_of_numberOf
    (same : numberOf value = numberOf other) : overflowOf value = overflowOf other := by
  have read : ∀ held : Option (Value ν),
      overflowOf held = overflowOf ((numberOf held).map Value.number) := by
    intro held
    cases held with
    | none => rfl
    | some held => cases held <;> rfl
  rw [read value, same, ← read other]

theorem dataOf_eq_some {value : Option (Value ν)} {members : Row ν}
    (data : dataOf value = some members) : value = some (.object members) := by
  cases value with
  | none => cases data
  | some value =>
    cases value with
    | object held => exact congrArg (fun held => some (Value.object held)) (Option.some.inj data)
    | _ => cases data

variable [NumberFormat ν]

theorem dataOf_of_dataText (same : plain (dataText value) = plain (dataText other))
    (lost : (dataOf value).map nullsMembers = (dataOf other).map nullsMembers) :
    dataOf value = dataOf other := by
  cases here : dataOf value with
  | none =>
    rw [here] at lost
    cases there : dataOf other with
    | none => rfl
    | some members =>
      rw [there] at lost
      cases lost
  | some members =>
    rw [here] at lost
    cases there : dataOf other with
    | none =>
      rw [there] at lost
      cases lost
    | some others =>
      rw [there] at lost
      rw [dataOf_eq_some here, dataOf_eq_some there] at same
      have text : stringify (.object members) = stringify (.object others) := Value.string.inj same
      have equal := eq_of_plain (plain_of_stringify text) (Option.some.inj lost)
      exact congrArg some (Value.object.inj equal)

theorem fields_of_payload {first second : Row ν}
    (same : canonicalMailboxPayload first = canonicalMailboxPayload second) :
    (∀ key ∈ signedFields, plain (pick first key) = plain (pick second key)) ∧
      plain (dataText (Row.at first "data")) = plain (dataText (Row.at second "data")) := by
  have items := Value.array.inj (plain_of_stringify same)
  rw [plainItems_eq_map, plainItems_eq_map, List.map_append, List.map_append, List.map_map,
    List.map_map] at items
  obtain ⟨fields, data⟩ := List.append_inj items (by rw [List.length_map, List.length_map])
  exact ⟨List.map_inj_left.mp fields, (List.cons.inj data).1⟩

theorem stringOf_of_payload {first second : Row ν}
    (same : canonicalMailboxPayload first = canonicalMailboxPayload second) :
    ∀ key ∈ signedFields, stringOf (Row.at first key) = stringOf (Row.at second key) :=
  fun key signed => stringOf_of_plain ((fields_of_payload same).1 key signed)

end

section

variable {ν : Type}

theorem parse_cases (row : Row ν) (expectedDirection : MailboxDirection) :
    (hasRequiredFields row expectedDirection = false ∧
        parseMailboxMessage (.object row) expectedDirection = none) ∨
      (hasRequiredFields row expectedDirection = true ∧
        ∃ message, parseMailboxMessage (.object row) expectedDirection = some message ∧
          message.repliedAt = stringOf (Row.at row "repliedAt") ∧
          message.replyContent = stringOf (Row.at row "replyContent") ∧
          message.replyDeadline = numberOf (Row.at row "replyDeadline") ∧
          message.data = dataOf (Row.at row "data")) := by
  unfold hasRequiredFields
  simp only [parseMailboxMessage]
  cases stringOf (Row.at row "id") with
  | none => exact Or.inl ⟨rfl, rfl⟩
  | some id =>
  cases stringOf (Row.at row "runId") with
  | none => exact Or.inl ⟨rfl, rfl⟩
  | some runId =>
  cases isDirection (Row.at row "direction") with
  | none => exact Or.inl ⟨rfl, rfl⟩
  | some direction =>
  cases stringOf (Row.at row "from") with
  | none => exact Or.inl ⟨by simp, rfl⟩
  | some sender =>
  cases stringOf (Row.at row "to") with
  | none => exact Or.inl ⟨by simp, rfl⟩
  | some recipient =>
  cases stringOf (Row.at row "body") with
  | none => exact Or.inl ⟨by simp, rfl⟩
  | some body =>
  cases stringOf (Row.at row "createdAt") with
  | none => exact Or.inl ⟨by simp, rfl⟩
  | some createdAt =>
  cases isStatus (Row.at row "status") with
  | none => exact Or.inl ⟨by simp, rfl⟩
  | some status =>
  by_cases expected : direction = expectedDirection
  · subst expected
    refine Or.inr ⟨by simp, ?_⟩
    show ∃ message, (if direction ≠ direction then none else _) = some message ∧ _
    rw [if_neg (fun apart => apart rfl)]
    exact ⟨_, rfl, rfl, rfl, rfl, rfl⟩
  · refine Or.inl ⟨by simp [expected], ?_⟩
    show (if direction ≠ expectedDirection then none else _) = none
    rw [if_pos expected]

variable [NumberFormat ν] {first second : Row ν}

variable (same : canonicalMailboxPayload first = canonicalMailboxPayload second)

include same

theorem parse_of_agree (agree : UnsignedAgree first second) (expectedDirection : MailboxDirection) :
    parseMailboxMessage (.object first) expectedDirection
      = parseMailboxMessage (.object second) expectedDirection := by
  obtain ⟨fields, text⟩ := fields_of_payload same
  have deadline := numberOf_of_plain (fields "replyDeadline" (by decide)) agree.replyDeadline
  have data := dataOf_of_dataText text agree.data
  have strings := stringOf_of_payload same
  simp only [signedFields, List.forall_mem_cons] at strings
  simp only [parseMailboxMessage, isDirection, isStatus, isPriority, isDeliveryMode, isReason, isKind,
    namedBy, strings, deadline, data, agree.repliedAt, agree.replyContent]

theorem hasRequiredFields_of_payload (expectedDirection : MailboxDirection) :
    hasRequiredFields first expectedDirection = hasRequiredFields second expectedDirection := by
  have strings := stringOf_of_payload same
  simp only [signedFields, List.forall_mem_cons] at strings
  have direction : isDirection (Row.at first "direction") = isDirection (Row.at second "direction") := by
    simp only [isDirection, namedBy, strings]
  have status : isStatus (Row.at first "status") = isStatus (Row.at second "status") := by
    simp only [isStatus, namedBy, strings]
  simp only [hasRequiredFields, direction, status, strings]

theorem parse_agrees_iff (expectedDirection : MailboxDirection) :
    parseMailboxMessage (.object first) expectedDirection
        = parseMailboxMessage (.object second) expectedDirection
      ↔ (hasRequiredFields first expectedDirection → UnsignedAgree first second) := by
  have required := hasRequiredFields_of_payload same expectedDirection
  constructor
  · intro alike held
    rcases parse_cases first expectedDirection with ⟨missing, -⟩ | ⟨-, message, parsed, fields⟩
    · rw [missing] at held
      cases held
    · rcases parse_cases second expectedDirection with ⟨-, none⟩ | ⟨-, other, parsed', fields'⟩
      · rw [parsed, none] at alike
        cases alike
      · rw [parsed, parsed'] at alike
        obtain rfl := Option.some.inj alike
        obtain ⟨repliedAt, replyContent, deadline, data⟩ := fields
        obtain ⟨repliedAt', replyContent', deadline', data'⟩ := fields'
        exact {
          repliedAt := repliedAt.symm.trans repliedAt'
          replyContent := replyContent.symm.trans replyContent'
          replyDeadline := overflowOf_of_numberOf (deadline.symm.trans deadline')
          data := congrArg (Option.map nullsMembers) (data.symm.trans data') }
  · intro agree
    rcases parse_cases first expectedDirection with ⟨missing, none⟩ | ⟨held, -⟩
    · rcases parse_cases second expectedDirection with ⟨-, none'⟩ | ⟨held, -⟩
      · rw [none, none']
      · rw [required, held] at missing
        cases missing
    · exact parse_of_agree same (agree held) expectedDirection

end

section

variable {π κ ν : Type} [NumberFormat ν] (scheme : SignatureScheme π κ)
  (coordinationPayloadHash : Text → Text)

omit [NumberFormat ν] in
theorem at_withSig (row : Row ν) (sig : Text) (key : String) : Row.at (withSig row sig) key
      = if units key = units "sig" then some (.string sig) else Row.at row key :=
  Ledger.lookup_written row (units "sig") (units key) (.string sig)

theorem payload_withSig (row : Row ν) (sig : Text) :
    canonicalMailboxPayload (withSig row sig) = canonicalMailboxPayload row := by
  have apart : ∀ key ∈ "data" :: signedFields, units key ≠ units "sig" := by decide
  have fields : signedFields.map (pick (withSig row sig)) = signedFields.map (pick row) := by
    refine List.map_congr_left fun key member => ?_
    rw [pick, at_withSig, if_neg (apart key (List.mem_cons_of_mem _ member))]
    rfl
  rw [canonicalMailboxPayload, fields, at_withSig, if_neg (apart "data" List.mem_cons_self)]
  rfl

omit [NumberFormat ν] in
theorem at_plainMembers (row : Row ν) (key : String) :
    Row.at (plainMembers row) key = (Row.at row key).map plain :=
  lookup_plainMembers row (units key)

theorem dataText_plain (value : Option (Value ν)) :
    dataText (value.map plain) = plain (dataText value) := by
  cases value with
  | none => rfl
  | some value =>
    cases value with
    | number number => cases number <;> rfl
    | object members => exact congrArg Value.string (stringify_plain (.object members))
    | array items => exact congrArg Value.string (stringify_plain (.array items))
    | _ => rfl

theorem payload_plainMembers (row : Row ν) :
    canonicalMailboxPayload (plainMembers row) = canonicalMailboxPayload row := by
  have fields : signedFields.map (pick (plainMembers row))
      = (signedFields.map (pick row)).map plain := by
    rw [List.map_map]
    refine List.map_congr_left fun key _ => ?_
    show (Row.at (plainMembers row) key).getD .null = plain ((Row.at row key).getD .null)
    rw [at_plainMembers]
    cases Row.at row key with
    | none => rfl
    | some value => rfl
  have items : signedFields.map (pick (plainMembers row))
        ++ [dataText (Row.at (plainMembers row) "data")]
      = plainItems (signedFields.map (pick row) ++ [dataText (Row.at row "data")]) := by
    rw [fields, at_plainMembers, dataText_plain, plainItems_eq_map, List.map_append]
    rfl
  rw [canonicalMailboxPayload, items]
  exact stringify_plain (.array _)

/-- **A row that is written verifies** after it is read back. -/
theorem verify_written (process : π) (row : Row ν) {verifyKeys : List κ}
    (known : scheme.verifyKey process ∈ verifyKeys) :
    verifyMailboxRowSig scheme coordinationPayloadHash
      (plainMembers (signMailboxMessage scheme coordinationPayloadHash process row)) verifyKeys
        = true := by
  unfold verifyMailboxRowSig signMailboxMessage
  rw [at_plainMembers, at_withSig, if_pos rfl, payload_plainMembers, payload_withSig]
  refine Bool.and_eq_true_iff.mpr ⟨decide_eq_true (scheme.sign_ne_nil _ _), ?_⟩
  exact List.any_eq_true.mpr ⟨_, known, scheme.correct _ _⟩

/-- **The signature binds** all that is delivered of a row but its reply, whether its data are an
object, and numbers that overflow; and what is written verifies. -/
theorem signature_binds : SignatureBinds ν scheme coordinationPayloadHash where
  delivered := fun _ _ expectedDirection same => parse_agrees_iff same expectedDirection
  written := fun redactSecrets process message _ known =>
    ⟨printed_stringify _, _, parse_stringify _,
      verify_written scheme coordinationPayloadHash process (redactSecrets message) known⟩

end

instance : NumberFormat (Fin 10) where
  text digit := [0x30 + digit.val.toUInt16]
  read
    | [unit] =>
      if 0x30 ≤ unit ∧ unit ≤ 0x39 then some (.finite (Fin.ofNat 10 (unit.toNat - 0x30))) else none
    | _ => none
  starts digit := ⟨_, _, rfl, by revert digit; decide⟩
  numeric digit unit member := by
    have numeric : ∀ digit : Fin 10, isNumberUnit (0x30 + digit.val.toUInt16) = true := by decide
    rw [List.mem_singleton.mp member]
    exact numeric digit
  read_text := by decide

/-- A scheme that signs a hash with the hash itself. -/
def openScheme : SignatureScheme Unit Unit where
  verifyKey := id
  sign _ hash := 0 :: hash
  verify _ hash sig := sig = 0 :: hash
  correct _ _ := decide_eq_true rfl
  sign_ne_nil _ _ := List.cons_ne_nil _ _

def answered (reply : String) : Row (Fin 10) :=
  [("id", "m"), ("runId", "r"), ("direction", "inbox"), ("from", "a"), ("to", "b"), ("body", "Go?"),
    ("createdAt", "0"), ("status", "queued"), ("repliedAt", "1"), ("replyContent", reply)].map
      fun field => (units field.1, .string (units field.2))

def asking (data : Value (Fin 10)) : Row (Fin 10) := (units "data", data) :: answered "yes"

/-- **The reply is not signed**: the signature of a row verifies with another reply in it, which is
delivered. -/
theorem reply_is_not_signed :
    let sig := openScheme.sign () (canonicalMailboxPayload (answered "yes"))
    canonicalMailboxPayload (answered "yes") = canonicalMailboxPayload (answered "no") ∧
      verifyMailboxRowSig openScheme id (withSig (answered "yes") sig) [()] = true ∧
      verifyMailboxRowSig openScheme id (withSig (answered "no") sig) [()] = true ∧
      (parseMailboxMessage (.object (withSig (answered "yes") sig)) .inbox).map (·.replyContent)
        = some (some (units "yes")) ∧
      (parseMailboxMessage (.object (withSig (answered "no") sig)) .inbox).map (·.replyContent)
        = some (some (units "no")) := by
  decide +kernel

/-- An object and the string of its text have one payload, and one of them is steered by. -/
example :
    let steering := Value.object [(units "kind", .string (units "steer"))]
    canonicalMailboxPayload (asking steering)
        = canonicalMailboxPayload (asking (.string (stringify steering))) ∧
      (parseMailboxMessage (.object (asking steering)) .inbox).map (·.kind) = some (some .steer) ∧
      (parseMailboxMessage (.object (asking (.string (stringify steering)))) .inbox).map (·.kind)
        = some none := by
  decide +kernel

end PiCrew.Mailbox
