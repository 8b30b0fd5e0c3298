/-
**The handshake on standard input.**

`runtime/broker/stdin-handshake.ts`. The worker reads up to the first newline, gives up on a line over 64 KiB, and
parses what it has. Each chunk is decoded for itself, so one that ends inside a character damages the line.

* `run_read` — what the reader has after the chunks up to the newline;
* `handshake_returns_iff` — the payload arrives exactly if no chunk of the line starts inside a character.

A timeout is an event of the stream.
-/

import PiCrew.EventLog.LogStats
import PiCrew.Library.LastWins
import PiCrew.Library.Utf8Lines
import PiCrew.Library.Utf8Pieces

namespace PiCrew.Broker.StdinHandshake

open JsonText Utf8
open EventLog.LogStats (trim isSpace)

section

variable {ν : Type} [NumberFormat ν] [DecidableEq ν]

structure StdinBrokerPayload where
  runId : Text
  socketPath : Text
  tasks : List (Text × Text)
  dispatcherVerifyKey : Option Text
  deriving DecidableEq, Repr

def isKeyUnit (unit : UInt16) : Bool :=
  (0x41 ≤ unit && unit ≤ 0x5A) || (0x61 ≤ unit && unit ≤ 0x7A) || (0x30 ≤ unit && unit ≤ 0x39) ||
    unit == 0x2B || unit == 0x2F || unit == 0x3D

def isVerifyKey (key : Text) : Bool := 32 ≤ key.length && key.length ≤ 128 && key.all isKeyUnit

/-- `typeof value === "string"` -/
def stringOf : Option (Value ν) → Option Text
  | some (.string text) => some text
  | _ => none

def isNumber (number : ν) : Option (Value ν) → Bool
  | some (.number (.finite value)) => value = number
  | _ => false

def get (members : List (Text × Value ν)) (key : String) : Option (Value ν) :=
  (LastWins.latest Prod.fst members (units key)).map Prod.snd

def tokens : List (Text × Value ν) → Option (List (Text × Text))
  | [] => some []
  | (id, .string token) :: rest =>
    if id = [] ∨ token = [] then none else (tokens rest).map ((id, token) :: ·)
  | _ => none

/-- **Parse and check a line.** `two` is the version's number. -/
def parseStdinBrokerPayload (two : ν) (raw expectedRunId : Text) : Option StdinBrokerPayload :=
  match (parse (trim raw) : Option (Value ν)) with
  | some (.object members) =>
    if isNumber two (get members "v") = false then none
    else if stringOf (get members "runId") ≠ some expectedRunId then none
    else match stringOf (get members "socketPath"), get members "tasks" with
      | some socketPath, some (.object entries) =>
        if socketPath = [] then none
        else (tokens (LastWins.merge Prod.fst entries)).map fun tasks =>
          { runId := expectedRunId, socketPath, tasks,
            dispatcherVerifyKey := (stringOf (get members "dispatcherVerifyKey")).filter isVerifyKey }
      | _, _ => none
  | _ => none

def entries (tasks : List (Text × Text)) : List (Text × Value ν) := tasks.map fun task => (task.1, .string task.2)

def keyMember (key : Option Text) : List (Text × Value ν) :=
  ((key.filter (· ≠ [])).map fun key => (units "dispatcherVerifyKey", .string key)).toList

def lineValue (two : ν) (payload : StdinBrokerPayload) : Value ν :=
  .object ((units "v", .number (.finite two)) :: (units "runId", .string payload.runId) ::
    (units "socketPath", .string payload.socketPath) :: (units "tasks", .object (entries payload.tasks)) ::
    keyMember payload.dispatcherVerifyKey)

def newline : UInt16 := 0x0A

def buildBrokerStdinLine (two : ν) (payload : StdinBrokerPayload) : Text :=
  stringify (lineValue two payload) ++ [newline]

inductive StreamEvent where
  | bytes (chunk : List UInt8)
  | string (chunk : Text)
  | ended
  | error
  | timeout
  deriving DecidableEq, Repr

/-- The reader of the first line: what it has resolved to, and the text up to now. -/
structure Reader where
  settled : Option (Option Text) := none
  buf : Text := []
  deriving DecidableEq, Repr

def maxLine : Nat := 64 * 1024

/-- `finish`: the first one counts. -/
def Reader.finish (reader : Reader) (value : Option Text) : Reader :=
  { reader with settled := some (reader.settled.getD value) }

/-- `onData`. The listener is removed once the reader is settled. -/
def Reader.onData (reader : Reader) (chunk : Text) : Reader :=
  if reader.settled.isSome then reader
  else
    let buf := reader.buf ++ chunk
    if newline ∈ buf then { reader with buf }.finish (some (buf.takeWhile (· ≠ newline)))
    else if buf.length > maxLine then { reader with buf }.finish none
    else { reader with buf }

def Reader.on (reader : Reader) : StreamEvent → Reader
  | .bytes chunk => reader.onData (decode chunk)
  | .string chunk => reader.onData chunk
  | .ended => reader.finish (if reader.buf.length > 0 then some reader.buf else none)
  | .error | .timeout => reader.finish none

def readFirstLineFromStream (events : List StreamEvent) : Option Text :=
  (events.foldl Reader.on {}).settled.join

def handshake (two : ν) (events : List StreamEvent) (expectedRunId : Text) : Option StdinBrokerPayload :=
  (readFirstLineFromStream events).bind fun line => parseStdinBrokerPayload two line expectedRunId

/-- **A payload**: a socket, tokens of different tasks, and a verify key in base64, if there is one. -/
structure StdinBrokerPayload.Valid (payload : StdinBrokerPayload) : Prop where
  socketPath : payload.socketPath ≠ []
  named : ∀ task ∈ payload.tasks, task.1 ≠ [] ∧ task.2 ≠ []
  apart : (payload.tasks.map Prod.fst).Nodup
  key : ∀ key ∈ payload.dispatcherVerifyKey, isVerifyKey key = true

end

/-! ## The parser -/

section

variable {ν : Type} [NumberFormat ν] [DecidableEq ν] {two : ν} {payload : StdinBrokerPayload}
  {tasks others : List (Text × Text)}

omit [NumberFormat ν] [DecidableEq ν] in
theorem keys_entries (tasks : List (Text × Text)) :
    (entries tasks : List (Text × Value ν)).map Prod.fst = tasks.map Prod.fst := by
  rw [entries, List.map_map]
  rfl

omit [NumberFormat ν] [DecidableEq ν] in
theorem tokens_entries (named : ∀ task ∈ tasks, task.1 ≠ [] ∧ task.2 ≠ []) :
    tokens (entries tasks : List (Text × Value ν)) = some tasks := by
  induction tasks with
  | nil => rfl
  | cons task rest ih =>
    obtain ⟨⟨id, token⟩, behind⟩ := List.forall_mem_cons.mp named
    show (if task.1 = [] ∨ task.2 = [] then none else (tokens (entries rest)).map _) = _
    rw [if_neg (not_or.mpr ⟨id, token⟩), ih behind]
    rfl

omit [NumberFormat ν] [DecidableEq ν] in
theorem eq_entries {members : List (Text × Value ν)} (read : tokens members = some tasks) :
    members = entries tasks := by
  induction members generalizing tasks with
  | nil =>
    cases read
    rfl
  | cons member rest ih =>
    obtain ⟨id, value⟩ := member
    cases value with
    | string token =>
      rw [tokens] at read
      split at read
      · cases read
      · obtain ⟨behind, inner, rfl⟩ := Option.map_eq_some_iff.mp read
        rw [ih inner]
        rfl
    | _ => cases read

theorem trim_object (inside : Text) : trim (0x7B :: (inside ++ [0x7D])) = 0x7B :: (inside ++ [0x7D]) := by
  rw [trim, List.dropWhile_cons_of_neg (by decide), List.reverse_cons, List.reverse_append]
  simp [isSpace]

omit [DecidableEq ν] in
theorem stringifyMembers_end (members : List (Text × Value ν)) :
    ∃ inside, stringifyMembers members = inside ++ [0x7D] := by
  induction members with
  | nil => exact ⟨[], rfl⟩
  | cons member rest ih =>
    obtain ⟨inside, same⟩ := ih
    exact ⟨0x2C :: (quote member.1 ++ 0x3A :: (stringify member.2 ++ inside)), by
      rw [stringifyMembers, same]
      simp⟩

omit [DecidableEq ν] in
theorem trim_line (two : ν) (payload : StdinBrokerPayload) :
    trim (stringify (lineValue two payload)) = stringify (lineValue two payload) := by
  rw [lineValue, stringify]
  obtain ⟨inside, same⟩ := stringifyMembers_end ((units "runId", .string payload.runId) ::
    (units "socketPath", .string payload.socketPath) :: (units "tasks", .object (entries payload.tasks)) ::
    keyMember payload.dispatcherVerifyKey : List (Text × Value ν))
  have text := trim_object
    (quote (units "v") ++ 0x3A :: (stringify (.number (.finite two) : Value ν) ++ inside))
  rw [same]
  simpa using text

omit [NumberFormat ν] [DecidableEq ν] in
theorem plainMembers_entries (tasks : List (Text × Text)) :
    plainMembers (entries tasks : List (Text × Value ν)) = entries tasks := by
  induction tasks with
  | nil => rfl
  | cons task rest ih => exact congrArg _ ih

omit [NumberFormat ν] [DecidableEq ν] in
theorem plain_line (two : ν) (payload : StdinBrokerPayload) :
    plain (lineValue two payload) = lineValue two payload := by
  have key : plainMembers (keyMember payload.dispatcherVerifyKey : List (Text × Value ν)) =
      keyMember payload.dispatcherVerifyKey := by
    rw [keyMember]
    cases payload.dispatcherVerifyKey.filter (· ≠ []) <;> rfl
  rw [lineValue, plain, plainMembers, plainMembers, plainMembers, plainMembers, key]
  simp only [plain, plainMembers_entries]

theorem parse_line (two : ν) (payload : StdinBrokerPayload) (expectedRunId : Text) :
    parseStdinBrokerPayload two (stringify (lineValue two payload)) expectedRunId =
      if payload.runId = expectedRunId ∧ payload.socketPath ≠ [] then
        (tokens (LastWins.merge Prod.fst (entries payload.tasks : List (Text × Value ν)))).map fun tasks =>
          { payload with
            tasks, dispatcherVerifyKey := payload.dispatcherVerifyKey.filter isVerifyKey }
      else none := by
  have found : ∃ members, lineValue two payload = .object members ∧
      get members "v" = some (.number (.finite two)) ∧ get members "runId" = some (.string payload.runId) ∧
      get members "socketPath" = some (.string payload.socketPath) ∧
      get members "tasks" = some (.object (entries payload.tasks)) ∧
      stringOf (get members "dispatcherVerifyKey") = payload.dispatcherVerifyKey.filter (· ≠ []) := by
    refine ⟨_, rfl, ?_⟩
    rw [keyMember]
    cases payload.dispatcherVerifyKey.filter (· ≠ []) with
    | none | some key => exact ⟨rfl, rfl, rfl, rfl, rfl⟩
  obtain ⟨members, written, version, runId, socketPath, tasks, key⟩ := found
  have keys : (payload.dispatcherVerifyKey.filter (· ≠ [])).filter isVerifyKey =
      payload.dispatcherVerifyKey.filter isVerifyKey := by
    cases payload.dispatcherVerifyKey with
    | none => rfl
    | some key =>
      cases key with
      | nil => rfl
      | cons unit key => rfl
  have read : (parse (trim (stringify (lineValue two payload))) : Option (Value ν)) = some (.object members) := by
    rw [trim_line, parse_stringify, plain_line, written]
  rw [parseStdinBrokerPayload, read]
  dsimp only
  rw [version, runId, socketPath, tasks, key, keys]
  by_cases run : payload.runId = expectedRunId
  · by_cases socket : payload.socketPath = []
    · simp [isNumber, stringOf, socket]
    · simp [isNumber, stringOf, run, socket]
  · simp [isNumber, stringOf, run]

end

/-! ## A line in pieces -/

section

variable {ν : Type} [NumberFormat ν] [DecidableEq ν] {two : ν} {payload : StdinBrokerPayload} {read rest : Text}
  {tasks : List (Text × Text)}

def label (key : String) : Text := 0x2C :: (quote (units key) ++ [0x3A])

def opening (two : ν) : Text := 0x7B :: (quote (units "v") ++ 0x3A :: (NumberFormat.text two ++ label "runId"))

omit [DecidableEq ν] in
theorem line_eq (two : ν) (payload : StdinBrokerPayload) : stringify (lineValue two payload) =
    opening two ++ (quote payload.runId ++ (label "socketPath" ++ (quote payload.socketPath ++ (label "tasks" ++
      (stringify (.object (entries payload.tasks) : Value ν) ++
        stringifyMembers (keyMember payload.dispatcherVerifyKey : List (Text × Value ν))))))) := by
  simp [lineValue, stringify, stringifyMembers, opening, label]

theorem Pieces.task {id token : Text} (pieces : Pieces (quote id ++ 0x3A :: (quote token ++ rest)) read) :
    ∃ id' token' more, read = quote id' ++ 0x3A :: (quote token' ++ more) ∧ Pieces rest more := by
  obtain ⟨id', _, rfl, behindId⟩ := pieces.quote
  obtain ⟨_, rfl, behindColon⟩ := behindId.cons (by decide)
  obtain ⟨token', more, rfl, behind⟩ := behindColon.quote
  exact ⟨id', token', more, rfl, behind⟩

omit [DecidableEq ν] in
theorem Pieces.members (pieces : Pieces (stringifyMembers (entries tasks : List (Text × Value ν)) ++ rest) read) :
    ∃ others more, read = stringifyMembers (entries others : List (Text × Value ν)) ++ more ∧
      others.length = tasks.length ∧ Pieces rest more := by
  induction tasks generalizing read with
  | nil =>
    obtain ⟨more, rfl, behind⟩ := Pieces.cons (by decide : (0x7D : UInt16) < 0x80) pieces
    exact ⟨[], more, rfl, rfl, behind⟩
  | cons task tasks ih =>
    have text : stringifyMembers (entries (task :: tasks) : List (Text × Value ν)) ++ rest =
        0x2C :: (quote task.1 ++ 0x3A :: (quote task.2 ++ (stringifyMembers (entries tasks : List (Text × Value ν)) ++
          rest))) := by
      simp [entries, stringifyMembers, stringify]
    rw [text] at pieces
    obtain ⟨_, rfl, behindComma⟩ := pieces.cons (by decide)
    obtain ⟨id, token, _, rfl, behindTask⟩ := Pieces.task behindComma
    obtain ⟨others, more, rfl, length, behind⟩ := ih behindTask
    exact ⟨(id, token) :: others, more, by simp [entries, stringifyMembers, stringify],
      congrArg (· + 1) length, behind⟩

omit [DecidableEq ν] in
theorem Pieces.object (pieces : Pieces (stringify (.object (entries tasks) : Value ν) ++ rest) read) :
    ∃ others more, read = stringify (.object (entries others) : Value ν) ++ more ∧
      others.length = tasks.length ∧ Pieces rest more := by
  cases tasks with
  | nil =>
    obtain ⟨more, rfl, behind⟩ := Pieces.ascii (@ascii_of_all [0x7B, 0x7D] (by decide)) pieces
    exact ⟨[], more, rfl, rfl, behind⟩
  | cons task tasks =>
    have text : stringify (.object (entries (task :: tasks)) : Value ν) ++ rest =
        0x7B :: (quote task.1 ++ 0x3A :: (quote task.2 ++ (stringifyMembers (entries tasks : List (Text × Value ν)) ++
          rest))) := by
      simp [entries, stringify]
    rw [text] at pieces
    obtain ⟨_, rfl, behindBrace⟩ := pieces.cons (by decide)
    obtain ⟨id, token, _, rfl, behindTask⟩ := Pieces.task behindBrace
    obtain ⟨others, more, rfl, length, behind⟩ := Pieces.members behindTask
    exact ⟨(id, token) :: others, more, by simp [entries, stringify], congrArg (· + 1) length, behind⟩

theorem ascii_of_isKeyUnit {unit : UInt16} (key : isKeyUnit unit = true) : unit < 0x80 := by
  have value : unit.toNat < 0x80 := by
    simp only [isKeyUnit, Bool.or_eq_true, Bool.and_eq_true, decide_eq_true_eq, beq_iff_eq,
      UInt16.le_iff_toNat_le, ← UInt16.toNat_inj, UInt16.reduceToNat] at key
    omega
  exact UInt16.lt_iff_toNat_lt.mpr value

omit [DecidableEq ν] in
theorem ascii_closing {key : Option Text} (valid : ∀ text ∈ key, isVerifyKey text = true) :
    ∀ unit ∈ stringifyMembers (keyMember key : List (Text × Value ν)), unit < 0x80 := by
  rw [keyMember]
  cases found : key.filter (· ≠ []) with
  | none =>
    exact @ascii_of_all [0x7D] (by decide)
  | some text =>
    have units : ∀ unit ∈ text, unit < 0x80 := fun unit member => by
      have verify := valid text (Option.filter_eq_some_iff.mp found).1
      exact ascii_of_isKeyUnit (List.all_eq_true.mp (Bool.and_eq_true_iff.mp verify).2 unit member)
    have whole : stringifyMembers [(JsonText.units "dispatcherVerifyKey", (.string text : Value ν))] =
        label "dispatcherVerifyKey" ++ (quoteMark :: (escape text ++ [quoteMark, 0x7D])) := by
      simp [stringifyMembers, stringify, label, quote]
    show ∀ unit ∈ stringifyMembers [(JsonText.units "dispatcherVerifyKey", (.string text : Value ν))], unit < 0x80
    rw [whole]
    refine List.forall_mem_append.mpr ⟨ascii_of_all (by decide +kernel), List.forall_mem_cons.mpr ⟨by decide, ?_⟩⟩
    exact List.forall_mem_append.mpr ⟨ascii_escape units, ascii_of_all (by decide)⟩

omit [DecidableEq ν] in
theorem ascii_opening (two : ν) : ∀ unit ∈ opening two, unit < 0x80 := by
  refine List.forall_mem_cons.mpr ⟨by decide, List.forall_mem_append.mpr ⟨ascii_of_all (by decide +kernel),
    List.forall_mem_cons.mpr ⟨by decide, List.forall_mem_append.mpr ⟨fun unit member => ?_,
      ascii_of_all (by decide +kernel)⟩⟩⟩⟩
  have numeric := NumberFormat.numeric two unit member
  have value : unit.toNat < 0x80 := by
    simp only [isNumberUnit, Bool.or_eq_true, Bool.and_eq_true, decide_eq_true_eq,
      UInt16.le_iff_toNat_le, ← UInt16.toNat_inj, UInt16.reduceToNat] at numeric
    omega
  exact UInt16.lt_iff_toNat_lt.mpr value

omit [DecidableEq ν] in
theorem pieces_line (valid : payload.Valid) (pieces : Pieces (stringify (lineValue two payload)) read) :
    ∃ other : StdinBrokerPayload, read = stringify (lineValue two other) ∧
      other.tasks.length = payload.tasks.length ∧ other.dispatcherVerifyKey = payload.dispatcherVerifyKey := by
  rw [line_eq] at pieces
  obtain ⟨_, rfl, behindOpening⟩ := Pieces.ascii (ascii_opening two) pieces
  obtain ⟨runId, _, rfl, behindRun⟩ := behindOpening.quote
  obtain ⟨_, rfl, behindLabel⟩ := Pieces.ascii (@ascii_of_all (label "socketPath") (by decide +kernel)) behindRun
  obtain ⟨socketPath, _, rfl, behindSocket⟩ := behindLabel.quote
  obtain ⟨_, rfl, behindTasks⟩ := Pieces.ascii (@ascii_of_all (label "tasks") (by decide +kernel)) behindSocket
  obtain ⟨tasks, _, rfl, length, closing⟩ := Pieces.object behindTasks
  rw [← List.append_nil (stringifyMembers (keyMember _))] at closing
  obtain ⟨last, rfl, none⟩ := Pieces.ascii (ascii_closing valid.key) closing
  refine ⟨⟨runId, socketPath, tasks, payload.dispatcherVerifyKey⟩, ?_, length, rfl⟩
  rw [line_eq, none.nil, List.append_nil]

end

/-! ## The reader -/

section

/-- **A chunk starts inside a character** while so many octets of the line are left. -/
def CutsLine : Nat → List (List UInt8) → Prop
  | _, [] => False
  | left, chunk :: rest => 0 < left ∧ StartsInside chunk ∨ CutsLine (left - chunk.length) rest

variable {reader : Reader} {chunks : List (List UInt8)} {line behind : List UInt8}

theorem not_cutsLine_zero (chunks : List (List UInt8)) : ¬ CutsLine 0 chunks := by
  induction chunks with
  | nil => exact id
  | cons chunk rest ih =>
    rintro (⟨left, -⟩ | behind)
    · exact Nat.lt_irrefl 0 left
    · exact ih (Nat.zero_sub chunk.length ▸ behind)

theorem startsInside_append {front : List UInt8} (rest : List UInt8) (some : 0 < front.length) :
    StartsInside (front ++ rest) ↔ StartsInside front := by
  cases front with
  | nil => exact absurd some (Nat.lt_irrefl 0)
  | cons byte front => exact Iff.rfl

theorem length_of_startsInside {chunk : List UInt8} (starts : StartsInside chunk) : 0 < chunk.length := by
  cases chunk with
  | nil => obtain ⟨byte, head, -⟩ := starts; cases head
  | cons byte chunk => exact Nat.succ_pos _

/-- **The chunk that ends the line**, and the pieces of the line up to it. -/
theorem exists_last (whole : chunks.flatten = line ++ 0x0A :: behind) :
    ∃ before front back after, chunks = before ++ (front ++ 0x0A :: back) :: after ∧ before.flatten ++ front = line ∧
      (CutsLine line.length chunks ↔ ∃ piece ∈ before ++ [front], StartsInside piece) := by
  induction chunks generalizing line with
  | nil => cases line <;> cases whole
  | cons chunk chunks ih =>
    rw [List.flatten_cons] at whole
    have further : ∀ more, line = chunk ++ more → chunks.flatten = more ++ 0x0A :: behind →
        ∃ before front back after, chunk :: chunks = before ++ (front ++ 0x0A :: back) :: after ∧
          before.flatten ++ front = line ∧
          (CutsLine line.length (chunk :: chunks) ↔ ∃ piece ∈ before ++ [front], StartsInside piece) := by
      rintro more rfl same
      obtain ⟨before, front, back, after, rfl, rfl, cuts⟩ := ih same
      refine ⟨chunk :: before, front, back, after, rfl, by rw [List.flatten_cons, List.append_assoc], ?_⟩
      rw [CutsLine, List.length_append, Nat.add_sub_cancel_left, cuts, List.cons_append, List.exists_mem_cons_iff]
      refine or_congr_left ⟨And.right, fun starts => ⟨?_, starts⟩⟩
      have := length_of_startsInside starts
      omega
    rcases List.append_eq_append_iff.mp whole with ⟨more, same, rest⟩ | ⟨more, same, rest⟩
    · exact further more same rest
    · cases more with
      | nil => exact further [] (by rw [same, List.append_nil, List.append_nil]) rest.symm
      | cons byte back =>
        obtain ⟨rfl, -⟩ := List.cons.inj rest
        refine ⟨[], line, back, chunks, by rw [same]; rfl, rfl, ?_⟩
        have none := not_cutsLine_zero chunks
        rw [CutsLine, same, List.length_append, Nat.sub_eq_zero_of_le (Nat.le_add_right _ _), or_iff_left none,
          List.nil_append]
        simp only [List.mem_singleton, exists_eq_left]
        refine ⟨fun ⟨left, starts⟩ => (startsInside_append _ left).mp starts, fun starts => ?_⟩
        have left := length_of_startsInside starts
        exact ⟨left, (startsInside_append _ left).mpr starts⟩

theorem decodeFrom_newline {state : Option Pending} (sound : ∀ pending ∈ state, pending.Sound)
    (front back : List UInt8) :
    decodeFrom state (front ++ 0x0A :: back) = decodeFrom state front ++ newline :: decode back :=
  decodeFrom_apart sound front fun ⟨_, same, inside⟩ => by
    rw [← Option.some.inj same] at inside
    cases inside

theorem onData_open (buf chunk : Text) : Reader.onData { buf } chunk =
    if newline ∈ buf ++ chunk then
      { settled := some (some ((buf ++ chunk).takeWhile (· ≠ newline))), buf := buf ++ chunk }
    else if (buf ++ chunk).length > maxLine then { settled := some none, buf := buf ++ chunk }
    else { buf := buf ++ chunk } := rfl

theorem on_settled {value : Option Text} (settled : reader.settled = some value) (event : StreamEvent) :
    (reader.on event).settled = some value := by
  cases event <;> simp [Reader.on, Reader.onData, Reader.finish, settled]

theorem foldl_settled {value : Option Text} (settled : reader.settled = some value) (events : List StreamEvent) :
    (events.foldl Reader.on reader).settled = some value := by
  induction events generalizing reader with
  | nil => exact settled
  | cons event events ih => exact ih (on_settled settled event)

theorem foldl_gathers {chunks : List (List UInt8)} (open' : reader.settled = none)
    (apart : newline ∉ reader.buf ++ chunks.flatMap decode) :
    ((chunks.map StreamEvent.bytes).foldl Reader.on reader).settled = some none ∧
        maxLine < (reader.buf ++ chunks.flatMap decode).length ∨
      (chunks.map StreamEvent.bytes).foldl Reader.on reader =
        { settled := none, buf := reader.buf ++ chunks.flatMap decode } := by
  induction chunks generalizing reader with
  | nil =>
    obtain ⟨settled, buf⟩ := reader
    cases open'
    exact .inr (by simp)
  | cons chunk chunks ih =>
    obtain ⟨settled, buf⟩ := reader
    cases open'
    rw [List.flatMap_cons, ← List.append_assoc] at apart ⊢
    have first : newline ∉ buf ++ decode chunk := fun member => apart (List.mem_append_left _ member)
    rw [List.map_cons, List.foldl_cons, Reader.on, onData_open]
    dsimp only
    rw [if_neg first]
    split
    · next large =>
      refine .inl ⟨foldl_settled rfl _, ?_⟩
      rw [List.length_append]
      omega
    · exact ih rfl apart

end

/-! ## The whole handshake -/

section

variable {ν : Type} [NumberFormat ν] [DecidableEq ν] {two : ν} {payload other : StdinBrokerPayload}
  {chunks : List (List UInt8)} {behind : List UInt8}

omit [NumberFormat ν] [DecidableEq ν] in
theorem tasks_of_merge (valid : payload.Valid) (length : other.tasks.length = payload.tasks.length)
    (read : tokens (LastWins.merge Prod.fst (entries other.tasks : List (Text × Value ν))) = some payload.tasks) :
    other.tasks = payload.tasks := by
  have merged := eq_entries read
  have keys : (other.tasks.map Prod.fst).Nodup := by
    have inside : payload.tasks.map Prod.fst ⊆ other.tasks.map Prod.fst := by
      intro id member
      rw [← keys_entries (ν := ν), ← merged, LastWins.mem_map_merge, keys_entries] at member
      exact member
    have perm := (List.subperm_of_subset valid.apart inside).perm_of_length_le (by simp [length])
    exact perm.nodup_iff.mp valid.apart
  rw [LastWins.merge_of_nodup (by rwa [keys_entries])] at merged
  refine List.map_injective_iff.mpr ?_ merged
  rintro ⟨id, token⟩ ⟨id', token'⟩ same
  cases same
  rfl

theorem parse_line_iff (valid : payload.Valid) (length : other.tasks.length = payload.tasks.length)
    (key : other.dispatcherVerifyKey = payload.dispatcherVerifyKey) :
    parseStdinBrokerPayload two (stringify (lineValue two other)) payload.runId = some payload ↔
      other = payload := by
  have verified : payload.dispatcherVerifyKey.filter isVerifyKey = payload.dispatcherVerifyKey := by
    cases known : payload.dispatcherVerifyKey with
    | none => rfl
    | some text => rw [Option.filter_some, if_pos (valid.key text known)]
  rw [parse_line, key, verified]
  constructor
  · intro read
    split at read
    · next run =>
      obtain ⟨tasks, found, same⟩ := Option.map_eq_some_iff.mp read
      obtain ⟨runId, socketPath, others, otherKey⟩ := other
      obtain ⟨payloadRun, payloadSocket, payloadTasks, payloadKey⟩ := payload
      simp only [StdinBrokerPayload.mk.injEq] at same
      obtain ⟨rfl, rfl, rfl, -⟩ := same
      cases key
      have same := tasks_of_merge valid length found
      dsimp only at same
      rw [same]
    · cases read
  · rintro rfl
    rw [if_pos ⟨rfl, valid.socketPath⟩, LastWins.merge_of_nodup (by rw [keys_entries]; exact valid.apart),
      tokens_entries valid.named]
    rfl

/-- **The payload arrives exactly if no chunk of its line starts inside a character**, whatever is behind the
line and whatever the stream reports later. -/
theorem handshake_returns_iff (valid : payload.Valid)
    (fits : (stringify (lineValue two payload)).length ≤ maxLine)
    (whole : chunks.flatten = encode (buildBrokerStdinLine two payload) ++ behind) (later : List StreamEvent) :
    handshake two (chunks.map .bytes ++ later) payload.runId = some payload ↔
      ¬ CutsLine (encode (stringify (lineValue two payload))).length chunks := by
  have paired := paired_stringify (lineValue two payload)
  rw [buildBrokerStdinLine, encode_append paired, List.append_assoc] at whole
  obtain ⟨before, front, back, after, rfl, octets, cuts⟩ := exists_last whole
  rw [cuts]
  have valid' : WellFormed none (before ++ [front]).flatten := by
    rw [List.flatten_append, List.flatten_singleton, octets]
    exact wellFormed_encode paired
  have flat : (before ++ [front]).flatten = encode (stringify (lineValue two payload)) := by
    rw [List.flatten_append, List.flatten_singleton, octets]
  obtain ⟨other, shape, length, key⟩ := pieces_line valid ⟨before ++ [front], flat, rfl⟩
  have printed : newline ∉ (before ++ [front]).flatMap decode := by
    rw [shape]
    exact fun member => absurd (printed_stringify _ newline member) (by decide)
  rw [List.flatMap_append, List.flatMap_singleton] at shape printed
  have gathered := @foldl_gathers {} before rfl fun member => printed (List.mem_append_left _ member)
  have text : ¬ (∃ piece ∈ before ++ [front], StartsInside piece) →
      before.flatMap decode ++ decode front = stringify (lineValue two payload) := by
    intro apart
    have same := flatMap_decode valid' fun piece member starts => apart ⟨piece, member, starts⟩
    rw [List.flatMap_append, List.flatMap_singleton, flat, decode_encode paired] at same
    exact same
  have line : handshake two ((before ++ (front ++ 0x0A :: back) :: after).map .bytes ++ later) payload.runId =
      some payload ↔ ¬ (∃ piece ∈ before ++ [front], StartsInside piece) := by
    rw [handshake, readFirstLineFromStream, List.map_append, List.append_assoc, List.foldl_append]
    rcases gathered with ⟨settled, large⟩ | gathered
    · -- given up: not without a damaged character
      rw [foldl_settled settled]
      refine ⟨nofun, fun apart => ?_⟩
      have length := congrArg List.length (text apart)
      rw [List.length_append] at length
      rw [List.nil_append] at large
      omega
    · have last : (Reader.on { buf := [] ++ before.flatMap decode } (.bytes (front ++ 0x0A :: back))).settled =
          some (some (before.flatMap decode ++ decode front)) := by
        have taken : (before.flatMap decode ++ decode front ++ newline :: decode back).takeWhile (· ≠ newline) =
            before.flatMap decode ++ decode front := by
          have letters : ∀ unit ∈ before.flatMap decode ++ decode front, decide (unit ≠ newline) = true :=
            fun unit member => decide_eq_true fun same => printed (same ▸ member)
          rw [List.takeWhile_append_of_pos letters, List.takeWhile_cons_of_neg (by simp), List.append_nil]
        rw [Reader.on, decode, decodeFrom_newline not_sound_none, onData_open, if_pos (by simp), List.nil_append,
          ← List.append_assoc]
        exact congrArg (fun line => some (some line)) taken
      rw [gathered, List.map_cons, List.cons_append, List.foldl_cons, foldl_settled last]
      show parseStdinBrokerPayload two (before.flatMap decode ++ decode front) payload.runId = _ ↔ _
      rw [shape, parse_line_iff valid length key]
      constructor
      · rintro rfl cut
        have more := replacements_lt valid' cut
        rw [List.flatMap_append, List.flatMap_singleton, flat, decode_encode paired, shape] at more
        exact Nat.lt_irrefl _ more
      · intro apart
        have same := text apart
        rw [shape] at same
        rw [← @parse_line_iff ν _ _ two payload other valid length key, same]
        exact (parse_line_iff valid rfl rfl).mpr rfl
  exact line

def accented : StdinBrokerPayload := ⟨units "r", units "/é", [(units "t", units "k")], none⟩

theorem accented_valid : accented.Valid where
  socketPath := by decide
  named := by decide
  apart := by decide
  key := nofun

theorem version_lt : 2 < 10 := by decide

def accentedOctets : List UInt8 := encode (buildBrokerStdinLine (⟨2, version_lt⟩ : Fin 10) accented)

theorem handshake_returns_accented :
    handshake (2 : Fin 10) ([accentedOctets, [0xFF]].map .bytes ++ [.timeout]) (units "r") = some accented ↔
      ¬ CutsLine (encode (stringify (lineValue (2 : Fin 10) accented))).length [accentedOctets, [0xFF]] :=
  have fits : (stringify (lineValue (2 : Fin 10) accented)).length ≤ maxLine := by decide +kernel
  have whole : [accentedOctets, [0xFF]].flatten =
      encode (buildBrokerStdinLine (2 : Fin 10) accented) ++ [0xFF] := by
    rw [List.flatten_cons, List.flatten_singleton]
    rfl
  @handshake_returns_iff (Fin 10) _ _ 2 accented [accentedOctets, [0xFF]] [0xFF] accented_valid fits whole
    [.timeout]

theorem handshake_damaged :
    accented.Valid ∧ (stringify (lineValue (2 : Fin 10) accented)).length ≤ maxLine ∧
    [accentedOctets.take 35, accentedOctets.drop 35].flatten = accentedOctets ∧
    handshake (2 : Fin 10) ([accentedOctets.take 35, accentedOctets.drop 35].map .bytes) (units "r") =
      some { accented with socketPath := [0x2F, 0xFFFD, 0xFFFD] } := by
  have line : readFirstLineFromStream ([accentedOctets.take 35, accentedOctets.drop 35].map .bytes) =
      some (stringify (lineValue (2 : Fin 10) { accented with socketPath := [0x2F, 0xFFFD, 0xFFFD] })) := by
    decide +kernel
  refine ⟨accented_valid, by decide +kernel, by decide +kernel, ?_⟩
  rw [handshake, line, Option.bind_some, parse_line]
  decide +kernel

end

end PiCrew.Broker.StdinHandshake
