/-
**Frames on a broker socket.**

`utils/ndjson.ts`. A frame is the text of a value and a newline, of 256 KiB at most. The decoder keeps the bytes
that no newline has ended, puts the next chunk behind them, gives up on more than 512 KiB, and takes the complete
lines off the front.

* `push_reads` — what a chunk comes to, within the limit;
* `frames_arrive_iff` — the frames arrive in exactly the runs in which no chunk exceeds the limit with the
  unfinished line before it;
* `burst_overfull` — many short frames in one chunk that are given up.

What the parser says of a text that it refuses is a parameter.
-/

import PiCrew.Library.Framing
import PiCrew.Library.Utf8
import PiCrew.Broker.Respond

namespace PiCrew.Broker.Frames

open JsonText
open Framing (takeLine lines tail written)

section

def maxBrokerFrameBytes : Nat := 256 * 1024

inductive BrokerErrorCode where
  | oversizeFrame
  | auth
  | protocol
  | timeout
  | requestTimeout
  | close
  | notImplemented
  | rateLimit
  deriving DecidableEq, Repr

structure BrokerError where
  code : BrokerErrorCode
  message : String
  deriving DecidableEq, Repr

def newline : UInt8 := 0x0A

variable {ν : Type} [NumberFormat ν]

/-- **Encode a frame.** A value without a text is `none`. -/
def encodeBrokerFrame (value : Option (Value ν)) : Except BrokerError (List UInt8) :=
  match value.map stringify with
  | none => .error ⟨.protocol, "encodeBrokerFrame: value is not JSON-serializable"⟩
  | some json =>
    let enc := Utf8.encode json
    if enc.length + 1 > maxBrokerFrameBytes then
      .error ⟨.oversizeFrame, s!"frame exceeds {maxBrokerFrameBytes} bytes (got {enc.length + 1})"⟩
    else .ok (enc ++ [newline])

def maxDecoderBuffer : Nat := 2 * maxBrokerFrameBytes

structure NdjsonDecoder where
  buffer : List UInt8 := []
  deriving DecidableEq, Repr

def overfull : BrokerError := ⟨.oversizeFrame, s!"decoder buffer exceeded {maxDecoderBuffer} bytes"⟩

/-- **Take the complete lines off the buffer**: the buffer that is left, and the values or an error. -/
def drain (complaint : Text → String) (buffer : List UInt8) (out : List (Value ν)) :
    List UInt8 × Except BrokerError (List (Value ν)) :=
  match _taken : takeLine newline buffer with
  | none => (buffer, .ok out)
  | some (line, rest) =>
    if line.length > 0 then
      if line.length > maxBrokerFrameBytes then
        (buffer, .error ⟨.oversizeFrame,
          s!"line exceeds {maxBrokerFrameBytes} bytes (got {line.length})"⟩)
      else
        match parse (Utf8.decode line) with
        | none =>
          (buffer, .error ⟨.protocol, "ndjson: malformed JSON: " ++ complaint (Utf8.decode line)⟩)
        | some value => drain complaint rest (out ++ [value])
    else drain complaint rest out
termination_by buffer.length
decreasing_by
  all_goals
    have shorter := congrArg List.length (Framing.takeLine_some _taken).2
    rw [List.length_append, List.length_cons] at shorter
    omega

def NdjsonDecoder.push (complaint : Text → String) (decoder : NdjsonDecoder) (chunk : List UInt8) :
    NdjsonDecoder × Except BrokerError (List (Value ν)) :=
  if chunk.length = 0 then (decoder, .ok [])
  else
    let buffer := if decoder.buffer.length = 0 then chunk else decoder.buffer ++ chunk
    if buffer.length > maxDecoderBuffer then (⟨buffer⟩, .error overfull)
    else
      let drained := drain complaint buffer []
      (⟨drained.1⟩, drained.2)

/-- What a run of the decoder comes to. -/
structure Outcome (ν : Type) where
  decoder : NdjsonDecoder
  values : List (Value ν)
  error : Option BrokerError

/-- **Push the chunks of a connection.** The caller closes it at an error. -/
def feed (complaint : Text → String) (decoder : NdjsonDecoder) : List (List UInt8) → Outcome ν
  | [] => ⟨decoder, [], none⟩
  | chunk :: rest =>
    match decoder.push complaint chunk with
    | (decoder, .error error) => ⟨decoder, [], some error⟩
    | (decoder, .ok values) =>
      let later := feed complaint decoder rest
      ⟨later.decoder, values ++ later.values, later.error⟩

end

section

variable {ν : Type} [NumberFormat ν]

structure Reads (value : Value ν) (line : List UInt8) : Prop where
  nonempty : line ≠ []
  short : line.length ≤ maxBrokerFrameBytes
  apart : newline ∉ line
  parses : parse (Utf8.decode line) = some value

theorem newline_not_mem (value : Value ν) : newline ∉ Utf8.encode (stringify value) := by
  intro member
  obtain ⟨unit, inside, same⟩ := Utf8.low_of_mem_encode (paired_stringify value) member (by decide)
  have printed : 0x20 ≤ unit.toNat := UInt16.le_iff_toNat_le.mp (printed_stringify value unit inside)
  rw [same] at printed
  exact absurd printed (by decide)

theorem encode_reads {value : Value ν} {bytes : List UInt8}
    (encoded : encodeBrokerFrame (some value) = .ok bytes) :
    ∃ line, bytes = line ++ [newline] ∧ Reads (plain value) line := by
  unfold encodeBrokerFrame at encoded
  simp only [Option.map_some] at encoded
  split at encoded
  · cases encoded
  · rename_i fits
    have back := Utf8.decode_encode (paired_stringify value)
    refine ⟨Utf8.encode (stringify value), (Except.ok.inj encoded).symm, ?_, by omega,
      newline_not_mem value, ?_⟩
    · intro empty
      rw [empty] at back
      obtain ⟨unit, more, text, -⟩ := stringify_head value
      rw [text] at back
      cases back
    · rw [back, parse_stringify]

theorem encode_all : ∀ {frames : List (Value ν)} {encoded : List (List UInt8)},
    frames.map (fun frame => encodeBrokerFrame (some frame)) = encoded.map .ok →
    ∃ texts, encoded.flatten = written newline texts ∧ List.Forall₂ Reads (frames.map plain) texts
  | [], [], _ => ⟨[], rfl, .nil⟩
  | [], _ :: _, fits | _ :: _, [], fits => nomatch fits
  | frame :: frames, bytes :: encoded, fits => by
    obtain ⟨here, others⟩ := List.cons.inj fits
    obtain ⟨line, whole, reads⟩ := encode_reads here
    obtain ⟨texts, rest, behind⟩ := encode_all others
    refine ⟨line :: texts, ?_, .cons reads behind⟩
    rw [List.flatten_cons, rest, whole, Framing.written_cons, List.append_assoc,
      List.singleton_append]

end

section

variable {ν : Type} [NumberFormat ν] {complaint : Text → String}

theorem drain_reads {values : List (Value ν)} {texts : List (List UInt8)}
    (reads : List.Forall₂ Reads values texts) :
    ∀ {buffer : List UInt8}, lines newline buffer = texts → ∀ out : List (Value ν),
      drain complaint buffer out = (tail newline buffer, .ok (out ++ values)) := by
  induction reads with
  | nil =>
    intro buffer whole out
    rw [drain]
    split
    · rename_i none
      rw [Framing.tail_of_not_mem (Framing.takeLine_none none), List.append_nil]
    · rename_i line rest taken
      obtain ⟨apart, shape⟩ := Framing.takeLine_some taken
      rw [lines, shape, Framing.cut_line_append apart] at whole
      cases whole
  | @cons value text values texts here _ ih =>
    intro buffer whole out
    rw [drain]
    split
    · rename_i none
      rw [Framing.lines_of_not_mem (Framing.takeLine_none none)] at whole
      cases whole
    · rename_i line rest taken
      obtain ⟨apart, shape⟩ := Framing.takeLine_some taken
      have cuts := Framing.cut_line_append apart rest
      rw [← shape] at cuts
      obtain ⟨same, others⟩ := List.cons.inj ((congrArg Prod.fst cuts).symm.trans whole)
      have left : tail newline buffer = tail newline rest := (congrArg Prod.snd cuts :)
      rw [same, if_pos (List.length_pos_iff.mpr here.nonempty),
        if_neg (Nat.not_lt.mpr here.short), here.parses, left]
      simp only
      rw [ih others, List.append_assoc, List.singleton_append]

/-- **A chunk within the limit.** -/
theorem push_reads {values : List (Value ν)} {held chunk : List UInt8} (some : chunk ≠ [])
    (within : held.length + chunk.length ≤ maxDecoderBuffer)
    (reads : List.Forall₂ Reads values (lines newline (held ++ chunk))) :
    NdjsonDecoder.push complaint ⟨held⟩ chunk = (⟨tail newline (held ++ chunk)⟩, .ok values) := by
  have buffer : (if held.length = 0 then chunk else held ++ chunk) = held ++ chunk := by
    split
    · rename_i empty
      rw [List.length_eq_zero_iff.mp empty]
      rfl
    · rfl
  have fits : ¬ (held ++ chunk).length > maxDecoderBuffer := by
    rw [List.length_append]
    omega
  rw [NdjsonDecoder.push, if_neg (fun empty => some (List.length_eq_zero_iff.mp empty))]
  simp only [buffer]
  rw [if_neg fits, drain_reads reads rfl]
  rfl

theorem push_overfull {held chunk : List UInt8}
    (over' : maxDecoderBuffer < held.length + chunk.length) (some : chunk ≠ []) :
    (NdjsonDecoder.push complaint ⟨held⟩ chunk : NdjsonDecoder × Except BrokerError (List (Value ν)))
      = (⟨held ++ chunk⟩, .error overfull) := by
  have buffer : (if held.length = 0 then chunk else held ++ chunk) = held ++ chunk := by
    split
    · rename_i empty
      rw [List.length_eq_zero_iff.mp empty]
      rfl
    · rfl
  rw [NdjsonDecoder.push, if_neg (fun empty => some (List.length_eq_zero_iff.mp empty))]
  simp only [buffer]
  rw [if_pos (by rw [List.length_append]; omega)]

end

section

variable {ν : Type} [NumberFormat ν] {complaint : Text → String}

/-- **No chunk exceeds the limit** with the unfinished line before it; `held` stands before the first. -/
def Within (held : List UInt8) (chunks : List (List UInt8)) : Prop :=
  ∀ before chunk after, chunks = before ++ chunk :: after →
    (tail newline (held ++ before.flatten)).length + chunk.length ≤ maxDecoderBuffer

theorem within_nil (held : List UInt8) : Within held [] := by
  intro before chunk after same
  exact absurd (congrArg List.length same) (by simp)

theorem within_cons {held : List UInt8} (open' : newline ∉ held) (chunk : List UInt8)
    (rest : List (List UInt8)) :
    Within held (chunk :: rest) ↔ held.length + chunk.length ≤ maxDecoderBuffer
      ∧ Within (tail newline (held ++ chunk)) rest := by
  constructor
  · intro within
    refine ⟨?_, fun before later after same => ?_⟩
    · have first := within [] chunk rest rfl
      rwa [List.flatten_nil, List.append_nil, Framing.tail_of_not_mem open'] at first
    · have deeper := within (chunk :: before) later after (congrArg (chunk :: ·) same)
      rwa [List.flatten_cons, ← List.append_assoc, Framing.tail_append] at deeper
  · rintro ⟨first, within⟩ before later after same
    cases before with
    | nil =>
      obtain ⟨here, -⟩ := List.cons.inj same
      rw [← here, List.flatten_nil, List.append_nil, Framing.tail_of_not_mem open']
      exact first
    | cons front before =>
      obtain ⟨here, others⟩ := List.cons.inj same
      have deeper := within before later after others
      rwa [← Framing.tail_append, here, List.append_assoc, ← List.flatten_cons] at deeper

variable {values : List (Value ν)} {texts : List (List UInt8)}

theorem reads_apart (reads : List.Forall₂ Reads values texts) : ∀ text ∈ texts, newline ∉ text := by
  induction reads with
  | nil => exact fun text member => nomatch member
  | cons here _ ih => exact List.forall_mem_cons.mpr ⟨here.apart, ih⟩

theorem feed_ok {decoder next last : NdjsonDecoder} {chunk : List UInt8}
    (pushed : decoder.push complaint chunk = (next, .ok values)) (rest : List (List UInt8))
    (later : List (Value ν)) :
    feed complaint decoder (chunk :: rest) = ⟨last, values ++ later, none⟩
      ↔ feed complaint next rest = ⟨last, later, none⟩ := by
  rw [feed, pushed]
  simp only
  rw [Outcome.mk.injEq, List.append_right_inj]
  constructor
  · rintro ⟨decoder, values, error⟩
    rw [← decoder, ← values, ← error]
  · intro same
    rw [same]
    exact ⟨rfl, rfl, rfl⟩

theorem length_held (reads : List.Forall₂ Reads values texts) {held rest : List UInt8} (open' : newline ∉ held)
    (whole : held ++ rest = written newline texts) : held.length ≤ maxBrokerFrameBytes := by
  cases reads with
  | nil =>
    rw [(List.append_eq_nil_iff.mp whole).1]
    exact Nat.zero_le _
  | @cons value text values texts here _ =>
    rw [Framing.written_cons] at whole
    have short := here.short
    rcases List.append_eq_append_iff.mp whole with ⟨middle, front, -⟩ | ⟨middle, front, back⟩
    · rw [front, List.length_append] at short
      omega
    · cases middle with
      | nil =>
        rw [front, List.append_nil]
        exact short
      | cons byte middle =>
        obtain ⟨same, -⟩ := List.cons.inj back
        refine absurd ?_ open'
        rw [front, same]
        exact List.mem_append_right _ List.mem_cons_self

theorem lines_front (apart : ∀ text ∈ texts, newline ∉ text)
    {front rest : List UInt8} (whole : front ++ rest = written newline texts) :
    ∃ later, texts = lines newline front ++ later
      ∧ tail newline front ++ rest = written newline later := by
  have all := Framing.cut_written apart []
  rw [List.append_nil, ← whole] at all
  have cuts : lines newline (front ++ rest) = texts :=
    (congrArg Prod.fst all).trans (List.append_nil _)
  have ends : tail newline (front ++ rest) = [] := (congrArg Prod.snd all :)
  rw [Framing.lines_append] at cuts
  rw [Framing.tail_append] at ends
  refine ⟨_, cuts.symm, ?_⟩
  have back := Framing.written_lines newline (tail newline front ++ rest)
  rw [ends, List.append_nil] at back
  exact back.symm

/-- **The frames arrive if no chunk exceeds the limit**, and only then. -/
theorem feed_reads : ∀ (chunks : List (List UInt8)) {held : List UInt8} {values : List (Value ν)}
    {texts : List (List UInt8)}, newline ∉ held → List.Forall₂ Reads values texts →
    held ++ chunks.flatten = written newline texts →
    (feed complaint ⟨held⟩ chunks = ⟨⟨[]⟩, values, none⟩ ↔ Within held chunks) := by
  intro chunks
  induction chunks with
  | nil =>
    intro held values texts open' reads whole
    refine ⟨fun _ => within_nil held, fun _ => ?_⟩
    rw [List.flatten_nil, List.append_nil] at whole
    cases reads with
    | nil =>
      rw [show held = [] from whole]
      rfl
    | cons here _ =>
      rw [Framing.written_cons] at whole
      rw [whole] at open'
      exact absurd (List.mem_append_right _ List.mem_cons_self) open'
  | cons chunk rest ih =>
    intro held values texts open' reads whole
    rw [within_cons open']
    by_cases empty : chunk = []
    · subst empty
      have short := length_held reads open' whole
      have fits : held.length + ([] : List UInt8).length ≤ maxDecoderBuffer :=
        Nat.le_trans short (Nat.le_mul_of_pos_left _ (by decide))
      have step : (NdjsonDecoder.push complaint ⟨held⟩ [] :
          NdjsonDecoder × Except BrokerError (List (Value ν))) = (⟨held⟩, .ok []) := rfl
      rw [List.append_nil, Framing.tail_of_not_mem open', and_iff_right fits]
      exact (feed_ok step rest values).trans (ih open' reads whole)
    · by_cases fits : held.length + chunk.length ≤ maxDecoderBuffer
      · rw [List.flatten_cons, ← List.append_assoc] at whole
        obtain ⟨later, cuts, behind⟩ := lines_front (reads_apart reads) whole
        rw [cuts] at reads
        have here := List.forall₂_take_append _ _ _ reads
        have there := List.forall₂_drop_append _ _ _ reads
        rw [and_iff_right fits,
          ← List.take_append_drop (lines newline (held ++ chunk)).length values]
        exact (feed_ok (push_reads empty fits here) rest _).trans
          (ih (Framing.not_mem_tail _) there behind)
      · rw [feed, push_overfull (Nat.lt_of_not_le fits) empty]
        exact ⟨fun same => (nomatch congrArg Outcome.error same), fun within => absurd within.1 fits⟩

/-- **The frames arrive, however their bytes are cut into chunks, in exactly the runs in which no chunk
exceeds the limit of the buffer** with the unfinished line before it. They arrive as JSON has them: a
number that it has no text for as `null`. -/
theorem frames_arrive_iff (complaint : Text → String) (frames : List (Value ν))
    (encoded chunks : List (List UInt8))
    (fits : frames.map (fun frame => encodeBrokerFrame (some frame)) = encoded.map .ok)
    (cuts : chunks.flatten = encoded.flatten) :
    feed complaint {} chunks = ⟨{}, frames.map plain, none⟩
      ↔ ∀ before chunk after, chunks = before ++ chunk :: after →
          (tail newline before.flatten).length + chunk.length ≤ maxDecoderBuffer := by
  obtain ⟨texts, whole, reads⟩ := encode_all fits
  exact feed_reads chunks List.not_mem_nil reads (cuts.trans whole)

open Respond (noNumbers) in
/-- The frame `null` in two chunks. -/
theorem frames_arrive_null :
    feed (fun _ => "") {} [[0x6E, 0x75], [0x6C, 0x6C, 0x0A]]
      = ⟨{}, [(Value.null : Value Empty)].map plain, none⟩ :=
  (frames_arrive_iff (fun _ => "") [(Value.null : Value Empty)] [[0x6E, 0x75, 0x6C, 0x6C, 0x0A]]
    [[0x6E, 0x75], [0x6C, 0x6C, 0x0A]] rfl rfl).mpr
      ((within_cons List.not_mem_nil _ _).mpr
        ⟨by decide, (within_cons (by decide) _ _).mpr ⟨by decide, within_nil _⟩⟩)

theorem feed_overfull {encoded : List (List UInt8)}
    (exceeds : maxDecoderBuffer < encoded.flatten.length) :
    feed complaint {} [encoded.flatten] = (⟨⟨encoded.flatten⟩, [], some overfull⟩ : Outcome ν) := by
  have nonempty : encoded.flatten ≠ [] := by
    intro empty
    rw [empty] at exceeds
    exact absurd exceeds (Nat.not_lt_zero _)
  have within : maxDecoderBuffer < ([] : List UInt8).length + encoded.flatten.length := by
    rwa [List.length_nil, Nat.zero_add]
  rw [feed, push_overfull within nonempty]
  rfl

theorem length_burst (count : Nat) (bytes : List UInt8) :
    (List.replicate count bytes).flatten.length = count * bytes.length := by
  rw [List.length_flatten, List.map_replicate, List.sum_replicate_nat]

open Respond (noNumbers) in
/-- **Many short frames in one chunk are given up**: the limit is looked at before any is taken off. -/
theorem burst_overfull :
    (List.replicate 104858 Value.null).map (fun frame : Value Empty => encodeBrokerFrame (some frame))
        = (List.replicate 104858 ([0x6E, 0x75, 0x6C, 0x6C, 0x0A] : List UInt8)).map .ok ∧
      feed (fun _ => "") {} [(List.replicate 104858 ([0x6E, 0x75, 0x6C, 0x6C, 0x0A] : List UInt8)).flatten]
        ≠ (⟨{}, (List.replicate 104858 Value.null).map plain, none⟩ : Outcome Empty) := by
  have text : encodeBrokerFrame (some (Value.null : Value Empty))
      = .ok [0x6E, 0x75, 0x6C, 0x6C, 0x0A] := rfl
  refine ⟨by rw [List.map_replicate, List.map_replicate, text], fun same => ?_⟩
  have exceeds : maxDecoderBuffer
      < (List.replicate 104858 ([0x6E, 0x75, 0x6C, 0x6C, 0x0A] : List UInt8)).flatten.length := by
    rw [length_burst]
    decide
  rw [feed_overfull exceeds, Outcome.mk.injEq] at same
  exact Option.some_ne_none _ same.2.2

end

end PiCrew.Broker.Frames
