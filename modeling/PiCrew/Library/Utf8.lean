/-
**Texts as octets.**

UTF-8 of a string of UTF-16 code units, and the reader that puts U+FFFD where octets are no character. A
pair of surrogates is one character of four octets; half of a pair is written as U+FFFD.

* `low_of_mem_encode` — an octet below 0x80 is a unit of the text.
-/

import PiCrew.Library.JsonTails

namespace Utf8

open JsonText

def octet (value : Nat) : UInt8 := value.toUInt8

theorem toNat_octet {value : Nat} (small : value < 256) : (octet value).toNat = value := by
  rw [octet, Nat.toUInt8_eq, UInt8.toNat_ofNat']
  exact Nat.mod_eq_of_lt small

def encodePoint (point : Nat) : List UInt8 :=
  if point < 0x80 then [octet point]
  else if point < 0x800 then [octet (0xC0 + point / 64), octet (0x80 + point % 64)]
  else if point < 0x10000 then
    [octet (0xE0 + point / 4096), octet (0x80 + point / 64 % 64), octet (0x80 + point % 64)]
  else
    [octet (0xF0 + point / 262144), octet (0x80 + point / 4096 % 64), octet (0x80 + point / 64 % 64),
      octet (0x80 + point % 64)]

def pairPoint (lead trail : UInt16) : Nat :=
  0x10000 + (lead.toNat - 0xD800) * 1024 + (trail.toNat - 0xDC00)

def pointUnits (point : Nat) : Text :=
  if point < 0x10000 then [point.toUInt16]
  else [(0xD800 + (point - 0x10000) / 1024).toUInt16, (0xDC00 + (point - 0x10000) % 1024).toUInt16]

def encode : Text → List UInt8
  | [] => []
  | [unit] => encodePoint (wellFormedUnit unit).toNat
  | unit :: next :: rest =>
    if isLead unit && isTrail next then encodePoint (pairPoint unit next) ++ encode rest
    else encodePoint (wellFormedUnit unit).toNat ++ encode (next :: rest)

/-- A character of which some octets are read: its bits, how many octets are missing, and the range of
the next one. -/
structure Pending where
  point : Nat
  needed : Nat
  lower : Nat
  upper : Nat
  deriving DecidableEq, Repr

/-- **The first octet of a character**: the units that are read, and what is pending. -/
def first (byte : UInt8) : Text × Option Pending :=
  let value := byte.toNat
  if value < 0x80 then ([value.toUInt16], none)
  else if 0xC2 ≤ value ∧ value ≤ 0xDF then ([], some ⟨value - 0xC0, 1, 0x80, 0xBF⟩)
  else if 0xE0 ≤ value ∧ value ≤ 0xEF then
    ([], some ⟨value - 0xE0, 2, if value = 0xE0 then 0xA0 else 0x80,
      if value = 0xED then 0x9F else 0xBF⟩)
  else if 0xF0 ≤ value ∧ value ≤ 0xF4 then
    ([], some ⟨value - 0xF0, 3, if value = 0xF0 then 0x90 else 0x80,
      if value = 0xF4 then 0x8F else 0xBF⟩)
  else ([0xFFFD], none)

/-- **A further octet.** One out of the range ends the character, and is read as a first one. -/
def next (pending : Pending) (byte : UInt8) : Text × Option Pending :=
  if pending.lower ≤ byte.toNat ∧ byte.toNat ≤ pending.upper then
    let point := pending.point * 64 + (byte.toNat - 0x80)
    if pending.needed = 1 then (pointUnits point, none)
    else ([], some ⟨point, pending.needed - 1, 0x80, 0xBF⟩)
  else (0xFFFD :: (first byte).1, (first byte).2)

/-- Read octets, with what is pending before them. -/
def decodeFrom : Option Pending → List UInt8 → Text
  | none, [] => []
  | some _, [] => [0xFFFD]
  | none, byte :: rest => (first byte).1 ++ decodeFrom (first byte).2 rest
  | some pending, byte :: rest => (next pending byte).1 ++ decodeFrom (next pending byte).2 rest

def decode (bytes : List UInt8) : Text := decodeFrom none bytes

section

variable {value : Nat}

theorem next_more {pending : Pending} (small : value < 256)
    (lower : pending.lower ≤ value) (upper : value ≤ pending.upper) (more : pending.needed ≠ 1) :
    next pending (octet value)
      = ([], some ⟨pending.point * 64 + (value - 0x80), pending.needed - 1, 0x80, 0xBF⟩) := by
  rw [next, toNat_octet small, if_pos ⟨lower, upper⟩]
  exact if_neg more

theorem next_last {pending : Pending} (small : value < 256)
    (lower : pending.lower ≤ value) (upper : value ≤ pending.upper) (last : pending.needed = 1) :
    next pending (octet value) = (pointUnits (pending.point * 64 + (value - 0x80)), none) := by
  rw [next, toNat_octet small, if_pos ⟨lower, upper⟩]
  exact if_pos last

theorem first_ascii (small : value < 0x80) :
    first (octet value) = ([value.toUInt16], none) := by
  rw [first, toNat_octet (by omega)]
  exact if_pos small

theorem first_two (low : 0xC2 ≤ value) (high : value ≤ 0xDF) :
    first (octet value) = ([], some ⟨value - 0xC0, 1, 0x80, 0xBF⟩) := by
  rw [first, toNat_octet (by omega)]
  exact (if_neg (by omega)).trans (if_pos ⟨low, high⟩)

theorem first_three (low : 0xE0 ≤ value) (high : value ≤ 0xEF) :
    first (octet value) = ([], some ⟨value - 0xE0, 2, if value = 0xE0 then 0xA0 else 0x80,
      if value = 0xED then 0x9F else 0xBF⟩) := by
  rw [first, toNat_octet (by omega)]
  exact (if_neg (by omega)).trans ((if_neg (by omega)).trans (if_pos ⟨low, high⟩))

theorem first_four (low : 0xF0 ≤ value) (high : value ≤ 0xF4) :
    first (octet value) = ([], some ⟨value - 0xF0, 3, if value = 0xF0 then 0x90 else 0x80,
      if value = 0xF4 then 0x8F else 0xBF⟩) := by
  rw [first, toNat_octet (by omega)]
  exact (if_neg (by omega)).trans
    ((if_neg (by omega)).trans ((if_neg (by omega)).trans (if_pos ⟨low, high⟩)))

/-- **A character is read back from its octets.** -/
theorem decode_encodePoint {point : Nat} (small : point < 0x110000)
    (alone : point < 0xD800 ∨ 0xE000 ≤ point) (rest : List UInt8) :
    decode (encodePoint point ++ rest) = pointUnits point ++ decode rest := by
  by_cases one : point < 0x80
  · rw [encodePoint, if_pos one, List.singleton_append, decode, decodeFrom, first_ascii one, pointUnits,
      if_pos (by omega)]
    rfl
  by_cases two : point < 0x800
  · rw [encodePoint, if_neg one, if_pos two, List.cons_append, List.singleton_append, decode,
      decodeFrom, first_two (by omega) (by omega), decodeFrom,
      next_last (by omega) (by show 0x80 ≤ _; omega) (by show _ ≤ 0xBF; omega) rfl]
    have whole : (0xC0 + point / 64 - 0xC0) * 64 + (0x80 + point % 64 - 0x80) = point := by omega
    rw [whole]
    rfl
  by_cases three : point < 0x10000
  · rw [encodePoint, if_neg one, if_neg two, if_pos three, List.cons_append, List.cons_append,
      List.singleton_append, decode, decodeFrom, first_three (by omega) (by omega), decodeFrom,
      next_more (by omega) (by show (if _ then _ else _) ≤ _; split <;> omega)
        (by show _ ≤ (if _ then _ else _); split <;> omega) (by show 2 ≠ 1; decide), decodeFrom,
      next_last (by omega) (by show 0x80 ≤ _; omega) (by show _ ≤ 0xBF; omega) rfl]
    have whole : ((0xE0 + point / 4096 - 0xE0) * 64 + (0x80 + point / 64 % 64 - 0x80)) * 64
        + (0x80 + point % 64 - 0x80) = point := by omega
    rw [whole]
    rfl
  · rw [encodePoint, if_neg one, if_neg two, if_neg three, List.cons_append, List.cons_append,
      List.cons_append, List.singleton_append, decode, decodeFrom,
      first_four (by omega) (by omega), decodeFrom,
      next_more (by omega) (by show (if _ then _ else _) ≤ _; split <;> omega)
        (by show _ ≤ (if _ then _ else _); split <;> omega) (by show 3 ≠ 1; decide), decodeFrom,
      next_more (by omega) (by show 0x80 ≤ _; omega) (by show _ ≤ 0xBF; omega)
        (by show 3 - 1 ≠ 1; decide), decodeFrom,
      next_last (by omega) (by show 0x80 ≤ _; omega) (by show _ ≤ 0xBF; omega) rfl]
    have whole : (((0xF0 + point / 262144 - 0xF0) * 64 + (0x80 + point / 4096 % 64 - 0x80)) * 64
        + (0x80 + point / 64 % 64 - 0x80)) * 64 + (0x80 + point % 64 - 0x80) = point := by omega
    rw [whole]
    rfl

theorem pointUnits_toNat (unit : UInt16) : pointUnits unit.toNat = [unit] := by
  have small : unit.toNat < 65536 := unit.toNat_lt
  rw [pointUnits, if_pos small, Nat.toUInt16_eq, UInt16.ofNat_toNat]

theorem lead_range {unit : UInt16} (lead : isLead unit = true) :
    0xD800 ≤ unit.toNat ∧ unit.toNat < 0xDC00 := by
  obtain ⟨low, high⟩ := Bool.and_eq_true_iff.mp lead
  exact ⟨UInt16.le_iff_toNat_le.mp (of_decide_eq_true low),
    UInt16.lt_iff_toNat_lt.mp (of_decide_eq_true high)⟩

theorem trail_range {unit : UInt16} (trail : isTrail unit = true) :
    0xDC00 ≤ unit.toNat ∧ unit.toNat < 0xE000 := by
  obtain ⟨low, high⟩ := Bool.and_eq_true_iff.mp trail
  exact ⟨UInt16.le_iff_toNat_le.mp (of_decide_eq_true low),
    UInt16.lt_iff_toNat_lt.mp (of_decide_eq_true high)⟩

theorem alone_range {unit : UInt16} (none : (isLead unit || isTrail unit) = false) :
    unit.toNat < 0xD800 ∨ 0xE000 ≤ unit.toNat := by
  obtain ⟨lead, trail⟩ := Bool.or_eq_false_iff.mp none
  by_contra inside
  rw [not_or, not_lt, not_le] at inside
  by_cases low : unit.toNat < 0xDC00
  · refine absurd lead (ne_of_eq_of_ne (Bool.and_eq_true_iff.mpr ⟨decide_eq_true ?_,
      decide_eq_true ?_⟩) (by decide))
    · exact UInt16.le_iff_toNat_le.mpr inside.1
    · exact UInt16.lt_iff_toNat_lt.mpr low
  · refine absurd trail (ne_of_eq_of_ne (Bool.and_eq_true_iff.mpr ⟨decide_eq_true ?_,
      decide_eq_true ?_⟩) (by decide))
    · exact UInt16.le_iff_toNat_le.mpr (Nat.le_of_not_lt low)
    · exact UInt16.lt_iff_toNat_lt.mpr inside.2

theorem pointUnits_pairPoint {lead trail : UInt16} (first : isLead lead = true)
    (second : isTrail trail = true) : pointUnits (pairPoint lead trail) = [lead, trail] := by
  obtain ⟨low, high⟩ := lead_range first
  obtain ⟨low', high'⟩ := trail_range second
  have large : ¬ pairPoint lead trail < 0x10000 := by
    unfold pairPoint
    omega
  have front : 0xD800 + (pairPoint lead trail - 0x10000) / 1024 = lead.toNat := by
    unfold pairPoint
    omega
  have back : 0xDC00 + (pairPoint lead trail - 0x10000) % 1024 = trail.toNat := by
    unfold pairPoint
    omega
  rw [pointUnits, if_neg large, front, back, Nat.toUInt16_eq, Nat.toUInt16_eq, UInt16.ofNat_toNat,
    UInt16.ofNat_toNat]

theorem encode_alone {unit : UInt16} (none : (isLead unit || isTrail unit) = false) (rest : Text) :
    encode (unit :: rest) = encodePoint unit.toNat ++ encode rest := by
  have same : wellFormedUnit unit = unit := if_neg (ne_true_of_eq_false none)
  cases rest with
  | nil =>
    rw [show encode [unit] = encodePoint (wellFormedUnit unit).toNat from rfl, same]
    exact (List.append_nil _).symm
  | cons next rest =>
    have lead : isLead unit = false := (Bool.or_eq_false_iff.mp none).1
    rw [encode, lead, Bool.false_and, if_neg (by decide), same]

theorem encode_pair {unit next : UInt16} (lead : isLead unit = true) (trail : isTrail next = true)
    (rest : Text) :
    encode (unit :: next :: rest) = encodePoint (pairPoint unit next) ++ encode rest := by
  rw [encode, lead, trail]
  rfl

theorem decode_encode {text : Text} (paired : Paired text) : decode (encode text) = text := by
  induction paired with
  | nil => rfl
  | @alone unit rest none _ ih =>
    have small : unit.toNat < 65536 := unit.toNat_lt
    rw [encode_alone none, decode_encodePoint (by omega) (alone_range none), pointUnits_toNat, ih]
    rfl
  | @pair unit next rest lead trail _ ih =>
    obtain ⟨low, high⟩ := lead_range lead
    obtain ⟨low', high'⟩ := trail_range trail
    have small : pairPoint unit next < 0x110000 := by
      unfold pairPoint
      omega
    have large : 0xE000 ≤ pairPoint unit next := by
      unfold pairPoint
      omega
    rw [encode_pair lead trail, decode_encodePoint small (Or.inr large),
      pointUnits_pairPoint lead trail, ih]
    rfl

end

theorem eq_of_mem_encodePoint {point : Nat} {byte : UInt8} (small : point < 0x110000)
    (member : byte ∈ encodePoint point) (low : byte.toNat < 0x80) : byte.toNat = point := by
  have reads : ∀ {value : Nat}, value < 256 → byte = octet value → byte.toNat = value := by
    intro value below same
    rw [same, toNat_octet below]
  rw [encodePoint] at member
  split at member
  · exact reads (by omega) (List.mem_singleton.mp member)
  · exfalso
    split at member
    · rcases List.mem_cons.mp member with same | member
      · have value := reads (by omega) same
        omega
      · have value := reads (by omega) (List.mem_singleton.mp member)
        omega
    · have tail : ∀ {value : Nat}, byte = octet (0x80 + value % 64) → False := by
        intro value same
        have value := reads (by omega) same
        omega
      split at member
      · rcases List.mem_cons.mp member with same | member
        · have value := reads (by omega) same
          omega
        · rcases List.mem_cons.mp member with same | member
          · exact tail same
          · exact tail (List.mem_singleton.mp member)
      · rcases List.mem_cons.mp member with same | member
        · have value := reads (by omega) same
          omega
        · rcases List.mem_cons.mp member with same | member
          · exact tail same
          · rcases List.mem_cons.mp member with same | member
            · exact tail same
            · exact tail (List.mem_singleton.mp member)

/-- **An octet below 0x80 is a unit of the text**, for a text whose surrogates are in pairs. -/
theorem low_of_mem_encode {text : Text} (paired : Paired text) {byte : UInt8}
    (member : byte ∈ encode text) (low : byte.toNat < 0x80) :
    ∃ unit ∈ text, unit.toNat = byte.toNat := by
  induction paired with
  | nil => cases member
  | @alone unit rest none _ ih =>
    rw [encode_alone none] at member
    have small : unit.toNat < 65536 := unit.toNat_lt
    rcases List.mem_append.mp member with here | behind
    · exact ⟨unit, List.mem_cons_self, (eq_of_mem_encodePoint (by omega) here low).symm⟩
    · obtain ⟨found, inside, same⟩ := ih behind
      exact ⟨found, List.mem_cons_of_mem _ inside, same⟩
  | @pair unit next rest lead trail _ ih =>
    rw [encode_pair lead trail] at member
    obtain ⟨lower, upper⟩ := lead_range lead
    obtain ⟨lower', upper'⟩ := trail_range trail
    rcases List.mem_append.mp member with here | behind
    · have value : byte.toNat = pairPoint unit next := by
        refine eq_of_mem_encodePoint ?_ here low
        unfold pairPoint
        omega
      unfold pairPoint at value
      omega
    · obtain ⟨found, inside, same⟩ := ih behind
      exact ⟨found, List.mem_cons_of_mem _ (List.mem_cons_of_mem _ inside), same⟩

end Utf8
