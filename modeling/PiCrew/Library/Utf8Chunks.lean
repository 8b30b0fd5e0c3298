/-
**Octets that are decoded chunk by chunk.**

A reader that decodes each chunk for itself ends a character at the end of a chunk: what is pending there
becomes U+FFFD, and so does each octet of the rest, which is no first one. So the chunks of a well-formed
text give the text if no chunk starts inside a character, and more U+FFFD than the text has if one does.

* `replacements_lt` — chunks of which one starts with a further octet.
-/

import PiCrew.Library.Utf8
import Mathlib.Data.List.Flatten

namespace Utf8

open JsonText

section

def isContinuation (byte : UInt8) : Bool := 0x80 ≤ byte.toNat && byte.toNat ≤ 0xBF

def Pending.Takes (pending : Pending) (byte : UInt8) : Prop :=
  pending.lower ≤ byte.toNat ∧ byte.toNat ≤ pending.upper

instance (pending : Pending) (byte : UInt8) : Decidable (pending.Takes byte) :=
  inferInstanceAs (Decidable (_ ∧ _))

def advance : Option Pending → UInt8 → Text × Option Pending
  | none, byte => first byte
  | some pending, byte => next pending byte

def after : Option Pending → List UInt8 → Option Pending
  | state, [] => state
  | state, byte :: rest => after (advance state byte).2 rest

/-- **Whole characters**, given what is pending before them. -/
def WellFormed : Option Pending → List UInt8 → Prop
  | none, [] => True
  | some _, [] => False
  | none, byte :: rest => isContinuation byte = false ∧ WellFormed (first byte).2 rest
  | some pending, byte :: rest => pending.Takes byte ∧ WellFormed (next pending byte).2 rest

theorem decodeFrom_cons (state : Option Pending) (byte : UInt8) (rest : List UInt8) :
    decodeFrom state (byte :: rest)
      = (advance state byte).1 ++ decodeFrom (advance state byte).2 rest := by
  cases state with
  | none => rfl
  | some pending => rfl

variable {state : Option Pending}

theorem decodeFrom_append {front : List UInt8} (settled : after state front = none) (rest : List UInt8) :
    decodeFrom state (front ++ rest) = decodeFrom state front ++ decode rest := by
  induction front generalizing state with
  | nil =>
    cases settled
    rfl
  | cons byte front ih =>
    rw [List.cons_append, decodeFrom_cons, decodeFrom_cons, ih settled, List.append_assoc]

theorem WellFormed.cons {byte : UInt8} {rest : List UInt8}
    (whole : WellFormed state (byte :: rest)) : WellFormed (advance state byte).2 rest := by
  cases state with
  | none | some pending => exact whole.2

theorem WellFormed.behind {front rest : List UInt8}
    (whole : WellFormed state (front ++ rest)) : WellFormed (after state front) rest := by
  induction front generalizing state with
  | nil => exact whole
  | cons byte front ih => exact ih whole.cons

def Pending.Sound (pending : Pending) : Prop := 0x80 ≤ pending.lower ∧ pending.upper ≤ 0xBF

theorem further_sound (point needed : Nat) : Pending.Sound ⟨point, needed, 0x80, 0xBF⟩ :=
  ⟨Nat.le_refl 0x80, Nat.le_refl 0xBF⟩

theorem Pending.Sound.isContinuation {pending : Pending} (sound : pending.Sound) {byte : UInt8}
    (takes : pending.Takes byte) : isContinuation byte = true :=
  Bool.and_eq_true_iff.mpr ⟨decide_eq_true (Nat.le_trans sound.1 takes.1),
    decide_eq_true (Nat.le_trans takes.2 sound.2)⟩

theorem first_sound (byte : UInt8) : ∀ pending ∈ (first byte).2, pending.Sound := by
  intro pending same
  unfold first at same
  dsimp only at same
  split at same
  · cases same
  split at same
  · rw [← Option.mem_some.mp same]
    exact further_sound _ _
  split at same
  · rw [← Option.mem_some.mp same]
    refine ⟨?_, ?_⟩
    · show 0x80 ≤ (if _ then _ else _)
      split <;> omega
    · show (if _ then _ else _) ≤ 0xBF
      split <;> omega
  split at same
  · rw [← Option.mem_some.mp same]
    refine ⟨?_, ?_⟩
    · show 0x80 ≤ (if _ then _ else _)
      split <;> omega
    · show (if _ then _ else _) ≤ 0xBF
      split <;> omega
  · cases same

theorem next_taken {pending : Pending} {byte : UInt8} (takes : pending.Takes byte) :
    next pending byte =
      if pending.needed = 1 then (pointUnits (pending.point * 64 + (byte.toNat - 0x80)), none)
      else ([], some ⟨pending.point * 64 + (byte.toNat - 0x80), pending.needed - 1, 0x80, 0xBF⟩) :=
  if_pos takes

theorem next_refused {pending : Pending} {byte : UInt8} (refuses : ¬ pending.Takes byte) :
    next pending byte = (0xFFFD :: (first byte).1, (first byte).2) :=
  if_neg refuses

theorem advance_sound (state : Option Pending) (byte : UInt8) :
    ∀ pending ∈ (advance state byte).2, pending.Sound := by
  cases state with
  | none => exact first_sound byte
  | some before =>
    intro pending same
    by_cases takes : before.Takes byte
    · rw [show advance (some before) byte = next before byte from rfl, next_taken takes] at same
      split at same
      · cases same
      · rw [← Option.mem_some.mp same]
        exact further_sound _ _
    · rw [show advance (some before) byte = next before byte from rfl, next_refused takes] at same
      exact first_sound byte pending same

theorem after_sound (sound : ∀ pending ∈ state, pending.Sound)
    (front : List UInt8) : ∀ pending ∈ after state front, pending.Sound := by
  induction front generalizing state with
  | nil => exact sound
  | cons byte front ih => exact ih (advance_sound state byte)

end

theorem isContinuation_octet {value : Nat} (below : value < 256) (outside : value < 0x80 ∨ 0xBF < value) :
    isContinuation (octet value) = false := by
  rw [isContinuation, toNat_octet below]
  refine Bool.and_eq_false_iff.mpr ?_
  rcases outside with low | high
  · exact Or.inl (decide_eq_false (Nat.not_le_of_lt low))
  · exact Or.inr (decide_eq_false (Nat.not_le_of_lt high))

theorem takes_octet {pending : Pending} {value : Nat} (below : value < 256) (lower : pending.lower ≤ value)
    (upper : value ≤ pending.upper) : pending.Takes (octet value) := by
  rw [Pending.Takes, toNat_octet below]
  exact ⟨lower, upper⟩

theorem wellFormed_last {pending : Pending} {value : Nat} {rest : List UInt8} (below : value < 256)
    (lower : pending.lower ≤ value) (upper : value ≤ pending.upper) (one : pending.needed = 1)
    (whole : WellFormed none rest) : WellFormed (some pending) (octet value :: rest) := by
  refine ⟨takes_octet below lower upper, ?_⟩
  rw [next_last below lower upper one]
  exact whole

theorem wellFormed_more {pending : Pending} {value : Nat} {rest : List UInt8} (below : value < 256)
    (lower : pending.lower ≤ value) (upper : value ≤ pending.upper) (more : pending.needed ≠ 1)
    (whole : WellFormed (some ⟨pending.point * 64 + (value - 0x80), pending.needed - 1, 0x80, 0xBF⟩) rest) :
    WellFormed (some pending) (octet value :: rest) := by
  refine ⟨takes_octet below lower upper, ?_⟩
  rw [next_more below lower upper more]
  exact whole

theorem wellFormed_encodePoint {point : Nat} (small : point < 0x110000)
    (alone : point < 0xD800 ∨ 0xE000 ≤ point) {rest : List UInt8} (whole : WellFormed none rest) :
    WellFormed none (encodePoint point ++ rest) := by
  have last : ∀ {start value : Nat}, 0x80 ≤ value → value ≤ 0xBF →
      WellFormed (some ⟨start, 1, 0x80, 0xBF⟩) (octet value :: rest) :=
    fun lower upper => wellFormed_last (by omega) lower upper rfl whole
  by_cases one : point < 0x80
  · rw [encodePoint, if_pos one, List.singleton_append]
    refine ⟨isContinuation_octet (by omega) (Or.inl one), ?_⟩
    rw [first_ascii one]
    exact whole
  by_cases two : point < 0x800
  · rw [encodePoint, if_neg one, if_pos two, List.cons_append, List.singleton_append]
    refine ⟨isContinuation_octet (by omega) (Or.inr (by omega)), ?_⟩
    rw [first_two (by omega) (by omega)]
    exact last (by omega) (by omega)
  by_cases three : point < 0x10000
  · rw [encodePoint, if_neg one, if_neg two, if_pos three, List.cons_append, List.cons_append,
      List.singleton_append]
    have lower : (if 0xE0 + point / 4096 = 0xE0 then 0xA0 else 0x80) ≤ 0x80 + point / 64 % 64 := by
      split <;> omega
    have upper : 0x80 + point / 64 % 64 ≤ (if 0xE0 + point / 4096 = 0xED then 0x9F else 0xBF) := by
      split <;> omega
    refine ⟨isContinuation_octet (by omega) (Or.inr (by omega)), ?_⟩
    rw [first_three (by omega) (by omega)]
    refine wellFormed_more (by omega) lower upper (by show 2 ≠ 1; decide) ?_
    exact last (by omega) (by omega)
  · rw [encodePoint, if_neg one, if_neg two, if_neg three, List.cons_append, List.cons_append,
      List.cons_append, List.singleton_append]
    have lower : (if 0xF0 + point / 262144 = 0xF0 then 0x90 else 0x80)
        ≤ 0x80 + point / 4096 % 64 := by
      split <;> omega
    have upper : 0x80 + point / 4096 % 64
        ≤ (if 0xF0 + point / 262144 = 0xF4 then 0x8F else 0xBF) := by
      split <;> omega
    refine ⟨isContinuation_octet (by omega) (Or.inr (by omega)), ?_⟩
    rw [first_four (by omega) (by omega)]
    refine wellFormed_more (by omega) lower upper (by show 3 ≠ 1; decide) ?_
    refine wellFormed_more (by omega) (by show 0x80 ≤ _; omega) (by show _ ≤ 0xBF; omega)
      (by show 3 - 1 ≠ 1; decide) ?_
    exact last (by omega) (by omega)

theorem wellFormed_encode {text : Text} (paired : Paired text) : WellFormed none (encode text) := by
  induction paired with
  | nil => trivial
  | @alone unit rest none _ ih =>
    have small : unit.toNat < 65536 := unit.toNat_lt
    rw [encode_alone none]
    exact wellFormed_encodePoint (by omega) (alone_range none) ih
  | @pair unit next rest lead trail _ ih =>
    obtain ⟨low, high⟩ := lead_range lead
    obtain ⟨low', high'⟩ := trail_range trail
    have small : pairPoint unit next < 0x110000 := by
      unfold pairPoint
      omega
    have large : 0xE000 ≤ pairPoint unit next := by
      unfold pairPoint
      omega
    rw [encode_pair lead trail]
    -- the bits of a pair are not to be computed here
    generalize pairPoint unit next = point at small large ⊢
    exact wellFormed_encodePoint small (Or.inr large) ih

section

def replacements (text : Text) : Nat := text.count 0xFFFD

theorem replacements_append (text rest : Text) :
    replacements (text ++ rest) = replacements text + replacements rest :=
  List.count_append

theorem replacements_pointUnits (point : Nat) : replacements (pointUnits point) ≤ 1 := by
  have fffd : (0xFFFD : UInt16).toNat = 65533 := by decide
  unfold pointUnits replacements
  split
  · rw [List.count_singleton]
    split <;> omega
  · have trail : (0xDC00 + (point - 0x10000) % 1024).toUInt16 ≠ 0xFFFD := by
      intro same
      have value := congrArg UInt16.toNat same
      rw [Nat.toUInt16_eq, UInt16.toNat_ofNat', Nat.mod_eq_of_lt (by omega), fffd] at value
      omega
    rw [List.count_cons, List.count_singleton, if_neg (by simpa using trail)]
    split <;> omega

theorem first_continuation {byte : UInt8} (inside : isContinuation byte = true) :
    first byte = ([0xFFFD], none) := by
  obtain ⟨low, high⟩ := Bool.and_eq_true_iff.mp inside
  have lower : 0x80 ≤ byte.toNat := of_decide_eq_true low
  have upper : byte.toNat ≤ 0xBF := of_decide_eq_true high
  rw [first, if_neg (by omega), if_neg (by omega), if_neg (by omega), if_neg (by omega)]

variable {pending : Pending}

theorem replacements_taken_of (sound : pending.Sound) {byte : UInt8}
    (takes : pending.Takes byte) {rest : List UInt8} (bound : ∀ more : Pending, more.Sound →
      replacements (decodeFrom (some more) rest) ≤ replacements (decode rest) + 1) :
    replacements (decodeFrom (some pending) (byte :: rest))
      < replacements (decode (byte :: rest)) + 1 := by
  have alone : replacements (decode (byte :: rest)) = 1 + replacements (decode rest) := by
    rw [decode, decodeFrom, first_continuation (sound.isContinuation takes)]
    exact replacements_append [0xFFFD] _
  rw [alone, decodeFrom, next_taken takes]
  split
  · have few := replacements_pointUnits (pending.point * 64 + (byte.toNat - 0x80))
    rw [replacements_append]
    dsimp only
    rw [show decodeFrom none rest = decode rest from rfl]
    omega
  · have few := bound ⟨pending.point * 64 + (byte.toNat - 0x80), pending.needed - 1, 0x80, 0xBF⟩
      ⟨Nat.le_refl _, Nat.le_refl _⟩
    dsimp only
    rw [List.nil_append]
    omega

theorem replacements_pending (sound : pending.Sound) (bytes : List UInt8) :
    replacements (decodeFrom (some pending) bytes) ≤ replacements (decode bytes) + 1 := by
  induction bytes generalizing pending with
  | nil => exact Nat.le_refl 1
  | cons byte rest ih =>
    by_cases takes : pending.Takes byte
    · exact Nat.le_of_lt (replacements_taken_of sound takes fun more sound' => ih sound')
    · have other : decodeFrom (some pending) (byte :: rest) = 0xFFFD :: decode (byte :: rest) := by
        rw [decodeFrom, next_refused takes]
        rfl
      rw [other]
      exact Nat.le_of_eq List.count_cons_self

theorem replacements_taken (sound : pending.Sound) {byte : UInt8}
    (takes : pending.Takes byte) (rest : List UInt8) :
    replacements (decodeFrom (some pending) (byte :: rest))
      < replacements (decode (byte :: rest)) + 1 :=
  replacements_taken_of sound takes fun _ sound' => replacements_pending sound' rest

theorem replacements_boundary {state : Option Pending} (sound : ∀ pending ∈ state, pending.Sound)
    (front rest : List UInt8) :
    replacements (decodeFrom state (front ++ rest))
      ≤ replacements (decodeFrom state front) + replacements (decode rest) := by
  induction front generalizing state with
  | nil =>
    cases state with
    | none => exact Nat.le_add_left _ _
    | some pending =>
      have bound := replacements_pending (sound pending rfl) rest
      show _ ≤ 1 + _
      rwa [Nat.add_comm]
  | cons byte front ih =>
    have bound := ih (advance_sound state byte)
    rw [List.cons_append, decodeFrom_cons, decodeFrom_cons, replacements_append,
      replacements_append]
    omega

theorem replacements_inside {state : Option Pending} (sound : ∀ pending ∈ state, pending.Sound)
    {front : List UInt8} (left : after state front = some pending) {byte : UInt8}
    (takes : pending.Takes byte) (rest : List UInt8) :
    replacements (decodeFrom state (front ++ byte :: rest))
      < replacements (decodeFrom state front) + replacements (decode (byte :: rest)) := by
  induction front generalizing state with
  | nil =>
    cases left
    have bound := replacements_taken (sound pending rfl) takes rest
    show _ < 1 + _
    rwa [Nat.add_comm]
  | cons byte' front ih =>
    have bound := ih (advance_sound state byte') left
    rw [List.cons_append, decodeFrom_cons, decodeFrom_cons, replacements_append,
      replacements_append]
    omega

end

section

def StartsInside (chunk : List UInt8) : Prop := ∃ byte ∈ chunk.head?, isContinuation byte = true

theorem not_sound_none : ∀ pending ∈ (none : Option Pending), pending.Sound :=
  nofun

theorem decodeFrom_apart {state : Option Pending} (sound : ∀ pending ∈ state, pending.Sound) (front : List UInt8)
    {rest : List UInt8} (apart : ¬ StartsInside rest) :
    decodeFrom state (front ++ rest) = decodeFrom state front ++ decode rest := by
  induction front generalizing state with
  | nil =>
    cases state with
    | none => rfl
    | some pending =>
      cases rest with
      | nil => rfl
      | cons byte rest =>
        have refuses : ¬ pending.Takes byte := fun takes =>
          apart ⟨byte, rfl, (sound pending rfl).isContinuation takes⟩
        have step : advance (some pending) byte = (0xFFFD :: (first byte).1, (first byte).2) :=
          next_refused refuses
        rw [List.nil_append, decodeFrom_cons, step]
        rfl
  | cons byte front ih =>
    rw [List.cons_append, decodeFrom_cons, decodeFrom_cons, ih (advance_sound state byte), List.append_assoc]

variable {chunks : List (List UInt8)}

theorem settled_of_chunks {state : Option Pending} (sound : ∀ pending ∈ state, pending.Sound)
    (whole : WellFormed state chunks.flatten)
    (apart : ∀ chunk ∈ chunks, ¬ StartsInside chunk) : state = none := by
  cases state with
  | none => rfl
  | some pending =>
    exfalso
    induction chunks with
    | nil => exact whole
    | cons chunk chunks ih =>
      obtain ⟨here, others⟩ := List.forall_mem_cons.mp apart
      cases chunk with
      | nil => exact ih others whole
      | cons byte chunk =>
        exact here ⟨byte, rfl, (sound pending rfl).isContinuation whole.1⟩

theorem flatMap_decode (whole : WellFormed none chunks.flatten)
    (apart : ∀ chunk ∈ chunks, ¬ StartsInside chunk) :
    chunks.flatMap decode = decode chunks.flatten := by
  induction chunks with
  | nil => rfl
  | cons chunk chunks ih =>
    obtain ⟨-, others⟩ := List.forall_mem_cons.mp apart
    have rest : WellFormed (after none chunk) chunks.flatten := whole.behind
    have settled : after none chunk = none :=
      settled_of_chunks (after_sound not_sound_none chunk) rest others
    rw [settled] at rest
    rw [List.flatMap_cons, List.flatten_cons, ih rest others]
    exact (decodeFrom_append settled _).symm

theorem replacements_le (chunks : List (List UInt8)) :
    replacements (decode chunks.flatten) ≤ replacements (chunks.flatMap decode) := by
  induction chunks with
  | nil => exact Nat.le_refl _
  | cons chunk chunks ih =>
    have boundary := replacements_boundary not_sound_none chunk chunks.flatten
    rw [List.flatMap_cons, List.flatten_cons, replacements_append]
    exact Nat.le_trans boundary (Nat.add_le_add_left ih _)

/-- **Chunks of which one starts inside a character** have more U+FFFD than the text. -/
theorem replacements_lt (whole : WellFormed none chunks.flatten)
    (cut : ∃ chunk ∈ chunks, StartsInside chunk) :
    replacements (decode chunks.flatten) < replacements (chunks.flatMap decode) := by
  obtain ⟨chunk, member, byte, head, inside⟩ := cut
  obtain ⟨front, back, rfl⟩ := List.append_of_mem member
  obtain ⟨more, rfl⟩ : ∃ more, chunk = byte :: more := by
    cases chunk with
    | nil => cases head
    | cons other more =>
      cases head
      exact ⟨more, rfl⟩
  have split : (front ++ (byte :: more) :: back).flatten
      = front.flatten ++ byte :: (more ++ back.flatten) := by
    rw [List.flatten_append, List.flatten_cons, List.cons_append]
  rw [split] at whole ⊢
  have rest := whole.behind
  have fewer := replacements_le front
  have fewer' := replacements_le ((byte :: more) :: back)
  rw [List.flatten_cons, List.cons_append] at fewer'
  rw [List.flatMap_append, replacements_append]
  cases left : after none front.flatten with
  | none =>
    rw [left] at rest
    exact absurd inside (ne_true_of_eq_false rest.1)
  | some pending =>
    rw [left] at rest
    have more := replacements_inside not_sound_none left rest.1 (more ++ back.flatten)
    exact Nat.lt_of_lt_of_le more (Nat.add_le_add fewer fewer')

end

end Utf8
