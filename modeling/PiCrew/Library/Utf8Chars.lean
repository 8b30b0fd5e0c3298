/-
**The characters of a text, and how many octets they take.**

A text is cut into characters: a pair of surrogates, or a unit. Each has its own octets, the first of which
goes on with no character before it. So octets that are cut off anywhere and then read from the next first
octet on are those of a whole number of characters.

* `dropWhile_continuation` — cutting the octets so that they fit, up to the next first octet, leaves it.
-/

import PiCrew.Library.Utf8Chunks

namespace Utf8

open JsonText

def chars : Text → List Text
  | [] => []
  | [unit] => [[unit]]
  | unit :: next :: rest =>
    if isLead unit && isTrail next then [unit, next] :: chars rest else [unit] :: chars (next :: rest)

def byteLength (text : Text) : Nat := (encode text).length

def unitPoint (unit : UInt16) : Nat := (wellFormedUnit unit).toNat

def Apart (unit : UInt16) (rest : Text) : Prop := ∀ next ∈ rest.head?, (isLead unit && isTrail next) = false

theorem not_lead_of_trail {unit : UInt16} (trail : isTrail unit = true) : isLead unit = false := by
  by_contra lead
  rw [not_trail_of_lead (Bool.not_eq_false _ ▸ lead)] at trail
  cases trail

theorem pair_of_not_apart {unit : UInt16} {rest : Text} (together : ¬ Apart unit rest) :
    ∃ next more, rest = next :: more ∧ isLead unit = true ∧ isTrail next = true ∧ Apart next more := by
  cases rest with
  | nil => exact absurd nofun together
  | cons next more =>
    have both : (isLead unit && isTrail next) = true := by
      by_contra none
      refine together fun other same => ?_
      rw [← Option.some.inj same]
      exact Bool.eq_false_iff.mpr none
    obtain ⟨lead, trail⟩ := Bool.and_eq_true_iff.mp both
    refine ⟨next, more, rfl, lead, trail, fun other _ => ?_⟩
    rw [not_lead_of_trail trail]
    rfl

theorem chars_apart {unit : UInt16} {rest : Text} (apart : Apart unit rest) :
    chars (unit :: rest) = [unit] :: chars rest := by
  cases rest with
  | nil => rfl
  | cons next rest =>
    rw [chars, apart next rfl]
    rfl

theorem encode_apart {unit : UInt16} {rest : Text} (apart : Apart unit rest) :
    encode (unit :: rest) = encodePoint (unitPoint unit) ++ encode rest := by
  cases rest with
  | nil => exact (List.append_nil _).symm
  | cons next rest =>
    rw [encode, apart next rfl]
    rfl

theorem chars_pair {unit next : UInt16} (lead : isLead unit = true) (trail : isTrail next = true)
    (rest : Text) : chars (unit :: next :: rest) = [unit, next] :: chars rest := by
  rw [chars, lead, trail]
  rfl

theorem chars_induction {motive : Text → Prop} (nil : motive [])
    (apart : ∀ unit rest, Apart unit rest → motive rest → motive (unit :: rest))
    (pair : ∀ unit next rest, isLead unit = true → isTrail next = true → motive rest →
      motive (unit :: next :: rest)) (text : Text) : motive text := by
  induction text using chars.induct with
  | case1 => exact nil
  | case2 unit => exact apart unit [] nofun nil
  | case3 unit next rest both ih =>
    obtain ⟨lead, trail⟩ := Bool.and_eq_true_iff.mp both
    exact pair unit next rest lead trail ih
  | case4 unit next rest none ih =>
    refine apart unit (next :: rest) (fun other same => ?_) ih
    rw [← Option.some.inj same]
    exact Bool.eq_false_iff.mpr none

theorem flatten_chars (text : Text) : (chars text).flatten = text := by
  induction text using chars_induction with
  | nil => rfl
  | apart unit rest apart ih => rw [chars_apart apart, List.flatten_cons, ih, List.singleton_append]
  | pair unit next rest lead trail ih =>
    rw [chars_pair lead trail, List.flatten_cons, ih]
    rfl

theorem encode_unit (unit : UInt16) : encode [unit] = encodePoint (unitPoint unit) := rfl

theorem encode_two {unit next : UInt16} (lead : isLead unit = true) (trail : isTrail next = true) :
    encode [unit, next] = encodePoint (pairPoint unit next) := by
  rw [encode_pair lead trail]
  exact List.append_nil _

theorem encode_eq_flatMap (text : Text) : encode text = (chars text).flatMap encode := by
  induction text using chars_induction with
  | nil => rfl
  | apart unit rest apart ih =>
    rw [chars_apart apart, encode_apart apart, List.flatMap_cons, ih, encode_unit]
  | pair unit next rest lead trail ih =>
    rw [chars_pair lead trail, encode_pair lead trail, List.flatMap_cons, ih, encode_two lead trail]

theorem unitPoint_range (unit : UInt16) :
    unitPoint unit < 0x10000 ∧ (unitPoint unit < 0xD800 ∨ 0xE000 ≤ unitPoint unit) := by
  refine ⟨(wellFormedUnit unit).toNat_lt, ?_⟩
  rw [unitPoint, wellFormedUnit]
  split
  · exact .inr (by decide)
  · next none => exact alone_range (Bool.eq_false_iff.mpr none)

theorem pairPoint_range {unit next : UInt16} (lead : isLead unit = true) (trail : isTrail next = true) :
    0x10000 ≤ pairPoint unit next ∧ pairPoint unit next < 0x110000 := by
  obtain ⟨low, high⟩ := lead_range lead
  obtain ⟨low', high'⟩ := trail_range trail
  unfold pairPoint
  omega

theorem decode_encode_eq (text : Text) : decode (encode text) = toWellFormed text := by
  induction text using chars_induction with
  | nil => rfl
  | apart unit rest apart ih =>
    obtain ⟨small, alone⟩ := unitPoint_range unit
    rw [encode_apart apart, decode_encodePoint (by omega) alone, ih, unitPoint, pointUnits_toNat,
      toWellFormed_alone fun next more same => apart next (by rw [same]; rfl)]
    rfl
  | pair unit next rest lead trail ih =>
    obtain ⟨large, small⟩ := pairPoint_range lead trail
    rw [encode_pair lead trail, decode_encodePoint small (by omega), ih, pointUnits_pairPoint lead trail,
      toWellFormed, lead, trail]
    rfl

theorem paired_of_toWellFormed {text : Text} (same : toWellFormed text = text) : Paired text := by
  induction text using chars_induction with
  | nil => exact .nil
  | apart unit rest apart ih =>
    rw [toWellFormed_alone fun next more same => apart next (by rw [same]; rfl)] at same
    obtain ⟨first, rest⟩ := List.cons.inj same
    refine .alone ?_ (ih rest)
    rw [wellFormedUnit] at first
    split at first
    · rw [← first]
      rfl
    · next none => exact Bool.eq_false_iff.mpr none
  | pair unit next rest lead trail ih =>
    rw [toWellFormed, lead, trail] at same
    exact .pair lead trail (ih (List.cons.inj (List.cons.inj same).2).2)

theorem length_toWellFormed (text : Text) : (toWellFormed text).length = text.length := by
  induction text using chars_induction with
  | nil => rfl
  | apart unit rest apart ih =>
    rw [toWellFormed_alone fun next more same => apart next (by rw [same]; rfl), List.length_cons, ih]
    rfl
  | pair unit next rest lead trail ih =>
    rw [toWellFormed, lead, trail]
    exact congrArg (· + 2) ih

theorem encodePoint_octets {point : Nat} (small : point < 0x110000) :
    ∃ byte rest, encodePoint point = byte :: rest ∧ isContinuation byte = false ∧
      ∀ other ∈ rest, isContinuation other = true := by
  have further : ∀ value : Nat, isContinuation (octet (0x80 + value % 64)) = true := by
    intro value
    rw [isContinuation, toNat_octet (by omega)]
    exact Bool.and_eq_true_iff.mpr ⟨decide_eq_true (by omega), decide_eq_true (by omega)⟩
  rw [encodePoint]
  split
  · exact ⟨_, _, rfl, isContinuation_octet (by omega) (by omega), fun _ member => absurd member List.not_mem_nil⟩
  · split
    · exact ⟨_, _, rfl, isContinuation_octet (by omega) (by omega), by simp [further]⟩
    · split
      · exact ⟨_, _, rfl, isContinuation_octet (by omega) (by omega), by simp [further]⟩
      · exact ⟨_, _, rfl, isContinuation_octet (by omega) (by omega), by simp [further]⟩

theorem octets_of_mem_chars {text char : Text} (member : char ∈ chars text) :
    ∃ byte rest, encode char = byte :: rest ∧ isContinuation byte = false ∧
      ∀ other ∈ rest, isContinuation other = true := by
  induction text using chars_induction with
  | nil => cases member
  | apart unit rest apart ih =>
    rw [chars_apart apart] at member
    rcases List.mem_cons.mp member with rfl | later
    · exact encodePoint_octets (Nat.lt_trans (unitPoint_range unit).1 (by decide))
    · exact ih later
  | pair unit next rest lead trail ih =>
    rw [chars_pair lead trail] at member
    rcases List.mem_cons.mp member with rfl | later
    · rw [encode_two lead trail]
      exact encodePoint_octets (pairPoint_range lead trail).2
    · exact ih later

/-! ## Lengths -/

theorem encodePoint_length {point : Nat} : (encodePoint point).length =
      if point < 0x80 then 1 else if point < 0x800 then 2 else if point < 0x10000 then 3 else 4 := by
  rw [encodePoint]
  split
  · rfl
  · split
    · rfl
    · split <;> rfl

theorem byteLength_apart {unit : UInt16} {rest : Text} (apart : Apart unit rest) :
    byteLength (unit :: rest) = byteLength [unit] + byteLength rest := by
  rw [byteLength, encode_apart apart, List.length_append]
  rfl

theorem byteLength_pair {unit next : UInt16} (lead : isLead unit = true) (trail : isTrail next = true)
    (rest : Text) : byteLength (unit :: next :: rest) = 4 + byteLength rest := by
  obtain ⟨large, -⟩ := pairPoint_range lead trail
  rw [byteLength, encode_pair lead trail, List.length_append, encodePoint_length, if_neg (by omega),
    if_neg (by omega), if_neg (by omega)]
  rfl

theorem byteLength_unit (unit : UInt16) : 1 ≤ byteLength [unit] ∧ byteLength [unit] ≤ 3 := by
  have small := (unitPoint_range unit).1
  rw [byteLength, encode_unit, encodePoint_length]
  split
  · exact ⟨Nat.le_refl _, by decide⟩
  · split
    · exact ⟨by decide, by decide⟩
    · simp

theorem byteLength_half {unit : UInt16} (half : (isLead unit || isTrail unit) = true) :
    byteLength [unit] = 3 := by
  rw [byteLength, encode_unit, unitPoint, wellFormedUnit, if_pos half]
  rfl

theorem byteLength_cons_lt (unit : UInt16) (rest : Text) : byteLength rest < byteLength (unit :: rest) := by
  have one := (byteLength_unit unit).1
  by_cases apart : Apart unit rest
  · rw [byteLength_apart apart]
    omega
  · obtain ⟨next, more, rfl, lead, trail, alone⟩ := pair_of_not_apart apart
    rw [byteLength_pair lead trail, byteLength_apart alone, byteLength_half (by rw [trail, Bool.or_true])]
    omega

theorem byteLength_append_ge (front back : Text) : byteLength back ≤ byteLength (front ++ back) := by
  induction front with
  | nil => exact Nat.le_refl _
  | cons unit front ih => exact ih.trans (Nat.le_of_lt (byteLength_cons_lt unit _))

/-! ## The suffix that fits -/

section

def fit (cap : Nat) : List Text → List Text
  | [] => []
  | char :: rest => if byteLength (char :: rest).flatten ≤ cap then char :: rest else fit cap rest

/-- **The longest suffix of whole characters** that takes at most so many octets. -/
def longestFit (cap : Nat) (text : Text) : Text := (fit cap (chars text)).flatten

variable {cap : Nat} {text : Text}

variable {list : List Text} {blocks : List (List UInt8)}

theorem chars_of_suffix (behind : list <:+ chars text) : chars list.flatten = list := by
  have step : ∀ {char : Text} {rest : Text}, chars (char ++ rest) = char :: chars rest →
      (list <:+ chars rest → chars list.flatten = list) → list <:+ char :: chars rest →
      chars list.flatten = list := by
    intro char rest cut ih behind
    rcases List.suffix_cons_iff.mp behind with rfl | later
    · rw [List.flatten_cons, flatten_chars, cut]
    · exact ih later
  induction text using chars_induction with
  | nil =>
    rw [List.suffix_nil.mp behind]
    rfl
  | apart unit rest apart ih => exact step (chars_apart apart) ih (chars_apart apart ▸ behind)
  | pair unit next rest lead trail ih =>
    exact step (chars_pair lead trail rest) ih (chars_pair lead trail rest ▸ behind)

theorem fit_suffix (cap : Nat) (list : List Text) : fit cap list <:+ list := by
  induction list with
  | nil => exact List.suffix_rfl
  | cons char rest ih =>
    rw [fit]
    split
    · exact List.suffix_rfl
    · exact ih.trans (List.suffix_cons _ _)

theorem longestFit_le (cap : Nat) (text : Text) : byteLength (longestFit cap text) ≤ cap := by
  rw [longestFit]
  induction chars text with
  | nil => exact Nat.zero_le _
  | cons char rest ih =>
    rw [fit]
    split
    · assumption
    · exact ih

theorem longestFit_cons_of_lt {unit : UInt16} {rest : Text} (large : cap < byteLength rest) :
    longestFit cap (unit :: rest) = longestFit cap rest := by
  have more := Nat.lt_trans large (byteLength_cons_lt unit rest)
  by_cases apart : Apart unit rest
  · rw [longestFit, chars_apart apart, fit, List.flatten_cons, flatten_chars, List.singleton_append,
      if_neg (Nat.not_le_of_lt more)]
    rfl
  · obtain ⟨next, behind, rfl, lead, trail, alone⟩ := pair_of_not_apart apart
    rw [longestFit, chars_pair lead trail, fit, List.flatten_cons, flatten_chars, List.cons_append,
      List.singleton_append, if_neg (Nat.not_le_of_lt more), longestFit, chars_apart alone, fit,
      List.flatten_cons, flatten_chars, List.singleton_append, if_neg (Nat.not_le_of_lt large)]

theorem longestFit_append {front back : Text} (large : cap < byteLength back) :
    longestFit cap (front ++ back) = longestFit cap back := by
  induction front with
  | nil => rfl
  | cons unit front ih =>
    rw [List.cons_append, longestFit_cons_of_lt (Nat.lt_of_lt_of_le large (byteLength_append_ge _ _)), ih]

theorem fit_full {char : Text} (behind : char :: fit cap list <:+ list) :
    cap < byteLength (char :: fit cap list).flatten := by
  induction list with
  | nil => cases List.suffix_nil.mp behind
  | cons first rest ih =>
    rw [fit] at behind ⊢
    split at behind
    · have short := behind.length_le
      rw [List.length_cons] at short
      omega
    · next none =>
        rw [if_neg none]
        rcases List.suffix_cons_iff.mp behind with same | later
        · rw [same]
          exact Nat.lt_of_not_le none
        · exact ih later

theorem eq_fit {list kept : List Text} (behind : kept <:+ list) (fits : byteLength kept.flatten ≤ cap)
    (full : ∀ char, char :: kept <:+ list → cap < byteLength (char :: kept).flatten) :
    kept = fit cap list := by
  induction list with
  | nil => exact List.suffix_nil.mp behind
  | cons first rest ih =>
    rw [fit]
    rcases List.suffix_cons_iff.mp behind with rfl | later
    · rw [if_pos fits]
    · rw [if_neg]
      · exact ih later fun char longer => full char (longer.trans (List.suffix_cons _ _))
      · -- the character in front of them fits if all of them do
        intro all
        obtain ⟨front, split⟩ := later
        obtain ⟨before, char, same⟩ : ∃ before char, first :: front = before ++ [char] :=
          ⟨_, _, (List.dropLast_append_getLast (List.cons_ne_nil first front)).symm⟩
        have whole : first :: rest = before ++ (char :: kept) := by
          rw [← split, ← List.cons_append, same, List.append_assoc]
          rfl
        have none := full char ⟨before, whole.symm⟩
        rw [whole, List.flatten_append] at all
        have less := byteLength_append_ge before.flatten (char :: kept).flatten
        omega

/-- **The end of a text in whole characters** that fits, with no room for one more in front. -/
structure IsTail (cap : Nat) (text tail : Text) : Prop where
  whole : chars tail <:+ chars text
  fits : byteLength tail ≤ cap
  full : ∀ char, char :: chars tail <:+ chars text → cap < byteLength (char ++ tail)

theorem isTail_iff {tail : Text} : IsTail cap text tail ↔ tail = longestFit cap text := by
  refine ⟨fun is => ?_, fun same => ?_⟩
  · rw [longestFit, ← eq_fit is.whole, flatten_chars]
    · rw [flatten_chars]
      exact is.fits
    · intro char behind
      rw [List.flatten_cons, flatten_chars]
      exact is.full char behind
  · have parts : chars tail = fit cap (chars text) := by
      rw [same, longestFit, chars_of_suffix (fit_suffix cap _)]
    refine ⟨parts ▸ fit_suffix cap _, same ▸ longestFit_le cap text, fun char behind => ?_⟩
    rw [parts] at behind
    have full := fit_full behind
    rwa [List.flatten_cons, ← longestFit, ← same] at full

def Blocks (blocks : List (List UInt8)) : Prop :=
  ∀ block ∈ blocks, ∃ byte rest, block = byte :: rest ∧ isContinuation byte = false ∧
    ∀ other ∈ rest, isContinuation other = true

def fitBlocks (cap : Nat) : List (List UInt8) → List (List UInt8)
  | [] => []
  | block :: rest => if (block :: rest).flatten.length ≤ cap then block :: rest else fitBlocks cap rest

theorem dropWhile_blocks (shape : Blocks blocks) :
    blocks.flatten.dropWhile isContinuation = blocks.flatten := by
  cases blocks with
  | nil => rfl
  | cons block rest =>
    obtain ⟨byte, more, rfl, first, -⟩ := shape block List.mem_cons_self
    rw [List.flatten_cons, List.cons_append, List.dropWhile_cons_of_neg (by rw [first]; decide)]

theorem fitBlocks_of_le (fits : blocks.flatten.length ≤ cap) : fitBlocks cap blocks = blocks := by
  cases blocks with
  | nil => rfl
  | cons block rest => rw [fitBlocks, if_pos fits]

theorem dropWhile_drop_blocks (shape : Blocks blocks) (cap : Nat) :
    (blocks.flatten.drop (blocks.flatten.length - cap)).dropWhile isContinuation =
      (fitBlocks cap blocks).flatten := by
  induction blocks with
  | nil => simp [fitBlocks]
  | cons block rest ih =>
    have behind : Blocks rest := fun other member => shape other (List.mem_cons_of_mem _ member)
    rw [fitBlocks]
    split
    · next fits =>
        rw [Nat.sub_eq_zero_of_le fits, List.drop_zero, dropWhile_blocks shape]
    · next large =>
        obtain ⟨byte, more, rfl, -, others⟩ := shape block List.mem_cons_self
        rw [List.flatten_cons, List.length_append] at large ⊢
        rw [List.drop_append]
        by_cases fits : rest.flatten.length ≤ cap
        · -- the cut is inside the block, behind its first octet
          obtain ⟨inside, cut⟩ : ∃ inside,
              (byte :: more).length + rest.flatten.length - cap = inside + 1 :=
            Nat.exists_eq_add_of_lt (by omega : 0 < (byte :: more).length + rest.flatten.length - cap)
              |>.imp fun inside same => by omega
          have short : inside + 1 - (byte :: more).length = 0 := by omega
          rw [cut, short, List.drop_zero, List.drop_succ_cons,
            List.dropWhile_append_of_pos fun other member => others other (List.mem_of_mem_drop member),
            dropWhile_blocks behind, fitBlocks_of_le fits]
        · rw [List.drop_of_length_le (by omega), List.nil_append, ← ih behind]
          congr 2
          omega

theorem encode_flatten (behind : list <:+ chars text) :
    encode list.flatten = (list.map encode).flatten := by
  rw [encode_eq_flatMap, chars_of_suffix behind, List.flatMap_def]

theorem fitBlocks_encode (behind : list <:+ chars text) :
    fitBlocks cap (list.map encode) = (fit cap list).map encode := by
  induction list with
  | nil => rfl
  | cons char rest ih =>
    have octets := encode_flatten behind
    rw [List.map_cons] at octets
    rw [List.map_cons, fitBlocks, fit, ← octets, ih ((List.suffix_cons _ _).trans behind),
      apply_ite (List.map encode)]
    rfl

/-- **The octets of a text that are cut** so that they fit, up to the next first octet, are those of the
longest suffix of whole characters that fits. -/
theorem dropWhile_continuation (cap : Nat) (text : Text) :
    ((encode text).drop ((encode text).length - cap)).dropWhile isContinuation =
      encode (longestFit cap text) := by
  have shape : Blocks ((chars text).map encode) := by
    intro block image
    obtain ⟨char, inside, rfl⟩ := List.mem_map.mp image
    exact octets_of_mem_chars inside
  rw [longestFit, encode_flatten (fit_suffix cap _), ← fitBlocks_encode List.suffix_rfl,
    ← dropWhile_drop_blocks shape, ← encode_flatten List.suffix_rfl, flatten_chars]

end

end Utf8
