/-
**IPv6 literals.**

The guards of the exporters read an IPv6 address from its text into eight groups and compare the groups
with the blocked ranges. The parser cuts off the zone, splits at `::`, and reads the segments of each half.
Against it stands the grammar of the textual forms: eight groups in full, one `::` for the groups of
zeros, a dotted quad in the last place, and a zone.

* `parseIpv6Literal_bounds` — eight groups of sixteen bits.

Of `toLowerCase` the letters of ASCII are modelled: what it makes of any other unit is no digit, no letter
from `a` to `f` and no mark of the grammar, so a text with such a unit before its zone is refused either
way. A zone is `%` and any text behind it.
-/

import Mathlib.Data.List.TakeWhile
import Mathlib.Data.Nat.Digits.Defs
import PiCrew.Library.JsonText
import PiCrew.Library.Substrings

namespace PiCrew.IpLiteral

open JsonText

def colon : UInt16 := 0x3A

def dot : UInt16 := 0x2E

def percent : UInt16 := 0x25

def toLowerUnit (unit : UInt16) : UInt16 := if 0x41 ≤ unit ∧ unit ≤ 0x5A then unit + 0x20 else unit

def toLowerCase (text : Text) : Text := text.map toLowerUnit

/-- `\d` -/
def isDigit (unit : UInt16) : Bool := 0x30 ≤ unit && unit ≤ 0x39

/-- `\d{1,3}` -/
def isDigits (part : Text) : Bool := 1 ≤ part.length && part.length ≤ 3 && part.all isDigit

/-- `Number(part)` of decimal digits. -/
def number (part : Text) : Nat := part.foldl (fun value unit => 10 * value + (unit.toNat - 0x30)) 0

/-- **A dotted quad.** The expression has no dot but its three marks, so its groups are the parts of the
text between dots. -/
def ipv4Octets (address : Text) : Option (List Nat) :=
  match address.splitOn dot with
  | [first, second, third, fourth] =>
    let parts := [first, second, third, fourth]
    if parts.all isDigits then
      let octets := parts.map number
      if octets.any fun octet => 255 < octet then none
      else if parts.any fun part => 1 < part.length && part.head? == some 0x30 then none
      else some octets
    else none
  | _ => none

def octetsToGroups (octets : List Nat) : List Nat :=
  [octets.getD 0 0 <<< 8 ||| octets.getD 1 0, octets.getD 2 0 <<< 8 ||| octets.getD 3 0]

/-- `[0-9a-f]` -/
def isHexDigit (unit : UInt16) : Bool := 0x30 ≤ unit && unit ≤ 0x39 || 0x61 ≤ unit && unit ≤ 0x66

/-- `^[0-9a-f]{1,4}$` -/
def isHexGroup (segment : Text) : Bool :=
  1 ≤ segment.length && segment.length ≤ 4 && segment.all isHexDigit

/-- `Number.parseInt(segment, 16)` of hexadecimal digits. -/
def parseInt16 (segment : Text) : Nat :=
  segment.foldl (fun value unit => 16 * value + (hexValue unit).getD 0) 0

/-- The loop over the segments of a part. -/
def parseSegments : List Text → Option (List Nat)
  | [] => some []
  | segment :: segments =>
    if dot ∈ segment then
      -- only the last segment may be a dotted quad
      if segments ≠ [] then none else (ipv4Octets segment).map octetsToGroups
    else if isHexGroup segment then (parseSegments segments).map (parseInt16 segment :: ·)
    else none

def parseGroups (part : Text) : Option (List Nat) :=
  if part = [] then some [] else parseSegments (part.splitOn colon)

/-- **Read an IPv6 literal** into its eight groups. -/
def parseIpv6Literal (host : Text) : Option (List Nat) :=
  let literal := (toLowerCase host).takeWhile (· ≠ percent)
  if colon ∉ literal then none
  else
    match Substrings.split [colon, colon] literal with
    | [_] => (parseGroups literal).bind fun groups => if groups.length ≠ 8 then none else some groups
    | [first, second] =>
      if dot ∈ first then none
      else
        (parseGroups first).bind fun head => (parseGroups second).bind fun tail =>
          if head.length + tail.length > 7 then none
          else some (head ++ List.replicate (8 - head.length - tail.length) 0 ++ tail)
    | _ => none

/-- One to four hexadecimal digits, in either case, and the number that they write. -/
def Hextet (segment : Text) (group : Nat) : Prop := 1 ≤ segment.length ∧ segment.length ≤ 4 ∧
    ∃ digits : List Nat, segment.map hexValue = digits.map some ∧
      group = Nat.ofDigits 16 digits.reverse

def digitUnit (digit : Nat) : UInt16 := (0x30 + digit).toUInt16

/-- An octet in decimal, without zeros before it. -/
def octetText (octet : Nat) : Text :=
  if octet < 10 then [digitUnit octet]
  else if octet < 100 then [digitUnit (octet / 10), digitUnit (octet % 10)]
  else [digitUnit (octet / 100), digitUnit (octet / 10 % 10), digitUnit (octet % 10)]

def quadText (first second third fourth : Nat) : Text :=
  octetText first ++ dot :: (octetText second ++ dot :: (octetText third ++ dot :: octetText fourth))

/-- A dotted quad and the two groups that it stands for. -/
def DottedQuad (segment : Text) (groups : List Nat) : Prop :=
  ∃ first second third fourth, (first ≤ 255 ∧ second ≤ 255 ∧ third ≤ 255 ∧ fourth ≤ 255) ∧
    segment = quadText first second third fourth ∧
    groups = [256 * first + second, 256 * third + fourth]

/-- **Groups with colons between them**, the last two as a dotted quad where one may be embedded. -/
inductive FullGroups (embedded : Bool) : Text → List Nat → Prop where
  | hextet {segment group} : Hextet segment group → FullGroups embedded segment [group]
  | quad {segment groups} : embedded = true → DottedQuad segment groups →
      FullGroups embedded segment groups
  | cons {segment group rest groups} : Hextet segment group → FullGroups embedded rest groups →
      FullGroups embedded (segment ++ colon :: rest) (group :: groups)

/-- What stands on one side of `::`; nothing may stand there. -/
def Half (embedded : Bool) (part : Text) (groups : List Nat) : Prop :=
  (part = [] ∧ groups = []) ∨ FullGroups embedded part groups

/-- **The textual forms of an address without a zone.** -/
inductive Literal : Text → List Nat → Prop where
  | full {text groups} : FullGroups true text groups → groups.length = 8 → Literal text groups
  | compressed {front back head tail} : Half false front head → Half true back tail →
      head.length + tail.length ≤ 7 →
      Literal (front ++ [colon, colon] ++ back)
        (head ++ List.replicate (8 - head.length - tail.length) 0 ++ tail)

/-- **The textual forms of an address.** -/
inductive Form : Text → List Nat → Prop where
  | plain {text groups} : Literal text groups → Form text groups
  | zoned {text groups} (zone : Text) : Literal text groups → Form (text ++ percent :: zone) groups

section

variable {unit : UInt16} {text : Text}

theorem toNat_digitUnit {digit : Nat} (small : digit < 10) : (digitUnit digit).toNat = 0x30 + digit := by
  rw [digitUnit, Nat.toUInt16, UInt16.toNat_ofNat']
  omega

theorem isDigit_iff : isDigit unit = true ↔ 0x30 ≤ unit.toNat ∧ unit.toNat ≤ 0x39 := by
  simp [isDigit, UInt16.le_iff_toNat_le]

theorem isDigit_digitUnit {digit : Nat} (small : digit < 10) : isDigit (digitUnit digit) = true := by
  rw [isDigit_iff, toNat_digitUnit small]
  omega

theorem digitUnit_of_isDigit (digit : isDigit unit = true) : unit = digitUnit (unit.toNat - 0x30) := by
  rw [isDigit_iff] at digit
  apply UInt16.toNat_inj.mp
  rw [toNat_digitUnit (by omega)]
  omega

theorem toNat_toLowerUnit : (toLowerUnit unit).toNat =
    if 0x41 ≤ unit.toNat ∧ unit.toNat ≤ 0x5A then unit.toNat + 0x20 else unit.toNat := by
  simp only [toLowerUnit, UInt16.le_iff_toNat_le, UInt16.reduceToNat]
  split
  · next upper =>
      simp only [UInt16.toNat_add, UInt16.reduceToNat]
      omega
  · rfl

theorem toLowerUnit_idem (unit : UInt16) : toLowerUnit (toLowerUnit unit) = toLowerUnit unit := by
  rw [← UInt16.toNat_inj, toNat_toLowerUnit, if_neg]
  rw [toNat_toLowerUnit]
  split <;> omega

theorem toLowerUnit_eq_iff {mark : UInt16} (below : mark.toNat < 0x41) :
    toLowerUnit unit = mark ↔ unit = mark := by
  rw [← UInt16.toNat_inj, ← UInt16.toNat_inj, toNat_toLowerUnit]
  split <;> omega

theorem hexValue_toLowerUnit (unit : UInt16) : hexValue (toLowerUnit unit) = hexValue unit := by
  have lowered := @toNat_toLowerUnit unit
  have bound := unit.toNat_lt
  simp only [hexValue, UInt16.le_iff_toNat_le, lowered]
  grind

theorem toLowerCase_eq_iff {marks : Text} (below : ∀ mark ∈ marks, mark.toNat < 0x41) :
    toLowerCase text = marks ↔ text = marks := by
  induction marks generalizing text with
  | nil => exact List.map_eq_nil_iff
  | cons mark marks ih =>
    cases text with
    | nil => exact iff_of_false (nofun) (nofun)
    | cons unit rest =>
      have first := below mark List.mem_cons_self
      have others := fun other within => below other (List.mem_cons_of_mem _ within)
      rw [toLowerCase, List.map_cons, List.cons.injEq, List.cons.injEq, toLowerUnit_eq_iff first]
      exact and_congr_right fun _ => ih others

theorem mem_toLowerCase {mark : UInt16} (below : mark.toNat < 0x41) :
    mark ∈ toLowerCase text ↔ mark ∈ text := by
  rw [toLowerCase, List.mem_map]
  constructor
  · rintro ⟨unit, within, same⟩
    rwa [← (toLowerUnit_eq_iff below).mp same]
  · intro within
    exact ⟨mark, within, (toLowerUnit_eq_iff below).mpr rfl⟩

@[simp]
theorem toLowerCase_append (front back : Text) :
    toLowerCase (front ++ back) = toLowerCase front ++ toLowerCase back :=
  List.map_append

@[simp]
theorem toLowerCase_colon (rest : Text) : toLowerCase (colon :: rest) = colon :: toLowerCase rest :=
  rfl

end

section

variable {part address : Text}

theorem octetText_of_digits (digits : isDigits part = true)
    (plain : (1 < part.length && part.head? == some 0x30) = false) (small : number part ≤ 255) :
    part = octetText (number part) := by
  rw [isDigits, Bool.and_eq_true, Bool.and_eq_true, List.all_eq_true] at digits
  obtain ⟨⟨least, most⟩, digits⟩ := digits
  match part, digits with
  | [], _ => exact absurd least (by decide)
  | [unit], digits =>
    have value : number [unit] = unit.toNat - 0x30 := by simp [number]
    have same := digitUnit_of_isDigit (digits unit (by simp))
    have bound := isDigit_iff.mp (digits unit (by simp))
    rw [octetText, if_pos (by omega), value, ← same]
  | [tens, ones], digits =>
    have value : number [tens, ones] = 10 * (tens.toNat - 0x30) + (ones.toNat - 0x30) := by
      simp [number]
    have first := isDigit_iff.mp (digits tens (by simp))
    have second := isDigit_iff.mp (digits ones (by simp))
    have leading : tens.toNat ≠ 0x30 := by
      intro zero
      simp [UInt16.toNat_inj.mp (show tens.toNat = (0x30 : UInt16).toNat from zero)] at plain
    rw [octetText, if_neg (by omega), if_pos (by omega), value]
    rw [show (10 * (tens.toNat - 0x30) + (ones.toNat - 0x30)) / 10 = tens.toNat - 0x30 by omega,
      show (10 * (tens.toNat - 0x30) + (ones.toNat - 0x30)) % 10 = ones.toNat - 0x30 by omega,
      ← digitUnit_of_isDigit (digits tens (by simp)), ← digitUnit_of_isDigit (digits ones (by simp))]
  | [hundreds, tens, ones], digits =>
    have value : number [hundreds, tens, ones] =
        10 * (10 * (hundreds.toNat - 0x30) + (tens.toNat - 0x30)) + (ones.toNat - 0x30) := by
      simp [number]
    have first := isDigit_iff.mp (digits hundreds (by simp))
    have second := isDigit_iff.mp (digits tens (by simp))
    have third := isDigit_iff.mp (digits ones (by simp))
    have leading : hundreds.toNat ≠ 0x30 := by
      intro zero
      simp [UInt16.toNat_inj.mp (show hundreds.toNat = (0x30 : UInt16).toNat from zero)] at plain
    rw [octetText, if_neg (by omega), if_neg (by omega)]
    rw [show number [hundreds, tens, ones] / 100 = hundreds.toNat - 0x30 by omega,
      show number [hundreds, tens, ones] / 10 % 10 = tens.toNat - 0x30 by omega,
      show number [hundreds, tens, ones] % 10 = ones.toNat - 0x30 by omega,
      ← digitUnit_of_isDigit (digits hundreds (by simp)), ← digitUnit_of_isDigit (digits tens (by simp)),
      ← digitUnit_of_isDigit (digits ones (by simp))]
  | _ :: _ :: _ :: _ :: _, _ =>
    simp only [List.length_cons, decide_eq_true_eq] at most
    omega

theorem octetText_spec {octet : Nat} (small : octet ≤ 255) :
    isDigits (octetText octet) = true ∧ number (octetText octet) = octet ∧
      (1 < (octetText octet).length && (octetText octet).head? == some 0x30) = false := by
  have leading {digit : Nat} (small : digit < 10) (nonzero : digit ≠ 0) : digitUnit digit ≠ 0x30 := by
    intro same
    have value := congrArg UInt16.toNat same
    simp only [toNat_digitUnit small, UInt16.reduceToNat] at value
    omega
  rw [octetText]
  split
  · next ones =>
      simp [isDigits, number, isDigit_digitUnit ones, toNat_digitUnit ones]
  · split
    · next tens =>
        have front : octet / 10 < 10 := by omega
        have back : octet % 10 < 10 := by omega
        simp [isDigits, number, isDigit_digitUnit, toNat_digitUnit, front, back,
          leading front (by omega)]
        omega
    · next hundreds =>
        have front : octet / 100 < 10 := by omega
        have middle : octet / 10 % 10 < 10 := by omega
        have back : octet % 10 < 10 := by omega
        simp [isDigits, number, isDigit_digitUnit, toNat_digitUnit, front, middle, back,
          leading front (by omega)]
        omega

theorem dot_not_mem_of_isDigits (digits : isDigits part = true) : dot ∉ part := by
  rw [isDigits, Bool.and_eq_true, List.all_eq_true] at digits
  exact fun within => absurd (digits.2 dot within) (by decide)

theorem dot_not_mem_octetText {octet : Nat} (small : octet ≤ 255) : dot ∉ octetText octet :=
  dot_not_mem_of_isDigits (octetText_spec small).1

theorem splitOn_quadText {first second third fourth : Nat} (one : first ≤ 255) (two : second ≤ 255)
    (three : third ≤ 255) (four : fourth ≤ 255) :
    (quadText first second third fourth).splitOn dot =
      [octetText first, octetText second, octetText third, octetText fourth] := by
  rw [quadText, List.splitOn_append_cons_self_of_not_mem (dot_not_mem_octetText one),
    List.splitOn_append_cons_self_of_not_mem (dot_not_mem_octetText two),
    List.splitOn_append_cons_self_of_not_mem (dot_not_mem_octetText three),
    List.splitOn_eq_singleton (dot_not_mem_octetText four)]

theorem ipv4Octets_eq_some {octets : List Nat} : ipv4Octets address = some octets ↔
      ∃ first second third fourth, (first ≤ 255 ∧ second ≤ 255 ∧ third ≤ 255 ∧ fourth ≤ 255) ∧
        address = quadText first second third fourth ∧ octets = [first, second, third, fourth] := by
  constructor
  · intro read
    rw [ipv4Octets] at read
    split at read
    · next first second third fourth parts =>
        simp only [Option.ite_none_right_eq_some, Option.ite_none_left_eq_some, List.all_cons,
          List.all_nil, Bool.and_true, Bool.and_eq_true, List.map_cons, List.map_nil, List.any_cons,
          List.any_nil, Bool.or_false, Bool.not_eq_true, Bool.or_eq_false_iff,
          decide_eq_false_iff_not, not_lt] at read
        obtain ⟨⟨one, two, three, four⟩, ⟨s1, s2, s3, s4⟩, ⟨p1, p2, p3, p4⟩, same⟩ := read
        refine ⟨number first, number second, number third, number fourth, ⟨s1, s2, s3, s4⟩, ?_,
          (Option.some.inj same).symm⟩
        rw [quadText, ← octetText_of_digits one p1 s1, ← octetText_of_digits two p2 s2,
          ← octetText_of_digits three p3 s3, ← octetText_of_digits four p4 s4]
        rw [← @List.intercalate_splitOn _ address _ _ dot, parts]
        simp
    · cases read
  · rintro ⟨first, second, third, fourth, ⟨s1, s2, s3, s4⟩, rfl, rfl⟩
    have one := octetText_spec s1
    have two := octetText_spec s2
    have three := octetText_spec s3
    have four := octetText_spec s4
    rw [ipv4Octets, splitOn_quadText s1 s2 s3 s4]
    simp only [List.all_cons, List.map_cons, List.map_nil, List.any_cons, one, two, three, four]
    simp [s1, s2, s3, s4]

theorem group_of_octets {high low : Nat} (small : low ≤ 255) : high <<< 8 ||| low = 256 * high + low := by
  rw [← Nat.shiftLeft_add_eq_or_of_lt (by omega), Nat.shiftLeft_eq]
  omega

theorem octetsToGroups_of_quad {segment : Text} {groups : List Nat} :
    (ipv4Octets segment).map octetsToGroups = some groups ↔ DottedQuad segment groups := by
  constructor
  · intro read
    obtain ⟨octets, found, rfl⟩ := Option.map_eq_some_iff.mp read
    obtain ⟨first, second, third, fourth, small, text, rfl⟩ := ipv4Octets_eq_some.mp found
    refine ⟨first, second, third, fourth, small, text, ?_⟩
    simp [octetsToGroups, group_of_octets small.2.1, group_of_octets small.2.2.2]
  · rintro ⟨first, second, third, fourth, small, text, rfl⟩
    rw [ipv4Octets_eq_some.mpr ⟨first, second, third, fourth, small, text, rfl⟩]
    simp [octetsToGroups, group_of_octets small.2.1, group_of_octets small.2.2.2]

theorem DottedQuad.units {segment : Text} {groups : List Nat} (quad : DottedQuad segment groups) :
    ∀ unit ∈ segment, unit = dot ∨ isDigit unit = true := by
  obtain ⟨first, second, third, fourth, ⟨s1, s2, s3, s4⟩, rfl, -⟩ := quad
  have digits {octet : Nat} (small : octet ≤ 255) : ∀ unit ∈ octetText octet, isDigit unit = true := by
    have spec := (octetText_spec small).1
    rw [isDigits, Bool.and_eq_true, List.all_eq_true] at spec
    exact spec.2
  intro unit within
  simp only [quadText, List.mem_append, List.mem_cons] at within
  rcases within with one | rfl | two | rfl | three | rfl | four
  · exact Or.inr (digits s1 unit one)
  · exact Or.inl rfl
  · exact Or.inr (digits s2 unit two)
  · exact Or.inl rfl
  · exact Or.inr (digits s3 unit three)
  · exact Or.inl rfl
  · exact Or.inr (digits s4 unit four)

theorem dot_mem_of_quad {segment : Text} {groups : List Nat} (quad : DottedQuad segment groups) :
    dot ∈ segment := by
  obtain ⟨first, second, third, fourth, -, rfl, -⟩ := quad
  simp [quadText]

end

section

variable {segment : Text} {group : Nat} {groups : List Nat} {embedded : Bool}

theorem isHexDigit_iff {unit : UInt16} : isHexDigit (toLowerUnit unit) = true ↔ (hexValue unit).isSome := by
  simp only [isHexDigit, hexValue, Bool.or_eq_true, Bool.and_eq_true, decide_eq_true_eq,
    UInt16.le_iff_toNat_le, UInt16.reduceToNat, toNat_toLowerUnit]
  grind

theorem foldl_ofDigits (digits : List Nat) (start : Nat) :
    digits.foldl (fun value digit => 16 * value + digit) start =
      Nat.ofDigits 16 digits.reverse + 16 ^ digits.length * start := by
  induction digits generalizing start with
  | nil => simp
  | cons digit digits ih =>
    rw [List.foldl_cons, ih, List.reverse_cons, Nat.ofDigits_append, Nat.ofDigits_singleton,
      List.length_reverse, List.length_cons]
    ring

theorem parseInt16_of_digits {digits : List Nat} (written : segment.map hexValue = digits.map some) :
    parseInt16 segment = Nat.ofDigits 16 digits.reverse := by
  have values : digits = segment.map fun unit => (hexValue unit).getD 0 := by
    have read := congrArg (List.map fun value : Option Nat => value.getD 0) written
    simpa [Function.comp_def] using read.symm
  rw [← Nat.add_zero (Nat.ofDigits _ _), ← Nat.mul_zero (16 ^ digits.length), ← foldl_ofDigits, values,
    List.foldl_map]
  rfl

theorem hexGroup_iff : Hextet segment group ↔
    isHexGroup (toLowerCase segment) = true ∧ parseInt16 (toLowerCase segment) = group := by
  have values : (toLowerCase segment).map hexValue = segment.map hexValue := by
    simp [toLowerCase, Function.comp_def, hexValue_toLowerUnit]
  have length : (toLowerCase segment).length = segment.length := List.length_map ..
  constructor
  · rintro ⟨least, most, digits, written, rfl⟩
    refine ⟨?_, parseInt16_of_digits (values.trans written)⟩
    have digit : ∀ unit ∈ segment, isHexDigit (toLowerUnit unit) = true := by
      intro unit within
      have value : hexValue unit ∈ digits.map some := written ▸ List.mem_map_of_mem within
      obtain ⟨digit, -, same⟩ := List.mem_map.mp value
      rw [isHexDigit_iff, ← same]
      rfl
    simpa [isHexGroup, toLowerCase, least, most] using digit
  · rintro ⟨valid, rfl⟩
    rw [isHexGroup, length, Bool.and_eq_true, Bool.and_eq_true, List.all_eq_true] at valid
    obtain ⟨⟨least, most⟩, digit⟩ := valid
    have written : segment.map hexValue =
        (segment.map fun unit => (hexValue unit).getD 0).map some := by
      rw [List.map_map]
      apply List.map_congr_left
      intro unit within
      obtain ⟨value, found⟩ :=
        Option.isSome_iff_exists.mp (isHexDigit_iff.mp (digit _ (List.mem_map_of_mem within)))
      simp [found]
    exact ⟨of_decide_eq_true least, of_decide_eq_true most, _, written,
      parseInt16_of_digits (values.trans written)⟩

theorem Hextet.not_mem (hextet : Hextet segment group) {mark : UInt16} (none : hexValue mark = none) :
    mark ∉ segment := by
  obtain ⟨-, -, digits, written, -⟩ := hextet
  intro within
  have value : hexValue mark ∈ digits.map some := written ▸ List.mem_map_of_mem within
  obtain ⟨digit, -, same⟩ := List.mem_map.mp value
  simp [none] at same

theorem Hextet.ne_nil (hextet : Hextet segment group) : segment ≠ [] :=
  List.length_pos_iff.mp hextet.1

theorem dottedQuad_toLowerCase : DottedQuad (toLowerCase segment) groups ↔ DottedQuad segment groups := by
  have below {quad : Text} (form : DottedQuad quad groups) : ∀ unit ∈ quad, unit.toNat < 0x41 := by
    intro unit within
    rcases form.units unit within with rfl | digit
    · decide
    · have := isDigit_iff.mp digit
      omega
  constructor
  · intro form
    rwa [(toLowerCase_eq_iff (below form)).mp rfl]
  · intro form
    rwa [(toLowerCase_eq_iff (below form)).mpr rfl]

theorem hextet_toLowerCase : Hextet (toLowerCase segment) group ↔ Hextet segment group := by
  have values : (toLowerCase segment).map hexValue = segment.map hexValue := by
    simp [toLowerCase, Function.comp_def, hexValue_toLowerUnit]
  rw [Hextet, Hextet, values, toLowerCase, List.length_map]

theorem toLowerCase_eq_append_colon {text front rest : Text}
    (same : toLowerCase text = front ++ colon :: rest) :
    ∃ front' rest', text = front' ++ colon :: rest' ∧ toLowerCase front' = front ∧
      toLowerCase rest' = rest := by
  obtain ⟨front', back, rfl, rfl, cut⟩ := List.map_eq_append_iff.mp same
  obtain ⟨unit, rest', rfl, mark, rfl⟩ := List.map_eq_cons_iff.mp cut
  obtain rfl := (toLowerUnit_eq_iff (by decide)).mp mark
  exact ⟨front', rest', rfl, rfl, rfl⟩

theorem FullGroups.of_lower {lowered text : Text} (form : FullGroups embedded lowered groups)
    (same : toLowerCase text = lowered) : FullGroups embedded text groups := by
  induction form generalizing text with
  | hextet hextet =>
    subst same
    exact .hextet (hextet_toLowerCase.mp hextet)
  | quad allowed quad =>
    subst same
    exact .quad allowed (dottedQuad_toLowerCase.mp quad)
  | cons hextet _ ih =>
    obtain ⟨front, rest, rfl, rfl, back⟩ := toLowerCase_eq_append_colon same
    exact .cons (hextet_toLowerCase.mp hextet) (ih back)

variable {text : Text}

theorem FullGroups.lower (form : FullGroups embedded text groups) :
    FullGroups embedded (toLowerCase text) groups := by
  induction form with
  | hextet hextet => exact .hextet (hextet_toLowerCase.mpr hextet)
  | quad allowed quad => exact .quad allowed (dottedQuad_toLowerCase.mpr quad)
  | cons hextet _ ih =>
    rw [toLowerCase_append, toLowerCase_colon]
    exact .cons (hextet_toLowerCase.mpr hextet) ih

theorem colon_not_mem_of_quad (quad : DottedQuad segment groups) : colon ∉ segment := by
  intro within
  rcases quad.units colon within with same | digit
  · exact absurd same (by decide)
  · exact absurd digit (by decide)

theorem FullGroups.parse (form : FullGroups true text groups) :
    parseSegments ((toLowerCase text).splitOn colon) = some groups := by
  induction form with
  | @hextet segment group hextet =>
    have lowered := hextet_toLowerCase.mpr hextet
    obtain ⟨valid, value⟩ := hexGroup_iff.mp hextet
    rw [List.splitOn_eq_singleton (lowered.not_mem rfl), parseSegments,
      if_neg (lowered.not_mem rfl), if_pos valid, value]
    rfl
  | @quad segment groups _ quad =>
    have lowered := dottedQuad_toLowerCase.mpr quad
    rw [List.splitOn_eq_singleton (colon_not_mem_of_quad lowered), parseSegments,
      if_pos (dot_mem_of_quad lowered), if_neg (fun other => other rfl)]
    exact octetsToGroups_of_quad.mpr lowered
  | @cons segment group rest groups hextet _ ih =>
    have lowered := hextet_toLowerCase.mpr hextet
    obtain ⟨valid, value⟩ := hexGroup_iff.mp hextet
    rw [toLowerCase_append, toLowerCase_colon,
      List.splitOn_append_cons_self_of_not_mem (lowered.not_mem rfl), parseSegments,
      if_neg (lowered.not_mem rfl), if_pos valid, value, ih]
    rfl

theorem FullGroups.dot_not_mem (form : FullGroups false text groups) : dot ∉ text := by
  induction form with
  | hextet hextet => exact hextet.not_mem rfl
  | quad allowed _ => cases allowed
  | cons hextet _ ih =>
    rw [List.mem_append, List.mem_cons, not_or, not_or]
    exact ⟨hextet.not_mem rfl, by decide, ih⟩

theorem FullGroups.unembedded (form : FullGroups embedded text groups)
    (none : dot ∉ text) : FullGroups false text groups := by
  induction form with
  | hextet hextet => exact .hextet hextet
  | quad _ quad => exact absurd (dot_mem_of_quad quad) none
  | cons hextet _ ih =>
    exact .cons hextet (ih fun within =>
      none (List.mem_append_right _ (List.mem_cons_of_mem _ within)))

theorem FullGroups.embeds (form : FullGroups embedded text groups) :
    FullGroups true text groups := by
  induction form with
  | hextet hextet => exact .hextet hextet
  | quad _ quad => exact .quad rfl quad
  | cons hextet _ ih => exact .cons hextet ih

theorem hextet_of_lower (lower : ∀ unit ∈ segment, toLowerUnit unit = unit)
    (valid : isHexGroup segment = true) : Hextet segment (parseInt16 segment) := by
  have same : toLowerCase segment = segment :=
    (List.map_congr_left lower).trans (List.map_id' segment)
  rw [hexGroup_iff, same]
  exact ⟨valid, rfl⟩

theorem groups_of_parse {segments : List Text} (nonempty : segments ≠ [])
    (lower : ∀ segment ∈ segments, ∀ unit ∈ segment, toLowerUnit unit = unit)
    (read : parseSegments segments = some groups) :
    FullGroups true ([colon].intercalate segments) groups := by
  induction segments generalizing groups with
  | nil => exact absurd rfl nonempty
  | cons segment segments ih =>
    rw [parseSegments] at read
    split at read
    · split at read
      · cases read
      · next last =>
          obtain rfl := not_not.mp last
          rw [List.intercalate_singleton]
          exact .quad rfl (octetsToGroups_of_quad.mp read)
    · split at read
      · next valid =>
          have hextet := hextet_of_lower (lower segment List.mem_cons_self) valid
          obtain ⟨others, found, rfl⟩ := Option.map_eq_some_iff.mp read
          cases segments with
          | nil =>
            obtain rfl : [] = others := Option.some.inj found
            rw [List.intercalate_singleton]
            exact .hextet hextet
          | cons next segments =>
            rw [List.intercalate_cons_of_ne_nil (List.cons_ne_nil _ _), List.append_assoc]
            exact .cons hextet (ih (List.cons_ne_nil _ _)
              (fun other within => lower other (List.mem_cons_of_mem _ within)) found)
      · cases read

end

section

variable {host part : Text} {groups : List Nat} {embedded : Bool}

variable {text : Text}

theorem FullGroups.head (form : FullGroups embedded text groups) :
    ∃ unit rest, text = unit :: rest ∧ unit ≠ colon := by
  have digit {segment : Text} {group : Nat} (hextet : Hextet segment group) :
      ∃ unit rest, segment = unit :: rest ∧ unit ≠ colon := by
    obtain ⟨unit, rest, rfl⟩ := List.exists_cons_of_ne_nil hextet.ne_nil
    refine ⟨unit, rest, rfl, ?_⟩
    rintro rfl
    exact hextet.not_mem rfl List.mem_cons_self
  cases form with
  | hextet hextet => exact digit hextet
  | quad _ quad =>
    obtain ⟨unit, rest, rfl⟩ := List.exists_cons_of_ne_nil (List.ne_nil_of_mem (dot_mem_of_quad quad))
    refine ⟨unit, rest, rfl, ?_⟩
    rintro rfl
    exact colon_not_mem_of_quad quad List.mem_cons_self
  | cons hextet _ =>
    obtain ⟨unit, rest, rfl, apart⟩ := digit hextet
    exact ⟨unit, _, rfl, apart⟩

/-- **No `::` starts inside the groups**, whatever stands behind them. -/
theorem FullGroups.firstAfter (form : FullGroups embedded text groups) (after : Text) :
    Substrings.FirstAfter [colon, colon] text after := by
  induction form with
  | hextet hextet => exact .of_not_mem (hextet.not_mem rfl)
  | quad _ quad => exact .of_not_mem (colon_not_mem_of_quad quad)
  | cons hextet form ih =>
    apply Substrings.FirstAfter.append _ (hextet.not_mem rfl)
    refine Substrings.firstAfter_cons.mpr ⟨?_, ih⟩
    obtain ⟨unit, rest, rfl, apart⟩ := form.head
    intro double
    exact apart (List.cons_prefix_cons.mp (List.cons_prefix_cons.mp double).2).1.symm

theorem Half.firstAfter (half : Half embedded text groups) (after : Text) :
    Substrings.FirstAfter [colon, colon] text after := by
  rcases half with ⟨rfl, -⟩ | form
  · exact Substrings.FirstAfter.nil
  · exact form.firstAfter after

theorem Half.lower (half : Half embedded text groups) :
    Half embedded (toLowerCase text) groups :=
  half.imp (fun empty => ⟨congrArg toLowerCase empty.1, empty.2⟩) FullGroups.lower

theorem parseGroups_iff : parseGroups (toLowerCase part) = some groups ↔ Half true part groups := by
  have lower : ∀ segment ∈ (toLowerCase part).splitOn colon, ∀ unit ∈ segment,
      toLowerUnit unit = unit := by
    intro segment within unit found
    have inside := @Substrings.subset_intercalate _ [colon] _ _ within _ found
    rw [List.intercalate_splitOn] at inside
    obtain ⟨written, -, rfl⟩ := List.mem_map.mp inside
    exact toLowerUnit_idem written
  constructor
  · intro read
    rw [parseGroups] at read
    split at read
    · next empty => exact .inl ⟨List.map_eq_nil_iff.mp empty, (Option.some.inj read).symm⟩
    · have form := groups_of_parse (List.splitOn_ne_nil _ _) lower read
      rw [List.intercalate_splitOn] at form
      exact .inr (form.of_lower rfl)
  · rintro (⟨rfl, rfl⟩ | form)
    · rfl
    · obtain ⟨unit, rest, rfl, -⟩ := form.head
      rw [parseGroups, if_neg (by exact List.cons_ne_nil _ _)]
      exact form.parse

theorem FullGroups.percent_not_mem (form : FullGroups embedded text groups) : percent ∉ text := by
  induction form with
  | hextet hextet => exact hextet.not_mem rfl
  | quad _ quad =>
    intro within
    rcases quad.units percent within with same | digit
    · exact absurd same (by decide)
    · exact absurd digit (by decide)
  | cons hextet _ ih =>
    rw [List.mem_append, List.mem_cons, not_or, not_or]
    exact ⟨hextet.not_mem rfl, by decide, ih⟩

theorem Half.percent_not_mem (half : Half embedded text groups) : percent ∉ text := by
  rcases half with ⟨rfl, -⟩ | form
  · exact List.not_mem_nil
  · exact form.percent_not_mem

theorem Literal.percent_not_mem (form : Literal host groups) : percent ∉ host := by
  cases form with
  | full form _ => exact form.percent_not_mem
  | compressed front back _ =>
    simp only [List.mem_append, not_or]
    exact ⟨⟨front.percent_not_mem, by decide⟩, back.percent_not_mem⟩

theorem FullGroups.colon_mem (form : FullGroups embedded text groups)
    (many : 2 < groups.length) : colon ∈ text := by
  cases form with
  | hextet _ => simp at many
  | quad _ quad =>
    obtain ⟨_, _, _, _, -, -, rfl⟩ := quad
    simp at many
  | cons _ _ => simp

theorem half_of_parse (read : parseGroups (toLowerCase part) = some groups)
    (none : dot ∉ toLowerCase part) : Half false part groups := by
  rw [mem_toLowerCase (by decide)] at none
  exact (parseGroups_iff.mp read).imp id fun form => form.unembedded none

theorem split_at_double {text front back : Text} (cut : toLowerCase text = front ++ [colon, colon] ++ back) :
    ∃ front' back', text = front' ++ [colon, colon] ++ back' ∧ toLowerCase front' = front ∧
      toLowerCase back' = back := by
  rw [List.append_assoc] at cut
  obtain ⟨front', rest, rfl, rfl, second⟩ := toLowerCase_eq_append_colon cut
  obtain ⟨unit, back', rfl, mark, rfl⟩ := List.map_eq_cons_iff.mp second
  obtain rfl := (toLowerUnit_eq_iff (by decide)).mp mark
  exact ⟨front', back', by simp, rfl, rfl⟩

theorem literal_of_parse (clean : (toLowerCase host).takeWhile (· ≠ percent) = toLowerCase host)
    (read : parseIpv6Literal host = some groups) : Literal host groups := by
  simp only [parseIpv6Literal, clean, Option.ite_none_left_eq_some] at read
  obtain ⟨-, read⟩ := read
  have parts := Substrings.intercalate_split (List.cons_ne_nil colon [colon]) (toLowerCase host)
  split at read
  · obtain ⟨found, whole, read⟩ := Option.bind_eq_some_iff.mp read
    obtain ⟨eight, same⟩ := Option.ite_none_left_eq_some.mp read
    obtain rfl := Option.some.inj same
    rcases parseGroups_iff.mp whole with ⟨-, rfl⟩ | form
    · simp at eight
    · exact .full form (not_not.mp eight)
  · next first second two =>
      rw [two, List.intercalate_cons_of_ne_nil (List.cons_ne_nil _ _), List.intercalate_singleton] at parts
      obtain ⟨front, back, rfl, rfl, rfl⟩ := split_at_double parts.symm
      obtain ⟨none, read⟩ := Option.ite_none_left_eq_some.mp read
      obtain ⟨head, front, read⟩ := Option.bind_eq_some_iff.mp read
      obtain ⟨tail, back, read⟩ := Option.bind_eq_some_iff.mp read
      obtain ⟨short, same⟩ := Option.ite_none_left_eq_some.mp read
      obtain rfl := Option.some.inj same
      exact .compressed (half_of_parse front none) (parseGroups_iff.mp back) (not_lt.mp short)
  · cases read

theorem parse_of_literal (clean : (toLowerCase host).takeWhile (· ≠ percent) = toLowerCase host)
    (form : Literal host groups) : parseIpv6Literal host = some groups := by
  simp only [parseIpv6Literal, clean]
  cases form with
  | full form eight =>
    have apart := (form.lower.firstAfter []).not_occurs (List.cons_ne_nil _ _)
    have marked := form.lower.colon_mem (by omega)
    rw [if_neg (not_not.mpr marked), Substrings.split_eq_singleton apart,
      parseGroups_iff.mpr (.inr form)]
    simp [eight]
  | @compressed front back head tail first second short =>
    have none : dot ∉ toLowerCase front := by
      rcases first.lower with ⟨empty, -⟩ | form
      · simp [empty]
      · exact form.dot_not_mem
    have parts : Substrings.split [colon, colon] (toLowerCase (front ++ [colon, colon] ++ back)) =
        [toLowerCase front, toLowerCase back] := by
      rw [toLowerCase_append, toLowerCase_append, List.append_assoc]
      refine (Substrings.split_append (List.cons_ne_nil _ _) (first.lower.firstAfter _)).trans ?_
      rw [Substrings.split_eq_singleton
        ((second.lower.firstAfter []).not_occurs (List.cons_ne_nil _ _))]
    rw [if_neg (not_not.mpr (by simp)), parts]
    have embeds := first.imp id FullGroups.embeds
    simp only [none, if_false, parseGroups_iff.mpr embeds, parseGroups_iff.mpr second,
      Option.bind_some, not_lt.mpr short, gt_iff_lt]

theorem takeWhile_toLowerCase (host : Text) :
    (toLowerCase host).takeWhile (· ≠ percent) = toLowerCase (host.takeWhile (· ≠ percent)) := by
  induction host with
  | nil => rfl
  | cons unit rest ih =>
    have same : toLowerUnit unit = percent ↔ unit = percent := toLowerUnit_eq_iff (by decide)
    rw [toLowerCase, List.map_cons, List.takeWhile_cons, List.takeWhile_cons]
    by_cases mark : unit = percent
    · rw [if_neg (by simp [same.mpr mark]), if_neg (by simp [mark])]
      rfl
    · simp only [ne_eq, same, mark, not_false_eq_true, decide_true, if_true]
      rw [← toLowerCase, ih, toLowerCase, toLowerCase, List.map_cons]

theorem kept (clean : percent ∉ text) : ∀ unit ∈ text, decide (unit ≠ percent) = true := by
  intro unit within
  apply decide_eq_true
  rintro rfl
  exact clean within

theorem takeWhile_of_clean (clean : percent ∉ text) : text.takeWhile (· ≠ percent) = text :=
  List.takeWhile_eq_self_iff.mpr (kept clean)

theorem parse_takeWhile (host : Text) :
    parseIpv6Literal (host.takeWhile (· ≠ percent)) = parseIpv6Literal host := by
  rw [parseIpv6Literal, parseIpv6Literal, takeWhile_toLowerCase, takeWhile_toLowerCase, List.takeWhile_idem]

theorem form_iff : Form host groups ↔ Literal (host.takeWhile (· ≠ percent)) groups := by
  constructor
  · rintro (form | ⟨zone, form⟩)
    · rwa [takeWhile_of_clean form.percent_not_mem]
    · rw [List.takeWhile_append_of_pos (kept form.percent_not_mem), List.takeWhile_cons_of_neg (by simp),
        List.append_nil]
      exact form
  · intro form
    have whole := @List.takeWhile_append_dropWhile _ (fun unit : UInt16 => decide (unit ≠ percent)) host
    cases rest : host.dropWhile (· ≠ percent) with
    | nil =>
      rw [rest, List.append_nil] at whole
      rw [whole] at form
      exact .plain form
    | cons unit zone =>
      have mark := List.head?_dropWhile_not (fun unit : UInt16 => decide (unit ≠ percent)) host
      rw [rest] at mark
      obtain rfl : unit = percent := by simpa using mark
      rw [rest] at whole
      rw [← whole]
      exact .zoned zone form

theorem parseIpv6Literal_iff (host : Text) (groups : List Nat) :
    parseIpv6Literal host = some groups ↔ Form host groups := by
  have clean : (toLowerCase (host.takeWhile (· ≠ percent))).takeWhile (· ≠ percent) =
      toLowerCase (host.takeWhile (· ≠ percent)) := by
    rw [takeWhile_toLowerCase, List.takeWhile_idem]
  rw [form_iff, ← parse_takeWhile]
  exact ⟨literal_of_parse clean, parse_of_literal clean⟩

end

section

variable {host text : Text} {groups : List Nat} {embedded : Bool}

theorem hexValue_lt {unit : UInt16} {digit : Nat} (value : hexValue unit = some digit) : digit < 16 := by
  simp only [hexValue, UInt16.le_iff_toNat_le, UInt16.reduceToNat] at value
  grind

theorem Hextet.lt {segment : Text} {group : Nat} (hextet : Hextet segment group) : group < 65536 := by
  obtain ⟨-, most, digits, written, rfl⟩ := hextet
  have length : digits.length = segment.length := by
    simpa using (congrArg List.length written).symm
  have small : ∀ digit ∈ digits.reverse, digit < 16 := by
    intro digit within
    have value : some digit ∈ segment.map hexValue :=
      written ▸ List.mem_map_of_mem (List.mem_reverse.mp within)
    obtain ⟨unit, -, read⟩ := List.mem_map.mp value
    exact hexValue_lt read
  calc Nat.ofDigits 16 digits.reverse
      < 16 ^ digits.reverse.length := Nat.ofDigits_lt_base_pow_length (by decide) small
    _ ≤ 16 ^ 4 := Nat.pow_le_pow_right (by decide) (by rw [List.length_reverse, length]; exact most)
    _ = 65536 := rfl

theorem FullGroups.lt (form : FullGroups embedded text groups) : ∀ group ∈ groups, group < 65536 := by
  induction form with
  | hextet hextet => simpa using hextet.lt
  | quad _ quad =>
    obtain ⟨first, second, third, fourth, ⟨s1, s2, s3, s4⟩, -, rfl⟩ := quad
    simp only [List.forall_mem_cons, List.not_mem_nil, false_implies, implies_true, and_true]
    omega
  | cons hextet _ ih => exact List.forall_mem_cons.mpr ⟨hextet.lt, ih⟩

theorem Half.lt (half : Half embedded text groups) : ∀ group ∈ groups, group < 65536 := by
  rcases half with ⟨-, rfl⟩ | form
  · exact List.forall_mem_nil _
  · exact form.lt

theorem Literal.bounds (form : Literal text groups) :
    groups.length = 8 ∧ ∀ group ∈ groups, group < 65536 := by
  cases form with
  | full form eight => exact ⟨eight, form.lt⟩
  | compressed front back short =>
    constructor
    · simp only [List.length_append, List.length_replicate]
      omega
    · intro group within
      rcases List.mem_append.mp within with within | within
      · rcases List.mem_append.mp within with within | within
        · exact front.lt group within
        · simp [List.eq_of_mem_replicate within]
      · exact back.lt group within

theorem parseIpv6Literal_bounds (read : parseIpv6Literal host = some groups) :
    groups.length = 8 ∧ ∀ group ∈ groups, group < 65536 :=
  (form_iff.mp ((parseIpv6Literal_iff host groups).mp read)).bounds

/-- **The textual forms are read as their addresses, and no other text is**: a text is read as eight groups
just if it is a form of that address, and the forms of an address are those that are read alike. -/
theorem literals_read_as_addresses (host : Text) (groups : List Nat) :
    (parseIpv6Literal host = some groups ↔ Form host groups) ∧
      (Form host groups → groups.length = 8 ∧ (∀ group ∈ groups, group < 65536) ∧
        ∀ other, Form other groups ↔ parseIpv6Literal other = parseIpv6Literal host) := by
  refine ⟨parseIpv6Literal_iff host groups, fun form => ?_⟩
  have read := (parseIpv6Literal_iff host groups).mpr form
  obtain ⟨eight, small⟩ := parseIpv6Literal_bounds read
  refine ⟨eight, small, fun other => ?_⟩
  rw [read, parseIpv6Literal_iff]

/-- Two spellings of an address. -/
example : parseIpv6Literal (units "::FFFF:127.0.0.1%lo") = some [0, 0, 0, 0, 0, 0xFFFF, 0x7F00, 1] ∧
    parseIpv6Literal (units "0:0:0:0:0:ffff:7f00:1") = some [0, 0, 0, 0, 0, 0xFFFF, 0x7F00, 1] := by
  decide +kernel

end

end PiCrew.IpLiteral
