/-
**Characters that are decoded in pieces.**

Where a chunk ends inside a character, what is read of the character is U+FFFD: once for what the chunk has at
its end, and once for each octet that the next ones start with. Around it everything is read as it stands.

* `Pieces.escape`, `Pieces.quote` — so a string of JSON in pieces is another string.
-/

import PiCrew.Library.Utf8Chars

namespace Utf8

open JsonText

section

/-- The octets of one character: a first one, and others that go on with it. -/
structure IsCharacter (octets : List UInt8) : Prop where
  whole : WellFormed none octets
  shape : ∃ byte rest, octets = byte :: rest ∧ isContinuation byte = false ∧
    ∀ other ∈ rest, isContinuation other = true

variable {octets : List UInt8}

theorem after_eq_none {state : Option Pending} (whole : WellFormed state octets) :
    after state octets = none := by
  have rest : WellFormed (after state octets) [] := by
    refine WellFormed.behind ?_
    rwa [List.append_nil]
  cases left : after state octets with
  | none => rfl
  | some pending =>
    rw [left] at rest
    exact rest.elim

theorem decode_continuations (all : ∀ byte ∈ octets, isContinuation byte = true) :
    after none octets = none ∧ decode octets = List.replicate octets.length 0xFFFD := by
  induction octets with
  | nil => exact ⟨rfl, rfl⟩
  | cons byte rest ih =>
    obtain ⟨here, others⟩ := List.forall_mem_cons.mp all
    obtain ⟨settled, units⟩ := ih others
    have step : advance none byte = ([0xFFFD], none) := first_continuation here
    refine ⟨by rw [after, step]; exact settled, ?_⟩
    rw [decode, decodeFrom_cons, step]
    show [0xFFFD] ++ decode rest = _
    rw [units, List.length_cons, List.replicate_succ]
    rfl

theorem first_pending {byte : UInt8} {pending : Pending} (more : (first byte).2 = some pending) :
    (first byte).1 = [] := by
  unfold first at more ⊢
  dsimp only at more ⊢
  split_ifs at more ⊢ <;> rfl

theorem eq_nil_of_continuations (all : ∀ byte ∈ octets, isContinuation byte = true)
    (whole : WellFormed none octets) : octets = [] := by
  cases octets with
  | nil => rfl
  | cons byte rest =>
    have here := all byte List.mem_cons_self
    rw [whole.1] at here
    cases here

theorem decodeFrom_cut {pending : Pending} {front : List UInt8} {back : List UInt8} (some : back ≠ [])
    (all : ∀ byte ∈ front ++ back, isContinuation byte = true)
    (whole : WellFormed (Option.some pending) (front ++ back)) :
    decodeFrom (Option.some pending) front = [0xFFFD] := by
  induction front generalizing pending with
  | nil => rfl
  | cons byte front ih =>
    obtain ⟨takes, rest⟩ := whole
    have others : ∀ other ∈ front ++ back, isContinuation other = true :=
      fun other member => all other (List.mem_cons_of_mem _ member)
    rw [next_taken takes] at rest
    rw [decodeFrom, next_taken takes]
    split at rest
    · -- the character would end here, and another octet goes on with it
      exact absurd (List.append_eq_nil_iff.mp (eq_nil_of_continuations others rest)).2 some
    · next more =>
        rw [if_neg more]
        exact ih others rest

theorem IsCharacter.decode_cut {octets front back : List UInt8} (char : IsCharacter octets)
    (split : octets = front ++ back) (some : front ≠ []) (some' : back ≠ []) : decode front = [0xFFFD] := by
  obtain ⟨byte, rest, same, -, others⟩ := char.shape
  cases front with
  | nil => exact absurd rfl some
  | cons unit front =>
    obtain ⟨rfl, behind⟩ := List.cons.inj (same.symm.trans split)
    have whole := (same ▸ char.whole).2
    rw [behind] at whole others
    rw [decode, decodeFrom]
    cases state : (first byte).2 with
    | none =>
      -- the first octet would be a character
      rw [state] at whole
      exact absurd (List.append_eq_nil_iff.mp (eq_nil_of_continuations others whole)).2 some'
    | some pending =>
      rw [state] at whole
      rw [first_pending state, decodeFrom_cut some' others whole, List.nil_append]

theorem IsCharacter.after_suffix {octets piece : List UInt8} (char : IsCharacter octets)
    (suffix : piece <:+ octets) : after none piece = none := by
  obtain ⟨byte, rest, rfl, -, others⟩ := char.shape
  rcases List.suffix_cons_iff.mp suffix with rfl | later
  · exact after_eq_none char.whole
  · exact (decode_continuations fun other member => others other (later.subset member)).1

theorem flatMap_decode_of_flatten_nil {pieces : List (List UInt8)} (none : pieces.flatten = []) :
    pieces.flatMap decode = [] := by
  rw [List.flatMap_eq_nil_iff]
  intro piece member
  rw [List.flatten_eq_nil_iff.mp none piece member]
  rfl

theorem IsCharacter.decode_pieces (char : IsCharacter octets) {pieces : List (List UInt8)}
    (whole : pieces.flatten = octets) :
    pieces.flatMap decode = decode octets ∨
      pieces.flatMap decode ≠ [] ∧ 1 < octets.length ∧ ∀ unit ∈ pieces.flatMap decode, unit = 0xFFFD := by
  induction pieces with
  | nil =>
    obtain ⟨byte, rest, same, -⟩ := char.shape
    cases whole.trans same
  | cons piece pieces ih =>
    rw [List.flatten_cons] at whole
    rw [List.flatMap_cons]
    by_cases empty : piece = []
    · rw [empty, List.nil_append] at whole
      rw [empty]
      exact ih whole
    · by_cases last : pieces.flatten = []
      · rw [last, List.append_nil] at whole
        rw [flatMap_decode_of_flatten_nil last, List.append_nil, whole]
        exact .inl rfl
      · right
        have cut := char.decode_cut whole.symm empty last
        rw [cut]
        refine ⟨List.cons_ne_nil _ _, ?_, ?_⟩
        · rw [← whole, List.length_append]
          have := List.length_pos_iff.mpr empty
          have := List.length_pos_iff.mpr last
          omega
        · -- the pieces behind the first one go on with the character
          obtain ⟨byte, rest, same, -, others⟩ := char.shape
          cases piece with
          | nil => exact absurd rfl empty
          | cons first piece =>
            obtain ⟨-, behind⟩ := List.cons.inj (whole.trans same)
            intro unit member
            rcases List.mem_append.mp member with here | later
            · exact List.mem_singleton.mp here
            · obtain ⟨other, inside, found⟩ := List.mem_flatMap.mp later
              have all : ∀ byte ∈ other, isContinuation byte = true := fun byte here =>
                others byte (behind ▸ List.mem_append_right _ (List.mem_flatten.mpr ⟨other, inside, here⟩))
              rw [(decode_continuations all).2] at found
              exact List.eq_of_mem_replicate found

end

section

theorem exists_split {octets rest : List UInt8} {chunks : List (List UInt8)}
    (settles : ∀ piece, piece <:+ octets → after none piece = none) (whole : chunks.flatten = octets ++ rest) :
    ∃ front behind : List (List UInt8), front.flatten = octets ∧ behind.flatten = rest ∧
      chunks.flatMap decode = front.flatMap decode ++ behind.flatMap decode := by
  induction chunks generalizing octets with
  | nil =>
    obtain ⟨rfl, rfl⟩ := List.append_eq_nil_iff.mp whole.symm
    exact ⟨[], [], rfl, rfl, rfl⟩
  | cons chunk chunks ih =>
    rw [List.flatten_cons] at whole
    rcases List.append_eq_append_iff.mp whole with ⟨more, rfl, same⟩ | ⟨more, rfl, same⟩
    · obtain ⟨front, behind, rfl, rfl, decoded⟩ :=
        ih (fun piece suffix => settles piece (suffix.trans (List.suffix_append _ _))) same
      exact ⟨chunk :: front, behind, rfl, rfl, by
        rw [List.flatMap_cons, List.flatMap_cons, decoded, List.append_assoc]⟩
    · refine ⟨[octets], more :: chunks, by simp, same.symm, ?_⟩
      rw [List.flatMap_cons, List.flatMap_singleton, List.flatMap_cons, decode,
        decodeFrom_append (settles octets List.suffix_rfl), List.append_assoc]
      rfl

/-- **A text that is read in pieces** of its octets. -/
def Pieces (text read : Text) : Prop :=
  ∃ pieces : List (List UInt8), pieces.flatten = encode text ∧ pieces.flatMap decode = read

def Damaged (units head : Text) : Prop := head = units ∨ head ≠ [] ∧ ∀ unit ∈ head, unit = 0xFFFD

variable {text read : Text}

theorem Pieces.nil (pieces : Pieces [] read) : read = [] := by
  obtain ⟨pieces, none, rfl⟩ := pieces
  exact flatMap_decode_of_flatten_nil none

theorem Pieces.character {point : Nat} (small : point < 0x110000) (alone : point < 0xD800 ∨ 0xE000 ≤ point)
    {whole : Text} (octets : encode whole = encodePoint point ++ encode text) (pieces : Pieces whole read) :
    ∃ head rest, read = head ++ rest ∧ Pieces text rest ∧ Damaged (pointUnits point) head ∧
      (point < 0x80 → head = pointUnits point) := by
  have char : IsCharacter (encodePoint point) := by
    refine ⟨?_, encodePoint_octets small⟩
    have only : WellFormed none (encodePoint point ++ []) := wellFormed_encodePoint small alone trivial
    rwa [List.append_nil] at only
  have once : decode (encodePoint point) = pointUnits point := by
    have only := decode_encodePoint small alone []
    rw [List.append_nil] at only
    exact only.trans (List.append_nil _)
  obtain ⟨pieces, flat, rfl⟩ := pieces
  obtain ⟨front, behind, first, rest, decoded⟩ :=
    exists_split (fun piece suffix => char.after_suffix suffix) (flat.trans octets)
  refine ⟨_, _, decoded, ⟨behind, rest, rfl⟩, ?_⟩
  rw [← once]
  rcases char.decode_pieces first with same | ⟨some, long, all⟩
  · exact ⟨.inl same, fun _ => same⟩
  · refine ⟨.inr ⟨some, all⟩, fun ascii => ?_⟩
    rw [encodePoint, if_pos ascii] at long
    exact absurd long (Nat.lt_irrefl 1)

theorem Pieces.apart {unit : UInt16} {rest : Text} (apart : Apart unit rest)
    (pieces : Pieces (unit :: rest) read) : ∃ head more, read = head ++ more ∧ Pieces rest more ∧
      Damaged [wellFormedUnit unit] head ∧ (unit < 0x80 → head = [unit]) := by
  obtain ⟨small, alone⟩ := unitPoint_range unit
  obtain ⟨head, more, same, behind, damaged, ascii⟩ :=
    pieces.character (Nat.lt_trans small (by decide)) alone (encode_apart apart)
  rw [unitPoint, pointUnits_toNat] at damaged ascii
  refine ⟨head, more, same, behind, damaged, fun low => ?_⟩
  have value : unit.toNat < 0x80 := UInt16.lt_iff_toNat_lt.mp low
  have plain : wellFormedUnit unit = unit := by
    have only : Paired [unit] := paired_of_low fun other member => by
      rw [List.mem_singleton.mp member]
      exact UInt16.lt_iff_toNat_lt.mpr (Nat.lt_trans value (by decide))
    cases only with
    | alone none _ => exact if_neg (by rw [none]; decide)
  rw [plain] at ascii
  exact ascii value

theorem Pieces.pair {unit next : UInt16} {rest : Text} (lead : isLead unit = true) (trail : isTrail next = true)
    (pieces : Pieces (unit :: next :: rest) read) : ∃ head more, read = head ++ more ∧ Pieces rest more ∧
      Damaged [unit, next] head := by
  obtain ⟨large, small⟩ := pairPoint_range lead trail
  obtain ⟨head, more, same, behind, damaged, -⟩ :=
    pieces.character small (.inr (Nat.le_trans (by decide) large)) (encode_pair lead trail rest)
  exact ⟨head, more, same, behind, pointUnits_pairPoint lead trail ▸ damaged⟩

theorem apart_of_ascii {unit : UInt16} (low : unit < 0x80) (rest : Text) : Apart unit rest := by
  intro next _
  have value : unit.toNat < 0x80 := UInt16.lt_iff_toNat_lt.mp low
  rw [show isLead unit = false from Bool.and_eq_false_iff.mpr (.inl (decide_eq_false fun high => by
    have large : 0xD800 ≤ unit.toNat := UInt16.le_iff_toNat_le.mp high
    omega))]
  rfl

theorem ascii_of_all {units : Text} (all : units.all (· < 0x80) = true) : ∀ unit ∈ units, unit < 0x80 :=
  fun unit member => of_decide_eq_true (List.all_eq_true.mp all unit member)

theorem Pieces.ascii {front rest : Text} (low : ∀ unit ∈ front, unit < 0x80)
    (pieces : Pieces (front ++ rest) read) : ∃ more, read = front ++ more ∧ Pieces rest more := by
  induction front generalizing read with
  | nil => exact ⟨read, rfl, pieces⟩
  | cons unit front ih =>
    obtain ⟨first, others⟩ := List.forall_mem_cons.mp low
    obtain ⟨head, more, rfl, behind, -, same⟩ := Pieces.apart (apart_of_ascii first _) pieces
    obtain ⟨last, rfl, further⟩ := ih others behind
    exact ⟨last, by rw [same first]; rfl, further⟩

theorem Pieces.cons {unit : UInt16} {rest : Text} (low : unit < 0x80) (pieces : Pieces (unit :: rest) read) :
    ∃ more, read = unit :: more ∧ Pieces rest more :=
  Pieces.ascii (List.forall_mem_singleton.mpr low) pieces

end

section

variable {text read rest : Text}

theorem escape_apart {unit : UInt16} (apart : Apart unit rest) : JsonText.escape (unit :: rest) =
    escapeAlone unit ++ JsonText.escape rest := by
  cases rest with
  | nil => exact (List.append_nil _).symm
  | cons next rest => rw [JsonText.escape, apart next rfl]; rfl

theorem escape_wide {front : Text} (raw : ∀ unit ∈ front, 0x80 ≤ unit ∧ (isLead unit || isTrail unit) = false)
    (rest : Text) : JsonText.escape (front ++ rest) = front ++ JsonText.escape rest := by
  induction front with
  | nil => rfl
  | cons unit front ih =>
    obtain ⟨⟨wide, whole⟩, others⟩ := List.forall_mem_cons.mp raw
    have value : 0x80 ≤ unit.toNat := UInt16.le_iff_toNat_le.mp wide
    have other : ∀ {letter : UInt16}, letter.toNat < 0x80 → unit ≠ letter := by
      rintro letter small rfl
      omega
    have printed : ¬ unit < 0x20 := fun low => by
      have small : unit.toNat < 0x20 := UInt16.lt_iff_toNat_lt.mp low
      omega
    have plain : escapeAlone unit = [unit] := by
      rw [escapeAlone, whole, escapeUnit, if_neg (other (by decide)), if_neg (other (by decide)),
        if_neg (other (by decide)), if_neg (other (by decide)), if_neg (other (by decide)),
        if_neg (other (by decide)), if_neg (other (by decide)), if_neg printed]
      rfl
    rw [List.cons_append, escape_apart fun next _ => by rw [(Bool.or_eq_false_iff.mp whole).1]; rfl, plain, ih others]
    rfl

theorem ascii_unicodeEscape (unit : UInt16) : ∀ letter ∈ unicodeEscape unit, letter < 0x80 := by
  have bound : unit.toNat < 65536 := unit.toNat_lt
  have digits : ∀ digit < 16, hexDigit digit < 0x80 := by decide
  intro letter member
  simp only [unicodeEscape, List.mem_cons, List.not_mem_nil, or_false] at member
  rcases member with rfl | rfl | rfl | rfl | rfl | rfl
  · decide
  · decide
  all_goals exact digits _ (by omega)

theorem ascii_escapeUnit {unit : UInt16} (low : unit < 0x80) : ∀ letter ∈ escapeUnit unit, letter < 0x80 := by
  unfold escapeUnit
  split_ifs
  iterate 7 simp [backslash, quoteMark]
  · exact ascii_unicodeEscape unit
  · simpa using low

theorem ascii_escape (low : ∀ unit ∈ text, unit < 0x80) : ∀ letter ∈ JsonText.escape text, letter < 0x80 := by
  induction text with
  | nil => exact nofun
  | cons unit text ih =>
    obtain ⟨first, others⟩ := List.forall_mem_cons.mp low
    rw [escape_apart (apart_of_ascii first _), escapeAlone]
    refine List.forall_mem_append.mpr ⟨?_, ih others⟩
    split
    · exact ascii_unicodeEscape unit
    · exact ascii_escapeUnit first

theorem replacement_raw {head : Text} (all : ∀ unit ∈ head, unit = 0xFFFD) :
    ∀ unit ∈ head, 0x80 ≤ unit ∧ (isLead unit || isTrail unit) = false := by
  intro unit member
  rw [all unit member]
  decide

/-- **A string of JSON in pieces** is another string. It starts with the second half of a pair only where the
string does. -/
theorem Pieces.escape (pieces : Pieces (JsonText.escape text ++ quoteMark :: rest) read) :
    ∃ other more, read = JsonText.escape other ++ quoteMark :: more ∧ Pieces rest more ∧
      ∀ unit ∈ other.head?, isTrail unit = true → unit ∈ text.head? := by
  induction text using chars_induction generalizing read with
  | nil =>
    obtain ⟨more, rfl, behind⟩ := pieces.cons (by decide)
    exact ⟨[], more, rfl, behind, fun _ member => absurd member (Option.not_mem_none _)⟩
  | apart unit text apart ih =>
    rw [escape_apart apart, List.append_assoc] at pieces
    -- where the unit's own text is ASCII, it stands as it is
    have kept : (∀ letter ∈ escapeAlone unit, letter < 0x80) → ∃ other more,
        read = JsonText.escape other ++ quoteMark :: more ∧ Pieces rest more ∧
          ∀ first ∈ other.head?, isTrail first = true → first ∈ (unit :: text).head? := by
      intro low
      obtain ⟨last, rfl, behind⟩ := pieces.ascii low
      obtain ⟨other, more, rfl, further, first⟩ := ih behind
      refine ⟨unit :: other, more, ?_, further, fun other same _ => same⟩
      rw [escape_apart, List.append_assoc]
      intro next same
      by_contra both
      obtain ⟨lead, trail⟩ := Bool.and_eq_true_iff.mp (Bool.not_eq_false _ ▸ both)
      have none := apart next (first next same trail)
      rw [lead, trail] at none
      cases none
    by_cases half : (isLead unit || isTrail unit) = true
    · rw [escapeAlone, if_pos half] at kept
      exact kept (ascii_unicodeEscape unit)
    have whole := Bool.eq_false_iff.mpr half
    by_cases low : unit < 0x80
    · rw [escapeAlone, if_neg half] at kept
      exact kept (ascii_escapeUnit low)
    · have raw : ∀ other ∈ [unit], 0x80 ≤ other ∧ (isLead other || isTrail other) = false := by
        simpa using ⟨UInt16.not_lt.mp low, Bool.or_eq_false_iff.mp whole⟩
      have plain : escapeAlone unit = [unit] := by
        have alone := escape_wide raw []
        rwa [List.append_nil, JsonText.escape] at alone
      rw [plain, List.singleton_append] at pieces
      obtain ⟨head, last, rfl, behind, damaged, -⟩ := Pieces.apart (fun next _ => by
        rw [(Bool.or_eq_false_iff.mp whole).1]; rfl) pieces
      obtain ⟨other, more, rfl, further, -⟩ := ih behind
      have clear : ∀ first ∈ head, 0x80 ≤ first ∧ (isLead first || isTrail first) = false := by
        rcases damaged with rfl | ⟨-, all⟩
        · rw [wellFormedUnit, if_neg half]
          exact raw
        · exact replacement_raw all
      refine ⟨head ++ other, more, by rw [escape_wide clear, List.append_assoc], further, ?_⟩
      cases head with
      | nil =>
        rcases damaged with none | ⟨some, -⟩
        · cases none
        · exact absurd rfl some
      | cons first head =>
        rintro _ ⟨⟩ trail
        rw [(Bool.or_eq_false_iff.mp (clear first List.mem_cons_self).2).2] at trail
        cases trail
  | pair unit next text lead trail ih =>
    rw [JsonText.escape, lead, trail] at pieces
    obtain ⟨head, last, rfl, behind, damaged⟩ := Pieces.pair lead trail pieces
    obtain ⟨other, more, rfl, further, -⟩ := ih behind
    rcases damaged with rfl | ⟨some, all⟩
    · refine ⟨unit :: next :: other, more, by rw [JsonText.escape, lead, trail]; rfl, further, ?_⟩
      exact fun first same _ => same
    · refine ⟨head ++ other, more, by rw [escape_wide (replacement_raw all), List.append_assoc], further, ?_⟩
      cases head with
      | nil => exact absurd rfl some
      | cons first head =>
        rintro _ ⟨⟩ trail
        rw [all first List.mem_cons_self] at trail
        cases trail

theorem Pieces.quote (pieces : Pieces (JsonText.quote text ++ rest) read) :
    ∃ other more, read = JsonText.quote other ++ more ∧ Pieces rest more := by
  rw [JsonText.quote, List.cons_append, List.append_assoc] at pieces
  obtain ⟨last, rfl, behind⟩ := pieces.cons (by decide)
  obtain ⟨other, more, rfl, further, -⟩ := behind.escape
  exact ⟨other, more, by simp [JsonText.quote], further⟩

end

end Utf8
