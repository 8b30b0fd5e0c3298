/-
**A text behind another text.**

What stands before the text of an array can be told from it, if the array has no arrays and objects in
it: an opening bracket stands at its front or inside a string. Where one text ended in another, the
strings of one of them would stand between those of the other.

* `toWellFormed_low` — a text that has no surrogate after the replacement had none before.
-/

import PiCrew.Library.JsonText
import Mathlib.Data.List.Infix

namespace JsonText

inductive Place where
  | outside
  | inside
  | escaped
  deriving DecidableEq

def openBracket : UInt16 := 0x5B

/-- **Read a unit**, in the text of simple values: a backslash stands inside a string, and so does an
opening bracket, which is not escaped. -/
def advance : Place → UInt16 → Option Place
  | .outside, unit =>
    if unit = quoteMark then some .inside
    else if unit = backslash ∨ unit = openBracket then none
    else some .outside
  | .inside, unit =>
    if unit = quoteMark then some .outside
    else if unit = backslash then some .escaped
    else some .inside
  | .escaped, unit => if unit = openBracket then none else some .inside

theorem advance_outside {unit : UInt16} (mark : unit ≠ quoteMark)
    (go : ¬ (unit = backslash ∨ unit = openBracket)) :
    advance .outside unit = some .outside :=
  (if_neg mark).trans (if_neg go)

theorem advance_inside {unit : UInt16} (mark : unit ≠ quoteMark) (slash : unit ≠ backslash) :
    advance .inside unit = some .inside :=
  (if_neg mark).trans (if_neg slash)

def scan : Place → Text → Option Place
  | place, [] => some place
  | place, unit :: rest => (advance place unit).bind fun place => scan place rest

theorem scan_cons {place next : Place} {unit : UInt16} (read : advance place unit = some next)
    (rest : Text) : scan place (unit :: rest) = scan next rest := by
  rw [scan, read]
  rfl

theorem scan_append (place : Place) (text rest : Text) :
    scan place (text ++ rest) = (scan place text).bind fun place => scan place rest := by
  induction text generalizing place with
  | nil => rfl
  | cons unit text ih =>
    rw [List.cons_append, scan, scan]
    cases advance place unit with
    | none => rfl
    | some place => exact ih place

theorem scan_trans {place next last : Place} {text rest : Text}
    (first : scan place text = some next) (second : scan next rest = some last) :
    scan place (text ++ rest) = some last := by
  rw [scan_append, first]
  exact second

theorem scan_apart {text : Text} {first second : Place}
    (outside : scan .outside text = some first) (inside : scan .inside text = some second) :
    first = .outside ∧ second = .inside ∨ first = .inside ∧ second = .outside := by
  induction text generalizing first second with
  | nil => exact Or.inl ⟨(Option.some.inj outside).symm, (Option.some.inj inside).symm⟩
  | cons unit rest ih =>
    by_cases mark : unit = quoteMark
    · -- The two readers change places.
      have opened : advance .outside unit = some .inside := if_pos mark
      have closed : advance .inside unit = some .outside := if_pos mark
      rw [scan_cons opened] at outside
      rw [scan_cons closed] at inside
      rcases ih inside outside with ⟨second, first⟩ | ⟨second, first⟩
      · exact Or.inr ⟨first, second⟩
      · exact Or.inl ⟨first, second⟩
    · by_cases stop : unit = backslash ∨ unit = openBracket
      · rw [scan, advance, if_neg mark, if_pos stop] at outside
        cases outside
      · have raw : unit ≠ backslash := fun slash => stop (Or.inl slash)
        rw [scan_cons (advance_outside mark stop)] at outside
        rw [scan_cons (advance_inside mark raw)] at inside
        exact ih outside inside

theorem scan_raw {unit : UInt16} (mark : unit ≠ quoteMark) (slash : unit ≠ backslash) :
    scan .inside [unit] = some .inside :=
  scan_cons (advance_inside mark slash) []

theorem scan_unicodeEscape (unit : UInt16) : scan .inside (unicodeEscape unit) = some .inside := by
  have bound : unit.toNat < 65536 := unit.toNat_lt
  have digits : ∀ digit < 16, hexDigit digit ≠ quoteMark ∧ hexDigit digit ≠ backslash := by decide
  have digit : ∀ digit < 16, scan .inside [hexDigit digit] = some .inside :=
    fun digit small => scan_raw (digits digit small).1 (digits digit small).2
  exact scan_trans (by decide : scan .inside [backslash, 0x75] = some .inside)
    (scan_trans (digit _ (by omega)) (scan_trans (digit _ (by omega))
      (scan_trans (digit _ (by omega)) (digit _ (by omega)))))

theorem scan_escapeUnit (unit : UInt16) : scan .inside (escapeUnit unit) = some .inside := by
  unfold escapeUnit
  split_ifs with mark slash
  · decide
  · decide
  · decide
  · decide
  · decide
  · decide
  · decide
  · exact scan_unicodeEscape unit
  · exact scan_raw mark slash

theorem scan_escapeAlone (unit : UInt16) : scan .inside (escapeAlone unit) = some .inside := by
  unfold escapeAlone
  split_ifs
  · exact scan_unicodeEscape unit
  · exact scan_escapeUnit unit

theorem scan_surrogate {unit : UInt16} (high : 0xD800 ≤ unit) :
    scan .inside [unit] = some .inside := by
  refine scan_raw ?_ ?_
  · rintro rfl
    exact absurd high (by decide)
  · rintro rfl
    exact absurd high (by decide)

theorem scan_escape (text : Text) : scan .inside (escape text) = some .inside := by
  induction text using escape.induct with
  | case1 =>
    rw [escape]
    rfl
  | case2 unit =>
    rw [escape]
    exact scan_escapeAlone unit
  | case3 unit next others pair ih =>
    obtain ⟨lead, trail⟩ := Bool.and_eq_true_iff.mp pair
    have first : 0xD800 ≤ unit := of_decide_eq_true (Bool.and_eq_true_iff.mp lead).1
    have second : 0xDC00 ≤ next := of_decide_eq_true (Bool.and_eq_true_iff.mp trail).1
    rw [escape, if_pos pair]
    exact scan_trans (scan_surrogate first)
      (scan_trans (scan_surrogate (UInt16.le_trans (by decide) second)) ih)
  | case4 unit next others alone ih =>
    rw [escape, if_neg alone]
    exact scan_trans (scan_escapeAlone unit) ih

theorem scan_quote (text : Text) : scan .outside (quote text) = some .outside := by
  have opened : scan .outside [quoteMark] = some .inside := by decide
  have closed : scan .inside [quoteMark] = some .outside := by decide
  have rest := scan_trans (scan_escape text) closed
  rw [quote, ← List.singleton_append]
  exact scan_trans opened rest

section

variable {ν : Type} [NumberFormat ν]

def Value.Simple : Value ν → Prop
  | .array _ | .object _ => False
  | _ => True

theorem scan_plain {text : Text}
    (apart : ∀ unit ∈ text, unit ≠ quoteMark ∧ unit ≠ backslash ∧ unit ≠ openBracket) :
    scan .outside text = some .outside := by
  induction text with
  | nil => rfl
  | cons unit rest ih =>
    obtain ⟨mark, slash, bracket⟩ := apart unit List.mem_cons_self
    have go : ¬ (unit = backslash ∨ unit = openBracket) := fun either => either.elim slash bracket
    rw [scan_cons (advance_outside mark go)]
    exact ih fun other member => apart other (List.mem_cons_of_mem _ member)

theorem scan_number (number : ν) : scan .outside (NumberFormat.text number) = some .outside := by
  refine scan_plain fun unit member => ?_
  have numeric := NumberFormat.numeric number unit member
  have other : ∀ mark, isNumberUnit mark = false → unit ≠ mark := by
    rintro mark apart rfl
    rw [apart] at numeric
    cases numeric
  exact ⟨other _ (by decide), other _ (by decide), other _ (by decide)⟩

theorem scan_stringify : ∀ {value : Value ν}, value.Simple →
    scan .outside (stringify value) = some .outside
  | .null, _ => (by decide : scan .outside (units "null") = some .outside)
  | .bool true, _ => (by decide : scan .outside (units "true") = some .outside)
  | .bool false, _ => (by decide : scan .outside (units "false") = some .outside)
  | .number (.finite number), _ => scan_number number
  | .number (.infinite _), _ | .number .nan, _ => (by decide : scan .outside (units "null") = some .outside)
  | .string text, _ => scan_quote text

theorem scan_stringifyItems {items : List (Value ν)} (simple : ∀ item ∈ items, item.Simple) :
    scan .outside (stringifyItems items) = some .outside := by
  induction items with
  | nil =>
    rw [stringifyItems]
    decide
  | cons item rest ih =>
    obtain ⟨first, others⟩ := List.forall_mem_cons.mp simple
    have comma : scan .outside [0x2C] = some .outside := by decide
    have text := scan_trans (scan_stringify first) (ih others)
    rw [stringifyItems, ← List.singleton_append]
    exact scan_trans comma text

theorem stringify_array {items : List (Value ν)} (simple : ∀ item ∈ items, item.Simple) :
    ∃ tail, stringify (.array items) = openBracket :: tail ∧
      scan .outside tail = some .outside := by
  cases items with
  | nil =>
    have closed : scan .outside [0x5D] = some .outside := by decide
    exact ⟨[0x5D], rfl, closed⟩
  | cons item rest =>
    obtain ⟨first, others⟩ := List.forall_mem_cons.mp simple
    exact ⟨_, rfl, scan_trans (scan_stringify first) (scan_stringifyItems others)⟩

theorem not_bracket_tail {middle tail : Text} (outside : scan .outside tail = some .outside) :
    scan .outside (middle ++ openBracket :: tail) ≠ some .outside := by
  intro whole
  rw [scan_append] at whole
  cases before : scan .outside middle with
  | none =>
    rw [before] at whole
    cases whole
  | some place =>
    rw [before] at whole
    cases place with
    | outside | escaped => cases whole
    | inside =>
      have inside : scan .inside tail = some .outside := whole
      rcases scan_apart outside inside with ⟨-, other⟩ | ⟨other, -⟩
      · cases other
      · cases other

theorem append_array_inj {first second : Text} {items others : List (Value ν)}
    (simple : ∀ item ∈ items, item.Simple) (simple' : ∀ item ∈ others, item.Simple)
    (same : first ++ stringify (.array items) = second ++ stringify (.array others)) :
    first = second ∧ stringify (.array items) = stringify (.array others) := by
  obtain ⟨tail, text, read⟩ := stringify_array simple
  obtain ⟨tail', text', read'⟩ := stringify_array simple'
  rw [text, text'] at same ⊢
  rcases List.append_eq_append_iff.mp same with ⟨middle, behind, rest⟩ | ⟨middle, behind, rest⟩
  · cases middle with
    | nil =>
      rw [List.append_nil] at behind
      exact ⟨behind.symm, rest⟩
    | cons unit middle =>
      obtain ⟨-, rest⟩ := List.cons.inj rest
      rw [rest] at read
      exact absurd read (not_bracket_tail read')
  · cases middle with
    | nil =>
      rw [List.append_nil] at behind
      exact ⟨behind, rest.symm⟩
    | cons unit middle =>
      obtain ⟨-, rest⟩ := List.cons.inj rest
      rw [rest] at read'
      exact absurd read' (not_bracket_tail read)

end

def wellFormedUnit (unit : UInt16) : UInt16 := if isLead unit || isTrail unit then 0xFFFD else unit

/-- **A text as UTF-8 has it.** -/
def toWellFormed : Text → Text
  | [] => []
  | [unit] => [wellFormedUnit unit]
  | unit :: next :: rest =>
    if isLead unit && isTrail next then unit :: next :: toWellFormed rest
    else wellFormedUnit unit :: toWellFormed (next :: rest)

/-- Every surrogate is in a pair. -/
inductive Paired : Text → Prop where
  | nil : Paired []
  | alone {unit : UInt16} {rest : Text} (none : (isLead unit || isTrail unit) = false)
      (paired : Paired rest) : Paired (unit :: rest)
  | pair {unit next : UInt16} {rest : Text} (lead : isLead unit = true)
      (trail : isTrail next = true) (paired : Paired rest) : Paired (unit :: next :: rest)

theorem Paired.append {text rest : Text} (paired : Paired text) (others : Paired rest) :
    Paired (text ++ rest) := by
  induction paired with
  | nil => exact others
  | alone none _ ih => exact .alone none ih
  | pair lead trail _ ih => exact .pair lead trail ih

theorem paired_of_low {text : Text} (low : ∀ unit ∈ text, unit < 0xD800) : Paired text := by
  induction text with
  | nil => exact .nil
  | cons unit rest ih =>
    obtain ⟨first, others⟩ := List.forall_mem_cons.mp low
    have small : unit.toNat < 0xD800 := UInt16.lt_iff_toNat_lt.mp first
    refine .alone ?_ (ih others)
    refine Bool.or_eq_false_iff.mpr ⟨?_, ?_⟩
    · refine Bool.and_eq_false_iff.mpr (Or.inl (decide_eq_false fun high => ?_))
      have large : 0xD800 ≤ unit.toNat := UInt16.le_iff_toNat_le.mp high
      omega
    · refine Bool.and_eq_false_iff.mpr (Or.inl (decide_eq_false fun high => ?_))
      have large : 0xDC00 ≤ unit.toNat := UInt16.le_iff_toNat_le.mp high
      omega

theorem paired_of_all {text : Text} (low : text.all (· < 0xD800) = true) : Paired text :=
  paired_of_low fun unit member => of_decide_eq_true (List.all_eq_true.mp low unit member)

theorem not_trail_of_lead {unit : UInt16} (lead : isLead unit = true) : isTrail unit = false := by
  have below : unit.toNat < 0xDC00 :=
    UInt16.lt_iff_toNat_lt.mp (of_decide_eq_true (Bool.and_eq_true_iff.mp lead).2)
  refine Bool.and_eq_false_iff.mpr (Or.inl (decide_eq_false fun high => ?_))
  have large : 0xDC00 ≤ unit.toNat := UInt16.le_iff_toNat_le.mp high
  omega

theorem toWellFormed_alone {unit : UInt16} {rest : Text}
    (apart : ∀ next more, rest = next :: more → (isLead unit && isTrail next) = false) :
    toWellFormed (unit :: rest) = wellFormedUnit unit :: toWellFormed rest := by
  cases rest with
  | nil => rfl
  | cons next more =>
    rw [toWellFormed, apart next more rfl]
    rfl

theorem toWellFormed_of_paired {text : Text} (paired : Paired text) : toWellFormed text = text := by
  induction paired with
  | nil => rfl
  | @alone unit rest none _ ih =>
    have lead : isLead unit = false := (Bool.or_eq_false_iff.mp none).1
    have kept : wellFormedUnit unit = unit := by rw [wellFormedUnit, none]; rfl
    rw [toWellFormed_alone fun next more _ => by rw [lead]; rfl, kept, ih]
  | pair lead trail _ ih =>
    rw [toWellFormed, lead, trail, ih]
    rfl

theorem Paired.not_trail {unit : UInt16} {rest : Text} (paired : Paired (unit :: rest)) :
    isTrail unit = false := by
  cases paired with
  | alone none _ => exact (Bool.or_eq_false_iff.mp none).2
  | pair lead _ _ => exact not_trail_of_lead lead

theorem toWellFormed_append (text : Text) {rest : Text} (paired : Paired rest) :
    toWellFormed (text ++ rest) = toWellFormed text ++ rest := by
  induction text using toWellFormed.induct with
  | case1 => exact toWellFormed_of_paired paired
  | case2 unit =>
    have apart : ∀ next more, rest = next :: more → (isLead unit && isTrail next) = false := by
      rintro next more rfl
      rw [paired.not_trail, Bool.and_false]
    show toWellFormed (unit :: rest) = wellFormedUnit unit :: rest
    rw [toWellFormed_alone apart, toWellFormed_of_paired paired]
  | case3 unit next more pair ih =>
    show toWellFormed (unit :: next :: (more ++ rest)) = _
    rw [toWellFormed, toWellFormed, if_pos pair, if_pos pair, ih]
    rfl
  | case4 unit next more alone ih =>
    show toWellFormed (unit :: next :: (more ++ rest)) = _
    rw [toWellFormed, toWellFormed, if_neg alone, if_neg alone]
    exact congrArg (wellFormedUnit unit :: ·) ih

/-- **A text that has no surrogate and no U+FFFD after the replacement** is the text before it. -/
theorem toWellFormed_low {text : Text} (low : ∀ unit ∈ toWellFormed text, unit < 0xD800) :
    toWellFormed text = text := by
  have kept : ∀ unit, wellFormedUnit unit < 0xD800 → wellFormedUnit unit = unit := by
    intro unit small
    unfold wellFormedUnit at small ⊢
    split_ifs with half
    · rw [if_pos half] at small
      exact absurd small (by decide)
    · rfl
  induction text using toWellFormed.induct with
  | case1 => rfl
  | case2 unit => exact congrArg ([·]) (kept unit (low _ List.mem_cons_self))
  | case3 unit next more pair ih =>
    rw [toWellFormed, if_pos pair] at low ⊢
    have below := low unit List.mem_cons_self
    have lead := (Bool.and_eq_true_iff.mp pair).1
    have high : 0xD800 ≤ unit := of_decide_eq_true (Bool.and_eq_true_iff.mp lead).1
    exact absurd below (UInt16.not_lt.mpr high)
  | case4 unit next more alone ih =>
    rw [toWellFormed, if_neg alone] at low ⊢
    obtain ⟨first, others⟩ := List.forall_mem_cons.mp low
    rw [kept unit first, ih others]

theorem pieced_paired : Pieced Paired where
  append := Paired.append
  printable all := paired_of_low fun unit member => UInt16.lt_trans (of_decide_eq_true
    (Bool.and_eq_true_iff.mp (List.all_eq_true.mp all unit member)).2) (by decide)
  alone _ none := .alone none .nil
  pair lead trail := .pair lead trail .nil

theorem paired_stringify {ν : Type} [NumberFormat ν] (value : Value ν) : Paired (stringify value) :=
  pieced_stringify pieced_paired value

end JsonText
