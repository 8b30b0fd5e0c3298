/-
**JSON values and their texts.**

The values of JavaScript that `JSON.stringify` writes, and `JSON.parse`. A string is a list of UTF-16
code units, of which one may be a surrogate without its partner. A number is one of a type of finite
numbers with their texts, or one that has no text and is written as `null`.

* `eq_of_plain` — they are equal if the same stands wherever `null` is written.

Members of an object stand in the order of its text. A key that is given twice, and keys that are array
indices, which JavaScript would put first, are kept as they are read.
-/

import Mathlib.Data.List.Basic

namespace JsonText

abbrev Text := List UInt16

def units (text : String) : Text := text.toList.map fun char => char.toNat.toUInt16

def quoteMark : UInt16 := 0x22

def backslash : UInt16 := 0x5C

def isLead (unit : UInt16) : Bool := 0xD800 ≤ unit && unit < 0xDC00

def isTrail (unit : UInt16) : Bool := 0xDC00 ≤ unit && unit < 0xE000

def hexDigit (digit : Nat) : UInt16 :=
  if digit < 10 then (0x30 + digit).toUInt16 else (0x57 + digit).toUInt16

/-- The digit that a unit stands for, in either case. -/
def hexValue (unit : UInt16) : Option Nat :=
  if 0x30 ≤ unit ∧ unit ≤ 0x39 then some (unit.toNat - 0x30)
  else if 0x61 ≤ unit ∧ unit ≤ 0x66 then some (unit.toNat - 0x57)
  else if 0x41 ≤ unit ∧ unit ≤ 0x46 then some (unit.toNat - 0x37)
  else none

def unicodeEscape (unit : UInt16) : Text :=
  [backslash, 0x75, hexDigit (unit.toNat / 4096), hexDigit (unit.toNat / 256 % 16),
    hexDigit (unit.toNat / 16 % 16), hexDigit (unit.toNat % 16)]

def escapeUnit (unit : UInt16) : Text :=
  if unit = quoteMark then [backslash, quoteMark]
  else if unit = backslash then [backslash, backslash]
  else if unit = 0x08 then [backslash, 0x62]
  else if unit = 0x09 then [backslash, 0x74]
  else if unit = 0x0A then [backslash, 0x6E]
  else if unit = 0x0C then [backslash, 0x66]
  else if unit = 0x0D then [backslash, 0x72]
  else if unit < 0x20 then unicodeEscape unit
  else [unit]

def escapeAlone (unit : UInt16) : Text :=
  if isLead unit || isTrail unit then unicodeEscape unit else escapeUnit unit

def escape : Text → Text
  | [] => []
  | [unit] => escapeAlone unit
  | unit :: next :: rest =>
    if isLead unit && isTrail next then unit :: next :: escape rest
    else escapeAlone unit ++ escape (next :: rest)

def quote (text : Text) : Text := quoteMark :: (escape text ++ [quoteMark])

def letterEscape (unit : UInt16) : Option UInt16 :=
  if unit = quoteMark ∨ unit = backslash ∨ unit = 0x2F then some unit
  else if unit = 0x62 then some 0x08
  else if unit = 0x74 then some 0x09
  else if unit = 0x6E then some 0x0A
  else if unit = 0x66 then some 0x0C
  else if unit = 0x72 then some 0x0D
  else none

def unicodeUnit (first second third fourth : UInt16) : Option UInt16 :=
  (hexValue first).bind fun a => (hexValue second).bind fun b => (hexValue third).bind fun c =>
    (hexValue fourth).map fun d => (4096 * a + 256 * b + 16 * c + d).toUInt16

/-- **Read a string** behind its quotation mark. -/
def readUnits : Text → Option (Text × Text)
  | [] => none
  | unit :: rest =>
    if unit = quoteMark then some ([], rest)
    else if unit = backslash then
      match rest with
      | 0x75 :: first :: second :: third :: fourth :: rest =>
        (unicodeUnit first second third fourth).bind fun unit =>
          (readUnits rest).map fun read => (unit :: read.1, read.2)
      | letter :: rest =>
        (letterEscape letter).bind fun unit =>
          (readUnits rest).map fun read => (unit :: read.1, read.2)
      | [] => none
    else if unit < 0x20 then none
    else (readUnits rest).map fun read => (unit :: read.1, read.2)

section

/-- A number of JavaScript; `ν` are the finite ones, zero with one sign only. -/
inductive JsNumber (ν : Type) where
  | finite (number : ν)
  | infinite (negative : Bool)
  | nan
  deriving DecidableEq, Repr

def isNumberUnit (unit : UInt16) : Bool :=
  (0x30 ≤ unit && unit ≤ 0x39) || unit = 0x2B || unit = 0x2D || unit = 0x2E || unit = 0x45
    || unit = 0x65

def startsNumber (unit : UInt16) : Bool := (0x30 ≤ unit && unit ≤ 0x39) || unit = 0x2D

/-- **Finite numbers with their texts**: the text that a number is written as, and the number that a
text is read as. -/
class NumberFormat (ν : Type) where
  text : ν → Text
  read : Text → Option (JsNumber ν)
  starts : ∀ number, ∃ unit rest, text number = unit :: rest ∧ startsNumber unit = true
  numeric : ∀ number, ∀ unit ∈ text number, isNumberUnit unit = true
  read_text : ∀ number, read (text number) = some (.finite number)

/-- **A value.** Members that are `undefined` are not written, and not part of an object here. -/
inductive Value (ν : Type) where
  | null
  | bool (value : Bool)
  | number (number : JsNumber ν)
  | string (text : Text)
  | array (items : List (Value ν))
  | object (members : List (Text × Value ν))

variable {ν : Type} [NumberFormat ν]

mutual

def stringify : Value ν → Text
  | .null => units "null"
  | .bool true => units "true"
  | .bool false => units "false"
  | .number (.finite number) => NumberFormat.text number
  | .number (.infinite _) => units "null"
  | .number .nan => units "null"
  | .string text => quote text
  | .array [] => [0x5B, 0x5D]
  | .array (value :: rest) => 0x5B :: (stringify value ++ stringifyItems rest)
  | .object [] => [0x7B, 0x7D]
  | .object ((key, value) :: rest) =>
    0x7B :: (quote key ++ 0x3A :: (stringify value ++ stringifyMembers rest))

def stringifyItems : List (Value ν) → Text
  | [] => [0x5D]
  | value :: rest => 0x2C :: (stringify value ++ stringifyItems rest)

def stringifyMembers : List (Text × Value ν) → Text
  | [] => [0x7D]
  | (key, value) :: rest =>
    0x2C :: (quote key ++ 0x3A :: (stringify value ++ stringifyMembers rest))

end

def skipBlank : Text → Text
  | [] => []
  | unit :: rest =>
    if unit = 0x20 ∨ unit = 0x09 ∨ unit = 0x0A ∨ unit = 0x0D then skipBlank rest
    else unit :: rest

/-- What is left behind a word. -/
def expect : Text → Text → Option Text
  | [], rest => some rest
  | _ :: _, [] => none
  | unit :: word, first :: rest => if unit = first then expect word rest else none

def readNumber (input : Text) : Option (Value ν × Text) :=
  (NumberFormat.read (input.takeWhile isNumberUnit)).map fun number =>
    (.number number, input.dropWhile isNumberUnit)

def readMember (readValue : Text → Option (Value ν × Text)) (input : Text) :
    Option ((Text × Value ν) × Text) :=
  match skipBlank input with
  | [] => none
  | unit :: rest =>
    if unit = quoteMark then
      (readUnits rest).bind fun key =>
        (expect [0x3A] (skipBlank key.2)).bind fun rest =>
          (readValue rest).map fun read => ((key.1, read.1), read.2)
    else none

mutual

/-- **Read a value**, with a bound on how deep. -/
def readValue : Nat → Text → Option (Value ν × Text)
  | 0, _ => none
  | depth + 1, input =>
    match skipBlank input with
    | [] => none
    | unit :: rest =>
      if unit = quoteMark then
        (readUnits rest).map fun read => (.string read.1, read.2)
      else if unit = 0x5B then
        match expect [0x5D] (skipBlank rest) with
        | some rest => some (.array [], rest)
        | none =>
          (readValue depth rest).bind fun first =>
            (readItems depth first.2).map fun more => (.array (first.1 :: more.1), more.2)
      else if unit = 0x7B then
        match expect [0x7D] (skipBlank rest) with
        | some rest => some (.object [], rest)
        | none =>
          (readMember (readValue depth) rest).bind fun first =>
            (readMembers depth first.2).map fun more => (.object (first.1 :: more.1), more.2)
      else if unit = 0x6E then
        (expect (units "ull") rest).map fun rest => (.null, rest)
      else if unit = 0x74 then
        (expect (units "rue") rest).map fun rest => (.bool true, rest)
      else if unit = 0x66 then
        (expect (units "alse") rest).map fun rest => (.bool false, rest)
      else if startsNumber unit then readNumber (unit :: rest)
      else none

def readItems : Nat → Text → Option (List (Value ν) × Text)
  | 0, _ => none
  | depth + 1, input =>
    match skipBlank input with
    | [] => none
    | unit :: rest =>
      if unit = 0x5D then some ([], rest)
      else if unit = 0x2C then
        (readValue depth rest).bind fun first =>
          (readItems depth first.2).map fun more => (first.1 :: more.1, more.2)
      else none

def readMembers : Nat → Text → Option (List (Text × Value ν) × Text)
  | 0, _ => none
  | depth + 1, input =>
    match skipBlank input with
    | [] => none
    | unit :: rest =>
      if unit = 0x7D then some ([], rest)
      else if unit = 0x2C then
        (readMember (readValue depth) rest).bind fun first =>
          (readMembers depth first.2).map fun more => (first.1 :: more.1, more.2)
      else none

end

/-- **Read a text.** No value is deeper than its text is long. -/
def parse (input : Text) : Option (Value ν) := (readValue (input.length + 1) input).bind fun read =>
    if (skipBlank read.2).isEmpty then some read.1 else none

mutual

def plain : Value ν → Value ν
  | .null => .null
  | .bool value => .bool value
  | .number (.finite number) => .number (.finite number)
  | .number (.infinite _) => .null
  | .number .nan => .null
  | .string text => .string text
  | .array items => .array (plainItems items)
  | .object members => .object (plainMembers members)

def plainItems : List (Value ν) → List (Value ν)
  | [] => []
  | value :: rest => plain value :: plainItems rest

def plainMembers : List (Text × Value ν) → List (Text × Value ν)
  | [] => []
  | (key, value) :: rest => (key, plain value) :: plainMembers rest

end

mutual

/-- What stands where the text has `null`, in order. -/
def nulls : Value ν → List (Option (JsNumber ν))
  | .null => [none]
  | .bool _ => []
  | .number (.finite _) => []
  | .number (.infinite negative) => [some (.infinite negative)]
  | .number .nan => [some .nan]
  | .string _ => []
  | .array items => nullsItems items
  | .object members => nullsMembers members

def nullsItems : List (Value ν) → List (Option (JsNumber ν))
  | [] => []
  | value :: rest => nulls value ++ nullsItems rest

def nullsMembers : List (Text × Value ν) → List (Option (JsNumber ν))
  | [] => []
  | (_, value) :: rest => nulls value ++ nullsMembers rest

end

end

theorem hexValue_hexDigit : ∀ digit < 16, hexValue (hexDigit digit) = some digit := by decide

theorem readUnits_unicodeEscape (unit : UInt16) (rest : Text) :
    readUnits (unicodeEscape unit ++ rest)
      = (readUnits rest).map fun read => (unit :: read.1, read.2) := by
  have bound : unit.toNat < 65536 := unit.toNat_lt
  have digits : unicodeUnit (hexDigit (unit.toNat / 4096)) (hexDigit (unit.toNat / 256 % 16))
      (hexDigit (unit.toNat / 16 % 16)) (hexDigit (unit.toNat % 16)) = some unit := by
    unfold unicodeUnit
    rw [hexValue_hexDigit _ (by omega), hexValue_hexDigit _ (by omega),
      hexValue_hexDigit _ (by omega), hexValue_hexDigit _ (by omega)]
    have sum : 4096 * (unit.toNat / 4096) + 256 * (unit.toNat / 256 % 16)
        + 16 * (unit.toNat / 16 % 16) + unit.toNat % 16 = unit.toNat := by omega
    show some (Nat.toUInt16 _) = some unit
    rw [sum]
    exact congrArg some UInt16.ofNat_toNat
  show readUnits (backslash :: 0x75 :: _ :: _ :: _ :: _ :: ([] ++ rest)) = _
  rw [readUnits, if_neg (by decide), if_pos rfl]
  show (unicodeUnit _ _ _ _).bind _ = _
  rw [digits]
  rfl

theorem readUnits_raw {unit : UInt16} (open' : unit ≠ quoteMark) (plain : unit ≠ backslash)
    (printed : ¬ unit < 0x20) (rest : Text) :
    readUnits (unit :: rest) = (readUnits rest).map fun read => (unit :: read.1, read.2) := by
  rw [readUnits.eq_def]
  show (if unit = quoteMark then _ else _) = _
  rw [if_neg open', if_neg plain, if_neg printed]

theorem readUnits_escapeUnit (unit : UInt16) (rest : Text) : readUnits (escapeUnit unit ++ rest)
      = (readUnits rest).map fun read => (unit :: read.1, read.2) := by
  unfold escapeUnit
  split_ifs with mark slash back tab line form feed control
  · subst mark
    rfl
  · subst slash
    rfl
  · subst back
    rfl
  · subst tab
    rfl
  · subst line
    rfl
  · subst form
    rfl
  · subst feed
    rfl
  · exact readUnits_unicodeEscape unit rest
  · exact readUnits_raw mark slash control rest

theorem readUnits_escapeAlone (unit : UInt16) (rest : Text) : readUnits (escapeAlone unit ++ rest)
      = (readUnits rest).map fun read => (unit :: read.1, read.2) := by
  unfold escapeAlone
  split_ifs
  · exact readUnits_unicodeEscape unit rest
  · exact readUnits_escapeUnit unit rest

theorem readUnits_surrogate {unit : UInt16} (high : 0xD800 ≤ unit) (rest : Text) :
    readUnits (unit :: rest) = (readUnits rest).map fun read => (unit :: read.1, read.2) := by
  have bound : 0xD800 ≤ unit.toNat := UInt16.le_iff_toNat_le.mp high
  refine readUnits_raw ?_ ?_ ?_ rest
  · rintro rfl
    exact absurd bound (by decide)
  · rintro rfl
    exact absurd bound (by decide)
  · intro low
    have small : unit.toNat < 0x20 := UInt16.lt_iff_toNat_lt.mp low
    omega

theorem readUnits_end (rest : Text) : readUnits (quoteMark :: rest) = some ([], rest) := by
  rw [readUnits.eq_def]
  exact if_pos rfl

theorem readUnits_escape (text rest : Text) :
    readUnits (escape text ++ quoteMark :: rest) = some (text, rest) := by
  induction text using escape.induct with
  | case1 =>
    rw [escape]
    exact readUnits_end rest
  | case2 unit =>
    rw [escape, readUnits_escapeAlone, readUnits_end]
    rfl
  | case3 unit next others pair ih =>
    obtain ⟨lead, trail⟩ := Bool.and_eq_true_iff.mp pair
    have first : 0xD800 ≤ unit := of_decide_eq_true (Bool.and_eq_true_iff.mp lead).1
    have second : 0xDC00 ≤ next := of_decide_eq_true (Bool.and_eq_true_iff.mp trail).1
    rw [escape, if_pos pair, List.cons_append, List.cons_append, readUnits_surrogate first,
      readUnits_surrogate (UInt16.le_trans (by decide) second), ih]
    rfl
  | case4 unit next others alone ih =>
    rw [escape, if_neg alone, List.append_assoc, readUnits_escapeAlone, ih]
    rfl

section

variable {ν : Type} [NumberFormat ν]

def Ended (rest : Text) : Prop := ∀ unit more, rest = unit :: more → isNumberUnit unit = false

theorem Ended.cons {unit : UInt16} (apart : isNumberUnit unit = false) (rest : Text) :
    Ended (unit :: rest) := by
  rintro first more same
  rw [← (List.cons.inj same).1]
  exact apart

theorem ended_stringifyItems (items : List (Value ν)) (rest : Text) :
    Ended (stringifyItems items ++ rest) := by
  cases items with
  | nil => exact Ended.cons (by decide) rest
  | cons value more => exact Ended.cons (by decide) _

theorem ended_stringifyMembers (members : List (Text × Value ν)) (rest : Text) :
    Ended (stringifyMembers members ++ rest) := by
  cases members with
  | nil => exact Ended.cons (by decide) rest
  | cons member more => exact Ended.cons (by decide) _

theorem apart_of_startsNumber {unit other : UInt16} (starts : startsNumber unit = true)
    (not : startsNumber other = false) : unit ≠ other := by
  rintro rfl
  rw [starts] at not
  cases not

theorem readNumber_text (number : ν) {rest : Text} (ended : Ended rest) :
    readNumber (NumberFormat.text number ++ rest) = some (.number (.finite number), rest) := by
  have numeric := NumberFormat.numeric number
  have stop : rest.takeWhile isNumberUnit = [] ∧ rest.dropWhile isNumberUnit = rest := by
    cases rest with
    | nil => exact ⟨rfl, rfl⟩
    | cons unit more =>
      have here := ended unit more rfl
      rw [List.takeWhile_cons, List.dropWhile_cons, here]
      exact ⟨rfl, rfl⟩
  unfold readNumber
  rw [List.takeWhile_append_of_pos numeric, List.dropWhile_append_of_pos numeric, stop.1, stop.2,
    List.append_nil, NumberFormat.read_text]
  rfl

theorem stringify_head (value : Value ν) : ∃ unit more, stringify value = unit :: more ∧
    ¬ (unit = 0x20 ∨ unit = 0x09 ∨ unit = 0x0A ∨ unit = 0x0D) ∧ unit ≠ 0x5D := by
  cases value with
  | null => exact ⟨0x6E, units "ull", rfl, by decide, by decide⟩
  | bool value =>
    cases value with
    | true => exact ⟨0x74, units "rue", rfl, by decide, by decide⟩
    | false => exact ⟨0x66, units "alse", rfl, by decide, by decide⟩
  | number number =>
    cases number with
    | finite number =>
      obtain ⟨unit, more, text, starts⟩ := NumberFormat.starts number
      refine ⟨unit, more, text, ?_, apart_of_startsNumber starts (by decide)⟩
      rintro (rfl | rfl | rfl | rfl) <;> exact absurd starts (by decide)
    | infinite negative | nan => exact ⟨0x6E, units "ull", rfl, by decide, by decide⟩
  | string text => exact ⟨quoteMark, _, rfl, by decide, by decide⟩
  | array items =>
    cases items with
    | nil | cons first rest => exact ⟨0x5B, _, rfl, by decide, by decide⟩
  | object members =>
    cases members with
    | nil | cons first rest => exact ⟨0x7B, _, rfl, by decide, by decide⟩

theorem expect_stringify (value : Value ν) (rest : Text) :
    expect [0x5D] (skipBlank (stringify value ++ rest)) = none := by
  obtain ⟨unit, more, text, printed, apart⟩ := stringify_head value
  rw [text, List.cons_append, skipBlank, if_neg printed]
  exact if_neg apart.symm

theorem readValue_number (number : ν) {depth : Nat} {rest : Text} (ended : Ended rest) :
    readValue (depth + 1) (NumberFormat.text number ++ rest)
      = some (.number (.finite number), rest) := by
  have read := readNumber_text number ended
  obtain ⟨unit, more, text, starts⟩ := NumberFormat.starts number
  have printed : ¬ (unit = 0x20 ∨ unit = 0x09 ∨ unit = 0x0A ∨ unit = 0x0D) := by
    rintro (rfl | rfl | rfl | rfl) <;> exact absurd starts (by decide)
  rw [text] at read ⊢
  rw [List.cons_append] at read ⊢
  rw [readValue, skipBlank, if_neg printed]
  show (if unit = quoteMark then _ else _) = _
  have apart : ∀ {other : UInt16}, startsNumber other = false → unit ≠ other := apart_of_startsNumber starts
  rw [if_neg (apart (by decide)), if_neg (apart (by decide)), if_neg (apart (by decide)),
    if_neg (apart (by decide)), if_neg (apart (by decide)), if_neg (apart (by decide)), if_pos starts]
  exact read

omit [NumberFormat ν] in
theorem readMember_quote {readValue : Text → Option (Value ν × Text)} (key : Text)
    {text rest : Text} {value : Value ν} (read : readValue text = some (value, rest)) :
    readMember readValue (quote key ++ 0x3A :: text) = some ((key, value), rest) := by
  have body : quote key ++ 0x3A :: text
      = quoteMark :: (escape key ++ quoteMark :: 0x3A :: text) := by
    rw [quote, List.cons_append, List.append_assoc]
    rfl
  rw [body, readMember, skipBlank, if_neg (by decide)]
  show (if quoteMark = quoteMark then _ else _) = _
  rw [if_pos rfl, readUnits_escape]
  show (readValue text).map _ = _
  rw [read]
  rfl

mutual

/-- **A value is read back from its text.** -/
theorem readValue_stringify : ∀ (value : Value ν) (depth : Nat) (rest : Text),
    (stringify value).length < depth → Ended rest →
      readValue depth (stringify value ++ rest) = some (plain value, rest)
  | .null, depth + 1, rest, _, _ => rfl
  | .bool true, depth + 1, rest, _, _ => rfl
  | .bool false, depth + 1, rest, _, _ => rfl
  | .number (.finite number), depth + 1, rest, _, ended => readValue_number number ended
  | .number (.infinite _), depth + 1, rest, _, _ => rfl
  | .number .nan, depth + 1, rest, _, _ => rfl
  | .string text, depth + 1, rest, _, _ => by
    rw [stringify, quote, List.cons_append, List.append_assoc]
    show (readUnits (escape text ++ quoteMark :: rest)).map _ = _
    rw [readUnits_escape]
    rfl
  | .array [], depth + 1, rest, _, _ => rfl
  | .array (value :: more), depth + 1, rest, deep, _ => by
    rw [stringify] at deep ⊢
    rw [List.length_cons, List.length_append] at deep
    have first := readValue_stringify value depth (stringifyItems more ++ rest) (by omega)
      (ended_stringifyItems more rest)
    have others := readItems_stringifyItems more depth rest (by omega)
    rw [List.cons_append, List.append_assoc]
    show (match expect [0x5D] (skipBlank (stringify value ++ (stringifyItems more ++ rest))) with
      | some rest => some ((.array [] : Value ν), rest)
      | none => (readValue depth (stringify value ++ (stringifyItems more ++ rest))).bind
          fun first => (readItems depth first.2).map fun more : List (Value ν) × Text =>
            (.array (first.1 :: more.1), more.2)) = _
    rw [expect_stringify, first]
    show (readItems depth _).map _ = _
    rw [others]
    rfl
  | .object [], depth + 1, rest, _, _ => rfl
  | .object ((key, value) :: more), depth + 1, rest, deep, _ => by
    rw [stringify] at deep ⊢
    rw [List.length_cons, List.length_append, List.length_cons, List.length_append] at deep
    have first := readValue_stringify value depth (stringifyMembers more ++ rest) (by omega)
      (ended_stringifyMembers more rest)
    have others := readMembers_stringifyMembers more depth rest (by omega)
    have member := readMember_quote key first
    rw [List.cons_append, List.append_assoc, List.cons_append, List.append_assoc]
    show (readMember (readValue depth) _).bind _ = _
    rw [member]
    show (readMembers depth _).map _ = _
    rw [others]
    rfl

theorem readItems_stringifyItems : ∀ (items : List (Value ν)) (depth : Nat) (rest : Text),
    (stringifyItems items).length ≤ depth →
      readItems depth (stringifyItems items ++ rest) = some (plainItems items, rest)
  | [], depth + 1, rest, _ => rfl
  | value :: more, depth + 1, rest, deep => by
    rw [stringifyItems] at deep ⊢
    rw [List.length_cons, List.length_append] at deep
    have positive : 0 < (stringifyItems more).length := by
      cases more with
      | nil => exact Nat.one_pos
      | cons value more => exact Nat.succ_pos _
    have first := readValue_stringify value depth (stringifyItems more ++ rest) (by omega)
      (ended_stringifyItems more rest)
    have others := readItems_stringifyItems more depth rest (by omega)
    rw [List.cons_append, List.append_assoc]
    show (readValue depth _).bind _ = _
    rw [first]
    show (readItems depth _).map _ = _
    rw [others]
    rfl

theorem readMembers_stringifyMembers : ∀ (members : List (Text × Value ν)) (depth : Nat)
    (rest : Text), (stringifyMembers members).length ≤ depth →
      readMembers depth (stringifyMembers members ++ rest) = some (plainMembers members, rest)
  | [], depth + 1, rest, _ => rfl
  | (key, value) :: more, depth + 1, rest, deep => by
    rw [stringifyMembers] at deep ⊢
    rw [List.length_cons, List.length_append, List.length_cons, List.length_append] at deep
    have first := readValue_stringify value depth (stringifyMembers more ++ rest) (by omega)
      (ended_stringifyMembers more rest)
    have others := readMembers_stringifyMembers more depth rest (by omega)
    have member := readMember_quote key first
    rw [List.cons_append, List.append_assoc, List.cons_append, List.append_assoc]
    show (readMember (readValue depth) _).bind _ = _
    rw [member]
    show (readMembers depth _).map _ = _
    rw [others]
    rfl

end

/-- **A value is read back from its text**, up to the numbers that are written as `null`. -/
theorem parse_stringify (value : Value ν) : parse (stringify value) = some (plain value) := by
  have read := readValue_stringify value ((stringify value).length + 1) [] (Nat.lt_succ_self _)
    nofun
  rw [List.append_nil] at read
  rw [parse, read]
  rfl

/-- **Values with one text are equal up to the numbers that are written as `null`.** -/
theorem plain_of_stringify {value other : Value ν} (same : stringify value = stringify other) :
    plain value = plain other := by
  have read := parse_stringify value
  rw [same, parse_stringify] at read
  exact (Option.some.inj read).symm

mutual

theorem stringify_plain : ∀ value : Value ν, stringify (plain value) = stringify value
  | .null => rfl
  | .bool _ => rfl
  | .number (.finite _) => rfl
  | .number (.infinite _) => rfl
  | .number .nan => rfl
  | .string _ => rfl
  | .array [] => rfl
  | .array (value :: rest) => by
    show 0x5B :: (stringify (plain value) ++ stringifyItems (plainItems rest)) = _
    rw [stringify_plain value, stringifyItems_plain rest]
    rfl
  | .object [] => rfl
  | .object ((key, value) :: rest) => by
    show 0x7B :: (quote key ++ 0x3A :: (stringify (plain value)
      ++ stringifyMembers (plainMembers rest))) = _
    rw [stringify_plain value, stringifyMembers_plain rest]
    rfl

theorem stringifyItems_plain : ∀ items : List (Value ν),
    stringifyItems (plainItems items) = stringifyItems items
  | [] => rfl
  | value :: rest => by
    show 0x2C :: (stringify (plain value) ++ stringifyItems (plainItems rest)) = _
    rw [stringify_plain value, stringifyItems_plain rest]
    rfl

theorem stringifyMembers_plain : ∀ members : List (Text × Value ν),
    stringifyMembers (plainMembers members) = stringifyMembers members
  | [] => rfl
  | (key, value) :: rest => by
    show 0x2C :: (quote key ++ 0x3A :: (stringify (plain value)
      ++ stringifyMembers (plainMembers rest))) = _
    rw [stringify_plain value, stringifyMembers_plain rest]
    rfl

end

end

def Printed (text : Text) : Prop := ∀ unit ∈ text, 0x20 ≤ unit

instance (text : Text) : Decidable (Printed text) := List.decidableBAll _ text

section

def isPrintable (unit : UInt16) : Bool := 0x20 ≤ unit && unit < 0x80

/-- **What holds of the pieces of a printed value**, and of texts that are put together. -/
structure Pieced (holds : Text → Prop) : Prop where
  append : ∀ {first rest : Text}, holds first → holds rest → holds (first ++ rest)
  printable : ∀ {text : Text}, text.all isPrintable = true → holds text
  alone : ∀ {unit : UInt16}, 0x20 ≤ unit → (isLead unit || isTrail unit) = false → holds [unit]
  pair : ∀ {unit next : UInt16}, isLead unit = true → isTrail next = true → holds [unit, next]

theorem pieced_printed : Pieced Printed where
  append printed others := List.forall_mem_append.mpr ⟨printed, others⟩
  printable all unit member := of_decide_eq_true (Bool.and_eq_true_iff.mp (List.all_eq_true.mp all unit member)).1
  alone printed _ := List.forall_mem_singleton.mpr printed
  pair lead trail := by
    refine List.forall_mem_cons.mpr ⟨?_, List.forall_mem_singleton.mpr ?_⟩
    · exact UInt16.le_trans (by decide : 0x20 ≤ 0xD800) (of_decide_eq_true (Bool.and_eq_true_iff.mp lead).1)
    · exact UInt16.le_trans (by decide : 0x20 ≤ 0xDC00) (of_decide_eq_true (Bool.and_eq_true_iff.mp trail).1)

theorem printable_of_isNumberUnit {unit : UInt16} (numeric : isNumberUnit unit = true) :
    isPrintable unit = true := by
  simp only [isNumberUnit, Bool.or_eq_true_iff, Bool.and_eq_true_iff, decide_eq_true_eq] at numeric
  rcases numeric with ((((⟨low, high⟩ | rfl) | rfl) | rfl) | rfl) | rfl
  · exact Bool.and_eq_true_iff.mpr ⟨decide_eq_true (UInt16.le_trans (by decide) low),
      decide_eq_true (UInt16.lt_of_le_of_lt high (by decide))⟩
  all_goals decide

variable {holds : Text → Prop} (pieced : Pieced holds)

include pieced

theorem Pieced.cons {unit : UInt16} {rest : Text} (printable : isPrintable unit = true) (others : holds rest) :
    holds (unit :: rest) :=
  @Pieced.append holds pieced [unit] rest (pieced.printable (by simpa using printable)) others

theorem pieced_unicodeEscape (unit : UInt16) : holds (unicodeEscape unit) := by
  have bound : unit.toNat < 65536 := unit.toNat_lt
  have digits : ∀ digit < 16, isPrintable (hexDigit digit) = true := by decide
  refine pieced.printable (List.all_eq_true.mpr fun other member => ?_)
  simp only [unicodeEscape, List.mem_cons, List.not_mem_nil, or_false] at member
  rcases member with rfl | rfl | rfl | rfl | rfl | rfl
  · decide
  · decide
  all_goals exact digits _ (by omega)

theorem pieced_escapeAlone (unit : UInt16) : holds (escapeAlone unit) := by
  unfold escapeAlone
  split_ifs with half
  · exact pieced_unicodeEscape pieced unit
  · unfold escapeUnit
    split_ifs with mark slash back tab line form feed control
    any_goals exact pieced.printable rfl
    · exact pieced_unicodeEscape pieced unit
    · exact pieced.alone (UInt16.not_lt.mp control) (Bool.eq_false_iff.mpr half)

theorem pieced_escape (text : Text) : holds (escape text) := by
  induction text using escape.induct with
  | case1 =>
    rw [escape]
    exact pieced.printable rfl
  | case2 unit =>
    rw [escape]
    exact pieced_escapeAlone pieced unit
  | case3 unit next others pair ih =>
    obtain ⟨lead, trail⟩ := Bool.and_eq_true_iff.mp pair
    rw [escape, if_pos pair]
    exact pieced.append (pieced.pair lead trail) ih
  | case4 unit next others alone ih =>
    rw [escape, if_neg alone]
    exact pieced.append (pieced_escapeAlone pieced unit) ih

theorem pieced_quote (text : Text) : holds (quote text) :=
  pieced.cons (by decide) (pieced.append (pieced_escape pieced text) (pieced.printable (by decide)))

variable {ν : Type} [NumberFormat ν]

mutual

theorem pieced_stringify : ∀ value : Value ν, holds (stringify value)
  | .null | .bool true | .bool false | .number (.infinite _) | .number .nan | .array [] | .object [] =>
    pieced.printable rfl
  | .number (.finite number) => pieced.printable (List.all_eq_true.mpr fun unit member =>
      printable_of_isNumberUnit (NumberFormat.numeric number unit member))
  | .string text => pieced_quote pieced text
  | .array (value :: rest) =>
    pieced.cons (by decide) (pieced.append (pieced_stringify value) (pieced_stringifyItems rest))
  | .object ((key, value) :: rest) =>
    pieced.cons (by decide) (pieced.append (pieced_quote pieced key) (pieced.cons (by decide)
      (pieced.append (pieced_stringify value) (pieced_stringifyMembers rest))))

theorem pieced_stringifyItems : ∀ items : List (Value ν), holds (stringifyItems items)
  | [] => pieced.printable rfl
  | value :: rest =>
    pieced.cons (by decide) (pieced.append (pieced_stringify value) (pieced_stringifyItems rest))

theorem pieced_stringifyMembers : ∀ members : List (Text × Value ν), holds (stringifyMembers members)
  | [] => pieced.printable rfl
  | (key, value) :: rest =>
    pieced.cons (by decide) (pieced.append (pieced_quote pieced key) (pieced.cons (by decide)
      (pieced.append (pieced_stringify value) (pieced_stringifyMembers rest))))

end

omit pieced in
theorem printed_stringify (value : Value ν) : Printed (stringify value) := pieced_stringify pieced_printed value

end

section

variable {ν : Type}

theorem plainItems_eq_map (items : List (Value ν)) : plainItems items = items.map plain := by
  induction items with
  | nil => rfl
  | cons value rest ih =>
    rw [plainItems, ih]
    rfl

theorem lookup_plainMembers (members : List (Text × Value ν)) (key : Text) :
    (plainMembers members).lookup key = (members.lookup key).map plain := by
  induction members with
  | nil => rfl
  | cons member rest ih =>
    obtain ⟨name, value⟩ := member
    rw [plainMembers, List.lookup_cons, List.lookup_cons, ih]
    cases key == name with
    | true => rfl
    | false => rfl

mutual

/-- What stands where a text has `null` tells a value from the others with that text. -/
theorem eq_of_plain_append : ∀ (value other : Value ν), plain value = plain other →
    ∀ behind last, nulls value ++ behind = nulls other ++ last → value = other ∧ behind = last
  | .null, other, same, behind, last, lost => by
    cases other with
    | null => exact ⟨rfl, (List.cons.inj lost).2⟩
    | number number =>
      cases number with
      | finite number => cases same
      | infinite negative | nan => cases (List.cons.inj lost).1
    | _ => cases same
  | .bool held, other, same, behind, last, lost => by
    cases other with
    | bool value =>
      cases same
      exact ⟨rfl, lost⟩
    | number number => cases number <;> cases same
    | _ => cases same
  | .number (.finite held), other, same, behind, last, lost => by
    cases other with
    | number number =>
      cases number with
      | finite number =>
        cases same
        exact ⟨rfl, lost⟩
      | _ => cases same
    | _ => cases same
  | .number (.infinite held), other, same, behind, last, lost => by
    cases other with
    | null => cases (List.cons.inj lost).1
    | number number =>
      cases number with
      | finite number => cases same
      | infinite negative =>
        obtain ⟨first, rest⟩ := List.cons.inj lost
        cases first
        exact ⟨rfl, rest⟩
      | nan => cases (List.cons.inj lost).1
    | _ => cases same
  | .number .nan, other, same, behind, last, lost => by
    cases other with
    | null => cases (List.cons.inj lost).1
    | number number =>
      cases number with
      | finite number => cases same
      | infinite negative => cases (List.cons.inj lost).1
      | nan => exact ⟨rfl, (List.cons.inj lost).2⟩
    | _ => cases same
  | .string held, other, same, behind, last, lost => by
    cases other with
    | string text =>
      cases same
      exact ⟨rfl, lost⟩
    | number number => cases number <;> cases same
    | _ => cases same
  | .array held, other, same, behind, last, lost => by
    cases other with
    | array items =>
      obtain ⟨equal, rest⟩ :=
        eq_of_plainItems_append held items (Value.array.inj same) behind last lost
      exact ⟨congrArg Value.array equal, rest⟩
    | number number => cases number <;> cases same
    | _ => cases same
  | .object held, other, same, behind, last, lost => by
    cases other with
    | object members =>
      obtain ⟨equal, rest⟩ :=
        eq_of_plainMembers_append held members (Value.object.inj same) behind last lost
      exact ⟨congrArg Value.object equal, rest⟩
    | number number => cases number <;> cases same
    | _ => cases same

theorem eq_of_plainItems_append : ∀ (items others : List (Value ν)),
    plainItems items = plainItems others → ∀ behind last,
      nullsItems items ++ behind = nullsItems others ++ last → items = others ∧ behind = last
  | [], others, same, behind, last, lost => by
    cases others with
    | nil => exact ⟨rfl, lost⟩
    | cons other more => cases same
  | value :: rest, others, same, behind, last, lost => by
    cases others with
    | nil => cases same
    | cons other more =>
      obtain ⟨first, remaining⟩ := List.cons.inj same
      simp only [nullsItems, List.append_assoc] at lost
      obtain ⟨equal, left⟩ := eq_of_plain_append value other first _ _ lost
      obtain ⟨equals, last⟩ := eq_of_plainItems_append rest more remaining _ _ left
      exact ⟨by rw [equal, equals], last⟩

theorem eq_of_plainMembers_append : ∀ (members others : List (Text × Value ν)),
    plainMembers members = plainMembers others → ∀ behind last,
      nullsMembers members ++ behind = nullsMembers others ++ last →
        members = others ∧ behind = last
  | [], others, same, behind, last, lost => by
    cases others with
    | nil => exact ⟨rfl, lost⟩
    | cons other more => cases same
  | (key, value) :: rest, others, same, behind, last, lost => by
    cases others with
    | nil => cases same
    | cons member more =>
      obtain ⟨name, other⟩ := member
      obtain ⟨first, remaining⟩ := List.cons.inj same
      obtain ⟨names, values⟩ := Prod.mk.inj first
      simp only [nullsMembers, List.append_assoc] at lost
      obtain ⟨equal, left⟩ := eq_of_plain_append value other values _ _ lost
      obtain ⟨equals, last⟩ := eq_of_plainMembers_append rest more remaining _ _ left
      exact ⟨by rw [names, equal, equals], last⟩

end

/-- **Values with one text are equal if the same stands wherever it has `null`.** -/
theorem eq_of_plain {value other : Value ν} (same : plain value = plain other)
    (lost : nulls value = nulls other) : value = other :=
  (eq_of_plain_append value other same [] [] (by rw [lost])).1

end

end JsonText
