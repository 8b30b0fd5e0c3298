/-
**The fields of a cron expression.**

`runtime/scheduling/scheduler.ts` (`cronFieldCandidates`). A field is rewritten as a text, names as numbers
and the weekday 7 as 0, and then split into parts, each with its range and its step. Against it stands the
grammar of a field, and the values that it denotes.

* `cronFieldCandidates_text` — what is read from a field;
* `cronFieldCandidates_iff` — a field is read as what it denotes just if no step is lost, and no weekday to
  the rewriting of a 7 that ends a range or that has zeros before it.

Numbers are exact here. Where a step is compared with the largest double, the source has `Infinity`; a
range whose end is beyond 2^53, which no field of the grammar has, may keep the loop of the source from
ending. `toUpperCase` is modelled on the letters of ASCII.
-/

import PiCrew.Broker.SpawnPolicy
import PiCrew.Library.Substrings

namespace PiCrew.CronFields

open Broker.SpawnPolicy (isSpace)

def cronDowNames : List (String × Nat) :=
  [("SUN", 0), ("MON", 1), ("TUE", 2), ("WED", 3), ("THU", 4), ("FRI", 5), ("SAT", 6)]

def cronMonthNames : List (String × Nat) :=
  [("JAN", 1), ("FEB", 2), ("MAR", 3), ("APR", 4), ("MAY", 5), ("JUN", 6), ("JUL", 7), ("AUG", 8),
    ("SEP", 9), ("OCT", 10), ("NOV", 11), ("DEC", 12)]

def trim (text : List Char) : List Char :=
  ((text.dropWhile isSpace).reverse.dropWhile isSpace).reverse

/-- `\d` -/
def isDigit (char : Char) : Bool := '0' ≤ char && char ≤ '9'

/-- `\w` -/
def isWord (char : Char) : Bool :=
  isDigit char || ('A' ≤ char && char ≤ 'Z') || ('a' ≤ char && char ≤ 'z') || char = '_'

/-- What `.` does not match. -/
def isLineEnd (char : Char) : Bool :=
  char = '\n' || char = '\r' || char.toNat = 0x2028 || char.toNat = 0x2029

/-- `^\d+$` -/
def allDigits (text : List Char) : Bool := text ≠ [] && text.all isDigit

/-- `Number.parseInt(text, 10)` of decimal digits. -/
def parseInt (text : List Char) : Nat :=
  text.foldl (fun value char => 10 * value + (char.toNat - '0'.toNat)) 0

/-- `Number.isFinite` of a whole number, read as a double. -/
@[irreducible]
def isFinite (value : Nat) : Bool := value < 2 ^ 1024 - 2 ^ 970

/-- `replace(/\b7\b/g, "0")`, behind a character of a word or not. -/
def replaceSeven : Bool → List Char → List Char
  | _, [] => []
  | behindWord, char :: rest =>
    (if char = '7' ∧ !behindWord ∧ !(rest.head?.any isWord) then '0' else char) ::
      replaceSeven (isWord char) rest

/-- `^(.*)\/(\d+)$` -/
def stepMatch (part : List Char) : Option (List Char × List Char) :=
  match part.reverse.dropWhile isDigit with
  | '/' :: front =>
    if part.reverse.takeWhile isDigit = [] ∨ front.any isLineEnd then none
    else some (front.reverse, (part.reverse.takeWhile isDigit).reverse)
  | _ => none

/-- `^(\d+)-(\d+)$` -/
def rangeMatch (text : List Char) : Option (List Char × List Char) :=
  match text.dropWhile isDigit with
  | '-' :: back =>
    if text.takeWhile isDigit ≠ [] ∧ allDigits back then some (text.takeWhile isDigit, back) else none
  | _ => none

/-- The loop over the values of a part. -/
def stepValues (min max step hi : Nat) : Nat → Nat → List Nat
  | 0, _ => []
  | fuel + 1, value =>
    if value ≤ hi then
      (if min ≤ value ∧ value ≤ max then [value] else []) ++ stepValues min max step hi fuel (value + step)
    else []

/-- The ends of a part without its step. -/
def rangeEnds (min max : Nat) (stepped : Bool) (rangeStr : List Char) : Option (Nat × Nat) :=
  if rangeStr = ['*'] then some (min, max)
  else if allDigits rangeStr then
    some (parseInt rangeStr, if stepped then max else parseInt rangeStr)
  else (rangeMatch rangeStr).map fun ends => (parseInt ends.1, parseInt ends.2)

def partValues (min max : Nat) (part : List Char) : Option (List Nat) :=
  if part = [] then none
  else
    let stepped := stepMatch part
    let step := match stepped with
      | some ends => parseInt ends.2
      | none => 1
    if !(isFinite step) || step < 1 then none
    else
      let rangeStr := match stepped with
        | some ends => ends.1
        | none => part
      (rangeEnds min max stepped.isSome rangeStr).map fun ends =>
        stepValues min max step ends.2 (ends.2 + 1 - ends.1) ends.1

/-- The loop over the parts; one that is not read gives up the field. -/
def partsValues (min max : Nat) : List (List Char) → Option (List Nat)
  | [] => some []
  | rawPart :: rest =>
    (partValues min max (trim rawPart)).bind fun values =>
      (partsValues min max rest).map (values ++ ·)

def replaceNames (names : List (String × Nat)) (text : List Char) : List Char :=
  names.foldl (fun text name => Substrings.replaceAll name.1.toList (Nat.toDigits 10 name.2) text) text

/-- **The values of a field**, none if it is not read. -/
def cronFieldCandidates (field : List Char) (min max : Nat) (names : List (String × Nat)) :
    Option (List Nat) :=
  let named := replaceNames names ((trim field).map Char.toUpper)
  let normalized := if min = 0 ∧ max = 6 then replaceSeven false named else named
  partsValues min max (normalized.splitOn ',')

section

inductive CronField where
  | minute | hour | dayOfMonth | month | dayOfWeek
  deriving DecidableEq, Repr

namespace CronField

def min : CronField → Nat
  | .minute | .hour | .dayOfWeek => 0
  | .dayOfMonth | .month => 1

def max : CronField → Nat
  | .minute => 59
  | .hour => 23
  | .dayOfMonth => 31
  | .month => 12
  | .dayOfWeek => 6

def names : CronField → List (String × Nat)
  | .month => cronMonthNames
  | .dayOfWeek => cronDowNames
  | _ => []

def limit : CronField → Nat
  | .dayOfWeek => 7
  | field => field.max

def denoted : CronField → Nat → Nat
  | .dayOfWeek, number => number % 7
  | _, number => number

end CronField

variable {field : CronField}

/-- A text writes a number, in digits or as a name in letters of either case. -/
inductive Writes (field : CronField) : List Char → Nat → Prop where
  | digits {text} : allDigits text = true → Writes field text (parseInt text)
  | name {text name} : name ∈ field.names → text.map Char.toUpper = name.1.toList →
      Writes field text name.2

structure Value (field : CronField) where
  text : List Char
  number : Nat
  written : Writes field text number
  least : field.min ≤ number
  most : number ≤ field.limit

structure Step where
  text : List Char
  digits : allDigits text = true
  positive : 1 ≤ parseInt text

/-- **A part of a field**: a number, or all values or a range with a step or without. -/
inductive Part (field : CronField) where
  | single (value : Value field)
  | all (step : Option Step)
  | range (first last : Value field) (ordered : first.number ≤ last.number) (step : Option Step)

structure Field (field : CronField) where
  parts : List (Part field)
  some_part : parts ≠ []

def Part.step : Part field → Option Step
  | .single _ => none
  | .all step | .range _ _ _ step => step

def width : Option Step → Nat
  | some step => parseInt step.text
  | none => 1

/-- A part without its step, its numbers written in some way. -/
def Part.front (value : Value field → List Char) : Part field → List Char
  | .single written => value written
  | .all _ => ['*']
  | .range first last _ _ => value first ++ '-' :: value last

/-- A part with its numbers and its step written in some way. -/
def Part.render (value : Value field → List Char) (step : Step → List Char) (part : Part field) : List Char :=
  match part.step with
  | some written => part.front value ++ '/' :: step written
  | none => part.front value

def Field.text (written : Field field) : List Char :=
  [','].intercalate (written.parts.map (Part.render Value.text Step.text))

def Part.Denotes : Part field → Nat → Prop
  | .single value, denoted => denoted = field.denoted value.number
  | .all step, denoted => field.min ≤ denoted ∧ denoted ≤ field.max ∧ width step ∣ denoted - field.min
  | .range first last _ step, denoted =>
    ∃ number, first.number ≤ number ∧ number ≤ last.number ∧ width step ∣ number - first.number ∧
      denoted = field.denoted number

def Field.Denotes (written : Field field) (denoted : Nat) : Prop :=
  ∃ part ∈ written.parts, part.Denotes denoted

end

section

variable {text front back : List Char}

theorem isDigit_iff {char : Char} : isDigit char = true ↔ '0'.toNat ≤ char.toNat ∧ char.toNat ≤ '9'.toNat := by
  simp [isDigit, Char.le_def, UInt32.le_iff_toNat_le]

theorem allDigits_iff : allDigits text = true ↔ text ≠ [] ∧ ∀ char ∈ text, isDigit char = true := by
  simp [allDigits]

theorem isDigit_apart {char : Char} (digit : isDigit char = true) :
    isSpace char = false ∧ isLineEnd char = false ∧ char ≠ ',' ∧ char ≠ '-' ∧ char ≠ '/' ∧ char ≠ '*' := by
  rw [isDigit_iff] at digit
  have apart {other : Char} (outside : other.toNat < '0'.toNat ∨ '9'.toNat < other.toNat) : char ≠ other := by
    rintro rfl
    omega
  refine ⟨?_, ?_, apart (by decide), apart (by decide), apart (by decide), apart (by decide)⟩
  · simp only [isSpace]
    have low : '0'.toNat = 48 := rfl
    have high : '9'.toNat = 57 := rfl
    simp
    omega
  · have lineFeed : char ≠ '\n' := apart (by decide)
    have carriageReturn : char ≠ '\r' := apart (by decide)
    have high : '9'.toNat = 57 := rfl
    simp [isLineEnd, lineFeed, carriageReturn]
    omega

theorem toUpper_digit {char : Char} (digit : isDigit char = true) : char.toUpper = char := by
  rw [isDigit_iff] at digit
  have high : '9'.toNat < 'a'.toNat := by decide
  refine dif_neg ?_
  rintro ⟨least, -⟩
  have : 'a'.toNat ≤ char.toNat := least
  omega

theorem trim_of_plain (plain : ∀ char ∈ text, isSpace char = false) : trim text = text := by
  have kept {part : List Char} (plain : ∀ char ∈ part, isSpace char = false) :
      part.dropWhile isSpace = part := by
    cases part with
    | nil => rfl
    | cons char part => rw [List.dropWhile_cons_of_neg (by simp [plain])]
  rw [trim, kept plain, kept (by simpa using plain), List.reverse_reverse]

end

section

/-- **A rewriting that divides a text at the marks of the grammar.** -/
structure Divides (rewrite : List Char → List Char) : Prop where
  mark : ∀ mark ∈ [',', '-', '/'], ∀ front back,
    rewrite (front ++ mark :: back) = rewrite front ++ mark :: rewrite back
  star : rewrite ['*'] = ['*']

theorem Divides.comp {first second : List Char → List Char} (divides : Divides first)
    (later : Divides second) : Divides fun text => second (first text) where
  mark mark member front back := by rw [divides.mark mark member, later.mark mark member]
  star := by rw [divides.star, later.star]

theorem divides_upper : Divides (List.map Char.toUpper) where
  mark mark member front back := by
    have same : mark.toUpper = mark := by
      simp only [List.mem_cons, List.not_mem_nil, or_false] at member
      rcases member with rfl | rfl | rfl <;> rfl
    rw [List.map_append, List.map_cons, same]
  star := rfl

theorem divides_replaceAll {name : List Char} (nonempty : name ≠ [])
    (letters : ∀ mark ∈ [',', '-', '/', '*'], mark ∉ name) (replacement : List Char) :
    Divides (Substrings.replaceAll name replacement) where
  mark mark member front back := by
    refine Substrings.replaceAll_mark nonempty (letters mark ?_) front back
    simp only [List.mem_cons, List.not_mem_nil, or_false] at member ⊢
    tauto
  star := by
    refine Substrings.replaceAll_of_not_occurs fun occurs => ?_
    obtain ⟨char, rest, rfl⟩ := List.exists_cons_of_ne_nil nonempty
    obtain rfl : char = '*' := by simpa using occurs.subset List.mem_cons_self
    exact letters '*' (by simp) List.mem_cons_self

def isLetter (char : Char) : Bool := 'A' ≤ char && char ≤ 'Z'

def Lettered (names : List (String × Nat)) : Prop :=
  names.all (fun name => name.1.toList ≠ [] && name.1.toList.all isLetter) = true

variable {names : List (String × Nat)}

theorem lettered_cons {name : String × Nat} (lettered : Lettered (name :: names)) :
    name.1.toList ≠ [] ∧ (∀ char ∈ name.1.toList, isLetter char = true) ∧ Lettered names := by
  simpa [Lettered, and_assoc] using lettered

theorem divides_names (lettered : Lettered names) :
    Divides (replaceNames names) := by
  induction names with
  | nil => exact ⟨fun _ _ _ _ => rfl, rfl⟩
  | cons name names ih =>
    obtain ⟨nonempty, letters, others⟩ := lettered_cons lettered
    refine (divides_replaceAll nonempty (fun mark member within => ?_) (Nat.toDigits 10 name.2)).comp
      (ih others)
    have letter := letters mark within
    simp only [List.mem_cons, List.not_mem_nil, or_false] at member
    rcases member with rfl | rfl | rfl | rfl <;> exact absurd letter (by decide)

theorem replaceNames_digits (lettered : Lettered names) {text : List Char}
    (digits : ∀ char ∈ text, isDigit char = true) : replaceNames names text = text := by
  induction names with
  | nil => rfl
  | cons name names ih =>
    obtain ⟨nonempty, letters, others⟩ := lettered_cons lettered
    have apart : ¬ name.1.toList <:+: text := by
      intro occurs
      obtain ⟨char, rest, same⟩ := List.exists_cons_of_ne_nil nonempty
      have within : char ∈ name.1.toList := by simp [same]
      have digit := isDigit_iff.mp (digits char (occurs.subset within))
      have letter := letters char within
      simp only [isLetter, Bool.and_eq_true, decide_eq_true_eq] at letter
      have low : 'A'.toNat ≤ char.toNat := letter.1
      have between : '9'.toNat < 'A'.toNat := by decide
      omega
    rw [replaceNames, List.foldl_cons, Substrings.replaceAll_of_not_occurs apart]
    exact ih others

theorem replaceSeven_mark {mark : Char} (member : mark ∈ [',', '-', '/']) (front back : List Char)
    (behindWord : Bool) :
    replaceSeven behindWord (front ++ mark :: back) =
      replaceSeven behindWord front ++ mark :: replaceSeven false back := by
  have plain : isWord mark = false ∧ mark ≠ '7' := by
    simp only [List.mem_cons, List.not_mem_nil, or_false] at member
    rcases member with rfl | rfl | rfl <;> decide
  induction front generalizing behindWord with
  | nil => simp [replaceSeven, plain]
  | cons char front ih =>
    have next : ((front ++ mark :: back).head?.any isWord) = front.head?.any isWord := by
      cases front <;> simp [plain]
    rw [List.cons_append, replaceSeven, replaceSeven, ih, next, List.cons_append]

theorem divides_seven : Divides (replaceSeven false) where
  mark _ member front back := replaceSeven_mark member front back false
  star := by decide

variable {field : CronField}

theorem Divides.render {rewrite : List Char → List Char} (divides : Divides rewrite)
    (value : Value field → List Char) (step : Step → List Char) (part : Part field) :
    rewrite (part.render value step) =
      part.render (fun written => rewrite (value written)) (fun written => rewrite (step written)) := by
  have dash := divides.mark '-' (by simp)
  have slash := divides.mark '/' (by simp)
  have front : rewrite (part.front value) = part.front fun written => rewrite (value written) := by
    cases part with
    | single written => rfl
    | all _ => exact divides.star
    | range first last _ _ => exact dash _ _
  unfold Part.render
  cases part.step with
  | none => exact front
  | some written => rw [slash, front]

theorem Divides.intercalate {rewrite : List Char → List Char} (divides : Divides rewrite)
    {parts : List (List Char)} (nonempty : parts ≠ []) :
    rewrite ([','].intercalate parts) = [','].intercalate (parts.map rewrite) := by
  induction parts with
  | nil => exact absurd rfl nonempty
  | cons part parts ih =>
    cases parts with
    | nil => simp
    | cons next parts =>
      have comma := divides.mark ',' (by simp)
      rw [List.intercalate_cons_of_ne_nil (List.cons_ne_nil _ _), List.append_assoc,
        List.singleton_append, comma, ih (List.cons_ne_nil _ _), List.map_cons, List.map_cons,
        List.map_cons, List.intercalate_cons_of_ne_nil (List.cons_ne_nil _ _), List.append_assoc,
        List.singleton_append]

end

section

variable {field : CronField} {text : List Char}

def Plain (text : List Char) : Prop := ∀ char ∈ text, isDigit char = true ∨ char = '-' ∨ char = '*'

theorem Plain.spec (plain : Plain text) :
    (∀ char ∈ text, isSpace char = false ∧ isLineEnd char = false) ∧ ',' ∉ text ∧ '/' ∉ text := by
  refine ⟨fun char within => ?_, fun within => ?_, fun within => ?_⟩
  · rcases plain char within with digit | rfl | rfl
    · exact ⟨(isDigit_apart digit).1, (isDigit_apart digit).2.1⟩
    · decide
    · decide
  · rcases plain ',' within with digit | same | same
    · exact absurd digit (by decide)
    · exact absurd same (by decide)
    · exact absurd same (by decide)
  · rcases plain '/' within with digit | same | same
    · exact absurd digit (by decide)
    · exact absurd same (by decide)
    · exact absurd same (by decide)

theorem plain_of_digits (digits : allDigits text = true) : Plain text := fun char within =>
  .inl ((allDigits_iff.mp digits).2 char within)

theorem takeWhile_digits {front rest : List Char} {mark : Char} (digits : ∀ char ∈ front, isDigit char = true)
    (apart : isDigit mark = false) :
    (front ++ mark :: rest).takeWhile isDigit = front ∧
      (front ++ mark :: rest).dropWhile isDigit = mark :: rest := by
  induction front with
  | nil => simp [apart]
  | cons char front ih =>
    obtain ⟨first, others⟩ := List.forall_mem_cons.mp digits
    simp [first, ih others]

theorem stepMatch_step {front digits : List Char} (plain : Plain front) (step : allDigits digits = true) :
    stepMatch (front ++ '/' :: digits) = some (front, digits) := by
  obtain ⟨nonempty, valid⟩ := allDigits_iff.mp step
  have reversed : (front ++ '/' :: digits).reverse = digits.reverse ++ '/' :: front.reverse := by simp
  obtain ⟨taken, dropped⟩ := @takeWhile_digits digits.reverse front.reverse '/' (by simpa using valid)
    (by decide)
  have lines : front.reverse.any isLineEnd = false := by
    rw [List.any_eq_false]
    intro char within
    simp [(plain.spec.1 char (List.mem_reverse.mp within)).2]
  rw [stepMatch, reversed, dropped, taken]
  simp [nonempty, lines]

theorem stepMatch_plain (plain : Plain text) : stepMatch text = none := by
  have apart : '/' ∉ text.reverse.dropWhile isDigit := by
    intro within
    exact plain.spec.2.2 (List.mem_reverse.mp ((List.dropWhile_sublist _).subset within))
  rw [stepMatch]
  split
  · next front cut =>
      rw [cut] at apart
      exact absurd List.mem_cons_self apart
  · rfl

theorem rangeMatch_range {first last : List Char} (one : allDigits first = true) (two : allDigits last = true) :
    rangeMatch (first ++ '-' :: last) = some (first, last) := by
  obtain ⟨nonempty, valid⟩ := allDigits_iff.mp one
  obtain ⟨taken, dropped⟩ := @takeWhile_digits first last '-' valid (by decide)
  rw [rangeMatch, dropped, taken]
  simp [nonempty, two]

theorem mem_stepValues {min max step hi fuel value found : Nat} (positive : 1 ≤ step)
    (enough : hi + 1 ≤ value + fuel) :
    found ∈ stepValues min max step hi fuel value ↔
      (min ≤ found ∧ found ≤ max) ∧ value ≤ found ∧ found ≤ hi ∧ step ∣ found - value := by
  induction fuel generalizing value with
  | zero =>
    refine iff_of_false List.not_mem_nil ?_
    rintro ⟨-, least, most, -⟩
    omega
  | succ fuel ih =>
    rw [stepValues]
    split
    · next within =>
        have here : found ∈ (if min ≤ value ∧ value ≤ max then [value] else []) ↔
            (min ≤ value ∧ value ≤ max) ∧ found = value := by
          split <;> simp_all
        rw [List.mem_append, here, ih (by omega)]
        constructor
        · rintro (⟨bounds, rfl⟩ | ⟨bounds, least, most, steps⟩)
          · exact ⟨bounds, le_rfl, within, by simp⟩
          · refine ⟨bounds, by omega, most, ?_⟩
            rw [show found - value = found - (value + step) + step by omega]
            exact Nat.dvd_add steps (Nat.dvd_refl step)
        · rintro ⟨bounds, least, most, steps⟩
          rcases Nat.eq_or_lt_of_le least with rfl | later
          · exact .inl ⟨bounds, rfl⟩
          · have far := Nat.le_of_dvd (by omega) steps
            refine .inr ⟨bounds, by omega, most, ?_⟩
            rw [show found - (value + step) = found - value - step by omega]
            exact Nat.dvd_sub steps (Nat.dvd_refl step)
    · refine iff_of_false List.not_mem_nil ?_
      rintro ⟨-, least, most, -⟩
      omega

/-- The ends of a part, for some reading of its numbers. -/
def Part.ends (read : Value field → Nat) : Part field → Nat × Nat
  | .single value => (read value, read value)
  | .all _ => (field.min, field.max)
  | .range first last _ _ => (read first, read last)

variable {value : Value field → List Char}

theorem front_plain (digits : ∀ written, allDigits (value written) = true)
    (part : Part field) : Plain (part.front value) ∧ part.front value ≠ [] := by
  cases part with
  | single written => exact ⟨plain_of_digits (digits written), (allDigits_iff.mp (digits written)).1⟩
  | all _ => exact ⟨by simp [Plain, Part.front], List.cons_ne_nil _ _⟩
  | range first last _ _ =>
    refine ⟨fun char within => ?_, by simp [Part.front]⟩
    rcases List.mem_append.mp within with within | within
    · exact plain_of_digits (digits first) char within
    · rcases List.mem_cons.mp within with rfl | within
      · exact .inr (.inl rfl)
      · exact plain_of_digits (digits last) char within

theorem rangeEnds_front (digits : ∀ written, allDigits (value written) = true) (part : Part field) :
    rangeEnds field.min field.max part.step.isSome (part.front value) =
      some (part.ends fun written => parseInt (value written)) := by
  have starless {text : List Char} (valid : allDigits text = true) : text ≠ ['*'] := by
    rintro rfl
    exact absurd valid (by decide)
  cases part with
  | single written =>
    rw [Part.front, rangeEnds, if_neg (starless (digits written)), if_pos (digits written)]
    rfl
  | all _ => rfl
  | range first last _ _ =>
    have dashed : '-' ∈ value first ++ '-' :: value last := by simp
    have star : value first ++ '-' :: value last ≠ ['*'] := by
      intro same
      rw [same] at dashed
      exact absurd dashed (by decide)
    have number : ¬ allDigits (value first ++ '-' :: value last) = true := fun valid =>
      absurd ((allDigits_iff.mp valid).2 '-' dashed) (by decide)
    rw [Part.front, rangeEnds, if_neg star, if_neg number, rangeMatch_range (digits first) (digits last)]
    rfl

theorem partValues_render {step : Step → List Char}
    (digits : ∀ written, allDigits (value written) = true) (steps : ∀ written, allDigits (step written) = true)
    (part : Part field) :
    partValues field.min field.max (part.render value step) =
      let width := (part.step.map fun written => parseInt (step written)).getD 1
      let ends := part.ends fun written => parseInt (value written)
      if !(isFinite width) || width < 1 then none
      else some (stepValues field.min field.max width ends.2 (ends.2 + 1 - ends.1) ends.1) := by
  obtain ⟨plain, nonempty⟩ := front_plain digits part
  have ends := rangeEnds_front digits part
  unfold Part.render
  cases stepped : part.step with
  | none =>
    rw [stepped] at ends
    simp only [partValues, stepMatch_plain plain, if_neg nonempty]
    rw [show (none : Option (List Char × List Char)).isSome = (none : Option Step).isSome by rfl, ends]
    rfl
  | some written =>
    rw [stepped] at ends
    have some_text : part.front value ++ '/' :: step written ≠ [] := by simp
    simp only [partValues, stepMatch_step plain (steps written), if_neg some_text]
    rw [show (some (part.front value, step written)).isSome = (some written).isSome by rfl, ends]
    rfl

end

section

variable {field : CronField}

def rewriteUpper (field : CronField) (upper : List Char) : List Char :=
  if field.min = 0 ∧ field.max = 6 then replaceSeven false (replaceNames field.names upper)
  else replaceNames field.names upper

/-- **The rewriting of a field**: names, and the weekday 7. -/
def rewrite (field : CronField) (text : List Char) : List Char := rewriteUpper field (text.map Char.toUpper)

theorem bounds_weekday : field.min = 0 ∧ field.max = 6 ↔ field = .dayOfWeek := by
  cases field <;> decide

theorem lettered_names (field : CronField) : Lettered field.names := by
  cases field <;> (unfold Lettered; decide)

theorem divides_rewrite (field : CronField) : Divides (rewrite field) := by
  refine divides_upper.comp ?_
  unfold rewriteUpper
  split
  · exact (divides_names (lettered_names field)).comp divides_seven
  · exact divides_names (lettered_names field)

theorem replaceSeven_digits {text : List Char} (digits : ∀ char ∈ text, isDigit char = true) :
    replaceSeven true text = text ∧ replaceSeven false text = if text = ['7'] then ['0'] else text := by
  have word {char : Char} (digit : isDigit char = true) : isWord char = true := by simp [isWord, digit]
  have behind {text : List Char} (digits : ∀ char ∈ text, isDigit char = true) :
      replaceSeven true text = text := by
    induction text with
    | nil => rfl
    | cons char rest ih =>
      obtain ⟨first, others⟩ := List.forall_mem_cons.mp digits
      rw [replaceSeven, if_neg (by simp), word first, ih others]
  refine ⟨behind digits, ?_⟩
  cases text with
  | nil => rfl
  | cons char rest =>
    obtain ⟨first, others⟩ := List.forall_mem_cons.mp digits
    rw [replaceSeven, word first, behind others]
    cases rest with
    | nil => by_cases seven : char = '7' <;> simp [seven]
    | cons next rest =>
      have digit := word (others next List.mem_cons_self)
      simp [digit]

theorem rewrite_digits {text : List Char} (digits : allDigits text = true) :
    rewrite field text = if field = .dayOfWeek ∧ text = ['7'] then ['0'] else text := by
  have valid := (allDigits_iff.mp digits).2
  have upper : text.map Char.toUpper = text := by
    conv_rhs => rw [← List.map_id' text]
    exact List.map_congr_left fun char within => toUpper_digit (valid char within)
  rw [rewrite, rewriteUpper, upper, replaceNames_digits (lettered_names field) valid,
    (replaceSeven_digits valid).2]
  simp only [bounds_weekday]
  by_cases weekday : field = .dayOfWeek <;> simp [weekday]

def Value.read (value : Value field) : Nat :=
  if field = .dayOfWeek ∧ value.text = ['7'] then 0 else value.number

def Step.read (field : CronField) (step : Step) : Nat :=
  if field = .dayOfWeek ∧ step.text = ['7'] then 0 else parseInt step.text

theorem names_rewritten (field : CronField) :
    field.names.all (fun name => allDigits (rewriteUpper field name.1.toList) &&
      parseInt (rewriteUpper field name.1.toList) == name.2 && name.1.toList.length == 3) = true := by
  cases field <;> decide +kernel

theorem Value.rewritten (value : Value field) :
    allDigits (rewrite field value.text) = true ∧ parseInt (rewrite field value.text) = value.read := by
  obtain ⟨text, number, written, least, most⟩ := value
  cases written with
  | digits valid =>
    rw [rewrite_digits valid, Value.read]
    split
    · exact ⟨by decide, by decide⟩
    · exact ⟨valid, rfl⟩
  | @name name member upper =>
    have check := List.all_eq_true.mp (names_rewritten field) name member
    simp only [Bool.and_eq_true, beq_iff_eq] at check
    have length : text.length = 3 := by
      rw [← check.2, ← upper, List.length_map]
    rw [rewrite, upper, Value.read, if_neg (by rintro ⟨-, rfl⟩; simp at length)]
    exact check.1

theorem Step.rewritten (field : CronField) (step : Step) :
    allDigits (rewrite field step.text) = true ∧ parseInt (rewrite field step.text) = step.read field := by
  rw [rewrite_digits step.digits, Step.read]
  split
  · exact ⟨by decide, by decide⟩
  · exact ⟨step.digits, rfl⟩

theorem toUpper_space {char : Char} (space : isSpace char = true) : char.toUpper = char := by
  refine dif_neg ?_
  rintro ⟨least, most⟩
  have low : 97 ≤ char.toNat := least
  have high : char.toNat ≤ 122 := most
  simp [isSpace] at space
  omega

theorem letter_no_space {char : Char} (letter : isLetter char = true) : isSpace char = false := by
  simp only [isLetter, Bool.and_eq_true, decide_eq_true_eq] at letter
  have low : 65 ≤ char.toNat := letter.1
  have high : char.toNat ≤ 90 := letter.2
  simp [isSpace]
  omega

theorem Value.no_space (value : Value field) : ∀ char ∈ value.text, isSpace char = false := by
  intro char within
  obtain ⟨text, number, written, least, most⟩ := value
  cases written with
  | digits valid => exact (isDigit_apart ((allDigits_iff.mp valid).2 char within)).1
  | @name name member upper =>
    have letters := (List.all_eq_true.mp (lettered_names field)) name member
    simp only [Bool.and_eq_true, List.all_eq_true] at letters
    have letter := letters.2 char.toUpper (upper ▸ List.mem_map_of_mem within)
    cases space : isSpace char with
    | false => rfl
    | true =>
      rw [toUpper_space space] at letter
      exact absurd (letter_no_space letter) (by simp [space])

theorem Part.render_forall {P : Char → Prop} {value : Value field → List Char} {step : Step → List Char}
    (values : ∀ written, ∀ char ∈ value written, P char) (steps : ∀ written, ∀ char ∈ step written, P char)
    (marks : ∀ mark ∈ ['-', '/', '*'], P mark) (part : Part field) :
    ∀ char ∈ part.render value step, P char := by
  have front : ∀ char ∈ part.front value, P char := by
    cases part with
    | single written => exact values written
    | all _ => exact List.forall_mem_singleton.mpr (marks '*' (by simp))
    | range first last _ _ =>
      exact List.forall_mem_append.mpr ⟨values first,
        List.forall_mem_cons.mpr ⟨marks '-' (by simp), values last⟩⟩
  unfold Part.render
  split
  · next written _ =>
      exact List.forall_mem_append.mpr ⟨front, List.forall_mem_cons.mpr ⟨marks '/' (by simp), steps written⟩⟩
  · exact front

theorem Field.no_space (written : Field field) : ∀ char ∈ written.text, isSpace char = false := by
  intro char within
  rcases Substrings.mem_intercalate within with mark | ⟨text, member, found⟩
  · rw [List.mem_singleton.mp mark]
    decide
  · obtain ⟨part, -, rfl⟩ := List.mem_map.mp member
    refine part.render_forall Value.no_space (fun step char within => ?_) (by simp [isSpace]) char found
    exact (isDigit_apart ((allDigits_iff.mp step.digits).2 char within)).1

/-- **What a field is split into**: its parts, with numbers and steps rewritten. -/
theorem cronFieldCandidates_text (written : Field field) :
    cronFieldCandidates written.text field.min field.max field.names =
      partsValues field.min field.max (written.parts.map
        (Part.render (fun value => rewrite field value.text) fun step => rewrite field step.text)) := by
  have nonempty : written.parts.map (Part.render Value.text Step.text) ≠ [] := by
    simpa using written.some_part
  have rewritten : rewrite field written.text = [','].intercalate (written.parts.map
      (Part.render (fun value => rewrite field value.text) fun step => rewrite field step.text)) := by
    rw [Field.text, (divides_rewrite field).intercalate nonempty, List.map_map]
    congr 1
    exact List.map_congr_left fun part _ => (divides_rewrite field).render Value.text Step.text part
  have apart : ∀ part ∈ written.parts.map (Part.render (fun value => rewrite field value.text)
      fun step => rewrite field step.text), ',' ∉ part := by
    intro text member within
    obtain ⟨part, -, rfl⟩ := List.mem_map.mp member
    have digit {text : List Char} (digits : allDigits text = true) : ∀ char ∈ text, char ≠ ',' :=
      fun char within => (isDigit_apart ((allDigits_iff.mp digits).2 char within)).2.2.1
    exact part.render_forall (fun value => digit value.rewritten.1) (fun step => digit (step.rewritten field).1)
      (by simp) ',' within rfl
  have whole : cronFieldCandidates written.text field.min field.max field.names =
      partsValues field.min field.max ((rewrite field written.text).splitOn ',') := by
    rw [cronFieldCandidates, trim_of_plain written.no_space]
    rfl
  rw [whole, rewritten, List.splitOn_intercalate ',' apart (by simpa using written.some_part)]

/-- What is read from a part after the rewriting: its ends and its width as they are read. -/
def Part.Gives (part : Part field) (value : Nat) : Prop :=
  ((part.ends Value.read).1 ≤ value ∧ value ≤ (part.ends Value.read).2) ∧
    (part.step.map (Step.read field)).getD 1 ∣ value - (part.ends Value.read).1 ∧
    field.min ≤ value ∧ value ≤ field.max

def Part.StepRead (part : Part field) : Prop := ∀ step, part.step = some step →
    isFinite (parseInt step.text) = true ∧ ¬ (field = .dayOfWeek ∧ step.text = ['7'])

theorem stepRead_iff (part : Part field) : part.StepRead ↔
    (!(isFinite ((part.step.map (Step.read field)).getD 1)) ||
      (part.step.map (Step.read field)).getD 1 < 1) = false := by
  unfold Part.StepRead
  cases part.step with
  | none => simp [show isFinite 1 = true by decide +kernel]
  | some step =>
    have positive : parseInt step.text ≠ 0 := Nat.one_le_iff_ne_zero.mp step.positive
    simp only [Option.some.injEq, forall_eq', Option.map_some, Option.getD_some, Step.read,
      Bool.or_eq_false_iff, Bool.not_eq_false']
    by_cases sunday : field = .dayOfWeek ∧ step.text = ['7']
    · simp [sunday]
    · simp [sunday, positive]

theorem partValues_spec (part : Part field) :
    match partValues field.min field.max (trim (part.render (fun value => rewrite field value.text)
      fun step => rewrite field step.text)) with
    | none => ¬ part.StepRead
    | some values => part.StepRead ∧ ∀ value, value ∈ values ↔ part.Gives value := by
  have digit {text : List Char} (digits : allDigits text = true) : ∀ char ∈ text, isSpace char = false :=
    fun char within => (isDigit_apart ((allDigits_iff.mp digits).2 char within)).1
  have spaceless := part.render_forall (fun value => digit value.rewritten.1)
    (fun step => digit (step.rewritten field).1) (by simp [isSpace])
  have widths : (part.step.map fun written => parseInt (rewrite field written.text)).getD 1 =
      (part.step.map (Step.read field)).getD 1 := by
    cases part.step with
    | none => rfl
    | some step => exact (step.rewritten field).2
  have ends : (part.ends fun written => parseInt (rewrite field written.text)) = part.ends Value.read := by
    cases part with
    | single value => simp only [Part.ends, value.rewritten.2]
    | all _ => rfl
    | range first last _ _ => simp only [Part.ends, first.rewritten.2, last.rewritten.2]
  rw [trim_of_plain spaceless, partValues_render (fun value => value.rewritten.1)
    (fun step => (step.rewritten field).1)]
  simp only [widths, ends]
  split
  · next lost =>
      intro read
      rw [stepRead_iff] at read
      rw [read] at lost
      cases lost
  · next values found =>
      obtain ⟨read, same⟩ := Option.ite_none_left_eq_some.mp found
      rw [Bool.not_eq_true] at read
      obtain rfl := Option.some.inj same
      refine ⟨(stepRead_iff part).mpr read, fun value => ?_⟩
      have positive : 1 ≤ (part.step.map (Step.read field)).getD 1 := by
        rw [Bool.or_eq_false_iff, decide_eq_false_iff_not] at read
        omega
      rw [mem_stepValues positive (by omega), Part.Gives]
      tauto

theorem partsValues_spec (parts : List (Part field)) :
    match partsValues field.min field.max (parts.map
      (Part.render (fun value => rewrite field value.text) fun step => rewrite field step.text)) with
    | none => ¬ ∀ part ∈ parts, part.StepRead
    | some values => (∀ part ∈ parts, part.StepRead) ∧
        ∀ value, value ∈ values ↔ ∃ part ∈ parts, part.Gives value := by
  induction parts with
  | nil => simp [partsValues]
  | cons part parts ih =>
    have first := partValues_spec part
    rw [List.map_cons, partsValues]
    cases found : partValues field.min field.max (trim (part.render (fun value => rewrite field value.text)
      fun step => rewrite field step.text)) with
    | none =>
      rw [found] at first
      exact fun all => first (all part List.mem_cons_self)
    | some values =>
      rw [found] at first
      cases later : partsValues field.min field.max (parts.map
        (Part.render (fun value => rewrite field value.text) fun step => rewrite field step.text)) with
      | none =>
        rw [later] at ih
        exact fun all => ih fun other member => all other (List.mem_cons_of_mem _ member)
      | some others =>
        rw [later] at ih
        refine ⟨List.forall_mem_cons.mpr ⟨first.1, ih.1⟩, fun value => ?_⟩
        rw [List.mem_append, first.2, ih.2, List.exists_mem_cons_iff]

/-- A 7 that the rewriting may lose: one with zeros before it, or at the end of a range that does not begin
with a 7 itself. -/
def Part.LosesSunday : Part field → Prop
  | .single value => value.number = 7 ∧ value.text ≠ ['7']
  | .all _ => False
  | .range first last _ _ => last.number = 7 ∧ ¬ (first.text = ['7'] ∧ last.text = ['7'])

theorem Value.number_of_seven {value : Value field} (seven : value.text = ['7']) : value.number = 7 := by
  obtain ⟨text, number, written, least, most⟩ := value
  obtain rfl : text = ['7'] := seven
  cases written with
  | digits _ => rfl
  | @name name member upper =>
    have check := List.all_eq_true.mp (names_rewritten field) name member
    simp only [Bool.and_eq_true, beq_iff_eq] at check
    rw [← upper] at check
    simp at check

theorem Value.read_of_seven {value : Value .dayOfWeek} (seven : value.text = ['7']) : value.read = 0 :=
  if_pos ⟨rfl, seven⟩

theorem Value.read_of_ordinary {value : Value field} (ordinary : field = .dayOfWeek → value.number < 7) :
    value.read = value.number ∧ field.denoted value.number = value.number ∧ value.number ≤ field.max := by
  have most := value.most
  by_cases weekday : field = .dayOfWeek
  · have below := ordinary weekday
    subst weekday
    refine ⟨if_neg fun sunday => ?_, Nat.mod_eq_of_lt below, Nat.le_of_lt_succ below⟩
    have := value.number_of_seven sunday.2
    omega
  · refine ⟨if_neg fun sunday => weekday sunday.1, ?_, ?_⟩
    · cases field <;> first | rfl | exact absurd rfl weekday
    · cases field <;> first | exact most | exact absurd rfl weekday

theorem denoted_of_le {last : Value field} (ordinary : field = .dayOfWeek → last.number < 7) {number : Nat}
    (below : number ≤ last.number) : field.denoted number = number := by
  cases field <;> first | rfl | exact Nat.mod_eq_of_lt (below.trans_lt (ordinary rfl))

theorem width_of_read {part : Part field} (read : part.StepRead) :
    (part.step.map (Step.read field)).getD 1 = width part.step := by
  unfold Part.StepRead at read
  cases stepped : part.step with
  | none => rfl
  | some step => exact if_neg (read step stepped).2

/-- **A part that loses no Sunday is read as what it denotes.** -/
theorem gives_iff_denotes {part : Part field} (read : part.StepRead)
    (kept : field = .dayOfWeek → ¬ part.LosesSunday) (value : Nat) : part.Gives value ↔ part.Denotes value := by
  have widths := width_of_read read
  cases part with
  | single written =>
    simp only [Part.Gives, Part.Denotes, Part.ends, Part.step, Option.map_none, Option.getD_none,
      Nat.one_dvd, true_and]
    by_cases sunday : field = .dayOfWeek ∧ written.text = ['7']
    · obtain ⟨rfl, seven⟩ := sunday
      rw [Value.read_of_seven seven, written.number_of_seven seven, show
        CronField.denoted .dayOfWeek 7 = 0 from rfl]
      simp only [CronField.min, CronField.max]
      omega
    · have ordinary : field = .dayOfWeek → written.number < 7 := by
        rintro rfl
        have most : written.number ≤ 7 := written.most
        have other : written.number ≠ 7 := fun seven => kept rfl ⟨seven, fun text => sunday ⟨rfl, text⟩⟩
        omega
      obtain ⟨same, denoted, most⟩ := Value.read_of_ordinary ordinary
      have least := written.least
      rw [same, denoted]
      omega
  | all step =>
    rw [Part.Gives, widths]
    simp only [Part.ends, Part.Denotes, Part.step]
    tauto
  | range first last ordered step =>
    rw [Part.Gives, widths]
    simp only [Part.ends, Part.Denotes, Part.step]
    by_cases sundays : field = .dayOfWeek ∧ first.text = ['7'] ∧ last.text = ['7']
    · obtain ⟨rfl, one, two⟩ := sundays
      rw [Value.read_of_seven one, Value.read_of_seven two, first.number_of_seven one,
        last.number_of_seven two]
      constructor
      · rintro ⟨⟨-, zero⟩, -, -⟩
        exact ⟨7, le_rfl, le_rfl, by simp, Nat.le_zero.mp zero⟩
      · rintro ⟨number, least, most, -, rfl⟩
        obtain rfl := Nat.le_antisymm most least
        simp [CronField.denoted, CronField.min]
    · have ordinary : field = .dayOfWeek → last.number < 7 := by
        rintro rfl
        have most : last.number ≤ 7 := last.most
        have other : last.number ≠ 7 := fun seven => kept rfl ⟨seven, fun text => sundays ⟨rfl, text⟩⟩
        omega
      obtain ⟨lastRead, -, most⟩ := Value.read_of_ordinary ordinary
      obtain ⟨firstRead, -, -⟩ := @Value.read_of_ordinary _ first fun weekday =>
        ordered.trans_lt (ordinary weekday)
      have least := first.least
      rw [firstRead, lastRead]
      constructor
      · rintro ⟨⟨above, below⟩, steps, -, -⟩
        exact ⟨value, above, below, steps, (denoted_of_le ordinary below).symm⟩
      · rintro ⟨number, above, below, steps, rfl⟩
        rw [denoted_of_le ordinary below]
        exact ⟨⟨above, below⟩, steps, by omega, by omega⟩

/-- **When a field is read as it is meant**: every step is read, and where a part may lose a Sunday, the
weekdays that it denotes and those that are read from it are given and denoted by some part all the same. -/
structure Field.ReadRight (written : Field field) : Prop where
  steps : ∀ part ∈ written.parts, part.StepRead
  sundays : field = .dayOfWeek → ∀ part ∈ written.parts, part.LosesSunday → ∀ value,
    (part.Denotes value → ∃ other ∈ written.parts, other.Gives value) ∧
      (part.Gives value → ∃ other ∈ written.parts, other.Denotes value)

/-- **A field of the grammar is read as what it denotes** just if every step is read, and no weekday is lost
or won by the rewriting of a Sunday. -/
theorem cronFieldCandidates_iff (written : Field field) :
    (∃ values, cronFieldCandidates written.text field.min field.max field.names = some values ∧
        ∀ value, value ∈ values ↔ written.Denotes value) ↔ written.ReadRight := by
  have spec := partsValues_spec written.parts
  rw [cronFieldCandidates_text]
  cases found : partsValues field.min field.max (written.parts.map
      (Part.render (fun value => rewrite field value.text) fun step => rewrite field step.text)) with
  | none =>
    rw [found] at spec
    exact iff_of_false (by simp) fun right => spec right.steps
  | some values =>
    rw [found] at spec
    obtain ⟨steps, given⟩ := spec
    simp only [Option.some.injEq, exists_eq_left', given]
    constructor
    · refine fun same => ⟨steps, fun _ part member _ value => ⟨fun denotes => ?_, fun gives => ?_⟩⟩
      · exact (same value).mpr ⟨part, member, denotes⟩
      · exact (same value).mp ⟨part, member, gives⟩
    · refine fun right value => ⟨?_, ?_⟩
      · rintro ⟨part, member, gives⟩
        by_cases loses : field = .dayOfWeek ∧ part.LosesSunday
        · exact ((right.sundays loses.1 part member loses.2) value).2 gives
        · refine ⟨part, member, (gives_iff_denotes (steps part member) ?_ value).mp gives⟩
          exact fun weekday lost => loses ⟨weekday, lost⟩
      · rintro ⟨part, member, denotes⟩
        by_cases loses : field = .dayOfWeek ∧ part.LosesSunday
        · exact ((right.sundays loses.1 part member loses.2) value).1 denotes
        · refine ⟨part, member, (gives_iff_denotes (steps part member) ?_ value).mpr denotes⟩
          exact fun weekday lost => loses ⟨weekday, lost⟩

/-- From Friday to the Sunday that is written 7. -/
def toSunday : Field .dayOfWeek where
  parts := [.range ⟨['5'], 5, .digits (by decide), by decide, by decide⟩
    ⟨['7'], 7, .digits (by decide), by decide, by decide⟩ (by decide) none]
  some_part := List.cons_ne_nil _ _

/-- **No weekday is read from it.** -/
theorem toSunday_unread :
    toSunday.text = ['5', '-', '7'] ∧ toSunday.Denotes 5 ∧
      cronFieldCandidates toSunday.text CronField.dayOfWeek.min CronField.dayOfWeek.max
        CronField.dayOfWeek.names = some [] ∧
      ¬ ∃ values, cronFieldCandidates toSunday.text CronField.dayOfWeek.min CronField.dayOfWeek.max
          CronField.dayOfWeek.names = some values ∧ ∀ value, value ∈ values ↔ toSunday.Denotes value := by
  have denotes : toSunday.Denotes 5 :=
    ⟨_, List.mem_cons_self, 5, by decide, by decide, by decide, rfl⟩
  have read : cronFieldCandidates toSunday.text CronField.dayOfWeek.min CronField.dayOfWeek.max
      CronField.dayOfWeek.names = some [] := by decide +kernel
  refine ⟨by decide, denotes, read, ?_⟩
  rintro ⟨values, found, same⟩
  obtain rfl := Option.some.inj (read.symm.trans found)
  exact absurd ((same 5).mpr denotes) List.not_mem_nil

end

end PiCrew.CronFields
