/-
**The tokens of the chain language.**

The tokenizer skips white space and reads marks, quoted texts, flags, numbers and names. A name or a flag
goes on for as long as its units do, and the dash is one of them, so one that stands right before `->`
takes the dash of the arrow with it.

* `tokenize_spelled` — so tokens with white space around them are read back.
-/

import PiCrew.EventLog.LogStats
import PiCrew.Library.Lexing

namespace PiCrew.Workflow.ChainDsl

open JsonText
open EventLog.LogStats (isSpace)

inductive TokenType where
  | name | arrow | lparen | rparen | comma | colon | number | flag | quoted
  deriving DecidableEq

def TokenType.text : TokenType → String
  | .name => "NAME"
  | .arrow => "ARROW"
  | .lparen => "LPAREN"
  | .rparen => "RPAREN"
  | .comma => "COMMA"
  | .colon => "COLON"
  | .number => "NUMBER"
  | .flag => "FLAG"
  | .quoted => "QUOTED"

structure Token where
  type : TokenType
  value : Text
  deriving DecidableEq

def dash : UInt16 := 0x2D

/-- `[a-zA-Z]` -/
def isLetter (unit : UInt16) : Bool := 0x61 ≤ unit && unit ≤ 0x7A || 0x41 ≤ unit && unit ≤ 0x5A

/-- `[0-9]` -/
def isDigit (unit : UInt16) : Bool := 0x30 ≤ unit && unit ≤ 0x39

/-- `[a-zA-Z_]` -/
def isNameStart (unit : UInt16) : Bool := isLetter unit || unit = 0x5F

/-- `[a-zA-Z0-9_-]` -/
def isFlagUnit (unit : UInt16) : Bool := isNameStart unit || isDigit unit || unit = dash

/-- `[a-zA-Z0-9_.@-]` -/
def isNameUnit (unit : UInt16) : Bool := isFlagUnit unit || unit = 0x2E || unit = 0x40

/-- A name begins here, maybe with the `@` of a team. -/
def startsName (text : Text) : Bool :=
  match text with
  | unit :: rest => isNameStart unit || (unit = 0x40 && (rest.head?.map isNameStart).getD false)
  | [] => false

/-- The loop behind an opening quote: the text and its length with the closing quote, if there is one. -/
def quoted (quote : UInt16) : Text → Option (Text × Nat)
  | [] => none
  | unit :: rest =>
    if unit = quote then some ([], 1)
    else if unit = backslash then
      match rest with
      | [] => none
      | next :: rest => (quoted quote rest).map fun (text, length) => (next :: text, length + 2)
    else (quoted quote rest).map fun (text, length) => (unit :: text, length + 1)

def markType (unit : UInt16) : Option TokenType :=
  if unit = 0x28 then some .lparen
  else if unit = 0x29 then some .rparen
  else if unit = 0x2C then some .comma
  else if unit = 0x3A then some .colon
  else none

def tokenPass : Lexing.Pass UInt16 Token Text
  | [] => .ok ([], 0)
  | unit :: rest =>
    if isSpace unit then .ok ([], 1)
    else if unit = dash ∧ rest.head? = some 0x3E then .ok ([⟨.arrow, units "->"⟩], 2)
    else
      match markType unit with
      | some type => .ok ([⟨type, [unit]⟩], 1)
      | none =>
        if unit = 0x22 ∨ unit = 0x27 then
          match quoted unit rest with
          | none => .error fun _ => units "Unclosed quoted string in chain DSL"
          | some (text, length) => .ok ([⟨.quoted, text⟩], length + 1)
        else if unit = dash ∧ rest.head? = some dash then
          let flag := rest.tail.takeWhile isFlagUnit
          .ok ([⟨.flag, flag⟩], flag.length + 2)
        else if isDigit unit then
          let number := (unit :: rest).takeWhile isDigit
          .ok ([⟨.number, number⟩], number.length)
        else if startsName (unit :: rest) then
          let name := (unit :: rest).takeWhile isNameUnit
          .ok ([⟨.name, name⟩], name.length)
        else .error fun place =>
          units "Unexpected character '" ++
            unit :: units ("' at position " ++ toString place ++ " in chain DSL")

def tokenize (input : Text) : Except Text (List Token) := Lexing.lex tokenPass input

section

def isName (text : Text) : Bool := startsName text && text.all isNameUnit

/-- A text between quotes. Any unit may stand behind a backslash, a quote or a backslash has to. -/
inductive Escaped (quote : UInt16) : Text → Text → Prop where
  | nil : Escaped quote [] []
  | plain {unit text written} : unit ≠ quote → unit ≠ backslash → Escaped quote text written →
      Escaped quote (unit :: text) (unit :: written)
  | escape {unit text written} : Escaped quote text written →
      Escaped quote (unit :: text) (backslash :: unit :: written)

/-- How a token may be spelled. -/
inductive Spelling : Token → Text → Prop where
  | arrow : Spelling ⟨.arrow, units "->"⟩ (units "->")
  | mark {unit type} : markType unit = some type → Spelling ⟨type, [unit]⟩ [unit]
  | quoted {quote text written} : quote = 0x22 ∨ quote = 0x27 → Escaped quote text written →
      Spelling ⟨.quoted, text⟩ (quote :: (written ++ [quote]))
  | flag {text} : text.all isFlagUnit = true → Spelling ⟨.flag, text⟩ (dash :: dash :: text)
  | number {text} : text ≠ [] → text.all isDigit = true → Spelling ⟨.number, text⟩ text
  | name {text} : isName text = true → Spelling ⟨.name, text⟩ text

/-- **Tokens with white space around them**, of any amount, and with more that is asked of a token and
what stands right behind it. -/
inductive Spelled (apart : Token → Text → Prop) : List Token → Text → Prop where
  | done : Spelled apart [] []
  | gap {unit tokens text} : isSpace unit = true → Spelled apart tokens text →
      Spelled apart tokens (unit :: text)
  | token {token piece tokens rest} : Spelling token piece → apart token rest → Spelled apart tokens rest →
      Spelled apart (token :: tokens) (piece ++ rest)

/-- **What follows a token cannot belong to it.** -/
def Apart (token : Token) (rest : Text) : Prop :=
  ∀ unit ∈ rest.head?, (token.type = .name → isNameUnit unit = false) ∧
    (token.type = .flag → isFlagUnit unit = false) ∧ (token.type = .number → isDigit unit = false)

variable {unit : UInt16} {text rest piece : Text} {token : Token} {tokens : List Token}

theorem takeWhile_apart {p : UInt16 → Bool} (all : text.all p = true)
    (ends : ∀ unit ∈ rest.head?, p unit = false) : (text ++ rest).takeWhile p = text := by
  rw [List.takeWhile_append_of_pos (List.all_eq_true.mp all)]
  cases rest with
  | nil => exact List.append_nil _
  | cons unit rest =>
    have other := ends unit rfl
    rw [List.takeWhile_cons, other]
    exact List.append_nil _

theorem quoted_escaped {quote : UInt16} {written : Text} (other : quote ≠ backslash)
    (escaped : Escaped quote text written) :
    quoted quote (written ++ quote :: rest) = some (text, written.length + 1) := by
  induction escaped with
  | nil =>
    unfold quoted
    exact if_pos rfl
  | plain unquoted unescaped _ ih =>
    unfold quoted
    dsimp only [List.cons_append]
    rw [if_neg unquoted, if_neg unescaped, ih]
    rfl
  | escape _ ih =>
    unfold quoted
    dsimp only [List.cons_append]
    rw [if_neg other.symm, if_pos rfl, ih]
    rfl

theorem markType_cases {type : TokenType} (mark : markType unit = some type) :
    unit = 0x28 ∧ type = .lparen ∨ unit = 0x29 ∧ type = .rparen ∨ unit = 0x2C ∧ type = .comma ∨
      unit = 0x3A ∧ type = .colon := by
  simp only [markType] at mark
  grind

theorem markType_none : markType unit = none ↔ unit ≠ 0x28 ∧ unit ≠ 0x29 ∧ unit ≠ 0x2C ∧ unit ≠ 0x3A := by
  simp only [markType]
  grind

theorem word_cases (word : isNameStart unit = true ∨ isDigit unit = true ∨ unit = 0x40) :
    isSpace unit = false ∧ unit ≠ dash ∧ markType unit = none ∧ unit ≠ 0x22 ∧ unit ≠ 0x27 := by
  simp only [isNameStart, isLetter, isDigit, isSpace, markType_none, dash, Bool.or_eq_true,
    Bool.and_eq_true, decide_eq_true_eq, Bool.or_eq_false_iff, Bool.and_eq_false_iff,
    decide_eq_false_iff_not, ne_eq, ← UInt16.toNat_inj, UInt16.le_iff_toNat_le,
    UInt16.reduceToNat] at word ⊢
  omega

/-- **A token is read** where what follows it cannot belong to it. -/
theorem tokenPass_spelling (spelling : Spelling token piece) (ends : Apart token rest) :
    piece ≠ [] ∧ tokenPass (piece ++ rest) = .ok ([token], piece.length) := by
  cases spelling with
  | arrow => exact ⟨by decide, rfl⟩
  | mark mark =>
    refine ⟨List.cons_ne_nil _ _, ?_⟩
    obtain ⟨rfl, rfl⟩ | ⟨rfl, rfl⟩ | ⟨rfl, rfl⟩ | ⟨rfl, rfl⟩ := markType_cases mark <;> rfl
  | @quoted quote text written mark escaped =>
    refine ⟨List.cons_ne_nil _ _, ?_⟩
    have other : quote ≠ backslash := by
      rintro rfl
      rcases mark with same | same <;> cases same
    have read := @quoted_escaped _ rest _ _ other escaped
    have start : isSpace quote = false ∧ quote ≠ dash ∧ markType quote = none := by
      rcases mark with rfl | rfl <;> decide
    rw [List.cons_append, List.append_assoc, List.singleton_append, tokenPass,
      if_neg (Bool.eq_false_iff.mp start.1), if_neg fun arrow => start.2.1 arrow.1, start.2.2]
    dsimp only
    rw [if_pos mark, read]
    simp
  | @flag text all =>
    refine ⟨List.cons_ne_nil _ _, ?_⟩
    have taken := takeWhile_apart all fun unit here => (ends unit here).2.1 rfl
    rw [List.cons_append, List.cons_append, tokenPass, if_neg (by decide), if_neg (by simp [dash]),
      show markType dash = none from rfl]
    dsimp only
    rw [if_neg (by decide), if_pos ⟨rfl, rfl⟩, List.tail_cons, taken]
    rfl
  | number nonempty all =>
    refine ⟨nonempty, ?_⟩
    have taken := takeWhile_apart all fun unit here => (ends unit here).2.2 rfl
    obtain ⟨unit, behind, rfl⟩ := List.exists_cons_of_ne_nil nonempty
    have digit : isDigit unit = true := (List.all_eq_true.mp all) unit List.mem_cons_self
    obtain ⟨space, arrow, mark, double, single⟩ := word_cases (.inr (.inl digit))
    rw [List.cons_append] at taken ⊢
    rw [tokenPass, if_neg (Bool.eq_false_iff.mp space), if_neg fun both => arrow both.1, mark]
    dsimp only
    rw [if_neg (not_or.mpr ⟨double, single⟩), if_neg fun both => arrow both.1, if_pos digit, taken]
  | name valid =>
    obtain ⟨starts, all⟩ := (Bool.and_eq_true _ _).mp valid
    have taken := takeWhile_apart all fun unit here => (ends unit here).1 rfl
    cases piece with
    | nil => cases starts
    | cons unit behind =>
      refine ⟨List.cons_ne_nil _ _, ?_⟩
      have first : isNameStart unit = true ∨ unit = 0x40 := by
        rcases (Bool.or_eq_true _ _).mp starts with letter | team
        · exact .inl letter
        · exact .inr (of_decide_eq_true ((Bool.and_eq_true _ _).mp team).1)
      have more : startsName (unit :: (behind ++ rest)) = true := by
        rcases (Bool.or_eq_true _ _).mp starts with letter | team
        · exact (Bool.or_eq_true _ _).mpr (.inl letter)
        · cases behind with
          | nil => simp at team
          | cons next behind => exact (Bool.or_eq_true _ _).mpr (.inr team)
      have digit : isDigit unit = false := by
        rcases first with letter | rfl
        · simp only [isNameStart, isLetter, isDigit, Bool.or_eq_true, Bool.and_eq_true,
            decide_eq_true_eq, Bool.and_eq_false_iff, decide_eq_false_iff_not, ← UInt16.toNat_inj,
            UInt16.le_iff_toNat_le, UInt16.reduceToNat] at letter ⊢
          omega
        · rfl
      obtain ⟨space, arrow, mark, double, single⟩ :=
        word_cases (first.imp_right .inr : isNameStart unit = true ∨ isDigit unit = true ∨ unit = 0x40)
      rw [List.cons_append] at taken ⊢
      rw [tokenPass, if_neg (Bool.eq_false_iff.mp space), if_neg fun both => arrow both.1, mark]
      dsimp only
      rw [if_neg (not_or.mpr ⟨double, single⟩), if_neg fun both => arrow both.1,
        if_neg (Bool.eq_false_iff.mp digit), if_pos more, taken]

/-- **Tokens with white space around them are read back**, if what follows each cannot belong to it. -/
theorem tokenize_spelled (spelled : Spelled Apart tokens text) : tokenize text = .ok tokens := by
  refine Lexing.lex_of_pieces ?_
  induction spelled with
  | done => exact .done
  | @gap unit tokens text space _ ih =>
    refine @Lexing.Pieces.piece _ _ _ _ [] _ [unit] _ (List.cons_ne_nil _ _) ?_ ih
    rw [List.singleton_append, tokenPass, if_pos space]
    rfl
  | token spelling ends _ ih =>
    obtain ⟨nonempty, read⟩ := tokenPass_spelling spelling ends
    exact .piece nonempty read ih

end

end PiCrew.Workflow.ChainDsl
