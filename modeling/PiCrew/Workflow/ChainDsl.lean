/-
**The chain language.**

A chain is a list of steps with arrows between them, a step is named or a group of steps that run in
parallel, and either may have a loop count, the flag for the context and quoted arguments behind it. The
parser goes down into groups by recursion, to a bound.

* `parseStep_settled` — a step that was read is no deeper than the bound, and its loop counts are in range;
* `parseChainDSL_printed` — a chain in print is read back, and one that was read can be printed.
-/

import Mathlib.Data.List.Chain
import PiCrew.Workflow.ChainTokens

namespace PiCrew.Workflow.ChainDsl

open JsonText Lexing
open EventLog.LogStats (isSpace)

/-- The options of a step. Those that are absent are `none`, `false` and no arguments. -/
structure Modifiers where
  loopCount : Option Nat
  withContext : Bool
  args : List Text
  deriving DecidableEq

/-- **A step of a chain.** A group is named `parallel` and has a member at least. -/
inductive ChainStep where
  | step (name : Text) (modifiers : Modifiers)
  | parallel (first : ChainStep) (others : List ChainStep) (modifiers : Modifiers)

def expected (type : TokenType) : List Token → Text
  | [] => units ("Expected " ++ type.text ++ " but reached end of chain DSL")
  | token :: _ =>
    units ("Expected " ++ type.text ++ " but got " ++ token.type.text ++ "('") ++ token.value ++ units "')"

def consume (type : TokenType) (tokens : List Token) : Except Text (Token × List Token) :=
  match tokens with
  | [] => .error (expected type tokens)
  | token :: rest => if token.type = type then .ok (token, rest) else .error (expected type tokens)

/-- `Number.parseInt(num.value, 10)` -/
def parseInt (digits : Text) : Nat := digits.foldl (fun value unit => 10 * value + (unit.toNat - 0x30)) 0

/-- `Math.min(10, Math.max(1, count))` -/
def clamp (count : Nat) : Nat := min 10 (max 1 count)

def parallelToken : Token := ⟨.name, units "parallel"⟩

def contextToken : Token := ⟨.flag, units "with-context"⟩

def parseModifiers (step : Modifiers) : List Token → Except Text (Modifiers × List Token)
  | [] => .ok (step, [])
  | token :: rest =>
    if token.type = .colon then
      match rest with
      | [] => .error (expected .number [])
      | number :: rest =>
        if number.type = .number then
          parseModifiers { step with loopCount := some (clamp (parseInt number.value)) } rest
        else .error (expected .number (number :: rest))
    else if token = contextToken then parseModifiers { step with withContext := true } rest
    else if token.type = .quoted then parseModifiers { step with args := step.args ++ [token.value] } rest
    else .ok (step, token :: rest)

def maxChainNesting : Nat := 100

def tooDeep : Text := units ("Chain DSL nesting too deep (max " ++ toString maxChainNesting ++
    "); likely unbalanced or malicious input")

/-- **A step**, where groups may still be nested so many levels deep. At depth zero there are levels for
`maxChainNesting` groups and the step within them. -/
def parseStep : Nat → List Token → Except Text (ChainStep × List Token)
  | 0, _ => .error tooDeep
  | levels + 1, tokens =>
    if tokens.head? = some parallelToken then
      do
        let (_, rest) ← consume .lparen tokens.tail
        let ((first, others), rest) ← separated (parseStep levels) (fun token => token.type = .comma) rest
        let (_, rest) ← consume .rparen rest
        let (modifiers, rest) ← parseModifiers ⟨none, false, []⟩ rest
        .ok (.parallel first others modifiers, rest)
    else
      do
        let (name, rest) ←
          consume (if tokens.head?.map Token.type = some .quoted then .quoted else .name) tokens
        let (modifiers, rest) ← parseModifiers ⟨none, false, []⟩ rest
        .ok (.step name.value modifiers, rest)

def parse (tokens : List Token) : Except Text (List ChainStep) := do
  let ((first, others), rest) ←
    separated (parseStep (maxChainNesting + 1)) (fun token => token.type = .arrow) tokens
  match rest with
  | [] => .ok (first :: others)
  | token :: _ =>
    .error (units "Unexpected token '" ++ token.value ++
      units ("' at position " ++ toString (tokens.length - rest.length)))

def parseChainDSL (input : Text) : Except Text (List ChainStep) := do parse (← tokenize input)

def colonToken : Token := ⟨.colon, units ":"⟩

def commaToken : Token := ⟨.comma, units ","⟩

def lparenToken : Token := ⟨.lparen, units "("⟩

def rparenToken : Token := ⟨.rparen, units ")"⟩

def arrowToken : Token := ⟨.arrow, units "->"⟩

def decimal (number : Nat) : Text := (Nat.toDigits 10 number).map fun digit => digit.toNat.toUInt16

def nameToken (name : Text) : Token :=
  if isName name ∧ name ≠ units "parallel" then ⟨.name, name⟩ else ⟨.quoted, name⟩

def Modifiers.tokens (modifiers : Modifiers) : List Token := (match modifiers.loopCount with
    | none => []
    | some count => [colonToken, ⟨.number, decimal count⟩]) ++
  ((if modifiers.withContext then [contextToken] else []) ++ modifiers.args.map fun arg => ⟨.quoted, arg⟩)

mutual

def ChainStep.tokens : ChainStep → List Token
  | .step name modifiers => nameToken name :: modifiers.tokens
  | .parallel first others modifiers =>
    parallelToken :: lparenToken ::
      (first.tokens ++ (ChainStep.tokensBehind others ++ rparenToken :: modifiers.tokens))

def ChainStep.tokensBehind : List ChainStep → List Token
  | [] => []
  | member :: members => commaToken :: (member.tokens ++ ChainStep.tokensBehind members)

end

def chainTokens : List ChainStep → List Token
  | [] => []
  | step :: steps => step.tokens ++ laterPrinted ChainStep.tokens arrowToken steps

def Spaced (token : Token) (rest : Text) : Prop :=
  token.type = .name ∨ token.type = .flag → rest.head? ≠ some dash

/-- **A chain in print**, with any white space around its tokens, and some between a name or a flag and an
arrow or a flag behind it. -/
def Printed (chain : List ChainStep) (text : Text) : Prop :=
  chain ≠ [] ∧ Spelled Spaced (chainTokens chain) text

def escapeQuoted : Text → Text
  | [] => []
  | unit :: text =>
    if unit = 0x22 ∨ unit = backslash then backslash :: unit :: escapeQuoted text
    else unit :: escapeQuoted text

def Token.print (token : Token) : Text :=
  match token.type with
  | .quoted => 0x22 :: (escapeQuoted token.value ++ [0x22])
  | .flag => dash :: dash :: token.value
  | _ => token.value

def printChain (chain : List ChainStep) : Text := (chainTokens chain).flatMap fun token => token.print ++ [0x20]

def Modifiers.clamped (modifiers : Modifiers) : Modifiers :=
  { modifiers with loopCount := modifiers.loopCount.map clamp }

mutual

/-- **A step with its loop counts in range.** -/
def ChainStep.clamped : ChainStep → ChainStep
  | .step name modifiers => .step name modifiers.clamped
  | .parallel first others modifiers =>
    .parallel first.clamped (ChainStep.clampedAll others) modifiers.clamped

def ChainStep.clampedAll : List ChainStep → List ChainStep
  | [] => []
  | member :: members => member.clamped :: ChainStep.clampedAll members

end

mutual

def ChainStep.nesting : ChainStep → Nat
  | .step _ _ => 0
  | .parallel first others _ => max first.nesting (ChainStep.nestingAll others) + 1

def ChainStep.nestingAll : List ChainStep → Nat
  | [] => 0
  | member :: members => max member.nesting (ChainStep.nestingAll members)

end

section

variable {modifiers : Modifiers} {step : ChainStep} {tokens rest : List Token}

def Ended (rest : List Token) : Prop :=
  ∀ token ∈ rest.head?, token.type ≠ .colon ∧ token ≠ contextToken ∧ token.type ≠ .quoted

theorem consume_head {type : TokenType} {token : Token} (same : token.type = type) :
    consume type (token :: rest) = .ok (token, rest) := if_pos same

theorem clamp_clamp (count : Nat) : clamp (clamp count) = clamp count := by
  simp only [clamp]
  omega

theorem digit_range {char : Char} (digit : char.isDigit = true) : 0x30 ≤ char.toNat ∧ char.toNat ≤ 0x39 :=
  Char.isDigit_iff_toNat.mp digit

theorem decimal_digits {digit : UInt16} {number : Nat} (within : digit ∈ decimal number) :
    isDigit digit = true := by
  obtain ⟨char, member, rfl⟩ := List.mem_map.mp within
  have range := digit_range (Nat.isDigit_of_mem_toDigits (by decide) (by decide) member)
  simp only [isDigit, Bool.and_eq_true, decide_eq_true_eq, UInt16.le_iff_toNat_le, UInt16.reduceToNat,
    UInt16.toNat_ofNat']
  omega

theorem parseInt_decimal (number : Nat) : parseInt (decimal number) = number := by
  have units : ∀ digits : List Char, (∀ digit ∈ digits, digit.isDigit = true) → ∀ value,
      (digits.map fun digit => digit.toNat.toUInt16).foldl
        (fun value unit => 10 * value + (unit.toNat - 0x30)) value = Nat.ofDigitChars 10 digits value := by
    intro digits valid
    induction digits with
    | nil =>
      intro value
      rfl
    | cons digit digits ih =>
      intro value
      obtain ⟨first, others⟩ := List.forall_mem_cons.mp valid
      have range := digit_range first
      have small : digit.toNat.toUInt16.toNat = digit.toNat := by
        rw [UInt16.toNat_ofNat']
        omega
      rw [List.map_cons, List.foldl_cons, ih others, Nat.ofDigitChars_cons, small]
      rfl
  rw [parseInt, decimal, units _ fun digit within => Nat.isDigit_of_mem_toDigits (by decide) (by decide) within]
  exact Nat.ofDigitChars_ten_toDigits

theorem parseModifiers_loop (digits : Text) :
    parseModifiers modifiers (colonToken :: ⟨.number, digits⟩ :: rest) =
      parseModifiers { modifiers with loopCount := some (clamp (parseInt digits)) } rest := rfl

theorem parseModifiers_context : parseModifiers modifiers (contextToken :: rest) =
    parseModifiers { modifiers with withContext := true } rest := by
  conv_lhs => unfold parseModifiers
  exact (if_neg (by decide)).trans (if_pos rfl)

theorem parseModifiers_arg (arg : Text) : parseModifiers modifiers (⟨.quoted, arg⟩ :: rest) =
    parseModifiers { modifiers with args := modifiers.args ++ [arg] } rest := by
  have other : (⟨.quoted, arg⟩ : Token) ≠ contextToken := fun same => by cases congrArg Token.type same
  conv_lhs => unfold parseModifiers
  exact (if_neg nofun).trans ((if_neg other).trans (if_pos rfl))

theorem parseModifiers_ended (ends : Ended rest) : parseModifiers modifiers rest = .ok (modifiers, rest) := by
  cases rest with
  | nil => rfl
  | cons token rest =>
    obtain ⟨colon, context, quoted⟩ := ends token rfl
    unfold parseModifiers
    rw [if_neg colon, if_neg context, if_neg quoted]

theorem parseModifiers_args (args : List Text) (ends : Ended rest) :
    parseModifiers modifiers (args.map (fun arg => ⟨.quoted, arg⟩) ++ rest) =
      .ok ({ modifiers with args := modifiers.args ++ args }, rest) := by
  induction args generalizing modifiers with
  | nil =>
    rw [List.append_nil]
    exact parseModifiers_ended ends
  | cons arg args ih =>
    rw [List.map_cons, List.cons_append, parseModifiers_arg, ih, List.append_assoc]
    rfl

theorem parseModifiers_tokens (ends : Ended rest) :
    parseModifiers ⟨none, false, []⟩ (modifiers.tokens ++ rest) = .ok (modifiers.clamped, rest) := by
  obtain ⟨loopCount, withContext, args⟩ := modifiers
  have context (count : Option Nat) : parseModifiers ⟨count, false, []⟩
      ((if withContext then [contextToken] else []) ++ (args.map (fun arg => ⟨.quoted, arg⟩) ++ rest)) =
        .ok (⟨count, withContext, args⟩, rest) := by
    cases withContext with
    | false => exact parseModifiers_args args ends
    | true =>
      rw [if_pos rfl, List.singleton_append, parseModifiers_context]
      exact parseModifiers_args args ends
  simp only [Modifiers.tokens, List.append_assoc]
  cases loopCount with
  | none => exact context none
  | some count =>
    dsimp only [List.cons_append]
    rw [parseModifiers_loop, parseInt_decimal]
    exact context (some (clamp count))

theorem tokensBehind_eq (members : List ChainStep) :
    ChainStep.tokensBehind members = laterPrinted ChainStep.tokens commaToken members := by
  induction members with
  | nil => rfl
  | cons member members ih => rw [ChainStep.tokensBehind, laterPrinted, ih]

theorem clampedAll_eq (members : List ChainStep) :
    ChainStep.clampedAll members = members.map ChainStep.clamped := by
  induction members with
  | nil => rfl
  | cons member members ih => rw [ChainStep.clampedAll, List.map_cons, ih]

theorem nesting_parallel {first : ChainStep} {others : List ChainStep} {levels : Nat} :
    (ChainStep.parallel first others modifiers).nesting < levels + 1 ↔
      ∀ member ∈ first :: others, member.nesting < levels := by
  have all (members : List ChainStep) (positive : 0 < levels) : ChainStep.nestingAll members < levels ↔
      ∀ member ∈ members, member.nesting < levels := by
    induction members with
    | nil => simpa [ChainStep.nestingAll] using positive
    | cons member members ih => rw [ChainStep.nestingAll, Nat.max_lt, ih, List.forall_mem_cons]
  rw [ChainStep.nesting, Nat.add_lt_add_iff_right, Nat.max_lt, List.forall_mem_cons]
  refine and_congr_right fun below => all others (Nat.lt_of_le_of_lt (Nat.zero_le _) below)

theorem nameToken_cases (name : Text) : nameToken name ≠ parallelToken ∧ (nameToken name).value = name ∧
    ((nameToken name).type = .name ∨ (nameToken name).type = .quoted) := by
  rw [nameToken]
  split
  · next plain => exact ⟨fun same => plain.2 (congrArg Token.value same), rfl, .inl rfl⟩
  · exact ⟨fun same => (by cases congrArg Token.type same), rfl, .inr rfl⟩

/-- **A step is read back** from its tokens, unless groups stand too deep in it. -/
theorem parseStep_tokens (levels : Nat) (step : ChainStep) {rest : List Token} (ends : Ended rest) :
    parseStep levels (step.tokens ++ rest) =
      if step.nesting < levels then .ok (step.clamped, rest) else .error tooDeep := by
  induction levels generalizing step rest with
  | zero => rfl
  | succ levels ih =>
    cases step with
    | step name modifiers =>
      obtain ⟨other, value, type⟩ := nameToken_cases name
      rw [if_pos (show ChainStep.nesting (.step name modifiers) < levels + 1 from Nat.succ_pos levels),
        ChainStep.tokens, List.cons_append, parseStep,
        List.head?_cons, if_neg fun same => other (Option.some.inj same), Option.map_some]
      have read : (nameToken name).type =
          if some (nameToken name).type = some .quoted then .quoted else .name := by
        rcases type with type | type <;> simp [type]
      rw [consume_head read]
      dsimp only [bind, Except.bind]
      rw [parseModifiers_tokens ends, value]
      rfl
    | parallel first others modifiers =>
      have members := @separated_printed _ _ _ _ (parseStep levels) (fun token => token.type = .comma)
        ChainStep.tokens ChainStep.clamped (fun member => member.nesting < levels) _ tooDeep Ended
        commaToken first others (rparenToken :: (modifiers.tokens ++ rest))
        (fun member _ rest ends => ih member ends) rfl (by simp [Ended, commaToken, contextToken])
        (by simp [Ended, rparenToken, contextToken]) (by simp [rparenToken])
      rw [ChainStep.tokens, List.cons_append, List.cons_append, parseStep, List.head?_cons, if_pos rfl,
        List.tail_cons, List.append_assoc, List.append_assoc, List.cons_append, tokensBehind_eq,
        @consume_head _ .lparen lparenToken rfl]
      dsimp only [bind, Except.bind]
      rw [members]
      by_cases fits : ∀ member ∈ first :: others, member.nesting < levels
      · rw [if_pos fits, if_pos (nesting_parallel.mpr fits)]
        dsimp only
        rw [@consume_head _ .rparen rparenToken rfl]
        dsimp only
        rw [parseModifiers_tokens ends, ChainStep.clamped, clampedAll_eq]
      · rw [if_neg fits, if_neg fun small => fits (nesting_parallel.mp small)]

end

section

variable {chain : List ChainStep} {tokens : List Token} {text : Text}

theorem parse_tokens (nonempty : chain ≠ []) : parse (chainTokens chain) =
    if ∀ step ∈ chain, step.nesting ≤ maxChainNesting then .ok (chain.map ChainStep.clamped)
    else .error tooDeep := by
  obtain ⟨first, others, rfl⟩ := List.exists_cons_of_ne_nil nonempty
  have steps := @separated_printed _ _ _ _ (parseStep (maxChainNesting + 1)) (fun token => token.type = .arrow)
    ChainStep.tokens ChainStep.clamped (fun step => step.nesting < maxChainNesting + 1) _ tooDeep Ended
    arrowToken first others [] (fun step _ rest ends => parseStep_tokens _ step ends) rfl
    (by simp [Ended, arrowToken, contextToken]) (by simp [Ended]) (by simp)
  rw [List.append_nil] at steps
  simp only [Nat.lt_succ_iff] at steps
  rw [chainTokens, parse, steps]
  split <;> rfl

theorem parseModifiers_settled {step modifiers : Modifiers} {tokens rest : List Token}
    (settled : step.loopCount.map clamp = step.loopCount)
    (read : parseModifiers step tokens = .ok (modifiers, rest)) : modifiers.clamped = modifiers := by
  fun_induction parseModifiers step tokens with
  | case1 step =>
    cases read
    rw [Modifiers.clamped, settled]
  | case2 => cases read
  | case3 step _ _ number rest _ ih =>
    refine ih ?_ read
    rw [Option.map_some, clamp_clamp]
  | case4 => cases read
  | case5 step rest _ ih | case6 step token rest _ _ _ ih => exact ih settled read
  | case7 =>
    cases read
    rw [Modifiers.clamped, settled]

/-- **A step that was read** is no deeper than the bound, and its loop counts are in range. -/
theorem parseStep_settled (levels : Nat) {tokens rest : List Token} {step : ChainStep}
    (read : parseStep levels tokens = .ok (step, rest)) : step.nesting < levels ∧ step.clamped = step := by
  induction levels generalizing tokens step rest with
  | zero => cases read
  | succ levels ih =>
    rw [parseStep] at read
    split at read
    · obtain ⟨⟨_, behind⟩, -, read⟩ := bind_eq_ok.mp read
      obtain ⟨⟨⟨first, others⟩, closing⟩, members, read⟩ := bind_eq_ok.mp read
      obtain ⟨⟨_, closed⟩, -, read⟩ := bind_eq_ok.mp read
      obtain ⟨⟨modifiers, last⟩, options, read⟩ := bind_eq_ok.mp read
      cases read
      have each := separated_all (fun _ _ _ one => ih one) members
      refine ⟨nesting_parallel.mpr fun member within => (each member within).1, ?_⟩
      rw [ChainStep.clamped, parseModifiers_settled rfl options, clampedAll_eq,
        (each first List.mem_cons_self).2,
        List.map_congr_left fun member within => (each member (List.mem_cons_of_mem _ within)).2,
        List.map_id']
    · obtain ⟨⟨name, behind⟩, -, read⟩ := bind_eq_ok.mp read
      obtain ⟨⟨modifiers, last⟩, options, read⟩ := bind_eq_ok.mp read
      cases read
      exact ⟨Nat.succ_pos _, by rw [ChainStep.clamped, parseModifiers_settled rfl options]⟩

theorem parse_settled (read : parse tokens = .ok chain) : chain ≠ [] ∧
    (∀ step ∈ chain, step.nesting ≤ maxChainNesting) ∧ chain.map ChainStep.clamped = chain := by
  obtain ⟨⟨⟨first, others⟩, rest⟩, steps, read⟩ := bind_eq_ok.mp read
  have each := separated_all (fun _ _ _ one => parseStep_settled _ one) steps
  cases rest with
  | cons token rest => cases read
  | nil =>
    cases read
    refine ⟨List.cons_ne_nil _ _, fun step within => Nat.lt_succ_iff.mp (each step within).1, ?_⟩
    rw [List.map_congr_left fun step within => (each step within).2, List.map_id']

end

section

variable {token : Token} {tokens rest : List Token} {text : Text}

def Follows (first second : Token) : Prop :=
  first.type = .name ∨ first.type = .flag ∨ first.type = .number → second.type ≠ .name ∧ second.type ≠ .number

def Loose (tokens : List Token) : Prop :=
  tokens.IsChain Follows ∧ ∀ token ∈ tokens.head?, token.type ≠ .name ∧ token.type ≠ .number

theorem Loose.behind (loose : Loose rest) : (token :: rest).IsChain Follows := by
  cases rest with
  | nil => exact .singleton _
  | cons next rest => exact List.isChain_cons_cons.mpr ⟨fun _ => loose.2 next rfl, loose.1⟩

theorem loose_cons (other : token.type ≠ .name ∧ token.type ≠ .number) (loose : Loose rest) :
    Loose (token :: rest) :=
  ⟨loose.behind, fun _ same => (Option.some.inj same) ▸ other⟩

theorem loose_mark (mark : token.type ≠ .name ∧ token.type ≠ .flag ∧ token.type ≠ .number)
    (chain : rest.IsChain Follows) : Loose (token :: rest) := by
  refine ⟨?_, fun _ same => (Option.some.inj same) ▸ ⟨mark.1, mark.2.2⟩⟩
  cases rest with
  | nil => exact .singleton _
  | cons next rest => exact List.isChain_cons_cons.mpr ⟨fun word => by simp_all, chain⟩

theorem loose_modifiers (modifiers : Modifiers) (loose : Loose rest) : Loose (modifiers.tokens ++ rest) := by
  have args (args : List Text) : Loose (args.map (fun arg => ⟨.quoted, arg⟩) ++ rest) := by
    induction args with
    | nil => exact loose
    | cons arg args ih => exact loose_cons (by simp) ih
  have context : Loose ((if modifiers.withContext then [contextToken] else []) ++
      (modifiers.args.map (fun arg => ⟨.quoted, arg⟩) ++ rest)) := by
    split
    · exact loose_cons (by simp [contextToken]) (args _)
    · exact args _
  simp only [Modifiers.tokens, List.append_assoc]
  split
  · exact context
  · exact loose_mark (by simp [colonToken]) context.behind

mutual

theorem chain_step : ∀ step : ChainStep, ∀ rest, Loose rest → (step.tokens ++ rest).IsChain Follows
  | .step _ modifiers, _, loose => (loose_modifiers modifiers loose).behind
  | .parallel first others modifiers, rest, loose => by
    rw [ChainStep.tokens, List.cons_append, List.cons_append, List.append_assoc, List.append_assoc]
    refine (loose_mark (by simp [lparenToken]) (chain_step first _ (loose_behind others _ ?_))).behind
    exact loose_cons (by simp [rparenToken]) (loose_modifiers modifiers loose)

theorem loose_behind : ∀ members : List ChainStep, ∀ rest, Loose rest →
    Loose (ChainStep.tokensBehind members ++ rest)
  | [], _, loose => loose
  | member :: members, rest, loose => by
    rw [ChainStep.tokensBehind, List.cons_append, List.append_assoc]
    exact loose_mark (by simp [commaToken]) (chain_step member _ (loose_behind members _ loose))

end

theorem chain_tokens (chain : List ChainStep) : (chainTokens chain).IsChain Follows := by
  have empty : Loose [] := ⟨.nil, by simp⟩
  have later (steps : List ChainStep) : Loose (laterPrinted ChainStep.tokens arrowToken steps) := by
    induction steps with
    | nil => exact empty
    | cons step steps ih => exact loose_mark (by simp [arrowToken]) (chain_step step _ ih)
  cases chain with
  | nil => exact .nil
  | cons step steps => exact chain_step step _ (later steps)

end

section

variable {apart : Token → Text → Prop} {token : Token} {tokens : List Token} {chain : List ChainStep}
  {text : Text}

theorem nameUnit_cases {unit : UInt16} (name : isNameUnit unit = true) :
    isSpace unit = false ∧ markType unit = none ∧ unit ≠ 0x22 ∧ unit ≠ 0x27 := by
  simp only [isNameUnit, isFlagUnit, isNameStart, isLetter, isDigit, isSpace, markType_none, dash,
    Bool.or_eq_true, Bool.and_eq_true, decide_eq_true_eq, Bool.or_eq_false_iff, Bool.and_eq_false_iff,
    decide_eq_false_iff_not, ne_eq, ← UInt16.toNat_inj, UInt16.le_iff_toNat_le,
    UInt16.reduceToNat] at name ⊢
  omega

theorem spelled_head (spelled : Spelled apart tokens text) : ∀ unit ∈ text.head?, isNameUnit unit = true →
    unit = dash ∨ ∃ token ∈ tokens.head?, token.type = .name ∨ token.type = .number := by
  intro unit first name
  obtain ⟨space, mark, double, single⟩ := nameUnit_cases name
  cases spelled with
  | done => cases first
  | gap gap =>
    cases first
    rw [space] at gap
    cases gap
  | token spelling =>
    cases spelling with
    | arrow =>
      cases first
      exact .inl rfl
    | mark found =>
      cases first
      rw [mark] at found
      cases found
    | quoted quotes =>
      cases first
      exact absurd quotes (not_or.mpr ⟨double, single⟩)
    | flag =>
      cases first
      exact .inl rfl
    | number => exact .inr ⟨_, rfl, .inr rfl⟩
    | name => exact .inr ⟨_, rfl, .inl rfl⟩

theorem spelled_apart (loose : tokens.IsChain Follows) (spelled : Spelled Spaced tokens text) :
    Spelled Apart tokens text := by
  induction spelled with
  | done => exact .done
  | gap space _ ih => exact .gap space (ih loose)
  | @token token piece tokens rest spelling spaced later ih =>
    refine .token spelling (fun unit first => ?_) (ih (List.isChain_cons.mp loose).2)
    have other (word : token.type = .name ∨ token.type = .flag ∨ token.type = .number)
        (undashed : unit ≠ dash) : isNameUnit unit = false := by
      by_contra name
      rcases spelled_head later unit first (Bool.eq_true_of_not_eq_false name) with
        dashed | ⟨second, here, type⟩
      · exact undashed dashed
      · obtain ⟨unnamed, unnumbered⟩ := (List.isChain_cons.mp loose).1 second here word
        exact type.elim unnamed unnumbered
    have undashed (word : token.type = .name ∨ token.type = .flag) : unit ≠ dash := by
      rintro rfl
      exact spaced word first
    refine ⟨fun name => other (.inl name) (undashed (.inl name)), fun flag => ?_, fun number => ?_⟩
    · exact ((Bool.or_eq_false_iff.mp ((Bool.or_eq_false_iff.mp
        (other (.inr (.inl flag)) (undashed (.inr flag)))).1)).1)
    · by_cases dashed : unit = dash
      · rw [dashed]
        rfl
      · have name := other (.inr (.inr number)) dashed
        simp only [isNameUnit, isFlagUnit, Bool.or_eq_false_iff] at name
        exact name.1.1.1.2

theorem escaped_escapeQuoted (text : Text) : Escaped 0x22 text (escapeQuoted text) := by
  induction text with
  | nil => exact .nil
  | cons unit text ih =>
    rw [escapeQuoted]
    split
    · exact .escape ih
    · next plain => exact .plain (fun same => plain (.inl same)) (fun same => plain (.inr same)) ih

theorem spelling_quoted (text : Text) : Spelling ⟨.quoted, text⟩ (Token.print ⟨.quoted, text⟩) :=
  .quoted (.inl rfl) (escaped_escapeQuoted text)

theorem spelling_modifiers (modifiers : Modifiers) :
    ∀ token ∈ modifiers.tokens, Spelling token token.print := by
  intro token within
  rcases List.mem_append.mp within with loop | within
  · split at loop
    · cases loop
    · next count _ =>
        have digits : Spelling ⟨.number, decimal count⟩ (decimal count) :=
          .number (fun empty => Nat.toDigits_ne_nil (List.map_eq_nil_iff.mp empty))
            (List.all_eq_true.mpr fun _ => decimal_digits)
        rcases List.mem_cons.mp loop with rfl | loop
        · exact @Spelling.mark 0x3A _ rfl
        · rw [List.mem_singleton.mp loop]
          exact digits
  · rcases List.mem_append.mp within with context | args
    · split at context
      · rw [List.mem_singleton.mp context]
        exact .flag (by decide)
      · cases context
    · obtain ⟨arg, -, rfl⟩ := List.mem_map.mp args
      exact spelling_quoted arg

theorem spelling_name (name : Text) : Spelling (nameToken name) (nameToken name).print := by
  rw [nameToken]
  split
  · next plain => exact .name plain.1
  · exact spelling_quoted name

mutual

theorem spelling_step : ∀ step : ChainStep, ∀ token ∈ step.tokens, Spelling token token.print
  | .step name modifiers => List.forall_mem_cons.mpr ⟨spelling_name name, spelling_modifiers modifiers⟩
  | .parallel first others modifiers => by
    refine List.forall_mem_cons.mpr ⟨.name (by decide),
      List.forall_mem_cons.mpr ⟨@Spelling.mark 0x28 _ rfl, ?_⟩⟩
    refine List.forall_mem_append.mpr ⟨spelling_step first,
      List.forall_mem_append.mpr ⟨spelling_behind others, ?_⟩⟩
    exact List.forall_mem_cons.mpr ⟨@Spelling.mark 0x29 _ rfl, spelling_modifiers modifiers⟩

theorem spelling_behind : ∀ members : List ChainStep,
    ∀ token ∈ ChainStep.tokensBehind members, Spelling token token.print
  | [] => List.forall_mem_nil _
  | member :: members => List.forall_mem_cons.mpr ⟨@Spelling.mark 0x2C _ rfl,
      List.forall_mem_append.mpr ⟨spelling_step member, spelling_behind members⟩⟩

end

theorem spelling_tokens (chain : List ChainStep) : ∀ token ∈ chainTokens chain, Spelling token token.print := by
  have later (steps : List ChainStep) :
      ∀ token ∈ laterPrinted ChainStep.tokens arrowToken steps, Spelling token token.print := by
    induction steps with
    | nil => exact List.forall_mem_nil _
    | cons step steps ih =>
      exact List.forall_mem_cons.mpr ⟨.arrow, List.forall_mem_append.mpr ⟨spelling_step step, ih⟩⟩
  cases chain with
  | nil => exact List.forall_mem_nil _
  | cons step steps => exact List.forall_mem_append.mpr ⟨spelling_step step, later steps⟩

theorem printed_printChain (nonempty : chain ≠ []) : Printed chain (printChain chain) := by
  refine ⟨nonempty, ?_⟩
  have valid := spelling_tokens chain
  rw [printChain]
  generalize chainTokens chain = tokens at valid
  induction tokens with
  | nil => exact .done
  | cons token tokens ih =>
    obtain ⟨first, others⟩ := List.forall_mem_cons.mp valid
    rw [List.flatMap_cons, List.append_assoc, List.singleton_append]
    exact .token first nofun (.gap (by decide) (ih others))

theorem parseChainDSL_of_printed (printed : Printed chain text) : parseChainDSL text =
    if ∀ step ∈ chain, step.nesting ≤ maxChainNesting then .ok (chain.map ChainStep.clamped)
    else .error tooDeep := by
  obtain ⟨nonempty, spelled⟩ := printed
  rw [parseChainDSL, tokenize_spelled (spelled_apart (chain_tokens chain) spelled), ← parse_tokens nonempty]
  rfl

/-- **A chain in print is read back** with its loop counts in range, if its groups are nested at most a
hundred deep, and a chain that was read can be printed and is read again from every print. -/
theorem parseChainDSL_printed :
    (∀ (chain : List ChainStep) (text : Text), Printed chain text → parseChainDSL text =
      if ∀ step ∈ chain, step.nesting ≤ maxChainNesting then .ok (chain.map ChainStep.clamped)
      else .error tooDeep) ∧
    ∀ (text : Text) (chain : List ChainStep), parseChainDSL text = .ok chain →
      Printed chain (printChain chain) ∧ ∀ again, Printed chain again → parseChainDSL again = .ok chain := by
  refine ⟨fun chain text => parseChainDSL_of_printed, fun text chain read => ?_⟩
  obtain ⟨tokens, -, read⟩ := bind_eq_ok.mp read
  obtain ⟨nonempty, shallow, settled⟩ := parse_settled read
  refine ⟨printed_printChain nonempty, fun again printed => ?_⟩
  rw [parseChainDSL_of_printed printed, if_pos shallow, settled]

end

def plainStep (name : String) : ChainStep := .step (units name) ⟨none, false, []⟩

def grouped : Nat → ChainStep
  | 0 => plainStep "a"
  | levels + 1 => .parallel (grouped levels) [] ⟨none, false, []⟩

theorem nesting_grouped (levels : Nat) : (grouped levels).nesting = levels := by
  induction levels with
  | zero => rfl
  | succ levels ih => rw [grouped, ChainStep.nesting, ih, ChainStep.nestingAll, Nat.max_zero]

theorem parseChainDSL_printed_group :
    parseChainDSL (units "parallel ( a : 12 , b ) -> c ") =
      .ok [.parallel (.step (units "a") ⟨some 10, false, []⟩) [plainStep "b"] ⟨none, false, []⟩,
        plainStep "c"] :=
  parseChainDSL_printed.1 [.parallel (.step (units "a") ⟨some 12, false, []⟩) [plainStep "b"]
    ⟨none, false, []⟩, plainStep "c"] _ (printed_printChain (List.cons_ne_nil _ _))

/-- **The dash of an arrow is read as part of a name before it**, and groups stand too deep beyond the
bound. -/
theorem parseChainDSL_joins_dash :
    (Spelled (fun _ _ => True) (chainTokens [plainStep "a", plainStep "b"]) (units "a->b") ∧
      parseChainDSL (units "a->b") = .error (units "Unexpected character '>' at position 2 in chain DSL")) ∧
    Printed [grouped 101] (printChain [grouped 101]) ∧
      parseChainDSL (printChain [grouped 101]) = .error tooDeep := by
  have printed : Printed [grouped 101] (printChain [grouped 101]) := printed_printChain (by decide)
  refine ⟨⟨?_, rfl⟩, printed, ?_⟩
  · exact .token (@Spelling.name (units "a") (by decide)) trivial
      (.token .arrow trivial (.token (@Spelling.name (units "b") (by decide)) trivial .done))
  · rw [parseChainDSL_of_printed printed, if_neg]
    intro shallow
    have deep := shallow _ List.mem_cons_self
    rw [nesting_grouped] at deep
    exact absurd deep (by decide)

end PiCrew.Workflow.ChainDsl
