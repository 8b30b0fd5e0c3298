/-
**Texts as tokens, and tokens as trees.**

A lexer reads a text in passes. Each looks at the rest of the text, puts tokens out and goes on by some
items, or ends with an error that knows its place. A parser reads items with separators between them.

* `separated_all` — what holds of every item that can be read holds of all that are.
-/

import Mathlib.Data.List.Basic

namespace Lexing

section

variable {α τ ε : Type*}

abbrev Pass (α τ ε : Type*) := List α → Except (Nat → ε) (List τ × Nat)

variable (pass : Pass α τ ε)

def lexTimes : Nat → Nat → List α → Except ε (List τ)
  | 0, _, _ => .ok []
  | _ + 1, _, [] => .ok []
  | times + 1, place, item :: rest =>
    match pass (item :: rest) with
    | .error error => .error (error place)
    | .ok (tokens, length) =>
      (lexTimes times (place + length) ((item :: rest).drop length)).map (tokens ++ ·)

/-- **The tokens of a text.** Every pass goes on, so no text has more passes than items. -/
def lex (text : List α) : Except ε (List τ) := lexTimes pass text.length 0 text

inductive Pieces : List τ → List α → Prop where
  | done : Pieces [] []
  | piece {tokens later piece rest} : piece ≠ [] → pass (piece ++ rest) = .ok (tokens, piece.length) →
      Pieces later rest → Pieces (tokens ++ later) (piece ++ rest)

variable {pass}

theorem lex_of_pieces {tokens : List τ} {text : List α} (pieces : Pieces pass tokens text) :
    lex pass text = .ok tokens := by
  suffices whole : ∀ times place, text.length ≤ times → lexTimes pass times place text = .ok tokens from
    whole _ _ (Nat.le_refl _)
  induction pieces with
  | done =>
    intro times place _
    cases times <;> rfl
  | @piece tokens later piece rest nonempty read _ ih =>
    intro times place enough
    obtain ⟨item, behind, rfl⟩ := List.exists_cons_of_ne_nil nonempty
    cases times with
    | zero => simp at enough
    | succ times =>
      have read : pass (item :: (behind ++ rest)) = .ok (tokens, (item :: behind).length) := read
      have dropped : (item :: (behind ++ rest)).drop (item :: behind).length = rest :=
        @List.drop_left _ (item :: behind) rest
      rw [List.cons_append, lexTimes, read]
      dsimp only
      rw [dropped, ih]
      · rfl
      · simp only [List.length_append, List.length_cons] at enough
        omega

end

section

variable {β γ τ ε : Type*} (read : List τ → Except ε (β × List τ)) (isSeparator : τ → Bool)

/-- The items behind the first one, each behind its separator. -/
def laterItems : Nat → List τ → Except ε (List β × List τ)
  | 0, tokens => .ok ([], tokens)
  | _ + 1, [] => .ok ([], [])
  | times + 1, token :: rest =>
    if isSeparator token then
      match read rest with
      | .error error => .error error
      | .ok (item, rest) => (laterItems times rest).map fun (items, rest) => (item :: items, rest)
    else .ok ([], token :: rest)

/-- **One item or more**, with separators between them. A later item has its separator at least, so there
are no more of them than tokens. -/
def separated (tokens : List τ) : Except ε ((β × List β) × List τ) :=
  match read tokens with
  | .error error => .error error
  | .ok (item, rest) =>
    (laterItems read isSeparator rest.length rest).map fun (items, rest) => ((item, items), rest)

variable {read isSeparator}

theorem map_eq_ok {found : Except ε β} {f : β → γ} {value : γ} :
    found.map f = .ok value ↔ ∃ item, found = .ok item ∧ f item = value := by
  cases found <;> simp [Except.map]

theorem bind_eq_ok.{u} {β γ : Type u} {found : Except ε β} {f : β → Except ε γ} {value : γ} :
    (found >>= f) = .ok value ↔ ∃ item, found = .ok item ∧ f item = .ok value := by
  cases found <;> simp [bind, Except.bind]

/-- **What holds of every item that can be read** holds of all that are. -/
theorem separated_all {P : β → Prop} (each : ∀ tokens item rest, read tokens = .ok (item, rest) → P item)
    {tokens rest : List τ} {first : β} {others : List β}
    (all : separated read isSeparator tokens = .ok ((first, others), rest)) :
    ∀ item ∈ first :: others, P item := by
  have later {times tokens items rest} (all : laterItems read isSeparator times tokens = .ok (items, rest)) :
      ∀ item ∈ items, P item := by
    induction times generalizing tokens items rest with
    | zero =>
      cases all
      exact List.forall_mem_nil _
    | succ times ih =>
      cases tokens with
      | nil =>
        cases all
        exact List.forall_mem_nil _
      | cons token tokens =>
        rw [laterItems] at all
        split at all
        · split at all
          · cases all
          · next item behind first =>
              obtain ⟨⟨others, last⟩, found, same⟩ := map_eq_ok.mp all
              cases same
              exact List.forall_mem_cons.mpr ⟨each _ _ _ first, ih found⟩
        · cases all
          exact List.forall_mem_nil _
  rw [separated] at all
  split at all
  · cases all
  · next item behind first =>
      obtain ⟨⟨others, last⟩, found, same⟩ := map_eq_ok.mp all
      cases same
      exact List.forall_mem_cons.mpr ⟨each _ _ _ first, later found⟩

section

variable {print : γ → List τ} {value : γ → β} {fits : γ → Prop} [DecidablePred fits] {error : ε}
  {ended : List τ → Prop} {separator : τ} {first : γ} {others : List γ} {rest : List τ}

def laterPrinted (print : γ → List τ) (separator : τ) : List γ → List τ
  | [] => []
  | item :: items => separator :: (print item ++ laterPrinted print separator items)

/-- **Items that are read as they were printed** are read with the separators between them, or the first
that does not fit is not read. -/
theorem separated_printed (printed : ∀ item ∈ first :: others, ∀ rest, ended rest →
      read (print item ++ rest) = if fits item then .ok (value item, rest) else .error error)
    (marked : isSeparator separator = true) (ends : ∀ rest, ended (separator :: rest)) (last : ended rest)
    (behind : ∀ token ∈ rest.head?, isSeparator token = false) :
    separated read isSeparator (print first ++ (laterPrinted print separator others ++ rest)) =
      if ∀ item ∈ first :: others, fits item then .ok ((value first, others.map value), rest)
      else .error error := by
  have followed : ∀ items : List γ, ended (laterPrinted print separator items ++ rest) := by
    intro items
    cases items with
    | nil => exact last
    | cons item items => exact ends _
  obtain ⟨front, each⟩ := List.forall_mem_cons.mp printed
  have later : ∀ times, (laterPrinted print separator others ++ rest).length ≤ times →
      laterItems read isSeparator times (laterPrinted print separator others ++ rest) =
        if ∀ item ∈ others, fits item then .ok (others.map value, rest) else .error error := by
    clear printed front
    induction others with
    | nil =>
      intro times _
      rw [if_pos (List.forall_mem_nil _)]
      cases times with
      | zero => rfl
      | succ times =>
        cases rest with
        | nil => rfl
        | cons token rest =>
          have other := behind token rfl
          rw [laterPrinted, List.nil_append, laterItems, other]
          rfl
    | cons item items ih =>
      intro times enough
      obtain ⟨here, each⟩ := List.forall_mem_cons.mp each
      cases times with
      | zero => simp [laterPrinted] at enough
      | succ times =>
        rw [laterPrinted, List.cons_append, List.append_assoc, laterItems, if_pos marked,
          here _ (followed items)]
        by_cases fit : fits item
        · rw [if_pos fit]
          dsimp only
          rw [ih each times]
          · simp only [List.forall_mem_cons, fit, true_and]
            split <;> rfl
          · simp only [laterPrinted, List.length_append, List.length_cons] at enough ⊢
            omega
        · rw [if_neg fit, if_neg fun all => fit (all item List.mem_cons_self)]
  rw [separated, front _ (followed others)]
  by_cases fit : fits first
  · rw [if_pos fit]
    dsimp only
    rw [later _ (Nat.le_refl _)]
    simp only [List.forall_mem_cons, fit, true_and]
    split <;> rfl
  · rw [if_neg fit, if_neg fun all => fit (all first List.mem_cons_self)]

end

end

end Lexing
