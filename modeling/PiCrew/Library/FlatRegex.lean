/-
**Regular expressions without nesting, matched by backtracking.**

A pattern is a list of items: a repeated class of characters, greedy or lazy, or an anchor that looks at the
characters on both sides of a place. This is what a pattern without alternatives, and with groups around single
items only, comes to. A match is found as a backtracking engine finds it: an item tries its counts in the order
it prefers, and the first that lets the rest of the pattern match is taken.

* `searchFrom_skip` — characters at which no match begins are passed over;
* `findFrom_interleaved` — **all matches of a text**: pieces of it that follow one another.
-/

import Mathlib.Data.List.TakeWhile

namespace FlatRegex

/-- An item of a pattern. What a repeated class takes is filed under the group that it stands in. -/
inductive Item where
  | chars (test : Char → Bool) (least : Nat) (most : Option Nat) (isLazy : Bool) (group : Option Nat)
  | anchor (test : Option Char → Option Char → Bool)

/-- A match: all it takes, what its groups take, and what is left behind it. -/
structure Match where
  whole : List Char
  groups : List (Nat × List Char)
  rest : List Char
  deriving DecidableEq, Repr

def Match.group (found : Match) (number : Nat) : List Char :=
  (found.groups.filter fun entry => entry.1 == number).flatMap (·.2)

def Item.char (wanted : Char) : Item := .chars (· == wanted) 1 (some 1) false none

def literal (text : List Char) : List Item := text.map Item.char

/-- The counts that a repeated class may take of a text, in the order of its preference. -/
def counts (test : Char → Bool) (least : Nat) (most : Option Nat) (isLazy : Bool) (input : List Char) :
    List Nat :=
  let run := (input.takeWhile test).length
  let upper := (most.map (min · run)).getD run
  let rising := (List.range (upper + 1)).filter (least ≤ ·)
  if isLazy then rising else rising.reverse

/-- A match of the rest of a pattern, with what the item before it took. -/
def Match.after (taken : List Char) (group : Option Nat) (found : Match) : Match where
  whole := taken ++ found.whole
  groups := (group.map fun number => (number, taken)).toList ++ found.groups
  rest := found.rest

/-- **A match at the front of a text**, behind a character or at the start. -/
def matchHere : List Item → Option Char → List Char → Option Match
  | [], _, input => some { whole := [], groups := [], rest := input }
  | .anchor test :: items, before, input =>
    if test before input.head? then matchHere items before input else none
  | .chars test least most isLazy group :: items, before, input =>
    (counts test least most isLazy input).findSome? fun count =>
      (matchHere items ((input.take count).getLast?.or before) (input.drop count)).map
        (Match.after (input.take count) group)

structure Found where
  start : Nat
  found : Match
  deriving DecidableEq, Repr

def Found.stop (hit : Found) : Nat := hit.start + hit.found.whole.length

def searchFrom (items : List Item) (before : Option Char) (place : Nat) (input : List Char) : Option Found :=
  match matchHere items before input with
  | some found => some { start := place, found := found }
  | none =>
    match input with
    | [] => none
    | char :: rest => searchFrom items (some char) (place + 1) rest

def test (items : List Item) (input : List Char) : Bool := (searchFrom items none 0 input).isSome

/-- The matches from a place on, for a pattern that takes a character at least; with fuel. -/
def findFrom (items : List Item) : Nat → Option Char → Nat → List Char → List Found
  | 0, _, _, _ => []
  | fuel + 1, before, place, input =>
    match searchFrom items before place input with
    | none => []
    | some hit =>
      hit :: findFrom items fuel (hit.found.whole.getLast?.or before) hit.stop hit.found.rest

/-- **All matches of a text**, one behind the other. -/
def findAll (items : List Item) (input : List Char) : List Found :=
  findFrom items (input.length + 1) none 0 input

/-! ### One match -/

section

variable {items : List Item} {before : Option Char} {input : List Char}

variable {found : Match} {group : Option Nat}

theorem matchHere_eq (matched : matchHere items before input = some found) :
    input = found.whole ++ found.rest := by
  induction items generalizing before input found with
  | nil =>
    cases matched
    rfl
  | cons item items ih =>
    cases item with
    | anchor test =>
      rw [matchHere] at matched
      split at matched
      · exact ih matched
      · cases matched
    | chars test least most isLazy group =>
      rw [matchHere] at matched
      obtain ⟨count, _, here⟩ := List.exists_of_findSome?_eq_some matched
      obtain ⟨rest, restMatched, rfl⟩ := Option.map_eq_some_iff.mp here
      rw [Match.after, List.append_assoc, ← ih restMatched, List.take_append_drop]

theorem matchHere_char (wanted : Char) :
    matchHere (Item.char wanted :: items) before input =
      match input with
      | [] => none
      | char :: rest =>
        if char = wanted then (matchHere items (some char) rest).map (Match.after [char] none)
        else none := by
  cases input with
  | nil => simp [Item.char, matchHere, counts]
  | cons char rest =>
    by_cases same : char = wanted
    · subst same
      simp [Item.char, matchHere, counts, List.range_succ]
    · simp [Item.char, matchHere, counts, same]

theorem matchHere_literal (text rest : List Char) :
    matchHere (literal text ++ items) before (text ++ rest)
      = (matchHere items (text.getLast?.or before) rest).map (Match.after text none) := by
  induction text generalizing before with
  | nil => cases matched : matchHere items before rest <;> simp [literal, matched, Match.after]
  | cons char text ih =>
    rw [literal, List.map_cons, List.cons_append, matchHere_char]
    simp only [List.cons_append, if_true]
    change (matchHere (literal text ++ items) _ _).map _ = _
    rw [ih, Option.map_map]
    cases text with
    | nil => rfl
    | cons next others =>
      rw [List.getLast?_cons_cons]
      cases ended : (next :: others).getLast? with
      | none => simp at ended
      | some char => rfl

theorem literal_prefix {text : List Char}
    (matched : matchHere (literal text ++ items) before input = some found) : text <+: input := by
  induction text generalizing before input found with
  | nil => exact List.nil_prefix
  | cons char text ih =>
    rw [literal, List.map_cons, List.cons_append, matchHere_char] at matched
    cases input with
    | nil => cases matched
    | cons head tail =>
      simp only at matched
      split at matched
      · rename_i same
        obtain ⟨after, later, -⟩ := Option.map_eq_some_iff.mp matched
        exact List.cons_prefix_cons.mpr ⟨same.symm, ih later⟩
      · cases matched

theorem matchHere_literal_some {text : List Char}
    (matched : matchHere (literal text ++ items) before input = some found) :
    ∃ rest after, input = text ++ rest
      ∧ matchHere items (text.getLast?.or before) rest = some after ∧ found = after.after text none := by
  obtain ⟨rest, rfl⟩ := literal_prefix matched
  rw [matchHere_literal] at matched
  obtain ⟨after, later, same⟩ := Option.map_eq_some_iff.mp matched
  exact ⟨rest, after, rfl, later, same.symm⟩

theorem matchHere_greedy {test : Char → Bool} {taken rest : List Char} {after : Match}
    (some_taken : taken ≠ []) (passes : ∀ char ∈ taken, test char = true)
    (stops : ∀ char ∈ rest.head?, test char = false)
    (later : matchHere items (taken.getLast?.or before) rest = some after) :
    matchHere (.chars test 1 none false group :: items) before (taken ++ rest)
      = some (after.after taken group) := by
  have run : (taken ++ rest).takeWhile test = taken := by
    rw [List.takeWhile_append_of_pos passes]
    cases rest with
    | nil => simp
    | cons char others => simp [stops char rfl]
  have counted : counts test 1 none false (taken ++ rest)
      = taken.length :: ((List.range taken.length).filter (1 ≤ ·)).reverse := by
    have positive : 1 ≤ taken.length := List.length_pos_iff.mpr some_taken
    simp [counts, run, List.range_succ, positive]
  rw [matchHere, counted, List.findSome?_cons, List.take_left, List.drop_left, later]
  rfl

theorem matchHere_chars_some {test : Char → Bool} {least : Nat} {most : Option Nat} {isLazy : Bool}
    (matched : matchHere (.chars test least most isLazy group :: items) before input = some found) :
    ∃ taken rest other after, input = taken ++ rest
      ∧ matchHere items other rest = some after ∧ found = after.after taken group := by
  rw [matchHere] at matched
  obtain ⟨count, _, here⟩ := List.exists_of_findSome?_eq_some matched
  obtain ⟨after, later, same⟩ := Option.map_eq_some_iff.mp here
  exact ⟨_, _, _, after, (List.take_append_drop count input).symm, later, same.symm⟩

theorem counts_lazy (input : List Char) :
    counts (fun _ => true) 0 none true input = List.range (input.length + 1) := by
  have run : input.takeWhile (fun _ => true) = input := List.takeWhile_eq_self_iff.mpr fun _ _ => rfl
  simp [counts, run]

theorem matchHere_lazy {count : Nat} {after : Match} (within : count ≤ input.length)
    (early : ∀ fewer < count, ∀ other, matchHere items other (input.drop fewer) = none)
    (later : matchHere items ((input.take count).getLast?.or before) (input.drop count) = some after) :
    matchHere (.chars (fun _ => true) 0 none true group :: items) before input
      = some (after.after (input.take count) group) := by
  have counted : counts (fun _ => true) 0 none true input
      = List.range count ++ count :: (List.range (input.length - count)).map (count + 1 + ·) := by
    rw [counts_lazy, show input.length + 1 = count + (1 + (input.length - count)) by omega,
      List.range_add, List.range_add, List.map_append, List.map_map]
    simp [List.range_succ, Function.comp_def, Nat.add_assoc]
  rw [matchHere, counted, List.findSome?_append, List.findSome?_cons, later]
  have none_early : (List.range count).findSome? (fun count =>
      (matchHere items ((input.take count).getLast?.or before) (input.drop count)).map
        (Match.after (input.take count) group)) = none := by
    rw [List.findSome?_eq_none_iff]
    intro fewer small
    rw [early fewer (List.mem_range.mp small), Option.map_none]
  rw [none_early]
  rfl

theorem matchHere_lazy_some
    (matched : matchHere (.chars (fun _ => true) 0 none true group :: items) before input = some found) :
    ∃ count after, count ≤ input.length ∧ (∀ fewer < count,
        matchHere items ((input.take fewer).getLast?.or before) (input.drop fewer) = none)
      ∧ matchHere items ((input.take count).getLast?.or before) (input.drop count) = some after
      ∧ found = after.after (input.take count) group := by
  rw [matchHere, counts_lazy] at matched
  obtain ⟨fewer, count, more, split, here, early⟩ := List.findSome?_eq_some_iff.mp matched
  obtain ⟨after, later, same⟩ := Option.map_eq_some_iff.mp here
  have place : count = fewer.length := by
    have read := congrArg (·[fewer.length]?) split
    simp only [List.getElem?_append_right (Nat.le_refl _), Nat.sub_self, List.getElem?_cons_zero] at read
    obtain ⟨_, value⟩ := List.getElem?_eq_some_iff.mp read
    simpa using value.symm
  have bounded : count < input.length + 1 :=
    List.mem_range.mp (by rw [split]; exact List.mem_append_right _ List.mem_cons_self)
  refine ⟨count, after, by omega, fun smaller less => ?_, later, same.symm⟩
  have isEarly : smaller ∈ fewer := by
    have read : (List.range (input.length + 1))[smaller]? = some smaller :=
      List.getElem?_range (by omega)
    rw [split, List.getElem?_append_left (by omega)] at read
    exact List.mem_of_getElem? read
  exact Option.map_eq_none_iff.mp (early smaller isEarly)

end

/-! ### All matches -/

/-- Pieces of a text that follow one another, with gaps between them. -/
inductive Interleaved : List Char → List (List Char) → Prop where
  | done (rest : List Char) : Interleaved rest []
  | piece (gap : List Char) {whole rest : List Char} {others : List (List Char)}
      (later : Interleaved rest others) : Interleaved (gap ++ whole ++ rest) (whole :: others)

section

variable {items : List Item} {before : Option Char} {place : Nat}

theorem searchFrom_eq {input : List Char} {hit : Found}
    (matched : searchFrom items before place input = some hit) :
    ∃ gap other, input = gap ++ hit.found.whole ++ hit.found.rest
      ∧ matchHere items other (hit.found.whole ++ hit.found.rest) = some hit.found := by
  induction input generalizing before place with
  | nil =>
    rw [searchFrom] at matched
    split at matched
    · rename_i found here
      cases matched
      have whole := matchHere_eq here
      refine ⟨[], before, whole, ?_⟩
      rw [← whole]
      exact here
    · cases matched
  | cons char rest ih =>
    rw [searchFrom] at matched
    split at matched
    · rename_i found here
      cases matched
      have whole := matchHere_eq here
      refine ⟨[], before, whole, ?_⟩
      rw [← whole]
      exact here
    · obtain ⟨gap, other, whole, here⟩ := ih matched
      refine ⟨char :: gap, other, ?_, here⟩
      rw [List.cons_append, List.cons_append, ← whole]

/-- **The matches of a text** follow one another, and each is a match of the pattern. -/
theorem findFrom_interleaved (fuel : Nat) (input : List Char) :
    Interleaved input ((findFrom items fuel before place input).map (·.found.whole))
      ∧ ∀ hit ∈ findFrom items fuel before place input,
        ∃ other, matchHere items other (hit.found.whole ++ hit.found.rest) = some hit.found := by
  induction fuel generalizing before place input with
  | zero => exact ⟨.done input, fun hit member => absurd member List.not_mem_nil⟩
  | succ fuel ih =>
    rw [findFrom]
    split
    · exact ⟨.done input, fun hit member => absurd member List.not_mem_nil⟩
    · rename_i hit matched
      obtain ⟨gap, other, whole, here⟩ := searchFrom_eq matched
      obtain ⟨pieces, each⟩ := @ih (hit.found.whole.getLast?.or before) hit.stop hit.found.rest
      constructor
      · rw [whole]
        exact .piece gap pieces
      · intro later member
        rcases List.mem_cons.mp member with rfl | inRest
        · exact ⟨other, here⟩
        · exact each later inRest

theorem searchFrom_skip {gap rest : List Char}
    (clear : ∀ char others other, char ∈ gap → matchHere items other (char :: others) = none) :
    searchFrom items before place (gap ++ rest)
      = searchFrom items (gap.getLast?.or before) (place + gap.length) rest := by
  induction gap generalizing before place with
  | nil => simp
  | cons char gap ih =>
    rw [List.cons_append, searchFrom, clear char _ _ List.mem_cons_self]
    simp only
    rw [ih fun other others before member => clear other others before (List.mem_cons_of_mem _ member)]
    congr 1
    · cases gap with
      | nil => rfl
      | cons next others =>
        rw [List.getLast?_cons_cons]
        cases ended : (next :: others).getLast? with
        | none => simp at ended
        | some last => rfl
    · rw [List.length_cons]
      omega

end

end FlatRegex
