/-
**Regions of a text, replaced.**

An edit keeps some pieces of a text and puts a new text in the place of the others. What it reads and
what it writes are two readings of one list of pieces.

* `Edited.count_le` — an item grows in number only as the new text has it.
-/

import PiCrew.Library.Substrings

namespace Regions

open Substrings

variable {α : Type*}

section

variable [DecidableEq α] {pattern text : List α} {position : Nat}

def OccursAt (pattern text : List α) (position : Nat) : Prop :=
  position ≤ text.length ∧ pattern <+: text.drop position

def OccursOnce (pattern text : List α) : Prop :=
  ∃ position, OccursAt pattern text position ∧ ∀ other, OccursAt pattern text other → other = position

def indexOf (pattern : List α) : List α → Option Nat
  | [] => if pattern = [] then some 0 else none
  | item :: rest => if pattern <+: item :: rest then some 0 else (indexOf pattern rest).map (· + 1)

def lastIndexOf (pattern : List α) : List α → Option Nat
  | [] => if pattern = [] then some 0 else none
  | item :: rest =>
    match lastIndexOf pattern rest with
    | some position => some (position + 1)
    | none => if pattern <+: item :: rest then some 0 else none

omit [DecidableEq α] in
theorem occursAt_nil : OccursAt pattern [] position ↔ position = 0 ∧ pattern = [] := by
  simp [OccursAt]

omit [DecidableEq α] in
theorem occursAt_zero : OccursAt pattern text 0 ↔ pattern <+: text := by
  simp [OccursAt]

omit [DecidableEq α] in
theorem occursAt_succ {item : α} :
    OccursAt pattern (item :: text) (position + 1) ↔ OccursAt pattern text position := by
  simp [OccursAt]

theorem indexOf_eq_none : indexOf pattern text = none ↔ ¬ pattern <:+: text := by
  induction text with
  | nil => simp [indexOf]
  | cons item rest ih =>
    rw [List.infix_cons_iff, not_or, ← ih, indexOf]
    split
    · next here => simp [here]
    · next apart => simp [apart]

theorem indexOf_of_occurs (occurs : pattern <:+: text) : ∃ position, indexOf pattern text = some position := by
  rw [← Option.ne_none_iff_exists']
  exact fun none => indexOf_eq_none.mp none occurs

theorem lastIndexOf_eq_none : lastIndexOf pattern text = none ↔ ¬ pattern <:+: text := by
  induction text with
  | nil => simp [lastIndexOf]
  | cons item rest ih =>
    rw [List.infix_cons_iff, not_or, ← ih, lastIndexOf]
    cases lastIndexOf pattern rest with
    | none | some position => simp

omit [DecidableEq α] in
theorem OccursAt.isInfix (occurs : OccursAt pattern text position) : pattern <:+: text :=
  occurs.2.isInfix.trans (List.drop_suffix _ _).isInfix

theorem occursAt_of_indexOf (found : indexOf pattern text = some position) :
    OccursAt pattern text position ∧ ∀ other, OccursAt pattern text other → position ≤ other := by
  induction text generalizing position with
  | nil =>
    rw [indexOf] at found
    split at found
    · next empty =>
        obtain rfl : 0 = position := by simpa using found
        exact ⟨occursAt_nil.mpr ⟨rfl, empty⟩, fun other _ => Nat.zero_le _⟩
    · cases found
  | cons item rest ih =>
    rw [indexOf] at found
    split at found
    · next here =>
        obtain rfl : 0 = position := by simpa using found
        exact ⟨occursAt_zero.mpr here, fun other _ => Nat.zero_le _⟩
    · next apart =>
        obtain ⟨before, later, rfl⟩ := Option.map_eq_some_iff.mp found
        obtain ⟨occurs, least⟩ := ih later
        refine ⟨occursAt_succ.mpr occurs, fun other at_ => ?_⟩
        cases other with
        | zero => exact absurd (occursAt_zero.mp at_) apart
        | succ other => exact Nat.succ_le_succ (least other (occursAt_succ.mp at_))

theorem indexOf_eq_some : indexOf pattern text = some position ↔
      OccursAt pattern text position ∧ ∀ other, OccursAt pattern text other → position ≤ other := by
  refine ⟨occursAt_of_indexOf, fun ⟨occurs, least⟩ => ?_⟩
  cases found : indexOf pattern text with
  | none => exact absurd occurs.isInfix (indexOf_eq_none.mp found)
  | some first =>
    obtain ⟨here, before⟩ := occursAt_of_indexOf found
    rw [Nat.le_antisymm (before position occurs) (least first here)]

theorem occursAt_of_lastIndexOf (found : lastIndexOf pattern text = some position) :
    OccursAt pattern text position ∧ ∀ other, OccursAt pattern text other → other ≤ position := by
  induction text generalizing position with
  | nil =>
    rw [lastIndexOf] at found
    split at found
    · next empty =>
        obtain rfl : 0 = position := by simpa using found
        exact ⟨occursAt_nil.mpr ⟨rfl, empty⟩, fun other at_ => Nat.le_of_eq (occursAt_nil.mp at_).1⟩
    · cases found
  | cons item rest ih =>
    rw [lastIndexOf] at found
    cases later : lastIndexOf pattern rest with
    | some before =>
      obtain ⟨occurs, most⟩ := ih later
      obtain rfl : before + 1 = position := by simpa [later] using found
      refine ⟨occursAt_succ.mpr occurs, fun other at_ => ?_⟩
      cases other with
      | zero => exact Nat.zero_le _
      | succ other => exact Nat.succ_le_succ (most other (occursAt_succ.mp at_))
    | none =>
      simp only [later] at found
      split at found
      · next here =>
          obtain rfl : 0 = position := by simpa using found
          refine ⟨occursAt_zero.mpr here, fun other at_ => ?_⟩
          cases other with
          | zero => exact Nat.le_refl _
          | succ other => exact absurd (occursAt_succ.mp at_).isInfix (lastIndexOf_eq_none.mp later)
      · cases found

theorem lastIndexOf_eq_some : lastIndexOf pattern text = some position ↔
      OccursAt pattern text position ∧ ∀ other, OccursAt pattern text other → other ≤ position := by
  refine ⟨occursAt_of_lastIndexOf, fun ⟨occurs, most⟩ => ?_⟩
  cases found : lastIndexOf pattern text with
  | none => exact absurd occurs.isInfix (lastIndexOf_eq_none.mp found)
  | some last =>
    obtain ⟨here, behind⟩ := occursAt_of_lastIndexOf found
    rw [Nat.le_antisymm (most last here) (behind position occurs)]

theorem occursOnce_iff : OccursOnce pattern text ↔
      indexOf pattern text ≠ none ∧ indexOf pattern text = lastIndexOf pattern text := by
  constructor
  · rintro ⟨position, occurs, only⟩
    have first := indexOf_eq_some.mpr ⟨occurs, fun other at_ => Nat.le_of_eq (only other at_).symm⟩
    have last := lastIndexOf_eq_some.mpr ⟨occurs, fun other at_ => Nat.le_of_eq (only other at_)⟩
    rw [first, last]
    exact ⟨Option.some_ne_none _, rfl⟩
  · rintro ⟨found, same⟩
    obtain ⟨position, first⟩ := Option.ne_none_iff_exists'.mp found
    obtain ⟨occurs, least⟩ := indexOf_eq_some.mp first
    obtain ⟨-, most⟩ := lastIndexOf_eq_some.mp (same.symm.trans first)
    exact ⟨position, occurs, fun other at_ => Nat.le_antisymm (most other at_) (least other at_)⟩

instance : Decidable (OccursOnce pattern text) := decidable_of_iff' _ occursOnce_iff

end

section

/-- A piece of an edited text: kept, or a region that was replaced. -/
inductive Piece (α : Type*) where
  | kept (text : List α)
  | edited (region : List α)

def original : List (Piece α) → List α
  | [] => []
  | .kept text :: rest => text ++ original rest
  | .edited region :: rest => region ++ original rest

def render (replacement : List α) : List (Piece α) → List α
  | [] => []
  | .kept text :: rest => text ++ render replacement rest
  | .edited _ :: rest => replacement ++ render replacement rest

/-- **Only matched regions are replaced**, each of them by the new text as it is, and once. -/
def Edited (matched : List α → Prop) (replacement text result : List α) : Prop :=
  ∃ pieces : List (Piece α), original pieces = text ∧ render replacement pieces = result ∧
    ∀ region, .edited region ∈ pieces → matched region

variable {matched : List α → Prop} {replacement text result : List α}

theorem original_append (front back : List (Piece α)) :
    original (front ++ back) = original front ++ original back := by
  induction front with
  | nil => rfl
  | cons piece front ih =>
    cases piece with
    | kept text | edited region => rw [List.cons_append, original, ih, original, List.append_assoc]

theorem render_append (replacement : List α) (front back : List (Piece α)) :
    render replacement (front ++ back) = render replacement front ++ render replacement back := by
  induction front with
  | nil => rfl
  | cons piece front ih =>
    cases piece with
    | kept text | edited region => rw [List.cons_append, render, ih, render, List.append_assoc]

theorem Edited.splice {region : List α} {position : Nat} (member : matched region)
    (occurs : OccursAt region text position) :
    Edited matched replacement text
      (text.take position ++ (replacement ++ text.drop (position + region.length))) := by
  refine ⟨[.kept (text.take position), .edited region, .kept (text.drop (position + region.length))],
    ?_, by simp [render], ?_⟩
  · have back := List.prefix_iff_eq_append.mp occurs.2
    rw [List.drop_drop] at back
    simp only [original, List.append_nil]
    rw [back, List.take_append_drop]
  · intro other within
    simp only [List.mem_cons, reduceCtorEq, Piece.edited.injEq, List.not_mem_nil, false_or, or_false]
      at within
    rw [within]
    exact member

theorem Edited.inserted (edit : Edited matched replacement text result) :
    result = text ∨ replacement <:+: result := by
  obtain ⟨pieces, rfl, rfl, -⟩ := edit
  induction pieces with
  | nil => exact .inl rfl
  | cons piece rest ih =>
    cases piece with
    | kept text =>
      refine ih.imp (fun same => ?_) fun occurs => occurs.trans (List.suffix_append _ _).isInfix
      rw [render, original, same]
    | edited region => exact .inr (List.prefix_append _ _).isInfix

/-- **An item grows in number** only as the new text has it, if every region that is replaced has the item. -/
theorem Edited.count_le [DecidableEq α] {item : α} (edit : Edited matched replacement text result)
    (has : ∀ region, matched region → item ∈ region) :
    result.count item ≤ text.count item * max 1 (replacement.count item) := by
  obtain ⟨pieces, rfl, rfl, only⟩ := edit
  induction pieces with
  | nil => simp [render]
  | cons piece rest ih =>
    have later := ih fun region within => only region (List.mem_cons_of_mem _ within)
    cases piece with
    | kept text =>
      rw [render, original, List.count_append, List.count_append, Nat.add_mul]
      exact Nat.add_le_add (Nat.le_mul_of_pos_right _ (by omega)) later
    | edited region =>
      rw [render, original, List.count_append, List.count_append, Nat.add_mul]
      have one := List.count_pos_iff.mpr (has region (only region List.mem_cons_self))
      refine Nat.add_le_add ?_ later
      calc replacement.count item ≤ max 1 (replacement.count item) := Nat.le_max_right _ _
        _ ≤ region.count item * max 1 (replacement.count item) := Nat.le_mul_of_pos_left _ one

end

section

variable [DecidableEq α] {pattern front back text replacement : List α}

def Clear (pattern front back : List α) : Prop :=
  ∀ position < front.length, ¬ pattern <+: front.drop position ++ back

instance : Decidable (Clear pattern front back) :=
  inferInstanceAs (Decidable (∀ position < front.length, ¬ pattern <+: front.drop position ++ back))

omit [DecidableEq α] in
theorem clear_cons {item : α} : Clear pattern (item :: front) back ↔
      ¬ pattern <+: item :: (front ++ back) ∧ Clear pattern front back := by
  constructor
  · intro clear
    refine ⟨clear 0 (Nat.zero_lt_succ _), fun position bound => ?_⟩
    exact clear (position + 1) (Nat.succ_lt_succ bound)
  · rintro ⟨here, later⟩ position bound
    cases position with
    | zero => exact here
    | succ position => exact later position (Nat.lt_of_succ_lt_succ bound)

theorem cutFirst_clear (clear : Clear pattern front back) :
    cutFirst pattern (front ++ back) = (cutFirst pattern back).map fun cut => (front ++ cut.1, cut.2) := by
  induction front with
  | nil => simp
  | cons item front ih =>
    obtain ⟨here, later⟩ := clear_cons.mp clear
    rw [List.cons_append, cutFirst, if_neg here, ih later, Option.map_map]
    rfl

theorem replaceAll_cut (nonempty : pattern ≠ []) {before after : List α}
    (cut : cutFirst pattern text = some (before, after)) :
    replaceAll pattern replacement text = before ++ (replacement ++ replaceAll pattern replacement after) := by
  obtain ⟨rfl, first⟩ := cutFirst_spec cut
  exact replaceAll_append nonempty first

theorem replaceAll_clear (nonempty : pattern ≠ []) (clear : Clear pattern front back) :
    replaceAll pattern replacement (front ++ back) = front ++ replaceAll pattern replacement back := by
  have whole := cutFirst_clear clear
  cases found : cutFirst pattern back with
  | none =>
    rw [found] at whole
    rw [replaceAll_of_not_occurs (cutFirst_eq_none.mp whole),
      replaceAll_of_not_occurs (cutFirst_eq_none.mp found)]
  | some cut =>
    rw [found] at whole
    rw [replaceAll_cut nonempty whole, replaceAll_cut nonempty found, List.append_assoc]

def lastPart (pattern text : List α) : List α := (split pattern text).getLast (split_ne_nil _ _)

theorem lastPart_of_not_occurs (apart : ¬ pattern <:+: text) : lastPart pattern text = text := by
  simp only [lastPart, split_eq_singleton apart, List.getLast_singleton]

theorem lastPart_append (nonempty : pattern ≠ []) {before after : List α}
    (first : FirstAfter pattern before after) :
    lastPart pattern (before ++ (pattern ++ after)) = lastPart pattern after := by
  simp only [lastPart, split_append nonempty first]
  exact List.getLast_cons (split_ne_nil _ _)

theorem replaceAll_kept (nonempty : pattern ≠ []) (clear : Clear pattern (lastPart pattern text) back) :
    replaceAll pattern replacement (text ++ back) =
      replaceAll pattern replacement text ++ replaceAll pattern replacement back := by
  induction bound : text.length using Nat.strong_induction_on generalizing text with
  | _ size ih =>
    subst bound
    cases found : cutFirst pattern text with
    | none =>
      have apart := cutFirst_eq_none.mp found
      rw [lastPart_of_not_occurs apart] at clear
      rw [replaceAll_clear nonempty clear, replaceAll_of_not_occurs apart]
    | some cut =>
      obtain ⟨before, after⟩ := cut
      have shorter := length_after nonempty found
      obtain ⟨rfl, first⟩ := cutFirst_spec found
      rw [lastPart_append nonempty first] at clear
      have rest := ih _ shorter clear rfl
      have whole := @replaceAll_append _ _ _ _ _ replacement nonempty (first.behind (after ++ back))
      rw [replaceAll_append nonempty first]
      simpa [rest] using whole

/-- The parts of a text, with the regions between them. -/
def cutPieces (pattern : List α) : List (List α) → List (Piece α)
  | [] => []
  | [part] => [.kept part]
  | part :: next :: parts => .kept part :: .edited pattern :: cutPieces pattern (next :: parts)

def editKept (pattern : List α) : List (Piece α) → List (Piece α)
  | [] => []
  | .kept text :: rest => cutPieces pattern (split pattern text) ++ editKept pattern rest
  | .edited region :: rest => .edited region :: editKept pattern rest

/-- **No occurrence that is replaced touches a region that was replaced**, or reaches from one kept piece
into the next. -/
def Untouched (pattern replacement : List α) : List (Piece α) → Prop
  | [] => True
  | .kept text :: rest =>
    Clear pattern (lastPart pattern text) (render replacement rest) ∧ Untouched pattern replacement rest
  | .edited _ :: rest =>
    Clear pattern replacement (render replacement rest) ∧ Untouched pattern replacement rest

instance decidableUntouched (pattern replacement : List α) :
    ∀ pieces : List (Piece α), Decidable (Untouched pattern replacement pieces)
  | [] => isTrue trivial
  | .kept _ :: rest => @instDecidableAnd _ _ inferInstance (decidableUntouched pattern replacement rest)
  | .edited _ :: rest => @instDecidableAnd _ _ inferInstance (decidableUntouched pattern replacement rest)

omit [DecidableEq α] in
theorem original_cutPieces (parts : List (List α)) :
    original (cutPieces pattern parts) = pattern.intercalate parts := by
  induction parts with
  | nil => rfl
  | cons part parts ih =>
    cases parts with
    | nil => simp [cutPieces, original]
    | cons next parts =>
      rw [cutPieces, original, original, ih, List.intercalate_cons_cons, List.append_assoc]

omit [DecidableEq α] in
theorem render_cutPieces (parts : List (List α)) :
    render replacement (cutPieces pattern parts) = replacement.intercalate parts := by
  induction parts with
  | nil => rfl
  | cons part parts ih =>
    cases parts with
    | nil => simp [cutPieces, render]
    | cons next parts =>
      rw [cutPieces, render, render, ih, List.intercalate_cons_cons, List.append_assoc]

omit [DecidableEq α] in
theorem mem_cutPieces {region : List α} {parts : List (List α)}
    (within : .edited region ∈ cutPieces pattern parts) : region = pattern := by
  induction parts with
  | nil => cases within
  | cons part parts ih =>
    cases parts with
    | nil => simp [cutPieces] at within
    | cons next parts =>
      rw [cutPieces, List.mem_cons, List.mem_cons] at within
      rcases within with kept | here | later
      · cases kept
      · exact Piece.edited.inj here
      · exact ih later

theorem Edited.replaceAll {matched : List α → Prop} (nonempty : pattern ≠ []) (member : matched pattern)
    (text : List α) : Edited matched replacement text (Substrings.replaceAll pattern replacement text) := by
  refine ⟨cutPieces pattern (split pattern text), ?_, render_cutPieces _, fun region within => ?_⟩
  · rw [original_cutPieces, intercalate_split nonempty]
  · rw [mem_cutPieces within]
    exact member

theorem original_editKept (nonempty : pattern ≠ []) (pieces : List (Piece α)) :
    original (editKept pattern pieces) = original pieces := by
  induction pieces with
  | nil => rfl
  | cons piece rest ih =>
    cases piece with
    | kept text =>
      rw [editKept, original_append, original_cutPieces, intercalate_split nonempty, ih, original]
    | edited region => rw [editKept, original, ih, original]

theorem mem_editKept {region : List α} {pieces : List (Piece α)}
    (within : .edited region ∈ editKept pattern pieces) : region = pattern ∨ .edited region ∈ pieces := by
  induction pieces with
  | nil => cases within
  | cons piece rest ih =>
    cases piece with
    | kept text =>
      rw [editKept, List.mem_append] at within
      rcases within with here | later
      · exact .inl (mem_cutPieces here)
      · exact (ih later).imp_right (List.mem_cons_of_mem _)
    | edited first =>
      rw [editKept, List.mem_cons] at within
      rcases within with here | later
      · rw [Piece.edited.inj here]
        exact .inr List.mem_cons_self
      · exact (ih later).imp_right (List.mem_cons_of_mem _)

theorem replaceAll_render (nonempty : pattern ≠ []) {pieces : List (Piece α)}
    (untouched : Untouched pattern replacement pieces) :
    replaceAll pattern replacement (render replacement pieces) =
      render replacement (editKept pattern pieces) := by
  induction pieces with
  | nil => exact replaceAll_of_not_occurs fun occurs => nonempty (List.infix_nil.mp occurs)
  | cons piece rest ih =>
    cases piece with
    | kept text =>
      obtain ⟨here, later⟩ := untouched
      rw [render, replaceAll_kept nonempty here, ih later, editKept, render_append, render_cutPieces]
      rfl
    | edited region =>
      obtain ⟨here, later⟩ := untouched
      rw [render, replaceAll_clear nonempty here, ih later, editKept, render]

end

end Regions
