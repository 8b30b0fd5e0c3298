/-
**Occurrences of a pattern in a text.**

The first occurrence of a pattern cuts a text in two, and the occurrences that do not overlap, from the
left, cut it into parts.

* `replaceAll_mark`, `not_occurs_replaceAll` — what replacing all occurrences leaves.

The pattern is not empty where texts are cut into parts.
-/

import Mathlib.Algebra.BigOperators.Group.List.Basic
import Mathlib.Algebra.GroupWithZero.Nat
import Mathlib.Data.List.Infix
import Mathlib.Data.List.Flatten

namespace Substrings

variable {α : Type*}

section

variable {pattern before after : List α}

/-- The pattern does not occur before it is reached behind `before`. -/
def FirstAfter (pattern before after : List α) : Prop :=
  ∀ front rest, before = front ++ rest → rest ≠ [] → ¬ pattern <+: rest ++ (pattern ++ after)

theorem FirstAfter.nil : FirstAfter pattern [] after := by
  intro front rest parts nonempty
  exact absurd (List.append_eq_nil_iff.mp parts.symm).2 nonempty

theorem firstAfter_cons {item : α} : FirstAfter pattern (item :: before) after ↔
      ¬ pattern <+: item :: (before ++ (pattern ++ after)) ∧ FirstAfter pattern before after := by
  constructor
  · intro first
    refine ⟨first [] (item :: before) rfl (List.cons_ne_nil _ _), ?_⟩
    rintro front rest rfl nonempty
    exact first (item :: front) rest rfl nonempty
  · rintro ⟨here, later⟩ front rest parts nonempty
    cases front with
    | nil =>
      rw [List.nil_append] at parts
      subst parts
      exact here
    | cons head front =>
      rw [List.cons_append, List.cons.injEq] at parts
      exact later front rest parts.2 nonempty

theorem FirstAfter.append {item : α} {front : List α} (first : FirstAfter (item :: pattern) before after)
    (apart : item ∉ front) : FirstAfter (item :: pattern) (front ++ before) after := by
  induction front with
  | nil => exact first
  | cons head front ih =>
    obtain ⟨other, others⟩ := List.ne_and_not_mem_of_not_mem_cons apart
    rw [List.cons_append, firstAfter_cons]
    exact ⟨fun here => other (List.cons_prefix_cons.mp here).1, ih others⟩

theorem FirstAfter.of_not_mem {item : α} (apart : item ∉ before) :
    FirstAfter (item :: pattern) before after := by
  have first := FirstAfter.append (@FirstAfter.nil _ (item :: pattern) after) apart
  rwa [List.append_nil] at first

theorem FirstAfter.not_occurs (nonempty : pattern ≠ []) (first : FirstAfter pattern before after) :
    ¬ pattern <:+: before := by
  rintro ⟨front, back, rfl⟩
  rw [List.append_assoc] at first
  exact first front (pattern ++ back) rfl (by simp [nonempty]) ⟨back ++ (pattern ++ after), by simp⟩

end

section

variable [DecidableEq α] {pattern text before after : List α}

/-- **The first occurrence of a pattern**: what stands before it, and what stands behind it. -/
def cutFirst (pattern : List α) : List α → Option (List α × List α)
  | [] => if pattern = [] then some ([], []) else none
  | item :: rest =>
    if pattern <+: item :: rest then some ([], (item :: rest).drop pattern.length)
    else (cutFirst pattern rest).map fun cut => (item :: cut.1, cut.2)

theorem cutFirst_append (first : FirstAfter pattern before after) :
    cutFirst pattern (before ++ (pattern ++ after)) = some (before, after) := by
  induction before with
  | nil =>
    rw [List.nil_append]
    cases whole : pattern ++ after with
    | nil =>
      obtain ⟨rfl, rfl⟩ := List.append_eq_nil_iff.mp whole
      rfl
    | cons item rest =>
      have here : pattern <+: item :: rest := ⟨after, whole⟩
      rw [cutFirst, if_pos here, ← whole, List.drop_left]
  | cons item before ih =>
    obtain ⟨here, later⟩ := firstAfter_cons.mp first
    rw [List.cons_append, cutFirst, if_neg here, ih later]
    rfl

theorem cutFirst_spec (cut : cutFirst pattern text = some (before, after)) :
    text = before ++ (pattern ++ after) ∧ FirstAfter pattern before after := by
  induction text generalizing before with
  | nil =>
    rw [cutFirst] at cut
    split at cut
    · next empty =>
        subst empty
        obtain ⟨rfl, rfl⟩ : [] = before ∧ [] = after := by simpa using cut
        exact ⟨rfl, FirstAfter.nil⟩
    · cases cut
  | cons item rest ih =>
    rw [cutFirst] at cut
    split at cut
    · next here =>
        obtain ⟨rfl, rfl⟩ : [] = before ∧ (item :: rest).drop pattern.length = after := by
          simpa using cut
        exact ⟨(List.prefix_iff_eq_append.mp here).symm, FirstAfter.nil⟩
    · next apart =>
        obtain ⟨⟨front, back⟩, found, same⟩ := Option.map_eq_some_iff.mp cut
        obtain ⟨rfl, rfl⟩ : item :: front = before ∧ back = after := by simpa using same
        obtain ⟨rfl, later⟩ := ih found
        exact ⟨rfl, firstAfter_cons.mpr ⟨apart, later⟩⟩

theorem cutFirst_eq_none : cutFirst pattern text = none ↔ ¬ pattern <:+: text := by
  induction text with
  | nil => simp [cutFirst]
  | cons item rest ih =>
    rw [List.infix_cons_iff, not_or, ← ih, cutFirst]
    split
    · next here => simp [here]
    · next apart => simp [apart]

end

section

variable [DecidableEq α] {pattern text before after : List α}

/-- The parts of a text, with at most so many cuts. -/
def splitTimes (pattern : List α) : Nat → List α → List (List α)
  | 0, text => [text]
  | cuts + 1, text =>
    match cutFirst pattern text with
    | none => [text]
    | some (before, after) => before :: splitTimes pattern cuts after

/-- **The parts of a text** between the occurrences of a pattern. -/
def split (pattern text : List α) : List (List α) := splitTimes pattern text.length text

theorem length_after (nonempty : pattern ≠ []) (cut : cutFirst pattern text = some (before, after)) :
    after.length < text.length := by
  obtain ⟨rfl, -⟩ := cutFirst_spec cut
  have := List.length_pos_iff.mpr nonempty
  simp only [List.length_append]
  omega

theorem splitTimes_eq (nonempty : pattern ≠ []) {cuts : Nat} (enough : text.length ≤ cuts) :
    splitTimes pattern cuts text = split pattern text := by
  suffices same : ∀ (bound : Nat) (first second : Nat) (text : List α), text.length ≤ bound →
      text.length ≤ first → text.length ≤ second →
      splitTimes pattern first text = splitTimes pattern second text from
    same _ _ _ text le_rfl enough le_rfl
  intro bound
  induction bound with
  | zero =>
    intro first second text short _ _
    have empty : text = [] := List.length_eq_zero_iff.mp (Nat.le_zero.mp short)
    have apart : cutFirst pattern text = none := by simp [empty, cutFirst, nonempty]
    cases first <;> cases second <;> simp [splitTimes, apart]
  | succ bound ih =>
    intro first second text short firstEnough secondEnough
    cases found : cutFirst pattern text with
    | none => cases first <;> cases second <;> simp [splitTimes, found]
    | some cut =>
      obtain ⟨before, after⟩ := cut
      have shorter := length_after nonempty found
      obtain ⟨first, rfl⟩ := Nat.exists_eq_add_of_lt (Nat.lt_of_le_of_lt (Nat.zero_le _)
        (Nat.lt_of_lt_of_le shorter firstEnough))
      obtain ⟨second, rfl⟩ := Nat.exists_eq_add_of_lt (Nat.lt_of_le_of_lt (Nat.zero_le _)
        (Nat.lt_of_lt_of_le shorter secondEnough))
      rw [splitTimes, splitTimes]
      simp only [found]
      rw [ih (0 + first) (0 + second) after (by omega) (by omega) (by omega)]

theorem split_eq_singleton (apart : ¬ pattern <:+: text) : split pattern text = [text] := by
  rw [split]
  cases text.length with
  | zero => rfl
  | succ cuts => rw [splitTimes, cutFirst_eq_none.mpr apart]

theorem split_eq_cons (nonempty : pattern ≠ []) (cut : cutFirst pattern text = some (before, after)) :
    split pattern text = before :: split pattern after := by
  have shorter := length_after nonempty cut
  obtain ⟨cuts, bound⟩ := Nat.exists_eq_add_of_lt (Nat.lt_of_le_of_lt (Nat.zero_le _) shorter)
  rw [split, bound, splitTimes, cut]
  simp only
  rw [splitTimes_eq nonempty (by omega)]

theorem split_append (nonempty : pattern ≠ []) (first : FirstAfter pattern before after) :
    split pattern (before ++ (pattern ++ after)) = before :: split pattern after :=
  split_eq_cons nonempty (cutFirst_append first)

theorem split_ne_nil (pattern text : List α) : split pattern text ≠ [] := by
  rw [split]
  cases text.length with
  | zero => exact List.cons_ne_nil _ _
  | succ cuts =>
    rw [splitTimes]
    split <;> exact List.cons_ne_nil _ _

theorem intercalate_split (nonempty : pattern ≠ []) (text : List α) :
    pattern.intercalate (split pattern text) = text := by
  induction bound : text.length using Nat.strong_induction_on generalizing text with
  | _ size ih =>
    subst bound
    cases found : cutFirst pattern text with
    | none => rw [split_eq_singleton (cutFirst_eq_none.mp found), List.intercalate_singleton]
    | some cut =>
      obtain ⟨before, after⟩ := cut
      rw [split_eq_cons nonempty found, List.intercalate_cons_of_ne_nil (split_ne_nil _ _),
        ih _ (length_after nonempty found) after rfl, List.append_assoc]
      exact (cutFirst_spec found).1.symm

variable {parts : List (List α)}

omit [DecidableEq α] in
theorem subset_intercalate {part : List α} (within : part ∈ parts) :
    part ⊆ pattern.intercalate parts := by
  induction parts with
  | nil => cases within
  | cons first parts ih =>
    cases parts with
    | nil =>
      rw [List.mem_singleton.mp within, List.intercalate_singleton]
      exact List.Subset.refl _
    | cons second parts =>
      rw [List.intercalate_cons_of_ne_nil (List.cons_ne_nil _ _)]
      rcases List.mem_cons.mp within with rfl | later
      · exact fun item found => List.mem_append_left _ (List.mem_append_left _ found)
      · exact fun item found => List.mem_append_right _ (ih later found)

omit [DecidableEq α] in
theorem mem_intercalate {item : α} (within : item ∈ pattern.intercalate parts) :
    item ∈ pattern ∨ ∃ part ∈ parts, item ∈ part := by
  induction parts with
  | nil => cases within
  | cons first parts ih =>
    cases parts with
    | nil =>
      rw [List.intercalate_singleton] at within
      exact .inr ⟨first, List.mem_cons_self, within⟩
    | cons second parts =>
      rw [List.intercalate_cons_of_ne_nil (List.cons_ne_nil _ _), List.mem_append,
        List.mem_append] at within
      rcases within with (here | mark) | later
      · exact .inr ⟨first, List.mem_cons_self, here⟩
      · exact .inl mark
      · exact (ih later).imp_right fun ⟨part, member, found⟩ =>
          ⟨part, List.mem_cons_of_mem _ member, found⟩

omit [DecidableEq α] in
theorem infix_of_mem_intercalate {part : List α} (within : part ∈ parts) :
    part <:+: pattern.intercalate parts := by
  induction parts with
  | nil => cases within
  | cons first parts ih =>
    cases parts with
    | nil =>
      obtain rfl := List.mem_singleton.mp within
      rw [List.intercalate_singleton]
    | cons second parts =>
      rw [List.intercalate_cons_of_ne_nil (List.cons_ne_nil _ _)]
      rcases List.mem_cons.mp within with rfl | later
      · exact (List.prefix_append _ _).isInfix.trans (List.prefix_append _ _).isInfix
      · exact (ih later).trans (List.suffix_append _ _).isInfix

omit [DecidableEq α] in
theorem intercalate_append {front back : List (List α)} (some : front ≠ []) (more : back ≠ []) :
    pattern.intercalate (front ++ back) =
      pattern.intercalate front ++ (pattern ++ pattern.intercalate back) := by
  induction front with
  | nil => exact absurd rfl some
  | cons first front ih =>
    cases front with
    | nil =>
      rw [List.singleton_append, List.intercalate_cons_of_ne_nil more, List.intercalate_singleton,
        List.append_assoc]
    | cons second front =>
      have later := ih (List.cons_ne_nil _ _)
      simp only [List.cons_append, List.intercalate_cons_cons] at later ⊢
      rw [later]
      simp only [List.append_assoc]

omit [DecidableEq α] in
theorem intercalate_concat (some : parts ≠ []) (last : List α) :
    pattern.intercalate (parts ++ [last]) = pattern.intercalate parts ++ (pattern ++ last) := by
  rw [intercalate_append some (List.cons_ne_nil _ _), List.intercalate_singleton]

omit [DecidableEq α] in
theorem length_intercalate (parts : List (List α)) : (pattern.intercalate parts).length =
      (parts.map List.length).sum + (parts.length - 1) * pattern.length := by
  induction parts with
  | nil => simp
  | cons first parts ih =>
    cases parts with
    | nil => simp
    | cons second parts =>
      simp only [List.intercalate_cons_cons, List.length_append, ih, List.map_cons, List.sum_cons,
        List.length_cons, Nat.add_sub_cancel, Nat.succ_mul]
      omega

theorem not_mem_of_mem_splitOn {mark : α} {part : List α} (within : part ∈ text.splitOn mark) :
    mark ∉ part := by
  induction text generalizing part with
  | nil =>
    rw [List.splitOn_nil, List.mem_singleton] at within
    rw [within]
    exact List.not_mem_nil
  | cons item rest ih =>
    rw [List.splitOn_cons_eq_if_modifyHead] at within
    split at within
    · rcases List.mem_cons.mp within with rfl | later
      · exact List.not_mem_nil
      · exact ih later
    · next other =>
        cases parts : rest.splitOn mark with
        | nil => exact absurd parts (List.splitOn_ne_nil _ _)
        | cons first others =>
          rw [parts] at within ih
          rcases List.mem_cons.mp within with rfl | later
          · refine List.not_mem_cons_of_ne_of_not_mem (fun same => other ?_) (ih List.mem_cons_self)
            rw [same]
            exact beq_self_eq_true _
          · exact ih (List.mem_cons_of_mem _ later)

end

section

variable [DecidableEq α] {pattern text before after : List α}

/-- **Every occurrence of a pattern replaced**, from the left, without those that overlap. -/
def replaceAll (pattern replacement text : List α) : List α :=
  replacement.intercalate (split pattern text)

variable {replacement : List α}

theorem replaceAll_of_not_occurs (apart : ¬ pattern <:+: text) : replaceAll pattern replacement text = text := by
  rw [replaceAll, split_eq_singleton apart, List.intercalate_singleton]

theorem replaceAll_append (nonempty : pattern ≠ []) (first : FirstAfter pattern before after) :
    replaceAll pattern replacement (before ++ (pattern ++ after)) =
      before ++ (replacement ++ replaceAll pattern replacement after) := by
  rw [replaceAll, split_append nonempty first, List.intercalate_cons_of_ne_nil (split_ne_nil _ _),
    List.append_assoc]
  rfl

theorem replaceAll_ne (nonempty : pattern ≠ []) (occurs : pattern <:+: text) (other : pattern ≠ replacement) :
    replaceAll pattern replacement text ≠ text := by
  intro same
  cases found : cutFirst pattern text with
  | none => exact cutFirst_eq_none.mp found occurs
  | some cut =>
    obtain ⟨before, after⟩ := cut
    have parts := split_eq_cons nonempty found
    have whole := intercalate_split nonempty text
    have more := List.length_pos_iff.mpr (split_ne_nil pattern after)
    -- the parts are the same, so the texts between them have one length
    have sizes := congrArg List.length (same.trans whole.symm)
    rw [replaceAll, length_intercalate, length_intercalate, Nat.add_left_cancel_iff, parts,
      List.length_cons, Nat.add_sub_cancel] at sizes
    have length := Nat.eq_of_mul_eq_mul_left more sizes
    obtain ⟨rfl, first⟩ := cutFirst_spec found
    rw [replaceAll_append nonempty first, List.append_cancel_left_eq] at same
    exact other (List.append_inj_left same length).symm

omit [DecidableEq α] in
theorem prefix_of_mark {mark : α} {front back : List α} (apart : mark ∉ pattern)
    (starts : pattern <+: front ++ mark :: back) : pattern <+: front := by
  induction front generalizing pattern with
  | nil =>
    cases pattern with
    | nil => exact List.prefix_rfl
    | cons item pattern =>
      obtain ⟨rfl, -⟩ := List.cons_prefix_cons.mp starts
      exact absurd List.mem_cons_self apart
  | cons head front ih =>
    cases pattern with
    | nil => exact List.nil_prefix
    | cons item pattern =>
      obtain ⟨rfl, rest⟩ := List.cons_prefix_cons.mp starts
      exact List.cons_prefix_cons.mpr
        ⟨rfl, ih (fun within => apart (List.mem_cons_of_mem _ within)) rest⟩

omit [DecidableEq α] in
theorem infix_mark {mark : α} {front back : List α} (nonempty : pattern ≠ []) (apart : mark ∉ pattern) :
    pattern <:+: front ++ mark :: back ↔ pattern <:+: front ∨ pattern <:+: back := by
  induction front with
  | nil =>
    rw [List.nil_append, List.infix_cons_iff, List.infix_nil, or_congr_left]
    refine iff_of_false (fun starts => nonempty ?_) nonempty
    exact List.prefix_nil.mp (@prefix_of_mark _ _ _ [] _ apart starts)
  | cons head front ih =>
    rw [List.cons_append, List.infix_cons_iff, List.infix_cons_iff, ih, or_assoc, or_congr_left]
    refine ⟨@prefix_of_mark _ _ _ (head :: front) _ apart, fun starts => ?_⟩
    exact starts.trans (List.prefix_append (head :: front) _)

omit [DecidableEq α] in
theorem infix_intercalate_mark {mark : α} (nonempty : pattern ≠ []) (apart : mark ∉ pattern)
    {parts : List (List α)} (occurs : pattern <:+: [mark].intercalate parts) :
    ∃ part ∈ parts, pattern <:+: part := by
  induction parts with
  | nil => exact absurd (List.infix_nil.mp occurs) nonempty
  | cons first parts ih =>
    cases parts with
    | nil =>
      rw [List.intercalate_singleton] at occurs
      exact ⟨first, List.mem_cons_self, occurs⟩
    | cons second parts =>
      rw [List.intercalate_cons_of_ne_nil (List.cons_ne_nil _ _), List.append_assoc,
        List.singleton_append] at occurs
      rcases (infix_mark nonempty apart).mp occurs with here | later
      · exact ⟨first, List.mem_cons_self, here⟩
      · obtain ⟨part, member, found⟩ := ih later
        exact ⟨part, List.mem_cons_of_mem _ member, found⟩

omit [DecidableEq α] in
theorem firstAfter_mark {mark : α} {front : List α} (nonempty : pattern ≠ []) (apart : mark ∉ pattern)
    (none : ¬ pattern <:+: front) (first : FirstAfter pattern before after) :
    FirstAfter pattern (front ++ mark :: before) after := by
  induction front with
  | nil =>
    refine firstAfter_cons.mpr ⟨fun starts => nonempty ?_, first⟩
    exact List.prefix_nil.mp (@prefix_of_mark _ _ _ [] _ apart starts)
  | cons head front ih =>
    rw [List.infix_cons_iff, not_or] at none
    refine firstAfter_cons.mpr ⟨fun starts => none.1 ?_, ih none.2⟩
    refine @prefix_of_mark _ _ mark (head :: front) (before ++ (pattern ++ after)) apart ?_
    simpa using starts

omit [DecidableEq α] in
theorem FirstAfter.behind (first : FirstAfter pattern before after) (other : List α) :
    FirstAfter pattern before other := by
  intro front rest parts nonempty starts
  refine first front rest parts nonempty ?_
  rw [← List.append_assoc] at starts ⊢
  exact (List.prefix_of_prefix_length_le starts (List.prefix_append _ _) (by simp)).trans
    (List.prefix_append _ _)

/-- **A mark that is not in the pattern** divides the text. -/
theorem replaceAll_mark {mark : α} (nonempty : pattern ≠ []) (apart : mark ∉ pattern) (front back : List α) :
    replaceAll pattern replacement (front ++ mark :: back) =
      replaceAll pattern replacement front ++ mark :: replaceAll pattern replacement back := by
  induction bound : front.length using Nat.strong_induction_on generalizing front with
  | _ size ih =>
    subst bound
    cases found : cutFirst pattern front with
    | none =>
      have none := cutFirst_eq_none.mp found
      rw [replaceAll_of_not_occurs none]
      cases later : cutFirst pattern back with
      | none =>
        have whole : ¬ pattern <:+: front ++ mark :: back := by
          rw [infix_mark nonempty apart, not_or]
          exact ⟨none, cutFirst_eq_none.mp later⟩
        rw [replaceAll_of_not_occurs whole, replaceAll_of_not_occurs (cutFirst_eq_none.mp later)]
      | some cut =>
        obtain ⟨before, after⟩ := cut
        obtain ⟨rfl, first⟩ := cutFirst_spec later
        have whole := @replaceAll_append _ _ _ _ _ replacement nonempty
          (firstAfter_mark nonempty apart none first)
        rw [replaceAll_append nonempty first]
        simpa using whole
    | some cut =>
      obtain ⟨before, after⟩ := cut
      have shorter := length_after nonempty found
      obtain ⟨rfl, first⟩ := cutFirst_spec found
      rw [replaceAll_append nonempty first]
      have whole := @replaceAll_append _ _ _ _ _ replacement nonempty
        (first.behind (after ++ mark :: back))
      rw [ih after.length shorter after rfl] at whole
      simpa using whole

/-- **No occurrence is left** where all were replaced, if the replacement begins with an item that the pattern
lacks, and goes on without the first item of the pattern. -/
theorem not_occurs_replaceAll {item mark : α} {tail : List α} (apart : mark ∉ item :: pattern)
    (without : item ∉ tail) (text : List α) :
    ¬ item :: pattern <:+: replaceAll (item :: pattern) (mark :: tail) text := by
  induction bound : text.length using Nat.strong_induction_on generalizing text with
  | _ size ih =>
    subst bound
    cases found : cutFirst (item :: pattern) text with
    | none =>
      have none := cutFirst_eq_none.mp found
      rwa [replaceAll_of_not_occurs none]
    | some cut =>
      obtain ⟨before, after⟩ := cut
      have shorter := length_after (List.cons_ne_nil _ _) found
      obtain ⟨rfl, first⟩ := cutFirst_spec found
      rw [replaceAll_append (List.cons_ne_nil _ _) first, List.cons_append,
        infix_mark (List.cons_ne_nil _ _) apart, not_or]
      refine ⟨first.not_occurs (List.cons_ne_nil _ _), fun occurs => ih _ shorter after rfl ?_⟩
      have behind : ∀ {front rest : List α}, item ∉ front → item :: pattern <:+: front ++ rest →
          item :: pattern <:+: rest := by
        intro front rest
        induction front with
        | nil => exact fun _ occurs => occurs
        | cons head front ih =>
          intro without occurs
          obtain ⟨other, others⟩ := List.ne_and_not_mem_of_not_mem_cons without
          rw [List.cons_append, List.infix_cons_iff] at occurs
          rcases occurs with starts | later
          · exact absurd (List.cons_prefix_cons.mp starts).1 other
          · exact ih others later
      exact behind without occurs

end

end Substrings
