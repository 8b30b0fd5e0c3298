/-
**The edit engine** (`runtime/replace.ts`).

`replace` tries the exact text first, then one matcher after another. It takes what a matcher finds as a
text, and looks for that text again: `indexOf` finds its first occurrence, wherever the matcher saw it, and
`replaceAll` finds every one, in the text as the candidates before have left it. `replaceAll` also reads
`$$`, `$&` and the like in the new text as patterns.

* `replaceAll_safe` — so replacing everything is safe where the new text has no pattern and no candidate
  touches what an earlier one has put in.
-/

import PiCrew.Editing.Replacers

namespace PiCrew.Editing

open JsonText (Text units)
open Regions Substrings

/-! ## Replacing in a string -/

/-- What `$` and the unit stand for in the new text of a replacement. -/
def substitution (matched before after : Text) (unit : UInt16) : Option Text :=
  if unit = 0x24 then some [0x24]
  else if unit = 0x26 then some matched
  else if unit = 0x60 then some before
  else if unit = 0x27 then some after
  else none

/-- The new text of a replacement with its patterns read. A text has no groups, so `$1` is none. -/
def expand (matched before after : Text) : Text → Text
  | [] => []
  | [unit] => [unit]
  | unit :: next :: rest =>
    if unit = 0x24 then
      match substitution matched before after next with
      | some text => text ++ expand matched before after rest
      | none => unit :: expand matched before after (next :: rest)
    else unit :: expand matched before after (next :: rest)

/-- The parts of a text with the new text between them, as it is read at each place. -/
def expandParts (search replacement : Text) : Text → List Text → Text
  | _, [] => []
  | _, [part] => part
  | before, part :: next :: parts =>
    part ++ (expand search (before ++ part) (search.intercalate (next :: parts)) replacement ++
      expandParts search replacement (before ++ part ++ search) (next :: parts))

/-- `content.replaceAll(search, replacement)`, for a text that is not empty. -/
def jsReplaceAll (content search replacement : Text) : Text :=
  expandParts search replacement [] (split search content)

def countOccurrences (content substring : Text) : Nat :=
  if substring = [] then 0 else (split substring content).length - 1

/-- The new text has no pattern. -/
def verbatim : Text → Bool
  | [] => true
  | [_] => true
  | unit :: next :: rest =>
    !(unit = 0x24 && (next = 0x24 || next = 0x26 || next = 0x60 || next = 0x27)) && verbatim (next :: rest)

/-! ## The engine -/

structure ReplaceResult where
  content : Text
  changed : Bool
  strategy : List Char
  count : Nat
  deriving DecidableEq, Repr

def unchanged (content : Text) : ReplaceResult := ⟨content, false, "none".toList, 0⟩

/-- `content.slice(0, idx) + newString + content.slice(idx + length)`. -/
def spliceAt (content newString : Text) (idx length : Nat) : Text :=
  content.take idx ++ (newString ++ content.drop (idx + length))

def exactAll (content oldString newString : Text) : Option ReplaceResult :=
  if oldString <:+: content then
    let result := jsReplaceAll content oldString newString
    if result ≠ content then
      some ⟨result, true, "simple-replaceAll".toList, countOccurrences content oldString⟩
    else none
  else none

def exactOnce (content oldString newString : Text) : Option ReplaceResult :=
  match indexOf oldString content with
  | some idx =>
    if lastIndexOf oldString content = some idx then
      some ⟨spliceAt content newString idx oldString.length, true, "simple".toList, 1⟩
    else none
  | none => none

def replaceCandidate (newString : Text) (state : Text × Nat) (candidate : Text) : Text × Nat :=
  let count := countOccurrences state.1 candidate
  if count > 0 then (jsReplaceAll state.1 candidate newString, state.2 + count) else state

def tryAll (content oldString newString : Text) (replacer : Replacer) : Option ReplaceResult :=
  if replacer = .simple then none
  else
    let (result, totalCount) :=
      (replacer.candidates content oldString).foldl (replaceCandidate newString) (content, 0)
    if totalCount > 0 then
      some ⟨result, true, replacer.strategyName ++ "-replaceAll".toList, totalCount⟩
    else none

/-- A strategy of a single replacement: with more candidates than one, it is skipped. -/
def tryOnce (content oldString newString : Text) (replacer : Replacer) : Option ReplaceResult :=
  if replacer = .simple then none
  else
    match replacer.candidates content oldString with
    | [candidate] =>
      (indexOf candidate content).map fun idx =>
        ⟨spliceAt content newString idx candidate.length, true, replacer.strategyName, 1⟩
    | _ => none

def replace (content oldString newString : Text) (replaceAll : Bool) : ReplaceResult :=
  if oldString = [] then unchanged content
  else if oldString = newString then unchanged content
  else
    let exact := if replaceAll then exactAll content oldString newString
      else exactOnce content oldString newString
    match exact with
    | some result => result
    | none =>
      let attempt := if replaceAll then tryAll content oldString newString
        else tryOnce content oldString newString
      (REPLACERS.findSome? attempt).getD (unchanged content)

/-! ## Safety -/

def strategyLabel (replacer : Replacer) (replaceAll : Bool) : List Char :=
  if replaceAll then replacer.strategyName ++ "-replaceAll".toList else replacer.strategyName

/-- **A safe edit.** If `replace` succeeds, its result is the content with regions that the matcher it names
has matched replaced by the new text as it is, and by nothing else; and a single replacement replaces one
candidate, which stands in the content once. -/
def ReplaceSafe (content oldString newString : Text) (replaceAll : Bool) : Prop :=
  let result := replace content oldString newString replaceAll
  result.changed = true → ∃ replacer ∈ REPLACERS,
    result.strategy = strategyLabel replacer replaceAll ∧
    Edited (· ∈ replacer.candidates content oldString) newString content result.content ∧
    (replaceAll = false → ∃ candidate ∈ replacer.candidates content oldString,
      OccursOnce candidate content ∧ ∃ idx, OccursAt candidate content idx ∧
        result.content = spliceAt content newString idx candidate.length)

/-- The candidate of a matcher that finds one only. -/
def soleCandidate (content oldString : Text) (replacer : Replacer) : Option (Replacer × Text) :=
  if replacer = .simple then none
  else
    match replacer.candidates content oldString with
    | [candidate] => some (replacer, candidate)
    | _ => none

def chosen (content oldString : Text) : Option (Replacer × Text) :=
  REPLACERS.findSome? (soleCandidate content oldString)

/-- **What a single replacement needs**: the exact text stands once, or the candidate that is taken does. -/
def StandsOnce (content oldString newString : Text) : Prop :=
  oldString = [] ∨ oldString = newString ∨ OccursOnce oldString content ∨
    ∀ choice, chosen content oldString = some choice → OccursOnce choice.2 content

def firstFound (content oldString : Text) : Option Replacer := REPLACERS.find? fun replacer =>
    replacer ≠ .simple && (replacer.candidates content oldString).any (· ≠ [])

/-- The candidates, one after another, touch only what the ones before have kept. -/
def StaysApart (newString : Text) : List Text → List (Piece UInt16) → Prop
  | [], _ => True
  | candidate :: candidates, pieces =>
    Untouched candidate newString pieces ∧
      StaysApart newString candidates (editKept candidate pieces)

instance decidableStaysApart (newString : Text) :
    ∀ (candidates : List Text) (pieces : List (Piece UInt16)),
      Decidable (StaysApart newString candidates pieces)
  | [], _ => isTrue trivial
  | candidate :: candidates, pieces =>
    @instDecidableAnd _ _ inferInstance
      (decidableStaysApart newString candidates (editKept candidate pieces))

/-- **What replacing everything needs**: a new text without a pattern, and candidates that stay apart. -/
def EditsApart (content oldString newString : Text) : Prop :=
  oldString = [] ∨ oldString = newString ∨
    if oldString <:+: content then verbatim newString = true
    else ∀ replacer, firstFound content oldString = some replacer → verbatim newString = true ∧
        StaysApart newString ((replacer.candidates content oldString).filter (· ≠ [])) [.kept content]

/-! ## A single replacement -/

section

variable {content oldString newString : Text} {replacer : Replacer} {candidate : Text}

theorem mem_REPLACERS (replacer : Replacer) : replacer ∈ REPLACERS := by
  cases replacer <;> decide

theorem simple_label : "simple".toList = strategyLabel .simple false ∧
      "simple-replaceAll".toList = strategyLabel .simple true := by
  decide +kernel

def editFirst (content newString : Text) (choice : Replacer × Text) : ReplaceResult :=
  ⟨spliceAt content newString ((indexOf choice.2 content).getD 0) choice.2.length, true,
    choice.1.strategyName, 1⟩

theorem soleCandidate_eq_some {choice : Replacer × Text} :
    soleCandidate content oldString replacer = some choice ↔
      replacer ≠ .simple ∧ choice.1 = replacer ∧ replacer.candidates content oldString = [choice.2] := by
  obtain ⟨taken, candidate⟩ := choice
  rw [soleCandidate]
  by_cases simple : replacer = .simple
  · simp [simple]
  · rw [if_neg simple]
    split
    · next only found =>
        simp only [Option.some.injEq, Prod.mk.injEq, found, List.cons.injEq, and_true]
        exact ⟨fun same => ⟨simple, same.1.symm, same.2⟩, fun same => ⟨same.2.1.symm, same.2.2⟩⟩
    · next several =>
        refine iff_of_false (by simp) ?_
        rintro ⟨-, -, found⟩
        exact several candidate found

theorem tryOnce_eq (replacer : Replacer) :
    tryOnce content oldString newString replacer =
      (soleCandidate content oldString replacer).map (editFirst content newString) := by
  rw [tryOnce, soleCandidate]
  split
  · rfl
  · split
    · next candidate found =>
        have occurs : candidate <:+: content := by
          refine @candidates_within _ oldString _ replacer ?_
          rw [found]
          exact List.mem_singleton_self _
        obtain ⟨idx, first⟩ := indexOf_of_occurs occurs
        simp [editFirst, first]
    · rfl

theorem chosen_spec {choice : Replacer × Text} (taken : chosen content oldString = some choice) :
    choice.1 ≠ .simple ∧ choice.1.candidates content oldString = [choice.2] := by
  obtain ⟨front, replacer, back, -, found, -⟩ := List.findSome?_eq_some_iff.mp taken
  obtain ⟨other, rfl, only⟩ := soleCandidate_eq_some.mp found
  exact ⟨other, only⟩

theorem exactOnce_of_not (several : ¬ OccursOnce oldString content) :
    exactOnce content oldString newString = none := by
  rw [exactOnce]
  split
  · next idx first =>
      refine if_neg fun last => several (occursOnce_iff.mpr ?_)
      rw [first, last]
      exact ⟨Option.some_ne_none _, rfl⟩
  · rfl

theorem replace_exact (some : oldString ≠ []) (other : oldString ≠ newString)
    (once : OccursOnce oldString content) :
    ∃ idx, OccursAt oldString content idx ∧ replace content oldString newString false =
      ⟨spliceAt content newString idx oldString.length, true, "simple".toList, 1⟩ := by
  obtain ⟨found, same⟩ := occursOnce_iff.mp once
  obtain ⟨idx, first⟩ := Option.ne_none_iff_exists'.mp found
  refine ⟨idx, (indexOf_eq_some.mp first).1, ?_⟩
  have exact : exactOnce content oldString newString =
      Option.some ⟨spliceAt content newString idx oldString.length, true, "simple".toList, 1⟩ := by
    rw [exactOnce, first]
    exact if_pos (same.symm.trans first)
  simp only [replace, if_neg some, if_neg other, Bool.false_eq_true, if_false, exact]

theorem replace_chosen (some : oldString ≠ []) (other : oldString ≠ newString)
    (several : ¬ OccursOnce oldString content) :
    replace content oldString newString false =
      ((chosen content oldString).map (editFirst content newString)).getD (unchanged content) := by
  have attempts : tryOnce content oldString newString =
      Option.map (editFirst content newString) ∘ soleCandidate content oldString :=
    funext fun replacer => tryOnce_eq replacer
  simp only [replace, if_neg some, if_neg other, Bool.false_eq_true, if_false, exactOnce_of_not several,
    attempts, ← List.map_findSome?]
  rfl

/-- **A single replacement is safe** exactly if the text that it takes stands once in the content. -/
theorem replaceOnce_safe_iff :
    ReplaceSafe content oldString newString false ↔ StandsOnce content oldString newString := by
  by_cases empty : oldString = []
  · refine iff_of_true (fun changed => ?_) (.inl empty)
    simp [replace, empty, unchanged] at changed
  by_cases same : oldString = newString
  · refine iff_of_true (fun changed => ?_) (.inr (.inl same))
    rw [replace, if_neg empty, if_pos same] at changed
    cases changed
  by_cases once : OccursOnce oldString content
  · refine iff_of_true (fun _ => ?_) (.inr (.inr (.inl once)))
    obtain ⟨idx, occurs, result⟩ := replace_exact empty same once
    have matched : oldString ∈ Replacer.simple.candidates content oldString := by
      rw [Replacer.candidates, simpleReplacer, if_pos occurs.isInfix]
      exact List.mem_singleton_self _
    refine ⟨.simple, mem_REPLACERS _, ?_, ?_, fun _ => ⟨oldString, matched, once, idx, occurs, ?_⟩⟩
    · rw [result]
      exact simple_label.1
    · rw [result]
      exact Edited.splice matched occurs
    · rw [result]
  · rw [ReplaceSafe, replace_chosen empty same once]
    cases taken : chosen content oldString with
    | none =>
      refine iff_of_true (fun changed => by cases changed) (.inr (.inr (.inr fun choice found => ?_)))
      rw [taken] at found
      cases found
    | some choice =>
      obtain ⟨-, only⟩ := chosen_spec taken
      have matched : choice.2 ∈ choice.1.candidates content oldString := by
        rw [only]
        exact List.mem_singleton_self _
      obtain ⟨idx, first⟩ := indexOf_of_occurs (candidates_within matched)
      have occurs := (indexOf_eq_some.mp first).1
      simp only [Option.map_some, Option.getD_some, editFirst, first, true_implies]
      constructor
      · rintro ⟨replacer, -, label, -, single⟩
        -- the strategy's name gives the matcher, and the matcher its one candidate
        obtain rfl : choice.1 = replacer := strategyName_injective label
        obtain ⟨candidate, found, unique, -⟩ := single
        rw [only] at found
        rw [List.mem_singleton.mp found] at unique
        refine .inr (.inr (.inr fun other again => ?_))
        rw [taken] at again
        obtain rfl := Option.some.inj again
        exact unique
      · rintro (none | equal | unique | unique)
        · exact absurd none empty
        · exact absurd equal same
        · exact absurd unique once
        · refine ⟨choice.1, mem_REPLACERS _, rfl, Edited.splice matched occurs, ?_⟩
          exact ⟨choice.2, matched, unique choice taken, idx, occurs, rfl⟩

end

/-! ## Replacing everything -/

section

variable {content oldString newString : Text} {replacer : Replacer} {candidate : Text}

theorem expand_verbatim (plain : verbatim newString = true) (matched before after : Text) :
    expand matched before after newString = newString := by
  induction newString using verbatim.induct with
  | case1 => rfl
  | case2 unit => rfl
  | case3 unit next rest ih =>
    rw [verbatim, Bool.and_eq_true] at plain
    rw [expand]
    split
    · next dollar =>
        have literal : substitution matched before after next = none := by
          simp only [dollar, decide_true, Bool.true_and, Bool.not_eq_true', Bool.or_eq_false_iff,
            decide_eq_false_iff_not] at plain
          obtain ⟨⟨⟨⟨first, second⟩, third⟩, fourth⟩, -⟩ := plain
          rw [substitution, if_neg first, if_neg second, if_neg third, if_neg fourth]
        rw [literal]
        exact congrArg _ (ih plain.2)
    · exact congrArg _ (ih plain.2)

theorem jsReplaceAll_verbatim (plain : verbatim newString = true) (text search : Text) :
    jsReplaceAll text search newString = Substrings.replaceAll search newString text := by
  have parts : ∀ (before : Text) (parts : List Text),
      expandParts search newString before parts = newString.intercalate parts := by
    intro before parts
    induction parts generalizing before with
    | nil => rfl
    | cons part parts ih =>
      cases parts with
      | nil => simp [expandParts]
      | cons next parts =>
        rw [expandParts, expand_verbatim plain, ih, List.intercalate_cons_cons, List.append_assoc]
  exact parts [] (split search text)

theorem countOccurrences_pos (some : candidate ≠ []) {text : Text} :
    0 < countOccurrences text candidate ↔ candidate <:+: text := by
  rw [countOccurrences, if_neg some]
  cases found : cutFirst candidate text with
  | none =>
    have apart := cutFirst_eq_none.mp found
    simp [split_eq_singleton apart, apart]
  | some cut =>
    obtain ⟨before, after⟩ := cut
    have occurs : candidate <:+: text := by
      by_contra apart
      rw [cutFirst_eq_none.mpr apart] at found
      cases found
    have more := List.length_pos_iff.mpr (split_ne_nil candidate after)
    rw [split_eq_cons some found, List.length_cons]
    exact iff_of_true (by omega) occurs

theorem replaceCandidate_nil (state : Text × Nat) : replaceCandidate newString state [] = state := by
  simp [replaceCandidate, countOccurrences]

theorem foldl_nonempty (candidates : List Text) (state : Text × Nat) :
    candidates.foldl (replaceCandidate newString) state =
      (candidates.filter (· ≠ [])).foldl (replaceCandidate newString) state := by
  induction candidates generalizing state with
  | nil => rfl
  | cons candidate candidates ih =>
    by_cases empty : candidate = []
    · rw [empty, List.foldl_cons, replaceCandidate_nil, ih, List.filter_cons_of_neg (by simp)]
    · rw [List.filter_cons_of_pos (by simpa using empty), List.foldl_cons, List.foldl_cons, ih]

theorem replaceCandidate_render (plain : verbatim newString = true) (some : candidate ≠ [])
    {pieces : List (Piece UInt16)} (untouched : Untouched candidate newString pieces) (total : Nat) :
    (replaceCandidate newString (render newString pieces, total) candidate).1 =
      render newString (editKept candidate pieces) := by
  rw [← replaceAll_render some untouched, replaceCandidate]
  split
  · exact jsReplaceAll_verbatim plain _ _
  · next absent =>
      rw [gt_iff_lt, countOccurrences_pos some] at absent
      exact (replaceAll_of_not_occurs absent).symm

theorem editInTurn_render (plain : verbatim newString = true) {candidates : List Text}
    (some : ∀ candidate ∈ candidates, candidate ≠ []) {pieces : List (Piece UInt16)}
    (apart : StaysApart newString candidates pieces) (total : Nat) :
    ∃ later : List (Piece UInt16),
      (candidates.foldl (replaceCandidate newString) (render newString pieces, total)).1 =
        render newString later ∧
      original later = original pieces ∧
      ∀ region, .edited region ∈ later → region ∈ candidates ∨ .edited region ∈ pieces := by
  induction candidates generalizing pieces total with
  | nil => exact ⟨pieces, rfl, rfl, fun region => .inr⟩
  | cons candidate candidates ih =>
    obtain ⟨untouched, rest⟩ := apart
    have nonempty := some candidate List.mem_cons_self
    have step := replaceCandidate_render plain nonempty untouched total
    obtain ⟨later, result, whole, regions⟩ := ih
      (fun other member => some other (List.mem_cons_of_mem _ member)) rest
      (replaceCandidate newString (render newString pieces, total) candidate).2
    refine ⟨later, ?_, whole.trans (original_editKept nonempty pieces), fun region member => ?_⟩
    · rw [List.foldl_cons, ← result, ← step]
    · rcases regions region member with found | edited
      · exact .inl (List.mem_cons_of_mem _ found)
      · rcases mem_editKept edited with rfl | before
        · exact .inl List.mem_cons_self
        · exact .inr before

theorem foldl_count_le (candidates : List Text) (state : Text × Nat) :
    state.2 ≤ (candidates.foldl (replaceCandidate newString) state).2 := by
  induction candidates generalizing state with
  | nil => exact Nat.le_refl _
  | cons candidate candidates ih =>
    have step : state.2 ≤ (replaceCandidate newString state candidate).2 := by
      rw [replaceCandidate]
      split
      · exact Nat.le_add_right _ _
      · exact Nat.le_refl _
    exact step.trans (ih _)

theorem total_pos_iff (candidates : List Text) (regions : ∀ candidate ∈ candidates, candidate <:+: content) :
    0 < (candidates.foldl (replaceCandidate newString) (content, 0)).2 ↔
      candidates.any (· ≠ []) = true := by
  induction candidates with
  | nil => simp
  | cons candidate candidates ih =>
    rw [List.foldl_cons, List.any_cons]
    by_cases empty : candidate = []
    · rw [empty, replaceCandidate_nil, ih fun other member => regions other (List.mem_cons_of_mem _ member)]
      simp
    · have occurs := (countOccurrences_pos empty).mpr (regions candidate List.mem_cons_self)
      refine iff_of_true (Nat.lt_of_lt_of_le ?_ (foldl_count_le _ _)) (by simp [empty])
      rw [replaceCandidate, if_pos occurs]
      exact Nat.lt_of_lt_of_le occurs (Nat.le_add_left _ _)

theorem tryAll_eq (replacer : Replacer) :
    tryAll content oldString newString replacer =
      if replacer ≠ .simple && (replacer.candidates content oldString).any (· ≠ []) then
        let replaced := (replacer.candidates content oldString).foldl (replaceCandidate newString) (content, 0)
        some ⟨replaced.1, true, strategyLabel replacer true, replaced.2⟩
      else none := by
  rw [tryAll]
  by_cases simple : replacer = .simple
  · simp [simple]
  · have total := @total_pos_iff content newString (replacer.candidates content oldString)
      fun candidate member => candidates_within member
    simp only [gt_iff_lt, total, ne_eq, simple, not_false_eq_true, decide_true, Bool.true_and]
    rfl

theorem findSome?_tryAll : REPLACERS.findSome? (tryAll content oldString newString) =
      (firstFound content oldString).bind (tryAll content oldString newString) := by
  have skip : ∀ replacers : List Replacer,
      replacers.findSome? (tryAll content oldString newString) = (replacers.find? fun replacer =>
          replacer ≠ .simple && (replacer.candidates content oldString).any (· ≠ [])).bind
            (tryAll content oldString newString) := by
    intro replacers
    induction replacers with
    | nil => rfl
    | cons replacer replacers ih =>
      have result := @tryAll_eq content oldString newString replacer
      rw [List.findSome?_cons, List.find?_cons]
      cases found : (replacer ≠ .simple && (replacer.candidates content oldString).any (· ≠ []) : Bool) with
      | false =>
        rw [found] at result
        rw [result]
        exact ih
      | true =>
        rw [found] at result
        rw [Option.bind_some, result]
        rfl
  exact skip REPLACERS

theorem replaceAll_exact (some : oldString ≠ []) (other : oldString ≠ newString)
    (occurs : oldString <:+: content) (plain : verbatim newString = true) :
    replace content oldString newString true =
      ⟨Substrings.replaceAll oldString newString content, true, "simple-replaceAll".toList,
        countOccurrences content oldString⟩ := by
  have text := jsReplaceAll_verbatim plain content oldString
  simp only [replace, if_neg some, if_neg other, if_true, exactAll, if_pos occurs, text,
    if_pos (replaceAll_ne some occurs other)]

theorem replaceAll_found (some : oldString ≠ []) (other : oldString ≠ newString)
    (absent : ¬ oldString <:+: content) :
    replace content oldString newString true = ((firstFound content oldString).bind
        (tryAll content oldString newString)).getD (unchanged content) := by
  simp only [replace, if_neg some, if_neg other, if_true, exactAll, if_neg absent, findSome?_tryAll]

/-- **Replacing everything is safe** where the candidates stay apart. -/
theorem replaceAll_safe (apart : EditsApart content oldString newString) :
    ReplaceSafe content oldString newString true := by
  rw [ReplaceSafe]
  intro changed
  by_cases empty : oldString = []
  · rw [replace, if_pos empty] at changed
    cases changed
  by_cases same : oldString = newString
  · rw [replace, if_neg empty, if_pos same] at changed
    cases changed
  have needs := (apart.resolve_left empty).resolve_left same
  by_cases occurs : oldString <:+: content
  · rw [if_pos occurs] at needs
    have matched : oldString ∈ Replacer.simple.candidates content oldString := by
      rw [Replacer.candidates, simpleReplacer, if_pos occurs]
      exact List.mem_singleton_self _
    rw [replaceAll_exact empty same occurs needs]
    exact ⟨.simple, mem_REPLACERS _, simple_label.2, Edited.replaceAll empty matched content,
      fun none => by cases none⟩
  · rw [if_neg occurs] at needs
    rw [replaceAll_found empty same occurs] at changed ⊢
    cases found : firstFound content oldString with
    | none =>
      rw [found] at changed
      cases changed
    | some replacer =>
      obtain ⟨plain, candidates⟩ := needs replacer found
      obtain ⟨later, text, whole, regions⟩ := @editInTurn_render newString plain _
        (fun candidate member => of_decide_eq_true (List.mem_filter.mp member).2) _ candidates 0
      have start : render newString [.kept content] = content := List.append_nil content
      rw [start] at text
      rw [Option.bind_some, tryAll_eq, if_pos (List.find?_some found), foldl_nonempty]
      refine ⟨replacer, mem_REPLACERS _, rfl, ⟨later, ?_, text.symm, fun region member => ?_⟩,
        fun none => by cases none⟩
      · rw [whole]
        exact List.append_nil content
      · rcases regions region member with taken | kept
        · exact (List.mem_filter.mp taken).1
        · simp at kept

end

end PiCrew.Editing
