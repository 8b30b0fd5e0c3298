/-
**One worker's output, split for the tasks of its group.**

`splitCoalescedOutput` of `runtime/task-runner/output-splitter.ts`. The worker wraps each result in the markers of
its task. Blocks for all tasks: each gets the text of its last block. Blocks for some: nobody gets anything. No
block: the sections under `### Task N of M` or `### Task id`, if they cover all tasks, and else the whole output.

* `blocks_interleaved`, `block_shape` — **the blocks of an output**: disjoint pieces, each from a start marker to
  the next end marker;
* `split_wrapped` — so each task gets its own text back;
* `split_keeps_apart` — the whole statement, for groups of two tasks at least.
-/

import PiCrew.Broker.SpawnPolicy
import PiCrew.Coalescing.Groups
import PiCrew.Library.FlatRegex

namespace PiCrew.Coalescing

open FlatRegex
open PiCrew.Broker.SpawnPolicy (isSpace trim)

/-! ### The patterns -/

/-- A line terminator, which `.` does not take. -/
def isLineTerminator (char : Char) : Bool :=
  char = '\n' || char = '\r' || char.toNat = 0x2028 || char.toNat = 0x2029

/-- `^` with the flag `m`. -/
def lineStart : Item := .anchor fun before _ => (before.map isLineTerminator).getD true

/-- `$` with the flag `m`. -/
def lineEnd : Item := .anchor fun _ next => (next.map isLineTerminator).getD true

def isWordChar (char : Char) : Bool := char.isAlphanum || char = '_'

/-- `\b`. -/
def wordBoundary : Item :=
  .anchor fun before next => (before.map isWordChar).getD false != (next.map isWordChar).getD false

/-- `\s+` -/
def spaces : Item := .chars isSpace 1 none false none

/-- What an id in a marker is made of: `[^\s>]`. -/
def isIdChar (char : Char) : Bool := !isSpace char && char != '>'

def startOpening : List Char := "<<<TASK_RESULT:".toList
def startClosing : List Char := ">>>".toList
def endMarker : List Char := "<<<END_TASK_RESULT>>>".toList

/-- `/<<<TASK_RESULT:([^\s>]+)>>>([\s\S]*?)<<<END_TASK_RESULT>>>/g` -/
def delimiterRegex : List Item := literal startOpening ++ .chars isIdChar 1 none false (some 1) ::
    (literal startClosing ++ .chars (fun _ => true) 0 none true (some 2) :: literal endMarker)

/-- `/^(#{2,3})\s+Task\s+(\d+)\s+of\s+\d+.*$/gm` -/
def numberedRegex : List Item :=
  lineStart :: .chars (· == '#') 2 (some 3) false (some 1) :: spaces :: (literal "Task".toList ++
    spaces :: .chars Char.isDigit 1 none false (some 2) :: spaces :: (literal "of".toList ++
    [spaces, .chars Char.isDigit 1 none false none,
      .chars (fun char => !isLineTerminator char) 0 none false none, lineEnd]))

/-- `/^(#{2,3})\s+Task\s+([^\s].*?)$/gm` -/
def idHeaderRegex : List Item :=
  lineStart :: .chars (· == '#') 2 (some 3) false (some 1) :: spaces :: (literal "Task".toList ++
    [spaces, .chars (fun char => !isSpace char) 1 (some 1) false (some 2),
      .chars (fun char => !isLineTerminator char) 0 none true (some 2), lineEnd])

/-! ### Sections -/

section

variable (rawOutput : String) (taskIds : List String)

def slice (first last : Nat) : String := String.ofList ((rawOutput.toList.take last).drop first)

/-- The places of the next sections: each section runs up to where the next one starts. -/
def sectionBodies : List (Nat × Nat) → List (Nat × String)
  | [] => []
  | (number, start) :: rest =>
    (number, trim (slice rawOutput start ((rest.head?.map (·.2)).getD rawOutput.toList.length)))
      :: sectionBodies rest

def numberedSections : List (Nat × Nat) := (findAll numberedRegex rawOutput.toList).map fun hit =>
    ((String.ofList (hit.found.group 2)).toNat?.getD 0, hit.stop)

/-- The texts of numbered sections, for the tasks they name. The first section of a task counts. -/
def byNumber : Bindings String String :=
  (sectionBodies rawOutput (numberedSections rawOutput)).foldl (fun result entry =>
      match if entry.1 = 0 then none else taskIds[entry.1 - 1]? with
      | none => result
      | some taskId => if (result.get taskId).isSome then result else result.set taskId entry.2)
    {}

def headerMatchesId (headerText id : String) : Bool :=
  headerText == id || test (wordBoundary :: (literal id.toList ++ [wordBoundary])) headerText.toList

/-- The headings that name a task, with the place behind each. -/
def idHeaders : List (String × Nat) := (findAll idHeaderRegex rawOutput.toList).filterMap fun hit =>
    (taskIds.find? fun id => headerMatchesId (trim (String.ofList (hit.found.group 2))) id).map
      fun id => (id, hit.stop)

/-- The last place, up to a limit, at which a line begins with `#`. -/
def lastHeadingBreak (limit : Nat) : Option Nat := ((List.range (limit + 1)).filter fun place =>
    ['\n', '#'].isPrefixOf (rawOutput.toList.drop place)).getLast?

/-- The texts under the headings, where each runs up to the heading before the next one. -/
def headerBodies : List (String × Nat) → List (String × String)
  | [] => []
  | (id, start) :: rest =>
    let length := rawOutput.toList.length
    let last :=
      match rest.head? with
      | none => length
      | some (_, next) =>
        match lastHeadingBreak rawOutput next with
        | some (place + 1) => place + 1
        | _ => length
    (id, trim (slice rawOutput start last)) :: headerBodies rest

def parseBySectionHeadings : Bindings String String :=
  if (numberedSections rawOutput).length ≥ taskIds.length then byNumber rawOutput taskIds
  else
    let headers := idHeaders rawOutput taskIds
    if (headers.map (·.1)).dedup.length = taskIds.length then Bindings.ofEntries (headerBodies rawOutput headers)
    else Bindings.ofEntries (headers.map fun header => (header.1, ""))

end

/-! ### Splitting -/

/-- A block of an output: the id in its start marker, and the text up to the end marker. -/
structure Block where
  id : List Char
  body : List Char
  deriving DecidableEq, Repr

def blockOf (found : Match) : Block where
  id := found.group 1
  body := found.group 2

def Block.render (block : Block) : List Char :=
  startOpening ++ block.id ++ startClosing ++ block.body ++ endMarker

def blocks (rawOutput : String) : List Block :=
  (findAll delimiterRegex rawOutput.toList).map fun hit => blockOf hit.found

def byId (rawOutput : String) (taskIds : List String) : Bindings String String :=
  Bindings.ofEntries (((blocks rawOutput).filter fun block => taskIds.contains (String.ofList block.id)).map
    fun block => (String.ofList block.id, trim (String.ofList block.body)))

def delimiterHits (rawOutput : String) (taskIds : List String) : List String :=
  ((byId rawOutput taskIds).entries.map (·.1)).dedup

def splitCoalescedOutput (rawOutput : String) (taskIds : List String) : List SplitResult :=
  match taskIds with
  | [] => []
  | [only] => [{ taskId := only, text := rawOutput, strategy := .delimiter }]
  | _ =>
    let found := byId rawOutput taskIds
    let hits := (delimiterHits rawOutput taskIds).length
    if hits = taskIds.length then
      taskIds.map fun id =>
        { taskId := id, text := (found.get id).getD "", strategy := .delimiter }
    else if hits > 0 then
      taskIds.map fun id => { taskId := id, text := "", strategy := .deadletter }
    else
      let sections := parseBySectionHeadings rawOutput taskIds
      if (sections.entries.map (·.1)).dedup.length = taskIds.length then
        taskIds.map fun id =>
          { taskId := id, text := (sections.get id).getD "", strategy := .sections }
      else taskIds.map fun id => { taskId := id, text := rawOutput, strategy := .broadcast }

/-! ### The blocks of an output -/

def Block.Closed (block : Block) : Prop :=
  ∀ place < block.body.length, ¬ endMarker <+: (block.body ++ endMarker).drop place

theorem matchHere_of_prefix {text input : List Char} (stands : text <+: input) (before : Option Char) :
    matchHere (literal text) before input ≠ none := by
  obtain ⟨rest, rfl⟩ := stands
  rw [← List.append_nil (literal text), matchHere_literal]
  simp [matchHere]

def Block.matched (block : Block) (rest : List Char) : Match :=
  .after startOpening none (.after block.id (some 1) (.after startClosing none
    (.after block.body (some 2) (.after endMarker none { whole := [], groups := [], rest := rest }))))

@[simp] theorem matched_rest (block : Block) (rest : List Char) : (block.matched rest).rest = rest := rfl

@[simp] theorem blockOf_matched (block : Block) (rest : List Char) : blockOf (block.matched rest) = block := by
  simp [blockOf, Block.matched, Match.after, Match.group]

@[simp] theorem matched_whole (block : Block) (rest : List Char) :
    (block.matched rest).whole = block.render := by
  simp [Block.matched, Block.render, Match.after]

/-- **A match of the delimiters** is a block: a start marker, and what follows up to the next end marker. -/
theorem block_shape {before : Option Char} {found : Match}
    (matched : matchHere delimiterRegex before (found.whole ++ found.rest) = some found) :
    found.whole = (blockOf found).render ∧ (blockOf found).Closed := by
  obtain ⟨behindOpening, afterOpening, _, opened, fromOpening⟩ := matchHere_literal_some matched
  obtain ⟨id, behindId, _, afterId, _, named, fromId⟩ := matchHere_chars_some opened
  obtain ⟨behindClosing, afterClosing, _, closed, fromClosing⟩ := matchHere_literal_some named
  obtain ⟨count, afterBody, within, early, ended, fromBody⟩ := matchHere_lazy_some closed
  rw [← List.append_nil (literal endMarker)] at ended
  obtain ⟨behindEnd, afterEnd, whole, last, fromEnd⟩ := matchHere_literal_some ended
  cases last
  have block : found = ({ id := id, body := behindClosing.take count } : Block).matched behindEnd := by
    rw [fromOpening, fromId, fromClosing, fromBody, fromEnd]
    rfl
  rw [block, blockOf_matched, matched_whole]
  refine ⟨rfl, fun place small stands => ?_⟩
  · dsimp only at small stands
    have length := (List.length_take_le count behindClosing)
    refine matchHere_of_prefix ?_ _ (early place (Nat.lt_of_lt_of_le small length))
    have split : behindClosing = (behindClosing.take count ++ endMarker) ++ behindEnd := by
      rw [List.append_assoc, ← whole, List.take_append_drop]
    have cut : behindClosing.drop place
        = (behindClosing.take count ++ endMarker).drop place ++ behindEnd := by
      conv_lhs => rw [split]
      rw [List.drop_append_of_le_length]
      rw [List.length_append]
      omega
    rw [cut]
    exact stands.trans (List.prefix_append _ _)

/-- **The blocks of an output** are pieces of it that follow one another, each up to the next end marker. -/
theorem blocks_interleaved (rawOutput : String) :
    Interleaved rawOutput.toList ((blocks rawOutput).map Block.render)
      ∧ ∀ block ∈ blocks rawOutput, block.Closed := by
  obtain ⟨pieces, each⟩ :=
    @findFrom_interleaved delimiterRegex none 0 (rawOutput.toList.length + 1) rawOutput.toList
  constructor
  · have rendered : (blocks rawOutput).map Block.render
        = (findAll delimiterRegex rawOutput.toList).map (·.found.whole) := by
      rw [blocks, List.map_map]
      refine List.map_congr_left fun hit member => ?_
      obtain ⟨other, matched⟩ := each hit member
      exact (block_shape matched).1.symm
    rw [rendered]
    exact pieces
  · intro block member
    obtain ⟨hit, found, rfl⟩ := List.mem_map.mp member
    obtain ⟨other, matched⟩ := each hit found
    exact (block_shape matched).2

/-! ### What the tasks get -/

/-- The texts of a group are kept apart: every task gets that of a block of its own, or none gets any. -/
def KeptApart (rawOutput : String) (results : List SplitResult) : Prop :=
  (∀ result ∈ results, result.strategy = .delimiter
      ∧ ∃ block ∈ blocks rawOutput, String.ofList block.id = result.taskId
        ∧ result.text = trim (String.ofList block.body))
    ∨ ∀ result ∈ results, result.strategy = .deadletter ∧ result.text = ""

section

variable {rawOutput : String} {taskIds : List String}

/-- What `byId` binds is the text of a block of that task. -/
theorem byId_mem {taskId text : String} (found : (byId rawOutput taskIds).get taskId = some text) :
    ∃ block ∈ blocks rawOutput, String.ofList block.id = taskId
      ∧ text = trim (String.ofList block.body) := by
  obtain ⟨block, member, same⟩ := List.mem_map.mp (Bindings.get_ofEntries_mem found)
  cases same
  exact ⟨block, (List.mem_filter.mp member).1, rfl, rfl⟩

theorem mem_delimiterHits {taskId : String} : taskId ∈ delimiterHits rawOutput taskIds ↔
      taskId ∈ taskIds ∧ ∃ block ∈ blocks rawOutput, String.ofList block.id = taskId := by
  simp only [delimiterHits, List.mem_dedup, byId, Bindings.ofEntries, List.map_reverse, List.mem_reverse,
    List.map_map, List.mem_map, List.mem_filter, Function.comp_def, List.contains_eq_mem, decide_eq_true_eq]
  constructor
  · rintro ⟨block, ⟨member, inGroup⟩, rfl⟩
    exact ⟨inGroup, block, member, rfl⟩
  · rintro ⟨inGroup, block, member, rfl⟩
    exact ⟨block, ⟨member, inGroup⟩, rfl⟩

theorem hits_all (all : (delimiterHits rawOutput taskIds).length = taskIds.length) :
    ∀ taskId ∈ taskIds, taskId ∈ delimiterHits rawOutput taskIds := by
  have within : delimiterHits rawOutput taskIds ⊆ taskIds := fun taskId hit => (mem_delimiterHits.mp hit).1
  have permuted := ((List.nodup_dedup _).subperm within).perm_of_length_le all.ge
  exact fun taskId member => permuted.mem_iff.mpr member

theorem byId_get_of_hit {taskId : String} (hit : taskId ∈ delimiterHits rawOutput taskIds) :
    ∃ text, (byId rawOutput taskIds).get taskId = some text := by
  cases found : (byId rawOutput taskIds).get taskId with
  | some text => exact ⟨text, rfl⟩
  | none =>
    obtain ⟨entry, bound, same⟩ := List.mem_map.mp (List.mem_dedup.mp hit)
    rw [byId] at bound found
    have missing := Bindings.get_ofEntries_eq_none.mp found
    have listed := List.mem_reverse.mp (by rwa [Bindings.ofEntries] at bound)
    exact absurd same (missing entry listed)

end

section

variable {rawOutput : String} {taskIds : List String}

theorem splitCoalescedOutput_several (several : 2 ≤ taskIds.length) :
    splitCoalescedOutput rawOutput taskIds =
      if (delimiterHits rawOutput taskIds).length = taskIds.length then
        taskIds.map fun id =>
          { taskId := id, text := ((byId rawOutput taskIds).get id).getD "", strategy := .delimiter }
      else if (delimiterHits rawOutput taskIds).length > 0 then
        taskIds.map fun id => { taskId := id, text := "", strategy := .deadletter }
      else if ((parseBySectionHeadings rawOutput taskIds).entries.map (·.1)).dedup.length
          = taskIds.length then
        taskIds.map fun id =>
          { taskId := id, text := ((parseBySectionHeadings rawOutput taskIds).get id).getD "",
            strategy := .sections }
      else taskIds.map fun id => { taskId := id, text := rawOutput, strategy := .broadcast } := by
  match taskIds, several with
  | _ :: _ :: _, _ => rfl

theorem split_apart (several : 2 ≤ taskIds.length)
    (delimited : ∃ block ∈ blocks rawOutput, String.ofList block.id ∈ taskIds) :
    KeptApart rawOutput (splitCoalescedOutput rawOutput taskIds) := by
  obtain ⟨block, member, inGroup⟩ := delimited
  have hit := mem_delimiterHits.mpr ⟨inGroup, block, member, rfl⟩
  rw [splitCoalescedOutput_several several]
  split
  · rename_i all
    refine .inl fun result isResult => ?_
    obtain ⟨taskId, inTasks, rfl⟩ := List.mem_map.mp isResult
    obtain ⟨text, bound⟩ := byId_get_of_hit (hits_all all taskId inTasks)
    refine ⟨rfl, ?_⟩
    rw [bound, Option.getD_some]
    exact byId_mem bound
  · rw [if_pos (List.length_pos_of_mem hit)]
    refine .inr fun result isResult => ?_
    obtain ⟨taskId, _, rfl⟩ := List.mem_map.mp isResult
    exact ⟨rfl, rfl⟩

end

/-! ### Wrapping and splitting -/

def wrappedBlock (taskId text : String) : Block where
  id := taskId.toList
  body := '\n' :: text.toList ++ ['\n']

def wrapText (taskId text : String) : String := String.ofList (wrappedBlock taskId text).render

/-- Wrapped texts, one for each entry of a layout, with something in front of each and at the end. -/
def layOut (texts : String → String) (closing : String) : List (String × String) → String
  | [] => closing
  | (gap, taskId) :: rest => gap ++ wrapText taskId (texts taskId) ++ layOut texts closing rest

/-- The delimiters match at a `<` only. -/
theorem delimiter_clear {char : Char} (other : char ≠ '<') (before : Option Char) (rest : List Char) :
    matchHere delimiterRegex before (char :: rest) = none := by
  cases matched : matchHere delimiterRegex before (char :: rest) with
  | none => rfl
  | some found =>
    obtain ⟨behind, begins⟩ := literal_prefix matched
    exact absurd (List.cons.inj begins).1.symm other

def PlainId (taskId : String) : Prop := taskId ≠ "" ∧ ∀ char ∈ taskId.toList, isIdChar char = true

def endMatch (rest : List Char) : Match := .after endMarker none { whole := [], groups := [], rest := rest }

theorem matchHere_endMarker (before : Option Char) (rest : List Char) :
    matchHere (literal endMarker) before (endMarker ++ rest) = some (endMatch rest) := by
  rw [← List.append_nil (literal endMarker), matchHere_literal]
  rfl

theorem matchHere_endMarker_inside {block : Block} (closed : block.Closed) {fewer : Nat}
    (small : fewer < block.body.length) (before : Option Char) (rest : List Char) :
    matchHere (literal endMarker) before ((block.body ++ (endMarker ++ rest)).drop fewer) = none := by
  have length : (block.body ++ endMarker).length = block.body.length + endMarker.length :=
    List.length_append
  cases matched : matchHere (literal endMarker) before ((block.body ++ (endMarker ++ rest)).drop fewer) with
  | none => rfl
  | some found =>
    rw [← List.append_nil (literal endMarker)] at matched
    have stands := literal_prefix matched
    have front : (block.body ++ endMarker).drop fewer
        <+: (block.body ++ (endMarker ++ rest)).drop fewer := by
      have cut : ((block.body ++ endMarker) ++ rest).drop fewer
          = (block.body ++ endMarker).drop fewer ++ rest :=
        List.drop_append_of_le_length (by omega)
      rw [← List.append_assoc, cut]
      exact List.prefix_append _ _
    have long : endMarker.length ≤ ((block.body ++ endMarker).drop fewer).length := by
      rw [List.length_drop]
      omega
    exact absurd (List.prefix_of_prefix_length_le stands front long) (closed fewer small)

theorem matchHere_body {block : Block} (closed : block.Closed) (before : Option Char) (rest : List Char) :
    matchHere (.chars (fun _ => true) 0 none true (some 2) :: literal endMarker) before
        (block.body ++ (endMarker ++ rest))
      = some (.after block.body (some 2) (endMatch rest)) := by
  have lazily := @matchHere_lazy (literal endMarker) before (block.body ++ (endMarker ++ rest))
    (some 2) block.body.length (endMatch rest) (by rw [List.length_append]; omega)
    (fun fewer small any => matchHere_endMarker_inside closed small any rest)
    (by rw [List.drop_left]; exact matchHere_endMarker _ rest)
  rwa [List.take_left] at lazily

theorem matchHere_block {block : Block} (named : block.id ≠ []) (plain : ∀ char ∈ block.id, isIdChar char = true)
    (closed : block.Closed) (before : Option Char) (rest : List Char) :
    matchHere delimiterRegex before (block.render ++ rest) = some (block.matched rest) := by
  have id (other : Option Char) :
      matchHere (.chars isIdChar 1 none false (some 1) ::
          (literal startClosing ++ .chars (fun _ => true) 0 none true (some 2) :: literal endMarker)) other
          (block.id ++ (startClosing ++ (block.body ++ (endMarker ++ rest))))
        = some (.after block.id (some 1) (.after startClosing none (.after block.body (some 2)
          (endMatch rest)))) := by
    refine matchHere_greedy named plain (fun char first => ?_) ?_
    · cases first
      rfl
    · rw [matchHere_literal, matchHere_body closed]
      rfl
  have shape : block.render ++ rest
      = startOpening ++ (block.id ++ (startClosing ++ (block.body ++ (endMarker ++ rest)))) := by
    simp only [Block.render, List.append_assoc]
  rw [shape, delimiterRegex, matchHere_literal, id]
  rfl

/-- The first block is found behind a gap without a `<`. -/
theorem searchFrom_block {gap rest : List Char} {block : Block} (clear : '<' ∉ gap) (named : block.id ≠ [])
    (plain : ∀ char ∈ block.id, isIdChar char = true) (closed : block.Closed) (before : Option Char)
    (place : Nat) :
    searchFrom delimiterRegex before place (gap ++ (block.render ++ rest))
      = some { start := place + gap.length, found := block.matched rest } := by
  rw [searchFrom_skip fun char others other member =>
    delimiter_clear (fun same => clear (same ▸ member)) other others]
  have here := matchHere_block named plain closed (gap.getLast?.or before) rest
  rw [searchFrom.eq_def, here]

/-- Text without a `<` has no block. -/
theorem searchFrom_none {text : List Char} (clear : '<' ∉ text) (before : Option Char) (place : Nat) :
    searchFrom delimiterRegex before place text = none := by
  have skipped := @searchFrom_skip delimiterRegex before place text [] fun char others other member =>
    delimiter_clear (fun same => clear (same ▸ member)) other others
  rw [List.append_nil] at skipped
  rw [skipped, searchFrom]
  rfl

section

variable {texts : String → String} {closing : String}

theorem findFrom_layOut (fuel : Nat) (before : Option Char) (place : Nat) {layout : List (String × String)}
    (enough : layout.length < fuel) (tail : '<' ∉ closing.toList)
    (gaps : ∀ entry ∈ layout, '<' ∉ entry.1.toList) (plain : ∀ entry ∈ layout, PlainId entry.2)
    (closed : ∀ entry ∈ layout, (wrappedBlock entry.2 (texts entry.2)).Closed) :
    (findFrom delimiterRegex fuel before place (layOut texts closing layout).toList).map
        (fun hit => blockOf hit.found)
      = layout.map fun entry => wrappedBlock entry.2 (texts entry.2) := by
  induction layout generalizing fuel before place with
  | nil =>
    cases fuel with
    | zero => rfl
    | succ fuel =>
      rw [layOut, findFrom, searchFrom_none tail]
      rfl
  | cons entry rest ih =>
    obtain ⟨gap, taskId⟩ := entry
    cases fuel with
    | zero => exact absurd enough (Nat.not_lt_zero _)
    | succ fuel =>
      have plainHere := plain _ List.mem_cons_self
      have text : (layOut texts closing ((gap, taskId) :: rest)).toList
          = gap.toList ++ ((wrappedBlock taskId (texts taskId)).render
            ++ (layOut texts closing rest).toList) := by
        rw [layOut, String.toList_append, String.toList_append, wrapText, String.toList_ofList,
          List.append_assoc]
      have named : (wrappedBlock taskId (texts taskId)).id ≠ [] := by
        simpa [wrappedBlock] using plainHere.1
      have first := @searchFrom_block gap.toList (layOut texts closing rest).toList
        (wrappedBlock taskId (texts taskId)) (gaps _ List.mem_cons_self) named plainHere.2 (closed _ List.mem_cons_self) before place
      rw [text, findFrom, first]
      simp only [List.map_cons, blockOf_matched, matched_rest]
      rw [ih fuel _ _ (by simpa using enough)
        (fun other member => gaps other (List.mem_cons_of_mem _ member))
        (fun other member => plain other (List.mem_cons_of_mem _ member))
        fun other member => closed other (List.mem_cons_of_mem _ member)]

end

theorem wrappedBlock_closed (taskId : String) {text : String} (unmarked : ¬ endMarker <:+: text.toList) :
    (wrappedBlock taskId text).Closed := by
  intro place small stands
  simp only [wrappedBlock, List.cons_append, List.length_cons, List.length_append, List.length_nil] at small stands
  cases place with
  | zero =>
    obtain ⟨behind, begins⟩ := stands
    exact absurd (List.cons.inj begins).1 (by decide)
  | succ place =>
    rw [List.drop_succ_cons, List.append_assoc, List.drop_append_of_le_length (by omega)] at stands
    rcases Nat.lt_or_ge (text.toList.drop place).length endMarker.length with short | long
    · -- the marker would reach over the line end
      have reach : text.toList.drop place ++ ['\n']
          <+: text.toList.drop place ++ (['\n'] ++ endMarker) :=
        ⟨endMarker, List.append_assoc _ _ _⟩
      have lines : text.toList.drop place ++ ['\n'] <+: endMarker :=
        List.prefix_of_prefix_length_le reach stands
          (by rw [List.length_append, List.length_singleton]; exact short)
      have inside : '\n' ∈ endMarker := lines.subset (by simp)
      exact absurd inside (by decide)
    · have within := List.prefix_of_prefix_length_le stands (List.prefix_append _ _) long
      exact unmarked (within.isInfix.trans (List.drop_suffix place text.toList).isInfix)

theorem trim_wrapped {text : String} (trimmed : trim text = text) (taskId : String) :
    trim (String.ofList (wrappedBlock taskId text).body) = text := by
  have front : ('\n' :: text.toList ++ ['\n']).dropWhile isSpace
      = (text.toList ++ ['\n']).dropWhile isSpace := by
    rw [List.cons_append, List.dropWhile_cons_of_pos (by decide)]
  have whole : ((text.toList ++ ['\n']).dropWhile isSpace).reverse.dropWhile isSpace
      = (text.toList.dropWhile isSpace).reverse.dropWhile isSpace := by
    rw [List.dropWhile_append]
    split
    · rename_i empty
      rw [List.isEmpty_iff.mp empty]
      decide
    · rw [List.reverse_append, List.reverse_singleton, List.singleton_append,
        List.dropWhile_cons_of_pos (by decide)]
  rw [trim, wrappedBlock, String.toList_ofList, front, whole]
  exact trimmed

section

variable {taskIds : List String} {texts : String → String} {closing : String}
  {layout : List (String × String)}

theorem layOut_length (texts : String → String) (closing : String) (layout : List (String × String)) :
    layout.length ≤ (layOut texts closing layout).toList.length := by
  induction layout with
  | nil => exact Nat.zero_le _
  | cons entry rest ih =>
    obtain ⟨gap, taskId⟩ := entry
    have opening : startOpening.length = 15 := by decide
    have one : 1 ≤ (wrapText taskId (texts taskId)).toList.length := by
      rw [wrapText, String.toList_ofList, Block.render]
      simp only [List.length_append, opening]
      omega
    rw [layOut, String.toList_append, String.toList_append, List.length_append, List.length_append,
      List.length_cons]
    omega

/-- **Wrapping and splitting**: in whatever order the texts are laid out, each task gets its own. -/
theorem split_wrapped (several : 2 ≤ taskIds.length) (distinct : taskIds.Nodup)
    (plain : ∀ taskId ∈ taskIds, PlainId taskId) (order : (layout.map (·.2)).Perm taskIds)
    (gaps : ∀ entry ∈ layout, '<' ∉ entry.1.toList) (tail : '<' ∉ closing.toList)
    (trimmed : ∀ taskId ∈ taskIds, trim (texts taskId) = texts taskId)
    (unmarked : ∀ taskId ∈ taskIds, ¬ endMarker <:+: (texts taskId).toList) :
    splitCoalescedOutput (layOut texts closing layout) taskIds = taskIds.map fun taskId =>
          { taskId := taskId, text := texts taskId, strategy := .delimiter } := by
  have inTasks : ∀ entry ∈ layout, entry.2 ∈ taskIds := fun entry member =>
    order.subset (List.mem_map_of_mem member)
  have found : blocks (layOut texts closing layout)
      = layout.map fun entry => wrappedBlock entry.2 (texts entry.2) :=
    findFrom_layOut _ none 0 (Nat.lt_succ_of_le (layOut_length texts closing layout)) tail gaps
      (fun entry member => plain _ (inTasks entry member))
      fun entry member => wrappedBlock_closed _ (unmarked _ (inTasks entry member))
  have hasBlock : ∀ taskId ∈ taskIds, taskId ∈ delimiterHits (layOut texts closing layout) taskIds := by
    intro taskId member
    obtain ⟨entry, laid, rfl⟩ := List.mem_map.mp (order.symm.subset member)
    refine mem_delimiterHits.mpr ⟨member, wrappedBlock entry.2 (texts entry.2), ?_, ?_⟩
    · rw [found]
      exact List.mem_map_of_mem laid
    · rw [wrappedBlock, String.ofList_toList]
  have all : (delimiterHits (layOut texts closing layout) taskIds).length = taskIds.length := by
    refine Nat.le_antisymm ((List.nodup_dedup _).subperm fun taskId hit => ?_).length_le
      (distinct.subperm hasBlock).length_le
    exact (mem_delimiterHits.mp hit).1
  rw [splitCoalescedOutput_several several, if_pos all]
  refine List.map_congr_left fun taskId member => ?_
  obtain ⟨text, bound⟩ := byId_get_of_hit (hasBlock taskId member)
  obtain ⟨block, isBlock, same, rfl⟩ := byId_mem bound
  rw [found] at isBlock
  obtain ⟨entry, _, rfl⟩ := List.mem_map.mp isBlock
  rw [wrappedBlock, String.ofList_toList] at same
  rw [bound, Option.getD_some, same, trim_wrapped (trimmed taskId member)]

end

/-- **The splitter keeps the texts of a group apart.** The blocks of any output are disjoint pieces of it,
read from the left. With a block of the group there is no broadcast: each task gets the text of a block of
its own, or nobody gets any. And texts that are wrapped and laid out in any order come back. -/
theorem split_keeps_apart {taskIds : List String} (several : 2 ≤ taskIds.length) (distinct : taskIds.Nodup)
    (plain : ∀ taskId ∈ taskIds, PlainId taskId) :
    (∀ rawOutput : String,
      Interleaved rawOutput.toList ((blocks rawOutput).map Block.render)
        ∧ (∀ block ∈ blocks rawOutput, block.Closed)
        ∧ ((∃ block ∈ blocks rawOutput, String.ofList block.id ∈ taskIds) →
          KeptApart rawOutput (splitCoalescedOutput rawOutput taskIds)
            ∧ ∀ result ∈ splitCoalescedOutput rawOutput taskIds, result.strategy ≠ .broadcast))
    ∧ ∀ (texts : String → String) (closing : String) (layout : List (String × String)),
      (layout.map (·.2)).Perm taskIds → (∀ entry ∈ layout, '<' ∉ entry.1.toList) → '<' ∉ closing.toList →
      (∀ taskId ∈ taskIds, trim (texts taskId) = texts taskId) →
      (∀ taskId ∈ taskIds, ¬ endMarker <:+: (texts taskId).toList) →
      splitCoalescedOutput (layOut texts closing layout) taskIds
        = taskIds.map fun taskId =>
            { taskId := taskId, text := texts taskId, strategy := .delimiter } := by
  refine ⟨fun rawOutput => ?_, fun texts closing layout order gaps tail trimmed unmarked =>
    split_wrapped several distinct plain order gaps tail trimmed unmarked⟩
  obtain ⟨pieces, closed⟩ := blocks_interleaved rawOutput
  refine ⟨pieces, closed, fun delimited => ?_⟩
  have apart := split_apart several delimited
  refine ⟨apart, fun result member broadcast => ?_⟩
  rcases apart with own | empty
  · exact absurd ((own result member).1.symm.trans broadcast) (by decide)
  · exact absurd ((empty result member).1.symm.trans broadcast) (by decide)

def pairTexts (taskId : String) : String :=
  if taskId = "01_a" then "first" else "as <<<TASK_RESULT:01_a>>> has it"

theorem pairIds_plain : ∀ taskId ∈ ["01_a", "02_b"], PlainId taskId := by
  have all : ∀ taskId ∈ ["01_a", "02_b"], taskId ≠ "" ∧ taskId.toList.all isIdChar = true := by decide
  exact fun taskId member => ⟨(all taskId member).1, List.all_eq_true.mp (all taskId member).2⟩

theorem pair_kept_apart :
    splitCoalescedOutput (layOut pairTexts "\n" [("", "02_b"), ("\n\n", "01_a")]) ["01_a", "02_b"]
      = ["01_a", "02_b"].map fun taskId =>
          { taskId := taskId, text := pairTexts taskId, strategy := .delimiter } :=
  (split_keeps_apart (by decide) (by decide) pairIds_plain).2 pairTexts "\n"
    [("", "02_b"), ("\n\n", "01_a")] (by decide) (by decide +kernel) (by decide +kernel) (by decide +kernel)
    (by decide +kernel)

/-- **Where texts are not kept apart**: a start marker without an end marker leads to a broadcast; a start
marker inside a section is part of its text; and a group of one gets the output as it is. -/
theorem texts_mixed :
    splitCoalescedOutput "<<<TASK_RESULT:a>>>\nhello" ["a", "b"]
      = [{ taskId := "a", text := "<<<TASK_RESULT:a>>>\nhello", strategy := .broadcast },
        { taskId := "b", text := "<<<TASK_RESULT:a>>>\nhello", strategy := .broadcast }]
    ∧ splitCoalescedOutput ("<<<TASK_RESULT:a>>> <<<TASK_RESULT:b>>> b's text <<<END_TASK_RESULT>>>"
        ++ "<<<TASK_RESULT:b>>> more <<<END_TASK_RESULT>>>") ["a", "b"]
      = [{ taskId := "a", text := "<<<TASK_RESULT:b>>> b's text", strategy := .delimiter },
        { taskId := "b", text := "more", strategy := .delimiter }]
    ∧ splitCoalescedOutput (wrapText "a" "hello") ["a"]
      = [{ taskId := "a", text := "<<<TASK_RESULT:a>>>\nhello\n<<<END_TASK_RESULT>>>",
           strategy := .delimiter }] :=
  ⟨by decide +kernel, by decide +kernel, by decide +kernel⟩

end PiCrew.Coalescing
