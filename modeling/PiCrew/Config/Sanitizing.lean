/-
**What is taken out of a project's config.**

`config/sanitize-project-config.ts`. A project's file may be anyone's. Its config loses what the schema marks
as sensitive, and then the values that would loosen a guard. A section with no defined key left is `undefined`.

* `populated_sanitized` — a section that had a defined key has one, or is `undefined`.
-/

import Mathlib.Data.List.Sort
import PiCrew.Config.Parsing
import PiCrew.Config.Sensitive

namespace PiCrew.Config

open JsObjects JsValue

/-- **The values that loosen a guard** (`CONDITIONAL_PROJECT_DROPS`). -/
def conditionalProjectDrops : List (List String × (JsValue → Bool)) :=
  [(["runtime", "requirePlanApproval"], fun | .bool value => !value | _ => false),
    (["runtime", "completionMutationGuard"], fun | .string text => text == "off" | _ => false),
    (["runtime", "effectivenessGuard"], fun | .string text => text == "off" | _ => false),
    (["limits", "allowUnboundedConcurrency"], fun | .bool value => value | _ => false),
    (["reliability", "autoRecover"], fun | .bool value => !value | _ => false),
    (["reliability", "scopeModels"], fun | .bool value => !value | _ => false),
    (["broker", "enabled"], fun | .bool value => !value | _ => false)]

def loosens (path : List String) (value : JsValue) : Bool :=
  (conditionalProjectDrops.find? (·.1 == path)).any (·.2 value)

def topLevelLegacyOrder : List String := ["executeWorkers", "asyncByDefault", "requireCleanWorktreeLeader"]

def sectionLegacyOrder : List String := ["runtime", "autonomous", "worktree", "otlp", "agents", "tools"]

def legacyAlwaysCopySections : List String := ["runtime", "autonomous"]

def assignRedactSections : List String := ["worktree", "otlp"]

def sectionOf : List String → String
  | head :: _ :: _ => head
  | _ => ""

/-- The key of a path within its section: the rest of the path, with its dots. -/
def keyOf : List String → String
  | [] => ""
  | [key] => key
  | [_, key] => key
  | _ :: rest => String.intercalate "." rest

/-- A group of `groupPathsBySection`. -/
def keysOf (paths : List (List String)) (section' : String) : List String :=
  (paths.filter fun path => sectionOf path == section').map keyOf

def legacySorted (order keys : List String) : List String :=
  keys.insertionSort fun left right => order.idxOf left ≤ order.idxOf right

/-- `sectionProcessingOrder`, over the sections of some paths. -/
def sectionProcessingOrder (paths : List (List String)) : List String :=
  legacySorted sectionLegacyOrder ((paths.map sectionOf).eraseDups.filter (· != ""))

section

structure ConfigValidationResult where
  config : JsValue
  warnings : List String

def projectOverrideWarning (projectPath : String) (path : List String) : String :=
  projectPath ++ ": project-level sensitive config '" ++ String.intercalate "." path
    ++ "' is ignored; set it in user config to trust it explicitly"

/-- Take out the keys of a section whose values fail a test. It returns the section and the keys. -/
def redactKeys (test : String → JsValue → Bool) (assign : Bool) (keys : List String) (section' : JsValue) :
    JsValue × List String :=
  keys.foldl (fun state key =>
    if test key (state.1.get key) then
      (if assign then state.1.set key .undefined else state.1.erase key, state.2 ++ [key])
    else state) (section', [])

/-- `typeof value === "object"` -/
def typeofObject : JsValue → Bool
  | .null | .array _ | .object _ => true
  | _ => false

variable (projectPath : String)

/-- A step of either pass: the section `name`, as it was read, without the keys that fail the test. -/
def redactSection (test : String → JsValue → Bool) (keys : List String) (assign alwaysCopy : Bool)
    (name : String) (sectionValue : JsValue) (result : ConfigValidationResult) : ConfigValidationResult :=
  if typeofObject sectionValue then
    let (sectionConfig, dropped) := redactKeys test assign keys (.object sectionValue.members)
    if dropped.isEmpty && !alwaysCopy then result
    else
      ⟨result.config.set name (collapse sectionConfig),
        result.warnings ++ dropped.map fun key => projectOverrideWarning projectPath [name, key]⟩
  else result

def dropTopLevel (config : JsValue) (result : ConfigValidationResult) (key : String) : ConfigValidationResult :=
  if (config.get key).isUndefined then result
  else ⟨result.config.erase key, result.warnings ++ [projectOverrideWarning projectPath [key]]⟩

def dropTopLevelKeys (config : JsValue) : ConfigValidationResult :=
  (legacySorted topLevelLegacyOrder (keysOf sensitivePaths "")).foldl (dropTopLevel projectPath config)
    ⟨.object config.members, []⟩

/-- The first pass over the sections: what is marked. -/
def dropSensitive (config : JsValue) (result : ConfigValidationResult) : ConfigValidationResult :=
  (sectionProcessingOrder sensitivePaths).foldl (fun result name =>
    redactSection projectPath (fun _ value => !value.isUndefined) (keysOf sensitivePaths name)
      (assignRedactSections.contains name) (legacyAlwaysCopySections.contains name) name (config.get name)
      result) result

/-- The second pass: what loosens a guard. -/
def dropLoosening (result : ConfigValidationResult) : ConfigValidationResult :=
  let paths := conditionalProjectDrops.map (·.1)
  (sectionProcessingOrder paths).foldl (fun result name =>
    redactSection projectPath (fun key value => loosens [name, key] value) (keysOf paths name) false false name
      (result.config.get name) result) result

/-- **`sanitizeProjectConfig`**, without the user's config that it does not read. -/
def sanitizeProjectConfig (config : JsValue) : ConfigValidationResult :=
  dropLoosening projectPath (dropSensitive projectPath config (dropTopLevelKeys projectPath config))

end

section

variable {test : String → JsValue → Bool} {assign alwaysCopy : Bool} {key name : String}
  {keys : List String} {value : JsValue} {result : ConfigValidationResult}

theorem redactKeys_cons (test : String → JsValue → Bool) (assign : Bool) (key : String) (keys : List String)
    (value : JsValue) :
    redactKeys test assign (key :: keys) value =
      if test key (value.get key) then
        let rest := redactKeys test assign keys (if assign then value.set key .undefined else value.erase key)
        (rest.1, key :: rest.2)
      else redactKeys test assign keys value := by
  have apart : ∀ (keys dropped : List String) (value : JsValue), keys.foldl (fun state key =>
        if test key (state.1.get key) then
          (if assign then state.1.set key .undefined else state.1.erase key, state.2 ++ [key])
        else state) (value, dropped)
      = ((redactKeys test assign keys value).1, dropped ++ (redactKeys test assign keys value).2) := by
    intro keys
    induction keys with
    | nil => simp [redactKeys]
    | cons key keys hyp =>
      intro dropped value
      simp only [redactKeys, List.foldl_cons]
      cases test key (value.get key) with
      | false => exact hyp dropped value
      | true =>
        simp only [if_true, hyp]
        simp
  simp only [redactKeys, List.foldl_cons]
  cases test key (value.get key) with
  | false => rfl
  | true =>
    simp only [if_true, apart]
    rfl

theorem get_redactKeys (blind : ∀ key, test key undefined = false) :
    (redactKeys test assign keys value).1.get key
      = if key ∈ keys ∧ test key (value.get key) = true then undefined else value.get key := by
  induction keys generalizing value with
  | nil => simp [redactKeys]
  | cons first keys hyp =>
    rw [redactKeys_cons]
    cases fails : test first (value.get first) with
    | false =>
      rw [if_neg Bool.false_ne_true, hyp]
      by_cases same : key = first
      · subst same
        simp [fails]
      · simp [same]
    | true =>
      have without : (if assign then value.set first undefined else value.erase first).get key
          = if key = first then undefined else value.get key := by
        cases assign <;> simp
      simp only [if_true, hyp, without]
      by_cases same : key = first
      · subst same
        simp [fails, blind]
      · simp [same]

theorem redactKeys_keeps (none : (redactKeys test assign keys value).2 = []) :
    ∀ key ∈ keys, test key (value.get key) = false := by
  induction keys generalizing value with
  | nil => exact fun key member => absurd member List.not_mem_nil
  | cons first keys hyp =>
    rw [redactKeys_cons] at none
    cases fails : test first (value.get first) with
    | false =>
      rw [fails, if_neg Bool.false_ne_true] at none
      intro key member
      rcases List.mem_cons.mp member with rfl | later
      · exact fails
      · exact hyp none key later
    | true => simp [fails] at none

/-- A section behind a pass. -/
def redacted (test : String → JsValue → Bool) (keys : List String) (assign alwaysCopy : Bool)
    (value : JsValue) : JsValue :=
  if typeofObject value then
    let (sectionConfig, dropped) := redactKeys test assign keys (.object value.members)
    if dropped.isEmpty && !alwaysCopy then value else collapse sectionConfig
  else value

theorem get_redacted (blind : ∀ key, test key undefined = false) :
    (redacted test keys assign alwaysCopy value).get key
      = if key ∈ keys ∧ test key (value.get key) = true then undefined else value.get key := by
  unfold redacted
  split
  case isTrue =>
    have taken : (redactKeys test assign keys (.object value.members)).1.get key
        = if key ∈ keys ∧ test key (value.get key) = true then undefined else value.get key :=
      get_redactKeys blind
    cases kept : (redactKeys test assign keys (.object value.members)).2.isEmpty && !alwaysCopy with
    | false => simp only [kept, Bool.false_eq_true, if_false, get_collapse, taken]
    | true =>
      rw [Bool.and_eq_true, List.isEmpty_iff] at kept
      have passes := redactKeys_keeps kept.1 key
      rw [get_object_members] at passes
      simp only [kept.1, kept.2, List.isEmpty_nil, Bool.and_self, if_true]
      rw [if_neg fun ⟨member, fails⟩ => Bool.false_ne_true ((passes member).symm.trans fails)]
  case isFalse plain =>
    have bare : value.get key = undefined := by
      cases value <;> first | rfl | exact absurd rfl plain
    rw [bare, ite_self]

theorem populated_redacted (populated : Populated value) :
    Populated (redacted test keys assign alwaysCopy value) := by
  unfold redacted
  split
  · dsimp only
    split
    · exact populated
    · exact populated_collapse _
  · exact populated

theorem redacted_undefined : redacted test keys assign alwaysCopy undefined = undefined := rfl

variable {projectPath : String}

theorem get_redactSection (there : result.config.get name = value) :
    (redactSection projectPath test keys assign alwaysCopy name value result).config.get key
      = if key = name then redacted test keys assign alwaysCopy value else result.config.get key := by
  unfold redactSection redacted
  split
  case isTrue =>
    dsimp only
    split
    · split
      · simp [*]
      · rfl
    · exact get_set
  case isFalse =>
    split
    · simp [*]
    · rfl

end

section

variable {paths : List (List String)} {key name : String} {config : JsValue}

def Shallow (paths : List (List String)) : Prop :=
  ∀ path ∈ paths, path.length ≤ 2 ∧ path.head?.any (· != "")

theorem mem_keysOf (shallow : Shallow paths) (named : name ≠ "") :
    key ∈ keysOf paths name ↔ [name, key] ∈ paths := by
  rw [keysOf, List.mem_map]
  constructor
  · rintro ⟨path, member, rfl⟩
    rw [List.mem_filter, beq_iff_eq] at member
    obtain ⟨member, rfl⟩ := member
    match path, member, named, (shallow path member).1 with
    | [], _, named, _ | [_], _, named, _ => exact absurd rfl named
    | [_, _], member, _, _ => exact member
    | _ :: _ :: _ :: _, _, _, short => simp at short
  · intro member
    exact ⟨[name, key], List.mem_filter.mpr ⟨member, beq_self_eq_true name⟩, rfl⟩

theorem mem_keysOf_top (shallow : Shallow paths) : key ∈ keysOf paths "" ↔ [key] ∈ paths := by
  rw [keysOf, List.mem_map]
  constructor
  · rintro ⟨path, member, rfl⟩
    rw [List.mem_filter, beq_iff_eq] at member
    obtain ⟨member, top⟩ := member
    match path, member, top, shallow path member with
    | [], _, _, named => simp at named
    | [_], member, _, _ => exact member
    | head :: _ :: _, _, top, named =>
      have empty : head = "" := top
      simp [empty] at named
  · intro member
    exact ⟨[key], List.mem_filter.mpr ⟨member, rfl⟩, rfl⟩

theorem shallow_sensitivePaths : Shallow sensitivePaths := by
  unfold Shallow
  decide

theorem shallow_conditional : Shallow (conditionalProjectDrops.map (·.1)) := by
  unfold Shallow
  decide

theorem section_of_sensitive (marked : [name, key] ∈ sensitivePaths) :
    name ∈ sectionProcessingOrder sensitivePaths := by
  have all : ∀ path ∈ sensitivePaths, path.length = 2 →
      path.headD "" ∈ sectionProcessingOrder sensitivePaths := by decide
  exact all _ marked rfl

variable {value : JsValue}

theorem loosens_of_leaf {path : List String} (hollow : value.leaf = none) :
    loosens path value = false := by
  have firm : ∀ drop ∈ conditionalProjectDrops, drop.2 value = false := by
    cases value with
    | undefined => decide
    | object members => simp [conditionalProjectDrops]
    | _ => exact nomatch hollow
  unfold loosens
  cases found : conditionalProjectDrops.find? (·.1 == path) with
  | none => rfl
  | some drop => exact firm drop (List.mem_of_find?_eq_some found)

theorem section_of_loosens (loose : loosens [name, key] value = true) :
    name ∈ sectionProcessingOrder (conditionalProjectDrops.map (·.1)) ∧
      key ∈ keysOf (conditionalProjectDrops.map (·.1)) name := by
  have member : [name, key] ∈ conditionalProjectDrops.map (·.1) := by
    unfold loosens at loose
    rw [Option.any_eq_true] at loose
    obtain ⟨drop, found, -⟩ := loose
    have named : drop.1 = [name, key] := by simpa using List.find?_some found
    exact List.mem_map.mpr ⟨drop, List.mem_of_find?_eq_some found, named⟩
  have all : ∀ path ∈ conditionalProjectDrops.map (·.1), path.length = 2 →
      path.headD "" ∈ sectionProcessingOrder (conditionalProjectDrops.map (·.1)) := by decide
  have there := all _ member rfl
  have named : name ≠ "" := by
    rintro rfl
    have unnamed : "" ∉ sectionProcessingOrder (conditionalProjectDrops.map (·.1)) := by decide
    exact unnamed there
  exact ⟨there, (mem_keysOf shallow_conditional named).mpr member⟩

theorem get_foldl_sections {step : ConfigValidationResult → String → ConfigValidationResult}
    (read : String → JsValue) (behind : String → JsValue → JsValue) {names : List String}
    (one : ∀ result, ∀ name ∈ names, result.config.get name = read name → ∀ key,
      (step result name).config.get key = if key = name then behind name (read name) else result.config.get key)
    (distinct : names.Nodup) (result : ConfigValidationResult)
    (start : ∀ name ∈ names, result.config.get name = read name) :
    (names.foldl step result).config.get key
      = if key ∈ names then behind key (read key) else result.config.get key := by
  induction names generalizing result with
  | nil => rfl
  | cons name names hyp =>
    have first := one result name List.mem_cons_self (start name List.mem_cons_self)
    obtain ⟨fresh, distinct⟩ := List.nodup_cons.mp distinct
    rw [List.foldl_cons, hyp (fun result other member => one result other (List.mem_cons_of_mem _ member))
      distinct _ fun other member => ?_, first]
    · by_cases same : key = name
      · subst same
        simp [fresh]
      · simp [same]
    · have apart : other ≠ name := fun same => fresh (same ▸ member)
      rw [first, if_neg apart]
      exact start other (List.mem_cons_of_mem _ member)

def withoutSensitive (name : String) (value : JsValue) : JsValue :=
  if name ∈ sectionProcessingOrder sensitivePaths then
    redacted (fun _ value => !value.isUndefined) (keysOf sensitivePaths name)
      (assignRedactSections.contains name) (legacyAlwaysCopySections.contains name) value
  else value

def withoutLoosening (name : String) (value : JsValue) : JsValue :=
  if name ∈ sectionProcessingOrder (conditionalProjectDrops.map (·.1)) then
    redacted (fun key value => loosens [name, key] value) (keysOf (conditionalProjectDrops.map (·.1)) name)
      false false value
  else value

theorem get_dropTopLevelKeys (projectPath : String) :
    (dropTopLevelKeys projectPath config).config.get key
      = if [key] ∈ sensitivePaths then undefined else config.get key := by
  have dropped : ∀ (keys : List String) (result : ConfigValidationResult),
      (∀ key, result.config.get key = config.get key ∨ result.config.get key = undefined) →
      (keys.foldl (dropTopLevel projectPath config) result).config.get key
        = if key ∈ keys then undefined else result.config.get key := by
    intro keys
    induction keys with
    | nil => exact fun _ _ => rfl
    | cons first keys hyp =>
      intro result read
      have one : ∀ key, (dropTopLevel projectPath config result first).config.get key
          = if key = first then undefined else result.config.get key := by
        intro key
        unfold dropTopLevel
        split
        case isTrue missing =>
          split
          case isTrue same =>
            subst same
            rcases read key with there | gone
            · exact there.trans (isUndefined_iff.mp missing)
            · exact gone
          case isFalse => rfl
        case isFalse => exact get_erase
      rw [List.foldl_cons, hyp, one]
      · by_cases same : key = first <;> simp [same]
      · intro key
        rw [one]
        split
        · exact Or.inr rfl
        · exact read key
  rw [dropTopLevelKeys, dropped _ _ fun key => Or.inl get_object_members, get_object_members, legacySorted]
  simp only [(List.perm_insertionSort _ _).mem_iff, mem_keysOf_top shallow_sensitivePaths]

theorem unmarked_section : ∀ name ∈ sectionProcessingOrder sensitivePaths, [name] ∉ sensitivePaths := by
  decide

theorem get_dropSensitive (projectPath : String) {result : ConfigValidationResult}
    (start : ∀ name ∈ sectionProcessingOrder sensitivePaths, result.config.get name = config.get name) :
    (dropSensitive projectPath config result).config.get name
      = if name ∈ sectionProcessingOrder sensitivePaths then withoutSensitive name (config.get name)
        else result.config.get name := by
  have distinct : (sectionProcessingOrder sensitivePaths).Nodup := by decide
  rw [dropSensitive, get_foldl_sections config.get withoutSensitive ?_ distinct result start]
  intro result name member there key
  rw [withoutSensitive, if_pos member]
  exact get_redactSection there

theorem get_dropLoosening (projectPath : String) (result : ConfigValidationResult) :
    (dropLoosening projectPath result).config.get name = withoutLoosening name (result.config.get name) := by
  have distinct : (sectionProcessingOrder (conditionalProjectDrops.map (·.1))).Nodup := by decide
  rw [dropLoosening, get_foldl_sections result.config.get withoutLoosening ?_ distinct result fun _ _ => rfl]
  · by_cases member : name ∈ sectionProcessingOrder (conditionalProjectDrops.map (·.1))
    · rw [if_pos member]
    · rw [if_neg member, withoutLoosening, if_neg member]
  · intro current name member there key
    rw [withoutLoosening, if_pos member, ← there]
    exact get_redactSection rfl

theorem get_sanitizeProjectConfig (projectPath : String) :
    (sanitizeProjectConfig projectPath config).config.get name
      = if [name] ∈ sensitivePaths then undefined
        else withoutLoosening name (withoutSensitive name (config.get name)) := by
  rw [sanitizeProjectConfig, get_dropLoosening, get_dropSensitive projectPath fun name member => by
    rw [get_dropTopLevelKeys, if_neg (unmarked_section name member)], get_dropTopLevelKeys]
  by_cases member : name ∈ sectionProcessingOrder sensitivePaths
  · rw [if_pos member, if_neg (unmarked_section name member)]
  · rw [if_neg member]
    by_cases marked : [name] ∈ sensitivePaths
    · rw [if_pos marked, if_pos marked, withoutLoosening, redacted_undefined, ite_self]
    · rw [if_neg marked, if_neg marked, withoutSensitive, if_neg member]

theorem populated_sanitized (populated : Populated value) :
    Populated (withoutLoosening name (withoutSensitive name value)) := by
  have first : Populated (withoutSensitive name value) := by
    unfold withoutSensitive
    split
    · exact populated_redacted populated
    · exact populated
  unfold withoutLoosening
  split
  · exact populated_redacted first
  · exact first

theorem get_sanitized : (withoutLoosening name (withoutSensitive name value)).get key
      = if [name, key] ∈ sensitivePaths ∨ loosens [name, key] (value.get key) = true then undefined
        else value.get key := by
  have first : (withoutSensitive name value).get key
      = if [name, key] ∈ sensitivePaths then undefined else value.get key := by
    unfold withoutSensitive
    split
    case isTrue member =>
      have named : name ≠ "" := by
        rintro rfl
        have unnamed : "" ∉ sectionProcessingOrder sensitivePaths := by decide
        exact unnamed member
      rw [get_redacted fun _ => rfl]
      simp only [mem_keysOf shallow_sensitivePaths named]
      by_cases held : value.get key = undefined <;> simp [held]
    case isFalse outside =>
      rw [if_neg fun marked => outside (section_of_sensitive marked)]
  unfold withoutLoosening
  split
  case isTrue member =>
    rw [get_redacted fun key => loosens_of_leaf rfl, first]
    by_cases marked : [name, key] ∈ sensitivePaths
    · simp [marked]
    · simp only [marked, if_false, false_or]
      by_cases loose : loosens [name, key] (value.get key) = true
      · simp [loose, (section_of_loosens loose).2]
      · simp [loose]
  case isFalse outside =>
    have firm : loosens [name, key] (value.get key) ≠ true :=
      fun loose => outside (section_of_loosens loose).1
    rw [first]
    simp [firm]

end

end PiCrew.Config
