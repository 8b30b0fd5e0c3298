/-
**Two files that differ only where a project has no say.**

They hold the same scalars and arrays at every path that is not marked, those apart that loosen a guard. A key
of a section is read from the scalars and arrays below it, and a section is `undefined` if none of its keys is
defined. So what a file has at marked paths shows only there, and the sanitiser takes it out.

* `DefaultedBlock.hasOwn`, `DefaultedBlock.ownsUndefined` — which keys `nesting` and `broker` own then.
-/

import PiCrew.Config.Sanitizing

namespace PiCrew.Config

open JsObjects JsValue

section

variable {raw raw' first second : JsValue} {key name : String} {path : List String}

def Hidden (path : List String) : Prop := ∃ marked ∈ sensitivePaths, marked <+: path

def firm (path : List String) (value : JsValue) : JsValue := if loosens path value then undefined else value

/-- **Two files that differ only where a project has no say**: the same scalars and arrays at every path
that is not marked, those apart that loosen a guard. -/
def AlikeOutside (raw raw' : JsValue) : Prop :=
  ∀ path, ¬ Hidden path → (firm path (raw.descend path)).leaf = (firm path (raw'.descend path)).leaf

def SectionAlike (name : String) (first second : JsValue) : Prop :=
  ∀ key, [name, key] ∉ sensitivePaths →
    SameLeaves (firm [name, key] (first.get key)) (firm [name, key] (second.get key))

@[simp] theorem firm_undefined : firm path undefined = undefined := ite_self _

theorem loosens_congr_leaf {value value' : JsValue} (same : value.leaf = value'.leaf) :
    loosens path value = loosens path value' := by
  rcases hollow : value.leaf with _ | scalar
  · rw [loosens_of_leaf hollow, loosens_of_leaf (same ▸ hollow)]
  · have equal : value = value' := by
      cases value <;> cases value' <;> simp_all [leaf]
    rw [equal]

theorem firm_withoutKeys {value : JsValue} (drop : String → Bool) :
    firm path (value.withoutKeys drop) = (firm path value).withoutKeys drop := by
  rw [firm, firm, loosens_congr_leaf leaf_withoutKeys]
  split
  · rfl
  · rfl

theorem AlikeOutside.withoutKeys (alike : AlikeOutside raw raw') (drop : String → Bool) :
    AlikeOutside (raw.withoutKeys drop) (raw'.withoutKeys drop) := by
  intro path visible
  rw [descend_withoutKeys, descend_withoutKeys]
  split
  · rfl
  · rw [firm_withoutKeys, firm_withoutKeys, leaf_withoutKeys, leaf_withoutKeys]
    exact alike path visible

theorem SectionAlike.withoutKeys (alike : SectionAlike name first second) (drop : String → Bool) :
    SectionAlike name (first.withoutKeys drop) (second.withoutKeys drop) := by
  intro key unmarked
  rw [get_withoutKeys, get_withoutKeys]
  split
  · exact fun _ => rfl
  · rw [firm_withoutKeys, firm_withoutKeys]
    exact (alike key unmarked).withoutKeys drop

theorem loosens_apart {value : JsValue} (apart : path ∉ conditionalProjectDrops.map (·.1)) :
    loosens path value = false := by
  unfold loosens
  rw [List.find?_eq_none.mpr fun drop member named => ?_]
  · rfl
  · exact apart (List.mem_map.mpr ⟨drop, member, beq_iff_eq.mp named⟩)

theorem AlikeOutside.inSection (alike : AlikeOutside raw raw') (unmarked : [name] ∉ sensitivePaths) :
    SectionAlike name (raw.get name) (raw'.get name) := by
  intro key free path
  have visible : ¬ Hidden (name :: key :: path) := by
    rintro ⟨marked, member, front⟩
    obtain ⟨short, named⟩ := shallow_sensitivePaths marked member
    match marked, member, front, short, named with
    | [], _, _, _, named => simp at named
    | [top], member, front, _, _ =>
      obtain ⟨rfl, -⟩ := List.cons_prefix_cons.mp front
      exact unmarked member
    | [top, next], member, front, _, _ =>
      obtain ⟨rfl, rest⟩ := List.cons_prefix_cons.mp front
      obtain ⟨rfl, -⟩ := List.cons_prefix_cons.mp rest
      exact free member
    | _ :: _ :: _ :: _, _, _, short, _ => simp at short
  have same := alike _ visible
  cases path with
  | nil => exact same
  | cons next path =>
    have deep : ∀ value, loosens (name :: key :: next :: path) value = false := by
      intro value
      refine loosens_apart fun member => ?_
      have short := (shallow_conditional _ member).1
      simp at short
    have under : ∀ value : JsValue,
        (firm [name, key] value).descend (next :: path) = value.descend (next :: path) := by
      intro value
      unfold firm
      split
      case isTrue loose =>
        have scalar : value.isObject = false := by
          by_contra whole
          obtain ⟨members, rfl⟩ := isObject_iff.mp (Bool.not_eq_false _ ▸ whole)
          rw [loosens_of_leaf rfl] at loose
          exact Bool.false_ne_true loose
        rw [descend, descend, get_undefined, get_of_not_isObject scalar]
      case isFalse => rfl
    rw [under, under]
    simp only [firm, deep, Bool.false_eq_true, if_false] at same
    exact same

def Unruled (name : String) : Prop :=
  ∀ path ∈ sensitivePaths ++ conditionalProjectDrops.map (·.1), path.head? ≠ some name

theorem AlikeOutside.unruled (alike : AlikeOutside raw raw') (free : Unruled name) :
    SameLeaves (raw.get name) (raw'.get name) := by
  intro path
  have visible : ¬ Hidden (name :: path) := by
    rintro ⟨marked, member, front⟩
    obtain ⟨-, named⟩ := shallow_sensitivePaths marked member
    cases marked with
    | nil => simp at named
    | cons top rest =>
      obtain ⟨rfl, -⟩ := List.cons_prefix_cons.mp front
      exact free _ (List.mem_append_left _ member) rfl
  have tight : ∀ value, loosens (name :: path) value = false :=
    fun _ => loosens_apart fun member => free _ (List.mem_append_right _ member) rfl
  have same := alike _ visible
  simp only [firm, tight, Bool.false_eq_true, if_false] at same
  exact same

end

section

variable {parser : JsValue → JsValue} {path : List String} {fields : Fields} {name key : String}

/-- **A parser that reads scalars and arrays**: it reads the same from values with the same ones, and nothing
from nothing. -/
structure Reads (parser : JsValue → JsValue) : Prop where
  alike : ∀ {left right}, SameLeaves left right → parser left = parser right
  missing : parser undefined = undefined

def Screens (parser : JsValue → JsValue) : Prop := ∃ check, parser = parseWithSchema check

theorem reads_parseWithSchema {check : JsValue → Bool} (objects : ∀ members, check (object members) = false) :
    Reads (parseWithSchema check) where
  alike := by
    intro left right same
    rcases same.eq_or_hollow with rfl | ⟨hollow, hollow'⟩
    · rfl
    · have nothing : ∀ {value : JsValue}, value.leaf = none → parseWithSchema check value = undefined := by
        intro value hollow
        cases value with
        | undefined => exact ite_self _
        | object members => rw [parseWithSchema, objects, if_neg Bool.false_ne_true]
        | _ => exact nomatch hollow
      rw [nothing hollow, nothing hollow']
  missing := ite_self _

@[simp] theorem reads_parseBoolean : Reads parseBoolean := reads_parseWithSchema fun _ => rfl

@[simp] theorem reads_parseLiteral (literals : List String) : Reads (parseLiteral literals) :=
  reads_parseWithSchema fun _ => rfl

@[simp] theorem reads_number (integer : Bool) (minimum : Rat) (maximum : Option Rat) :
    Reads (parseWithSchema (isNumber integer minimum maximum)) :=
  reads_parseWithSchema fun _ => rfl

@[simp] theorem reads_string (accepts : String → Bool) : Reads (parseWithSchema (isString accepts)) :=
  reads_parseWithSchema fun _ => rfl

@[simp] theorem reads_arrayOf (check : JsValue → Bool) : Reads (parseWithSchema (isArrayOf check)) :=
  reads_parseWithSchema fun _ => rfl

@[simp] theorem reads_parsePositiveInteger (maximum : Rat) : Reads (parsePositiveInteger maximum) :=
  reads_number true 1 (some maximum)

@[simp] theorem reads_parseIntegerInRange (minimum maximum : Rat) :
    Reads (parseIntegerInRange minimum maximum) :=
  reads_number true minimum (some maximum)

@[simp] theorem reads_parseIntegerFrom (minimum : Rat) : Reads (parseIntegerFrom minimum) :=
  reads_number true minimum none

@[simp] theorem reads_parseNonEmptyString : Reads parseNonEmptyString := reads_string (minLength 1)

@[simp] theorem reads_parseStringList : Reads parseStringList where
  alike := by
    intro left right same
    rw [parseStringList, parseStringList, (reads_arrayOf _).alike same]
  missing := by rw [parseStringList, (reads_arrayOf _).missing]

@[simp] theorem screens_parseBoolean : Screens parseBoolean := ⟨_, rfl⟩

@[simp] theorem screens_parseLiteral (literals : List String) : Screens (parseLiteral literals) := ⟨_, rfl⟩

theorem Screens.firm (screens : Screens parser) (value : JsValue) :
    firm path (parser value) = parser (firm path value) := by
  obtain ⟨check, rfl⟩ := screens
  unfold Config.firm parseWithSchema
  by_cases loose : loosens path value = true
  · by_cases passes : check value = true <;> simp [loose, passes]
  · by_cases passes : check value = true <;> simp [loose, passes]

def lookup (fields : Fields) (key : String) : JsValue → JsValue :=
  ((fields.find? (·.1 == key)).map (·.2)).getD fun _ => undefined

theorem get_record (fields : Fields) (obj : JsValue) :
    (record fields obj).get key = lookup fields key (obj.get key) := by
  induction fields with
  | nil => rfl
  | cons field fields hyp =>
    simp only [record, JsValue.get, members_object] at hyp
    by_cases same : field.1 = key
    · subst same
      simp [record, JsValue.get, lookup]
    · simpa [record, JsValue.get, lookup, same] using hyp

theorem scalar_of_asRecord {value : JsValue} (plain : asRecord value = none) : value.isObject = false := by
  unfold asRecord at plain
  split at plain
  · exact nomatch plain
  · exact Bool.not_eq_true _ ▸ ‹_›

theorem eq_of_asRecord {value obj : JsValue} (found : asRecord value = some obj) :
    obj = value.withoutKeys isDangerous := by
  unfold asRecord at found
  split at found
  · exact (Option.some.inj found).symm
  · exact nomatch found

theorem get_of_asRecord {value : JsValue} (plain : asRecord value = none) :
    (value.withoutKeys isDangerous).get key = undefined := by
  rw [get_withoutKeys, get_of_not_isObject (scalar_of_asRecord plain)]
  exact ite_self _

theorem get_parseSection (missing : lookup fields key undefined = undefined) (value : JsValue) :
    (parseSection fields value).get key = lookup fields key ((value.withoutKeys isDangerous).get key) := by
  unfold parseSection
  split
  case h_1 plain => rw [get_of_asRecord plain, get_undefined, missing]
  case h_2 obj found => rw [get_collapse, get_record, eq_of_asRecord found]

theorem lookup_cases (fields : Fields) (key : String) :
    (∃ field ∈ fields, field.1 = key ∧ lookup fields key = field.2) ∨
      lookup fields key = fun _ => undefined := by
  unfold lookup
  cases found : fields.find? (·.1 == key) with
  | none => exact Or.inr rfl
  | some field =>
    exact Or.inl ⟨field, List.mem_of_find?_eq_some found, by simpa using List.find?_some found, rfl⟩

theorem reads_nothing : Reads fun _ => undefined := ⟨fun _ => rfl, rfl⟩

theorem reads_lookup (reads : ∀ field ∈ fields, Reads field.2) : Reads (lookup fields key) := by
  rcases lookup_cases fields key with ⟨field, member, -, same⟩ | same
  · exact same ▸ reads field member
  · exact same ▸ reads_nothing

theorem collapse_of_hollow {value : JsValue} (hollow : ∀ key, value.get key = undefined) :
    collapse value = undefined := by
  rw [collapse, if_neg]
  rw [anyDefined_iff]
  rintro ⟨key, defined⟩
  exact defined (hollow key)

theorem parseSection_eq_collapse (reads : ∀ field ∈ fields, Reads field.2) (value : JsValue) :
    parseSection fields value = collapse (record fields (value.withoutKeys isDangerous)) := by
  unfold parseSection
  split
  case h_1 plain =>
    refine (collapse_of_hollow fun key => ?_).symm
    rw [get_record, get_of_asRecord plain, (reads_lookup reads).missing]
  case h_2 obj found => rw [eq_of_asRecord found]

theorem reads_parseSection (reads : ∀ field ∈ fields, Reads field.2) : Reads (parseSection fields) where
  alike := by
    intro left right same
    have records :
        record fields (left.withoutKeys isDangerous) = record fields (right.withoutKeys isDangerous) := by
      unfold record
      congr 1
      refine List.map_congr_left fun field member => ?_
      rw [(reads field member).alike ((same.withoutKeys isDangerous).get field.1)]
    rw [parseSection_eq_collapse reads, parseSection_eq_collapse reads, records]
  missing := rfl

theorem reads_parsePolicyBlock (reads : ∀ field ∈ fields, Reads field.2) :
    Reads (parsePolicyBlock fields) where
  alike := by
    intro left right same
    rw [parsePolicyBlock, parsePolicyBlock, (reads_parseSection reads).alike same]
  missing := rfl

@[simp] theorem reads_parseSurfacePolicy : Reads parseSurfacePolicy := reads_parsePolicyBlock (by simp)

@[simp] theorem reads_parseModelFallbackConfig : Reads parseModelFallbackConfig := reads_parseSection (by simp)

@[simp] theorem reads_parseYield : Reads parseYield := reads_parseSection (by simp)

@[simp] theorem reads_parseLiveSession : Reads parseLiveSession := reads_parseSection (by simp)

@[simp] theorem reads_parseRetryPolicy : Reads parseRetryPolicy := reads_parseSection (by simp)

@[simp] theorem reads_parseHandoffBudgetTokens : Reads parseHandoffBudgetTokens := reads_parseIntegerInRange _ _

end

section

variable {fields : Fields} {name key : String} {parse : JsValue → JsValue} {left right : JsValue}

/-- **A section that is read by its keys**: what it holds under a key that is not marked depends on what a
project may say. -/
structure Keyed (name : String) (parse : JsValue → JsValue) : Prop where
  populated : ∀ value, Populated (parse value)
  alike : ∀ {left right}, SectionAlike name left right → ∀ key, [name, key] ∉ sensitivePaths →
    firm [name, key] ((parse left).get key) = firm [name, key] ((parse right).get key)

theorem populated_parseSection (fields : Fields) (value : JsValue) : Populated (parseSection fields value) := by
  unfold parseSection
  split
  · exact Or.inl rfl
  · exact populated_collapse _

/-- A key that is not marked is read as scalars and arrays, and it is screened where the table has it. -/
def Ruled (name : String) (field : String × (JsValue → JsValue)) : Prop :=
  [name, field.1] ∈ sensitivePaths ∨
    Reads field.2 ∧ ([name, field.1] ∈ conditionalProjectDrops.map (·.1) → Screens field.2)

theorem Ruled.lookup (ruled : ∀ field ∈ fields, Ruled name field) (unmarked : [name, key] ∉ sensitivePaths) :
    Reads (lookup fields key) ∧ ∀ value, firm [name, key] (Config.lookup fields key value)
        = Config.lookup fields key (firm [name, key] value) := by
  rcases lookup_cases fields key with ⟨field, member, rfl, same⟩ | same
  · rw [same]
    rcases ruled field member with marked | ⟨reads, screens⟩
    · exact absurd marked unmarked
    · refine ⟨reads, fun value => ?_⟩
      by_cases listed : [name, field.1] ∈ conditionalProjectDrops.map (·.1)
      · exact (screens listed).firm value
      · have tight : ∀ value, firm [name, field.1] value = value := by
          intro value
          rw [firm, loosens_apart listed, if_neg Bool.false_ne_true]
        rw [tight, tight]
  · rw [same]
    exact ⟨reads_nothing, fun _ => firm_undefined⟩

theorem keyed_of_ruled (ruled : ∀ field ∈ fields, Ruled name field)
    (populated : ∀ value, Populated (parse value)) (held : ∀ value key, [name, key] ∉ sensitivePaths →
      (parse value).get key = lookup fields key ((value.withoutKeys isDangerous).get key)) :
    Keyed name parse where
  populated := populated
  alike := by
    intro left right alike key unmarked
    obtain ⟨reads, screens⟩ := Ruled.lookup ruled unmarked
    rw [held left key unmarked, held right key unmarked, screens, screens]
    exact reads.alike (alike.withoutKeys isDangerous key unmarked)

theorem keyed_parseSection (ruled : ∀ field ∈ fields, Ruled name field) : Keyed name (parseSection fields) :=
  keyed_of_ruled ruled (populated_parseSection fields) fun value _ unmarked =>
    get_parseSection (Ruled.lookup ruled unmarked).1.missing value

theorem keyed_parseAutonomousConfig : Keyed "autonomous" parseAutonomousConfig :=
  keyed_parseSection (by simp [Ruled, sensitivePaths_eq])

theorem keyed_parseLimitsConfig : Keyed "limits" parseLimitsConfig :=
  keyed_parseSection (by simp [Ruled, conditionalProjectDrops])

theorem keyed_parseNestingConfig : Keyed "nesting" parseNestingConfig :=
  keyed_parseSection (by simp [Ruled, nestingFields, sensitivePaths_eq, conditionalProjectDrops])

theorem keyed_parseWorktreeConfig : Keyed "worktree" parseWorktreeConfig :=
  keyed_parseSection (by simp [Ruled, sensitivePaths_eq, conditionalProjectDrops])

theorem keyed_parseAgentsConfig : Keyed "agents" parseAgentsConfig :=
  keyed_parseSection (by simp [Ruled, sensitivePaths_eq])

theorem keyed_parseToolsConfig : Keyed "tools" parseToolsConfig :=
  keyed_parseSection (by simp [Ruled, sensitivePaths_eq, conditionalProjectDrops])

theorem keyed_parsePolicyConfig : Keyed "policy" parsePolicyConfig :=
  keyed_parseSection (by simp [Ruled, sensitivePaths_eq])

theorem keyed_parseNotificationsConfig : Keyed "notifications" parseNotificationsConfig :=
  keyed_parseSection (by simp [Ruled, sensitivePaths_eq, conditionalProjectDrops])

theorem keyed_parseReliabilityConfig : Keyed "reliability" parseReliabilityConfig :=
  keyed_parseSection (by simp [Ruled, conditionalProjectDrops])

theorem keyed_otlp : Keyed "otlp" (parseSection otlpFields) :=
  keyed_parseSection (by simp [Ruled, otlpFields, sensitivePaths_eq, conditionalProjectDrops])

theorem keyed_parseBrokerConfig : Keyed "broker" parseBrokerConfig :=
  keyed_parseSection (by simp [Ruled, brokerFields, conditionalProjectDrops])

theorem keyed_parseRuntimeConfig : Keyed "runtime" parseRuntimeConfig := by
  have ruled : ∀ field ∈ runtimeFields, Ruled "runtime" field := by
    simp [Ruled, runtimeFields, sensitivePaths_eq, conditionalProjectDrops]
  refine keyed_of_ruled ruled (fun value => ?_) fun value key unmarked => ?_
  · unfold parseRuntimeConfig
    split
    · exact Or.inr ⟨"inheritContext", by simp [JsValue.get]⟩
    · exact populated_collapse _
  · unfold parseRuntimeConfig
    split
    case h_1 plain =>
      have other : "inheritContext" ≠ key := by
        rintro rfl
        exact unmarked (by simp [sensitivePaths_eq])
      rw [get_of_asRecord plain, (Ruled.lookup ruled unmarked).1.missing]
      simp [JsValue.get, other]
    case h_2 obj found => rw [get_collapse, get_record, eq_of_asRecord found]

end

section

variable {raw raw' config config' : JsValue} {name : String}

def configFields : Fields :=
  configFieldsBefore ++ ("otlp", parseSection otlpFields) :: configFieldsBehind

theorem get_parseConfig (whole : raw.isObject = true) (read : parseConfig raw = .ok config) :
    config.get name = lookup configFields name ((raw.withoutKeys isDangerous).get name) := by
  have same : config = record configFields (raw.withoutKeys isDangerous) := by
    unfold parseConfig asRecord at read
    rw [if_pos whole] at read
    unfold parseOtlpConfig at read
    dsimp only at read
    split at read
    · exact nomatch read
    · rw [← Except.ok.inj read]
      simp [record, configFields]
  rw [same, get_record]

def Classed (field : String × (JsValue → JsValue)) : Prop :=
  [field.1] ∈ sensitivePaths ∨ Unruled field.1 ∧ Reads field.2 ∨
    [field.1] ∉ sensitivePaths ∧ Keyed field.1 field.2

instance : DecidablePred Unruled := fun name =>
  inferInstanceAs (Decidable
    (∀ path ∈ sensitivePaths ++ conditionalProjectDrops.map (·.1), path.head? ≠ some name))

theorem classed_configFields : ∀ field ∈ configFields, Classed field := by
  simp only [configFields, configFieldsBefore, configFieldsBehind, List.cons_append, List.nil_append,
    List.forall_mem_cons]
  exact ⟨.inl (by decide), .inl (by decide), .inr (.inl ⟨by decide, by simp⟩), .inl (by decide),
    .inr (.inl ⟨by decide, by simp⟩), .inr (.inr ⟨by decide, keyed_parseAutonomousConfig⟩),
    .inr (.inr ⟨by decide, keyed_parseLimitsConfig⟩), .inr (.inr ⟨by decide, keyed_parseNestingConfig⟩),
    .inr (.inr ⟨by decide, keyed_parseRuntimeConfig⟩),
    .inr (.inl ⟨by decide, reads_parseSection (by simp)⟩),
    .inr (.inr ⟨by decide, keyed_parseWorktreeConfig⟩), .inl (by decide),
    .inr (.inr ⟨by decide, keyed_parseAgentsConfig⟩), .inr (.inr ⟨by decide, keyed_parseToolsConfig⟩),
    .inr (.inl ⟨by decide, reads_parseSection (by simp)⟩),
    .inr (.inr ⟨by decide, keyed_parsePolicyConfig⟩), .inr (.inr ⟨by decide, keyed_parseNotificationsConfig⟩),
    .inr (.inl ⟨by decide, reads_parseSection (by simp)⟩),
    .inr (.inr ⟨by decide, keyed_parseReliabilityConfig⟩), .inr (.inr ⟨by decide, keyed_otlp⟩),
    .inr (.inl ⟨by decide, reads_parseSection (by simp)⟩), .inr (.inr ⟨by decide, keyed_parseBrokerConfig⟩),
    .inr (.inl ⟨by decide, reads_parseSection (by simp)⟩), fun _ => nofun⟩

theorem same_sanitized (projectPath : String) (alike : AlikeOutside raw raw') (whole : raw.isObject = true)
    (whole' : raw'.isObject = true) (read : parseConfig raw = .ok config)
    (read' : parseConfig raw' = .ok config') (name : String) :
    Same ((sanitizeProjectConfig projectPath config).config.get name)
      ((sanitizeProjectConfig projectPath config').config.get name) := by
  have clean := alike.withoutKeys isDangerous
  rw [get_sanitizeProjectConfig, get_sanitizeProjectConfig, get_parseConfig whole read,
    get_parseConfig whole' read']
  split
  case isTrue => exact Same.refl _
  case isFalse unmarked =>
  rcases lookup_cases configFields name with ⟨field, member, rfl, same⟩ | same
  · rw [same]
    rcases classed_configFields field member with marked | ⟨free, reads⟩ | ⟨-, keyed⟩
    · exact absurd marked unmarked
    · rw [reads.alike (clean.unruled free)]
      exact Same.refl _
    · refine (populated_sanitized (keyed.populated _)).same
        (populated_sanitized (keyed.populated _)) fun key => ?_
      have here := keyed.alike (clean.inSection unmarked) key
      rw [get_sanitized, get_sanitized]
      by_cases marked : [field.1, key] ∈ sensitivePaths
      · rw [if_pos (Or.inl marked), if_pos (Or.inl marked)]
        exact Same.refl _
      · simp only [marked, false_or]
        have equal := here marked
        simp only [firm] at equal
        rw [equal]
        exact Same.refl _
  · rw [same]
    exact Same.refl _

theorem sanitized_of_unruled (projectPath : String) (alike : AlikeOutside raw raw')
    (whole : raw.isObject = true) (whole' : raw'.isObject = true) (read : parseConfig raw = .ok config)
    (read' : parseConfig raw' = .ok config') (free : Unruled name) (reads : Reads (lookup configFields name)) :
    (sanitizeProjectConfig projectPath config).config.get name
      = (sanitizeProjectConfig projectPath config').config.get name := by
  rw [get_sanitizeProjectConfig, get_sanitizeProjectConfig, get_parseConfig whole read,
    get_parseConfig whole' read', reads.alike ((alike.withoutKeys isDangerous).unruled free)]

theorem sanitized_marked (projectPath : String) {key : String} (marked : [name, key] ∈ sensitivePaths) :
    ((sanitizeProjectConfig projectPath config).config.get name).get key = undefined := by
  rw [get_sanitizeProjectConfig]
  split
  · rfl
  · rw [get_sanitized, if_pos (Or.inl marked)]

theorem sanitized_marked_top (projectPath : String) (marked : [name] ∈ sensitivePaths) :
    (sanitizeProjectConfig projectPath config).config.get name = undefined := by
  rw [get_sanitizeProjectConfig, if_pos marked]

end

section

variable {raw config : JsValue} {name key : String} {fields : Fields}

/-- A section of which only `enabled` may be taken out: it is as it was, or it is without that key. -/
theorem redacted_enabled (test : String → JsValue → Bool) (value : JsValue) :
    redacted test ["enabled"] false false value = value ∨
    test "enabled" (value.get "enabled") = true ∧
      redacted test ["enabled"] false false value = collapse (value.erase "enabled") := by
  unfold redacted
  split
  case isTrue =>
    cases fails : test "enabled" (value.get "enabled") with
    | false => exact Or.inl (by simp [redactKeys, fails])
    | true => exact Or.inr (by simp [redactKeys, fails, erase])
  case isFalse => exact Or.inl rfl

/-- `nesting` and `broker`: the sections with defaults, of which a project may not set `enabled`. -/
inductive DefaultedBlock : String → Fields → Prop
  | nesting : DefaultedBlock "nesting" nestingFields
  | broker : DefaultedBlock "broker" brokerFields

theorem DefaultedBlock.sanitized (block : DefaultedBlock name fields) (projectPath : String)
    (config : JsValue) :
    ∃ test : String → JsValue → Bool, test "enabled" undefined = false ∧
      (sanitizeProjectConfig projectPath config).config.get name
        = redacted test ["enabled"] false false (config.get name) := by
  cases block with
  | nesting =>
    refine ⟨fun _ value => !value.isUndefined, rfl, ?_⟩
    rw [get_sanitizeProjectConfig, if_neg (by decide), withoutLoosening, if_neg (by decide), withoutSensitive,
      if_pos (by decide)]
    rfl
  | broker =>
    refine ⟨fun key value => loosens ["broker", key] value, rfl, ?_⟩
    rw [get_sanitizeProjectConfig, if_neg (by decide), withoutLoosening, if_pos (by decide), withoutSensitive,
      if_neg (by decide)]
    rfl

theorem DefaultedBlock.parsed (block : DefaultedBlock name fields) (whole : raw.isObject = true)
    (read : parseConfig raw = .ok config) :
    config.get name = parseSection fields ((raw.withoutKeys isDangerous).get name) := by
  cases block with
  | nesting | broker => exact get_parseConfig whole read

theorem hasOwn_record (fields : Fields) (obj : JsValue) :
    (record fields obj).hasOwn key = fields.any (·.1 == key) := by
  simp [record, JsValue.hasOwn, Function.comp_def]

theorem hasOwn_parseSection (fields : Fields) (value : JsValue) (key : String) :
    (parseSection fields value).hasOwn key
      = (!(parseSection fields value).isUndefined && fields.any (·.1 == key)) := by
  unfold parseSection
  split
  · rfl
  · rw [hasOwn_collapse, hasOwn_record]

theorem DefaultedBlock.hasOwn (block : DefaultedBlock name fields) (projectPath : String)
    (whole : raw.isObject = true) (read : parseConfig raw = .ok config) (other : key ≠ "enabled") :
    ((sanitizeProjectConfig projectPath config).config.get name).hasOwn key
      = (!((sanitizeProjectConfig projectPath config).config.get name).isUndefined
          && fields.any (·.1 == key)) := by
  obtain ⟨test, -, left⟩ := block.sanitized projectPath config
  rw [left]
  have parsed := hasOwn_parseSection fields ((raw.withoutKeys isDangerous).get name) key
  rw [← block.parsed whole read] at parsed
  rcases redacted_enabled test (config.get name) with same | ⟨-, same⟩
  · rw [same, parsed]
  · have distinct : (key != "enabled") = true := bne_iff_ne.mpr other
    rw [same, hasOwn_collapse, hasOwn_erase, parsed, distinct, Bool.true_and]
    cases gone : (config.get name).isUndefined with
    | true => simp [isUndefined_iff.mp gone, erase, members, collapse, anyDefined]
    | false => simp

/-- Where `enabled` is owned but not defined, it was not set, in a section that was. -/
theorem DefaultedBlock.ownsUndefined (block : DefaultedBlock name fields) (projectPath : String)
    (owns : ((sanitizeProjectConfig projectPath config).config.get name).ownsUndefined "enabled" = true) :
    (config.get name).ownsUndefined "enabled" = true := by
  obtain ⟨test, -, left⟩ := block.sanitized projectPath config
  rw [left] at owns
  rcases redacted_enabled test (config.get name) with same | ⟨-, same⟩
  · rwa [same] at owns
  · rw [same, JsValue.ownsUndefined, hasOwn_collapse, hasOwn_erase] at owns
    simp at owns

end

end PiCrew.Config
