/-
**How two configs are merged.**

`config/config-merge.ts` (`mergeConfig`). A key of the top is that of the config on top, if it is defined there.
Known blocks are merged by their keys in the same way, and `runtime`, `agents`, `reliability` and `otlp` have a
block that is merged by its keys once more. Headers lose all their keys if one of them is invalid.

* `Twin.merge` — a merge respects what readers see.

The warning about blocked headers is not in the result of the source, and is left out.
-/

import PiCrew.Config.Parsing
import PiCrew.Config.Sensitive

namespace PiCrew.Config

open JsObjects JsValue

/-- `{ ...(base ?? {}), ...withoutUndefined(override ?? {}) }` -/
def mergeKeys (base override : JsValue) : JsValue := base.orEmpty.overlay override.orEmpty

def mergeBlock (merge : JsValue → JsValue → JsValue) (name : String) (base override merged : JsValue) :
    JsValue :=
  if (base.get name).truthy || (override.get name).truthy then
    merged.set name (merge (base.get name) (override.get name))
  else merged

/-- `runtime`: its `modelFallback` and its `surface` are merged by their keys as well. -/
def mergeRuntime (base override : JsValue) : JsValue := mergeBlock mergeKeys "surface" base override
    (mergeBlock mergeKeys "modelFallback" base override (mergeKeys base override))

/-- `agents`: its overrides are merged by name. -/
def mergeAgents (base override : JsValue) : JsValue :=
  (mergeKeys base override).set "overrides" (mergeKeys (base.get "overrides") (override.get "overrides"))

/-- `reliability`: its retry policy is merged by its keys, where one of the two has one. -/
def mergeReliability (base override : JsValue) : JsValue :=
  (mergeKeys base override).set "retryPolicy"
    (if (base.get "retryPolicy").truthy || (override.get "retryPolicy").truthy then
      mergeKeys (base.get "retryPolicy") (override.get "retryPolicy")
    else undefined)

/-- `[\x00-\x08\x0a-\x1f]` -/
def isControl (char : Char) : Bool := char.toNat ≤ 0x1f && char.toNat != 0x09

/-- A header with a reserved key, or with a control character in its value. -/
def isInvalidHeader (headers : JsValue) (key : String) : Bool :=
  isDangerous key || match headers.get key with
    | string text => text.toList.any isControl
    | _ => false

/-- `otlp`: its headers are merged by their keys. Without any, or with an invalid one, there are none. -/
def mergeOtlp (base override : JsValue) : JsValue :=
  let headers := (base.get "headers").orEmpty.spread (override.get "headers").orEmpty
  let merged := (mergeKeys base override).set "headers" headers
  let merged := if headers.keys.isEmpty then merged.erase "headers" else merged
  if headers.keys.any (isInvalidHeader headers) then merged.erase "headers" else merged

/-- The blocks that are merged by their keys, with how. -/
def mergers : List (String × (JsValue → JsValue → JsValue)) :=
  [("autonomous", mergeKeys), ("broker", mergeKeys), ("nesting", mergeKeys), ("limits", mergeKeys),
    ("runtime", mergeRuntime), ("control", mergeKeys), ("worktree", mergeKeys), ("ui", mergeKeys),
    ("agents", mergeAgents), ("tools", mergeKeys), ("telemetry", mergeKeys), ("policy", mergeKeys),
    ("notifications", mergeKeys), ("observability", mergeKeys), ("reliability", mergeReliability),
    ("otlp", mergeOtlp)]

def tidyAgents (agents : JsValue) : JsValue :=
  if (agents.get "overrides").truthy && (agents.get "overrides").keys.isEmpty then agents.erase "overrides"
  else agents

def mergeConfig (base override : JsValue) : JsValue :=
  let merged := mergers.foldl (fun merged block => mergeBlock block.2 block.1 base override merged)
    (base.overlay override)
  if ((merged.get "agents").get "overrides").truthy
      && ((merged.get "agents").get "overrides").keys.isEmpty then
    merged.set "agents" ((merged.get "agents").erase "overrides")
  else merged

section

variable {base override merged : JsValue} {name key : String}

theorem get_mergeBlock (merge : JsValue → JsValue → JsValue) :
    (mergeBlock merge name base override merged).get key
      = if key = name ∧ ((base.get name).truthy || (override.get name).truthy) = true then
          merge (base.get name) (override.get name)
        else merged.get key := by
  unfold mergeBlock
  split
  · rw [get_set]
    split <;> simp_all
  · simp_all

/-- A block, as the two are merged before the last step. -/
def mergedBlock (base override : JsValue) (name : String) : JsValue :=
  match mergers.find? (·.1 == name) with
  | some block =>
    if (base.get name).truthy || (override.get name).truthy then block.2 (base.get name) (override.get name)
    else (base.overlay override).get name
  | none => (base.overlay override).get name

theorem get_foldl_mergeBlock {blocks : List (String × (JsValue → JsValue → JsValue))}
    (distinct : (blocks.map (·.1)).Nodup) (merged : JsValue) :
    (blocks.foldl (fun merged block => mergeBlock block.2 block.1 base override merged) merged).get name
      = match blocks.find? (·.1 == name) with
        | some block =>
          if (base.get name).truthy || (override.get name).truthy then
            block.2 (base.get name) (override.get name)
          else merged.get name
        | none => merged.get name := by
  induction blocks generalizing merged with
  | nil => rfl
  | cons block blocks hyp =>
    obtain ⟨fresh, distinct⟩ := List.nodup_cons.mp distinct
    rw [List.foldl_cons, hyp distinct, get_mergeBlock]
    by_cases same : block.1 = name
    · subst same
      have gone : blocks.find? (·.1 == block.1) = none := by
        rw [List.find?_eq_none]
        intro other member named
        exact fresh (List.mem_map.mpr ⟨other, member, beq_iff_eq.mp named⟩)
      simp [gone]
    · have apart : ¬ name = block.1 := fun equal => same equal.symm
      simp [same, apart]

theorem get_mergeConfig : (mergeConfig base override).get name
      = if name = "agents" then tidyAgents (mergedBlock base override name)
        else mergedBlock base override name := by
  have distinct : (mergers.map (·.1)).Nodup := by decide
  have merged : ∀ name, (mergers.foldl (fun merged block => mergeBlock block.2 block.1 base override merged)
      (base.overlay override)).get name = mergedBlock base override name :=
    fun name => get_foldl_mergeBlock distinct (base.overlay override)
  unfold mergeConfig tidyAgents
  dsimp only
  by_cases agents : name = "agents"
  · subst agents
    rw [if_pos rfl, merged]
    split
    · rw [get_set, if_pos rfl]
    · exact merged "agents"
  · rw [if_neg agents]
    split
    · rw [get_set, if_neg agents, merged]
    · exact merged name

theorem get_of_falsy {value : JsValue} (falsy : value.truthy = false) : value.get key = undefined := by
  cases value with
  | object members => exact absurd falsy Bool.noConfusion
  | _ => rfl

theorem ownsUndefined_of_falsy {value : JsValue} (falsy : value.truthy = false) :
    value.ownsUndefined key = false := by
  cases value with
  | object members => exact absurd falsy Bool.noConfusion
  | _ => rfl

theorem falsy_overlay (below : (base.get name).truthy = false) (above : (override.get name).truthy = false) :
    ((base.overlay override).get name).truthy = false := by
  rw [get_overlay]
  split
  · exact below
  · exact above

def nestedKeys : List String := ["modelFallback", "surface", "overrides", "retryPolicy", "headers"]

theorem get_mergeKeys : (mergeKeys base override).get key
      = if (override.get key).isUndefined then base.get key else override.get key := by
  rw [mergeKeys, get_overlay, get_orEmpty, get_orEmpty]

theorem get_merger {block : String × (JsValue → JsValue → JsValue)} (member : block ∈ mergers)
    (plain : key ∉ nestedKeys) : (block.2 base override).get key = (mergeKeys base override).get key := by
  simp only [nestedKeys, List.mem_cons, List.not_mem_nil, not_or] at plain
  obtain ⟨fallback, surface, overrides, policy, headers, -⟩ := plain
  have runtime : (mergeRuntime base override).get key = (mergeKeys base override).get key := by
    simp [mergeRuntime, get_mergeBlock, fallback, surface]
  have agents : (mergeAgents base override).get key = (mergeKeys base override).get key := by
    simp [mergeAgents, overrides]
  have reliability : (mergeReliability base override).get key = (mergeKeys base override).get key := by
    simp [mergeReliability, policy]
  have otlp : (mergeOtlp base override).get key = (mergeKeys base override).get key := by
    unfold mergeOtlp
    dsimp only
    split_ifs <;> simp [headers]
  simp only [mergers, List.mem_cons, List.not_mem_nil, or_false] at member
  rcases member with
    rfl | rfl | rfl | rfl | rfl | rfl | rfl | rfl | rfl | rfl | rfl | rfl | rfl | rfl | rfl | rfl
  all_goals first | rfl | exact runtime | exact agents | exact reliability | exact otlp

theorem get_mergedBlock (known : name ∈ mergers.map (·.1)) (plain : key ∉ nestedKeys) :
    (mergedBlock base override name).get key = (mergeKeys (base.get name) (override.get name)).get key := by
  unfold mergedBlock
  split
  case h_1 block found =>
    split
    case isTrue => exact get_merger (List.mem_of_find?_eq_some found) plain
    case isFalse neither =>
      rw [Bool.or_eq_true, not_or, Bool.not_eq_true, Bool.not_eq_true] at neither
      rw [get_of_falsy (falsy_overlay neither.1 neither.2), get_mergeKeys, get_of_falsy neither.1,
        get_of_falsy neither.2, ite_self]
  case h_2 missing =>
    obtain ⟨block, member, named⟩ := List.mem_map.mp known
    rw [List.find?_eq_none] at missing
    exact absurd (beq_iff_eq.mpr named) (missing block member)

theorem get_get_mergeConfig (known : name ∈ mergers.map (·.1)) (plain : key ∉ nestedKeys) :
    ((mergeConfig base override).get name).get key
      = if ((override.get name).get key).isUndefined then (base.get name).get key
        else (override.get name).get key := by
  have other : key ≠ "overrides" := fun same => plain (same ▸ by decide)
  have tidy : ∀ agents : JsValue, (tidyAgents agents).get key = agents.get key := by
    intro agents
    unfold tidyAgents
    split
    · rw [get_erase, if_neg other]
    · rfl
  rw [get_mergeConfig, ← get_mergeKeys, ← get_mergedBlock known plain]
  split
  · exact tidy _
  · rfl

def mergedHeaders (base override : JsValue) : JsValue :=
  let headers := base.orEmpty.spread override.orEmpty
  if headers.keys.isEmpty || headers.keys.any (isInvalidHeader headers) then undefined else headers

def mergedOverrides (base override : JsValue) : JsValue :=
  if (mergeKeys base override).keys.isEmpty then undefined else mergeKeys base override

theorem headers_mergeConfig : ((mergeConfig base override).get "otlp").get "headers"
      = mergedHeaders ((base.get "otlp").get "headers") ((override.get "otlp").get "headers") := by
  have block : mergedBlock base override "otlp"
      = if (base.get "otlp").truthy || (override.get "otlp").truthy then
          mergeOtlp (base.get "otlp") (override.get "otlp")
        else (base.overlay override).get "otlp" := rfl
  rw [get_mergeConfig, if_neg (by decide), block]
  split
  case isTrue =>
    unfold mergeOtlp mergedHeaders
    dsimp only
    generalize ((base.get "otlp").get "headers").orEmpty.spread ((override.get "otlp").get "headers").orEmpty
      = headers
    cases headers.keys.isEmpty <;> cases headers.keys.any (isInvalidHeader headers) <;> simp
  case isFalse neither =>
    rw [Bool.or_eq_true, not_or, Bool.not_eq_true, Bool.not_eq_true] at neither
    rw [get_of_falsy (falsy_overlay neither.1 neither.2), get_of_falsy neither.1, get_of_falsy neither.2]
    rfl

theorem overrides_mergedBlock : (mergedBlock base override "agents").get "overrides"
      = if (base.get "agents").truthy || (override.get "agents").truthy then
          mergeKeys ((base.get "agents").get "overrides") ((override.get "agents").get "overrides")
        else undefined := by
  have block : mergedBlock base override "agents"
      = if (base.get "agents").truthy || (override.get "agents").truthy then
          mergeAgents (base.get "agents") (override.get "agents")
        else (base.overlay override).get "agents" := rfl
  rw [block]
  split
  case isTrue => rw [mergeAgents, get_set, if_pos rfl]
  case isFalse neither =>
    rw [Bool.or_eq_true, not_or, Bool.not_eq_true, Bool.not_eq_true] at neither
    exact get_of_falsy (falsy_overlay neither.1 neither.2)

theorem overrides_mergeConfig : ((mergeConfig base override).get "agents").get "overrides"
      = mergedOverrides ((base.get "agents").get "overrides") ((override.get "agents").get "overrides") := by
  rw [get_mergeConfig, if_pos rfl, tidyAgents, overrides_mergedBlock]
  cases either : (base.get "agents").truthy || (override.get "agents").truthy with
  | true =>
    have whole : (mergeKeys ((base.get "agents").get "overrides")
        ((override.get "agents").get "overrides")).truthy = true := rfl
    rw [if_pos rfl, whole, Bool.true_and, mergedOverrides]
    split
    · rw [get_erase, if_pos rfl]
    · rw [overrides_mergedBlock, either, if_pos rfl]
  | false =>
    rw [Bool.or_eq_false_iff] at either
    rw [if_neg Bool.false_ne_true, get_of_falsy either.1, get_of_falsy either.2]
    simp only [truthy, Bool.false_and, Bool.false_eq_true, if_false]
    rw [overrides_mergedBlock, either.1, either.2]
    rfl

theorem get_mergeConfig_plain (plain : name ∉ mergers.map (·.1)) :
    (mergeConfig base override).get name
      = if (override.get name).isUndefined then base.get name else override.get name := by
  have missing : mergers.find? (·.1 == name) = none := by
    rw [List.find?_eq_none]
    intro block member named
    exact plain (List.mem_map.mpr ⟨block, member, beq_iff_eq.mp named⟩)
  have agents : name ≠ "agents" := fun same => plain (same ▸ by decide)
  rw [get_mergeConfig, if_neg agents, mergedBlock, missing, get_overlay]

end

section

variable {base override : JsValue} {key : String}

theorem ownsUndefined_mergeConfig {name : String} (agents : name ≠ "agents")
    (keys : mergers.find? (·.1 == name) = some (name, mergeKeys)) :
    ((mergeConfig base override).get name).ownsUndefined key
      = ((base.get name).ownsUndefined key && ((override.get name).get key).isUndefined) := by
  rw [get_mergeConfig, if_neg agents, mergedBlock, keys]
  dsimp only
  split
  case isTrue => rw [mergeKeys, ownsUndefined_overlay, ownsUndefined_orEmpty, get_orEmpty]
  case isFalse neither =>
    rw [Bool.or_eq_true, not_or, Bool.not_eq_true, Bool.not_eq_true] at neither
    rw [ownsUndefined_of_falsy (falsy_overlay neither.1 neither.2), ownsUndefined_of_falsy neither.1,
      Bool.false_and]

end

section

variable {value : JsValue}

theorem empty_spread (value : JsValue) : (object []).spread value = object value.members := by
  have all : value.members.filter (fun member => !(object []).hasOwn member.1) = value.members :=
    List.filter_eq_self.mpr fun _ _ => rfl
  rw [spread, all]
  rfl

theorem mergedHeaders_again :
    mergedHeaders undefined (mergedHeaders undefined value) = mergedHeaders undefined value := by
  have merged : ∀ value, mergedHeaders undefined value = if (object value.members).keys.isEmpty ||
            (object value.members).keys.any (isInvalidHeader (object value.members)) then undefined
        else object value.members := by
    intro value
    have members : value.orEmpty.members = value.members := by cases value <;> rfl
    rw [mergedHeaders, orEmpty, empty_spread, members]
  rw [merged value]
  split
  · rfl
  · rw [merged (object value.members)]
    simp_all

theorem mergedOverrides_again :
    mergedOverrides undefined (mergedOverrides undefined value) = mergedOverrides undefined value := by
  have merged : ∀ value, mergeKeys undefined value = value.withoutUndefined := by
    intro value
    rw [mergeKeys, orEmpty, overlay, empty_spread]
    cases value <;> rfl
  have twice : value.withoutUndefined.withoutUndefined = value.withoutUndefined := by
    rw [withoutUndefined]
    simp only [get_withoutUndefined]
    rw [withoutUndefined, members_object, List.filter_filter]
    simp only [Bool.and_self]
  rw [mergedOverrides, mergedOverrides, merged]
  split
  case isTrue => rfl
  case isFalse held =>
    rw [merged] at held
    rw [merged, twice, if_neg held]

end

section

variable {base base' override override' merged merged' : JsValue} {name key : String}

theorem same_mergeKeys (below : Same base base') (above : Same override override') :
    Same (mergeKeys base override) (mergeKeys base' override') :=
  below.orEmpty.overlay above.orEmpty

theorem same_mergeBlock {merge : JsValue → JsValue → JsValue} (name : String) (below : Same base base')
    (above : Same override override')
    (block : Same (merge (base.get name) (override.get name)) (merge (base'.get name) (override'.get name)))
    (so_far : Same merged merged') :
    Same (mergeBlock merge name base override merged) (mergeBlock merge name base' override' merged') := by
  unfold mergeBlock
  rw [(below.get name).truthy, (above.get name).truthy]
  split
  · exact so_far.set block
  · exact so_far

section

variable (below : Same base base') (above : Same override override')

include below above

theorem same_mergeRuntime :
    Same (mergeRuntime base override) (mergeRuntime base' override') := by
  have inner := fun name => same_mergeKeys (below.get name) (above.get name)
  exact same_mergeBlock "surface" below above (inner "surface")
    (same_mergeBlock "modelFallback" below above (inner "modelFallback") (same_mergeKeys below above))

theorem same_mergeAgents :
    Same (mergeAgents base override) (mergeAgents base' override') :=
  (same_mergeKeys below above).set (same_mergeKeys (below.get "overrides") (above.get "overrides"))

theorem same_mergeReliability :
    Same (mergeReliability base override) (mergeReliability base' override') := by
  refine (same_mergeKeys below above).set ?_
  rw [(below.get "retryPolicy").truthy, (above.get "retryPolicy").truthy]
  split
  · exact same_mergeKeys (below.get "retryPolicy") (above.get "retryPolicy")
  · exact Same.refl _

theorem same_mergeOtlp (headers : base.get "headers" = base'.get "headers")
    (headers' : override.get "headers" = override'.get "headers") :
    Same (mergeOtlp base override) (mergeOtlp base' override') := by
  unfold mergeOtlp
  dsimp only
  rw [headers, headers']
  generalize (base'.get "headers").orEmpty.spread (override'.get "headers").orEmpty = merged
  have assigned : Same ((mergeKeys base override).set "headers" merged)
      ((mergeKeys base' override').set "headers" merged) :=
    (same_mergeKeys below above).set (Same.refl merged)
  split_ifs
  · exact assigned.erase.erase
  · exact assigned.erase
  · exact assigned.erase
  · exact assigned

end

/-- **Two configs that no reader tells apart**, and that own the same headers, overrides and persistence. -/
structure Twin (left right : JsValue) : Prop where
  same : ∀ name, Same (left.get name) (right.get name)
  headers : (left.get "otlp").get "headers" = (right.get "otlp").get "headers"
  overrides : (left.get "agents").get "overrides" = (right.get "agents").get "overrides"
  persistence : left.get "persistence" = right.get "persistence"

theorem Twin.refl (config : JsValue) : Twin config config where
  same _ := Same.refl _
  headers := rfl
  overrides := rfl
  persistence := rfl

variable (below : Twin base base') (above : Twin override override')

include below above

theorem Twin.merger {block : String × (JsValue → JsValue → JsValue)} (member : block ∈ mergers) :
    Same (block.2 (base.get block.1) (override.get block.1))
      (block.2 (base'.get block.1) (override'.get block.1)) := by
  have keys := fun name => same_mergeKeys (below.same name) (above.same name)
  simp only [mergers, List.mem_cons, List.not_mem_nil, or_false] at member
  rcases member with
    rfl | rfl | rfl | rfl | rfl | rfl | rfl | rfl | rfl | rfl | rfl | rfl | rfl | rfl | rfl | rfl
  exacts [keys "autonomous", keys "broker", keys "nesting", keys "limits",
    same_mergeRuntime (below.same "runtime") (above.same "runtime"), keys "control", keys "worktree", keys "ui",
    same_mergeAgents (below.same "agents") (above.same "agents"), keys "tools", keys "telemetry", keys "policy",
    keys "notifications", keys "observability",
    same_mergeReliability (below.same "reliability") (above.same "reliability"),
    same_mergeOtlp (below.same "otlp") (above.same "otlp") below.headers above.headers]

theorem Twin.block (name : String) :
    Same (mergedBlock base override name) (mergedBlock base' override' name) := by
  have overlay : Same ((base.overlay override).get name) ((base'.overlay override').get name) := by
    rw [get_overlay, get_overlay, (above.same name).isUndefined]
    split
    · exact below.same name
    · exact above.same name
  unfold mergedBlock
  rw [(below.same name).truthy, (above.same name).truthy]
  cases found : mergers.find? (·.1 == name) with
  | none => exact overlay
  | some block =>
    have named : block.1 = name := by simpa using List.find?_some found
    dsimp only
    split
    · exact named ▸ below.merger above (List.mem_of_find?_eq_some found)
    · exact overlay

/-- **A merge keeps two such configs alike.** -/
theorem Twin.merge : Twin (mergeConfig base override) (mergeConfig base' override') where
  same := by
    intro name
    rw [get_mergeConfig, get_mergeConfig]
    split
    case isTrue agents =>
      subst agents
      have same : (mergedBlock base override "agents").get "overrides"
          = (mergedBlock base' override' "agents").get "overrides" := by
        rw [overrides_mergedBlock, overrides_mergedBlock, (below.same "agents").truthy,
          (above.same "agents").truthy, below.overrides, above.overrides]
      unfold tidyAgents
      rw [same]
      split
      · exact (below.block above "agents").erase
      · exact below.block above "agents"
    case isFalse => exact below.block above name
  headers := by rw [headers_mergeConfig, headers_mergeConfig, below.headers, above.headers]
  overrides := by rw [overrides_mergeConfig, overrides_mergeConfig, below.overrides, above.overrides]
  persistence := by
    rw [get_mergeConfig_plain (by decide), get_mergeConfig_plain (by decide), below.persistence,
      above.persistence]

end

end PiCrew.Config
